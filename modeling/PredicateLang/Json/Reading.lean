import PredicateLang.Json.Spelling

set_option autoImplicit false

namespace PredicateLang.JsonSpelling

structure Read (α : Type) (input : List Char) where
  result : α
  rest : List Char
  shorter : rest.length < input.length

def isSpace (c : Char) : Bool := c = ' ' || c = '\n' || c = '\t' || c = '\r'

def skipSpace (input : List Char) : List Char := input.dropWhile isSpace

theorem length_dropWhile_le (p : Char → Bool) (input : List Char) :
    (input.dropWhile p).length ≤ input.length :=
  (List.dropWhile_sublist p).length_le

theorem length_lt_of_skipSpace {input rest : List Char} {c : Char}
    (front : skipSpace input = c :: rest) : rest.length < input.length := by
  have fits := length_dropWhile_le isSpace input
  rw [show input.dropWhile isSpace = c :: rest from front] at fits
  exact fits

-- No character of a number can follow a complete number, so a number reaches as far as these go.
def inNumber (c : Char) : Bool := isDigit c || c = '-' || c = '+' || c = '.' || c = 'e' || c = 'E'

def readNumber (c : Char) (rest : List Char) : Option (Read JsonSpelling (c :: rest)) :=
  (JsonNumeral.ofText? (c :: rest.takeWhile inNumber)).map fun numeral =>
    ⟨.number numeral, rest.dropWhile inNumber,
      Nat.lt_succ_of_le (length_dropWhile_le inNumber rest)⟩

def hexValue? (c : Char) : Option Nat :=
  if isDigit c then some (c.toNat - '0'.toNat)
  else if 'a' ≤ c ∧ c ≤ 'f' then some (c.toNat - 'a'.toNat + 10)
  else if 'A' ≤ c ∧ c ≤ 'F' then some (c.toNat - 'A'.toNat + 10)
  else none

def unitOf? (digits : List Char) : Option Nat :=
  digits.foldlM (fun n c => (hexValue? c).map (16 * n + ·)) 0

def escaped? (c : Char) : Option Char :=
  if c = '"' ∨ c = '\\' ∨ c = '/' then some c
  else if c = 'b' then some '\x08'
  else if c = 'f' then some '\x0c'
  else if c = 'n' then some '\n'
  else if c = 'r' then some '\r'
  else if c = 't' then some '\t'
  else none

theorem length_lt_append (front rest : List Char) (some : 0 < front.length) :
    rest.length < (front ++ rest).length := by
  rw [List.length_append]
  exact Nat.lt_add_of_pos_left some

def readPart (input : List Char) : Option (Read TextPart input) :=
  match input with
  | '\\' :: 'u' :: a :: b :: c :: d :: rest =>
      (unitOf? [a, b, c, d]).map fun number =>
        ⟨.unit number, rest, length_lt_append ['\\', 'u', a, b, c, d] rest (Nat.succ_pos 5)⟩
  | '\\' :: c :: rest =>
      (escaped? c).map fun char =>
        ⟨.char char, rest, length_lt_append ['\\', c] rest (Nat.succ_pos 1)⟩
  | c :: rest =>
      if c = '\\' ∨ c.toNat < 0x20 then none
      else some ⟨.char c, rest, length_lt_append [c] rest (Nat.succ_pos 0)⟩
  | [] => none

def readText (input : List Char) : Option (Read (List TextPart) input) :=
  match input with
  | '"' :: rest => some ⟨[], rest, by simp⟩
  | input =>
      match readPart input with
      | none => none
      | some first =>
          match readText first.rest with
          | none => none
          | some more =>
              some ⟨first.result :: more.result, more.rest, Nat.lt_trans more.shorter first.shorter⟩
termination_by input.length
decreasing_by exact first.shorter

def readWord (word : List Char) (content : JsonSpelling) (input : List Char) :
    Option (Read JsonSpelling input) :=
  if enough : word.length ≤ input.length ∧ 0 < word.length then
    if input.take word.length = word then
      some ⟨content, input.drop word.length, by simp only [List.length_drop]; omega⟩
    else none
  else none

def Read.within {α : Type} {inner : List Char} (piece : Read α inner) {outer : List Char}
    (fits : inner.length ≤ outer.length) : Read α outer :=
  ⟨piece.result, piece.rest, Nat.lt_of_lt_of_le piece.shorter fits⟩

mutual

def readValue (input : List Char) : Option (Read JsonSpelling input) :=
  match front : skipSpace input with
  | [] => none
  | c :: rest =>
      have fits : (c :: rest).length ≤ input.length := length_lt_of_skipSpace front
      if c = '"' then
        (readText rest).map fun piece =>
          ⟨.text piece.result, piece.rest, Nat.lt_trans piece.shorter fits⟩
      else if c = '[' then
        match inside : skipSpace rest with
        | ']' :: after =>
            some ⟨.list [], after, Nat.lt_trans (length_lt_of_skipSpace inside) fits⟩
        | _ => (readItems rest).map fun items =>
            ⟨.list items.result, items.rest, Nat.lt_trans items.shorter fits⟩
      else if c = '\x7b' then
        match inside : skipSpace rest with
        | '\x7d' :: after =>
            some ⟨.record [], after, Nat.lt_trans (length_lt_of_skipSpace inside) fits⟩
        | _ => (readFields rest).map fun fields =>
            ⟨.record fields.result, fields.rest, Nat.lt_trans fields.shorter fits⟩
      else if c = 'n' then (readWord ['n', 'u', 'l', 'l'] .null (c :: rest)).map (·.within fits)
      else if c = 't' then
        (readWord ['t', 'r', 'u', 'e'] (.bool true) (c :: rest)).map (·.within fits)
      else if c = 'f' then
        (readWord ['f', 'a', 'l', 's', 'e'] (.bool false) (c :: rest)).map (·.within fits)
      else if c = '-' ∨ isDigit c then (readNumber c rest).map (·.within fits)
      else none
termination_by (input.length, 0)
decreasing_by all_goals (simp at fits; omega)

def readItems (input : List Char) : Option (Read (List JsonSpelling) input) :=
  -- Values between commas up to the closing bracket; there is at least one.
  match readValue input with
  | none => none
  | some first =>
      match after : skipSpace first.rest with
      | c :: rest =>
          have shorter : rest.length < input.length :=
            Nat.lt_trans (length_lt_of_skipSpace after) first.shorter
          if c = ']' then some ⟨[first.result], rest, shorter⟩
          else if c = ',' then
            (readItems rest).map fun more =>
              ⟨first.result :: more.result, more.rest, Nat.lt_trans more.shorter shorter⟩
          else none
      | [] => none
termination_by (input.length, 1)

def readFields (input : List Char) :
    Option (Read (List (List TextPart × JsonSpelling)) input) :=
  -- Fields between commas up to the closing brace; there is at least one.
  match readField input with
  | none => none
  | some first =>
      match after : skipSpace first.rest with
      | c :: rest =>
          have shorter : rest.length < input.length :=
            Nat.lt_trans (length_lt_of_skipSpace after) first.shorter
          if c = '\x7d' then some ⟨[first.result], rest, shorter⟩
          else if c = ',' then
            (readFields rest).map fun more =>
              ⟨first.result :: more.result, more.rest, Nat.lt_trans more.shorter shorter⟩
          else none
      | [] => none
termination_by (input.length, 1)

def readField (input : List Char) : Option (Read (List TextPart × JsonSpelling) input) :=
  match front : skipSpace input with
  | '"' :: start =>
      match readText start with
      | none => none
      | some name =>
          match colon : skipSpace name.rest with
          | ':' :: rest =>
              have shorter : rest.length < input.length :=
                Nat.lt_trans (length_lt_of_skipSpace colon)
                  (Nat.lt_trans name.shorter (length_lt_of_skipSpace front))
              (readValue rest).map fun content =>
                ⟨(name.result, content.result), content.rest,
                  Nat.lt_trans content.shorter shorter⟩
          | _ => none
  | _ => none
termination_by (input.length, 0)

end

/-- A whole text that spells one document, with blanks around it at most. -/
def read? (s : String) : Option JsonSpelling :=
  match readValue s.toList with
  | some document => if (skipSpace document.rest).isEmpty then some document.result else none
  | none => none

end PredicateLang.JsonSpelling

namespace PredicateLang.Json

-- Documents from outside may nest this deep.
def nesting : Nat := 127

def read? (room : Nat) (s : String) : Option Json := do (← JsonSpelling.read? s).meaning? room

end PredicateLang.Json
