import PredicateLang.Json.Number

set_option autoImplicit false

/-!
# Spelling of JSON documents

A well-formed text spells a document, but not every spelling has a meaning: a number may be beyond the
doubles, an escape may name half a character, and the nesting may be deeper than is allowed. Parts that
nobody asks for need no meaning, so a document is spelled first and understood later.
-/

namespace PredicateLang

inductive TextPart
  | char (c : Char)
  | unit (number : Nat)

inductive JsonSpelling
  | null
  | bool (b : Bool)
  | number (numeral : JsonNumeral)
  | text (parts : List TextPart)
  | list (items : List JsonSpelling)
  | record (fields : List (List TextPart × JsonSpelling))

namespace TextPart

def charOf? (n : Nat) : Option Char :=
  if valid : n.isValidChar then some (Char.ofNatAux n valid) else none

def paired? (first second : Nat) : Option Char :=
  -- The character of two units, the first from `D800` on and the second from `DC00` on.
  if 0xD800 ≤ first ∧ first < 0xDC00 ∧ 0xDC00 ≤ second ∧ second < 0xE000 then
    charOf? (0x10000 + (first - 0xD800) * 0x400 + (second - 0xDC00))
  else none

/-- The characters that parts of a text stand for. A unit that is no character needs another one right
behind it. -/
def chars? : List TextPart → Option (List Char)
  | [] => some []
  | .char c :: rest => (chars? rest).map (c :: ·)
  | .unit first :: .unit second :: rest =>
      match charOf? first with
      | some c => (chars? (.unit second :: rest)).map (c :: ·)
      | none => do return (← paired? first second) :: (← chars? rest)
  | .unit number :: rest => do return (← charOf? number) :: (← chars? rest)

def text? (parts : List TextPart) : Option String := (chars? parts).map String.ofList

end TextPart

namespace JsonSpelling

mutual

/-- The document that is spelled, which may nest at most `room` lists and records in one another. -/
def meaning? (room : Nat) : JsonSpelling → Option Json
  | .null => some .null
  | .bool b => some (.bool b)
  | .number numeral => numeral.value?.map .number
  | .text parts => (TextPart.text? parts).map .text
  | .list items =>
      match room with
      | 0 => none
      | room + 1 => (itemMeanings? room items).map .list
  | .record fields =>
      match room with
      | 0 => none
      | room + 1 => (fieldMeanings? room fields).map .record

def itemMeanings? (room : Nat) : List JsonSpelling → Option (List Json)
  | [] => some []
  | item :: rest => do return (← item.meaning? room) :: (← itemMeanings? room rest)

def fieldMeanings? (room : Nat) :
    List (List TextPart × JsonSpelling) → Option (List (String × Json))
  | [] => some []
  | (name, content) :: rest => do
      return (← TextPart.text? name, ← content.meaning? room) :: (← fieldMeanings? room rest)

end

end JsonSpelling

end PredicateLang
