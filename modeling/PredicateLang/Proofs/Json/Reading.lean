import Mathlib.Data.List.Forall2
import Mathlib.Tactic.SplitIfs
import PredicateLang.Json.Reading
import PredicateLang.Json.Written

set_option autoImplicit false

namespace PredicateLang

namespace TextPart

theorem charOf?_toNat (c : Char) : charOf? c.toNat = some c := by
  have valid : c.toNat.isValidChar := c.valid
  rw [charOf?, dif_pos valid]
  rfl

theorem chars?_cons {part : TextPart} {c : Char} (stands : part = .char c ∨ part = .unit c.toNat)
    (parts : List TextPart) : chars? (part :: parts) = (chars? parts).map (c :: ·) := by
  obtain rfl | rfl := stands
  · rfl
  · have known := charOf?_toNat c
    cases parts with
    | nil => simp [chars?, known]
    | cons next more =>
        cases next with
        | char other => cases chars : chars? more <;> simp [chars?, known, chars]
        | unit number => simp [chars?, known]

end TextPart

namespace JsonSpelling

def Gives {α : Type} {input : List Char} (outcome : Option (Read α input)) (result : α)
    (rest : List Char) : Prop :=
  ∃ piece, outcome = some piece ∧ piece.result = result ∧ piece.rest = rest

def Blank (text : List Char) : Prop := ∀ c ∈ text, isSpace c = true

theorem blank_nil : Blank [] := List.forall_mem_nil _

theorem skipSpace_append {blanks : List Char} (blank : Blank blanks) (text : List Char) :
    skipSpace (blanks ++ text) = skipSpace text :=
  List.dropWhile_append_of_pos blank

theorem skipSpace_cons {c : Char} (solid : isSpace c = false) (text : List Char) :
    skipSpace (c :: text) = c :: text :=
  List.dropWhile_cons_of_neg (by simp [solid])

def Ends (rest : List Char) : Prop := ∀ c, rest.head? = some c → inNumber c = false

theorem ends_cons {c : Char} (other : inNumber c = false) (text : List Char) : Ends (c :: text) := by
  rintro _ ⟨⟩
  exact other

theorem ends_append {blanks text : List Char} (blank : Blank blanks) (ends : Ends text) :
    Ends (blanks ++ text) := by
  cases blanks with
  | nil => exact ends
  | cons c blanks =>
      have space := blank c List.mem_cons_self
      simp only [isSpace, Bool.or_eq_true, decide_eq_true_eq] at space
      refine ends_cons ?_ _
      obtain ((rfl | rfl) | rfl) | rfl := space <;> rfl

theorem unitOf?_control {n : Nat} (control : n < 0x20) :
    unitOf? ['0', '0', Nat.digitChar (n / 16), Nat.digitChar (n % 16)] = some n := by
  have all : ∀ n < 0x20, unitOf? ['0', '0', Nat.digitChar (n / 16), Nat.digitChar (n % 16)] = some n := by
    decide
  exact all n control

theorem escape_cases (c : Char) :
    (∃ mark, Json.escape c = ['\\', mark] ∧ mark ≠ 'u' ∧ escaped? mark = some c) ∨
      (Json.escape c = ['\\', 'u', '0', '0', Nat.digitChar (c.toNat / 16), Nat.digitChar (c.toNat % 16)] ∧
        c.toNat < 0x20) ∨
      (Json.escape c = [c] ∧ c ≠ '"' ∧ c ≠ '\\' ∧ ¬ c.toNat < 0x20) := by
  unfold Json.escape
  split_ifs with mark back feed newline carriage tab control
  · exact .inl ⟨c, rfl, by obtain rfl | rfl := mark <;> decide⟩
  · exact .inl ⟨'b', rfl, by decide, by rw [back]; rfl⟩
  · exact .inl ⟨'f', rfl, by decide, by rw [feed]; rfl⟩
  · exact .inl ⟨'n', rfl, by decide, by rw [newline]; rfl⟩
  · exact .inl ⟨'r', rfl, by decide, by rw [carriage]; rfl⟩
  · exact .inl ⟨'t', rfl, by decide, by rw [tab]; rfl⟩
  · exact .inr (.inl ⟨rfl, control⟩)
  · exact .inr (.inr ⟨rfl, (not_or.mp mark).1, (not_or.mp mark).2, control⟩)

theorem readPart_mark {mark c : Char} (other : mark ≠ 'u') (stands : escaped? mark = some c)
    (rest : List Char) : Gives (readPart ('\\' :: mark :: rest)) (.char c) rest := by
  generalize spelled : '\\' :: mark :: rest = input
  unfold readPart
  split
  · cases spelled
    exact absurd rfl other
  · cases spelled
    rw [stands]
    exact ⟨_, rfl, rfl, rfl⟩
  · cases spelled
    rename_i short
    exact (short mark rest rfl rfl).elim
  · cases spelled

theorem readPart_plain {c : Char} (other : c ≠ '\\') (visible : ¬ c.toNat < 0x20) (rest : List Char) :
    Gives (readPart (c :: rest)) (.char c) rest := by
  generalize spelled : c :: rest = input
  unfold readPart
  split
  · cases spelled
    exact absurd rfl other
  · cases spelled
    exact absurd rfl other
  · cases spelled
    rw [if_neg (not_or.mpr ⟨other, visible⟩)]
    exact ⟨_, rfl, rfl, rfl⟩
  · cases spelled

theorem readPart_escape (c : Char) (rest : List Char) :
    ∃ part, Gives (readPart (Json.escape c ++ rest)) part rest ∧
      (part = .char c ∨ part = .unit c.toNat) := by
  obtain ⟨mark, same, other, stands⟩ | ⟨same, control⟩ | ⟨same, -, other, visible⟩ := escape_cases c
  · rw [same]
    exact ⟨.char c, readPart_mark other stands rest, .inl rfl⟩
  · rw [same]
    refine ⟨.unit c.toNat, ?_, .inr rfl⟩
    simp [Gives, readPart, unitOf?_control control]
  · rw [same]
    exact ⟨.char c, readPart_plain other visible rest, .inl rfl⟩

theorem escape_unquoted (c : Char) (rest : List Char) : (Json.escape c ++ rest).head? ≠ some '"' := by
  obtain ⟨mark, same, -⟩ | ⟨same, -⟩ | ⟨same, quote, -⟩ := escape_cases c <;> rw [same]
  · simp
  · simp
  · simpa using quote

theorem readText_quote (rest : List Char) : Gives (readText ('"' :: rest)) [] rest := by
  rw [readText]
  exact ⟨_, rfl, rfl, rfl⟩

theorem readText_part {input middle rest : List Char} {part : TextPart} {parts : List TextPart}
    (inside : input.head? ≠ some '"') (first : Gives (readPart input) part middle)
    (later : Gives (readText middle) parts rest) : Gives (readText input) (part :: parts) rest := by
  obtain ⟨piece, one, rfl, rfl⟩ := first
  obtain ⟨more, others, rfl, rfl⟩ := later
  rw [readText]
  · rw [one]
    simp only [others]
    exact ⟨_, rfl, rfl, rfl⟩
  · rintro rest rfl
    exact inside rfl

theorem readText_quoted (chars rest : List Char) :
    ∃ parts, Gives (readText (chars.flatMap Json.escape ++ '"' :: rest)) parts rest ∧
      TextPart.chars? parts = some chars := by
  induction chars with
  | nil => exact ⟨[], readText_quote rest, rfl⟩
  | cons c chars ih =>
      obtain ⟨parts, later, are⟩ := ih
      obtain ⟨part, first, stands⟩ := readPart_escape c (chars.flatMap Json.escape ++ '"' :: rest)
      refine ⟨part :: parts, ?_, ?_⟩
      · rw [List.flatMap_cons, List.append_assoc]
        exact readText_part (escape_unquoted c _) first later
      · rw [TextPart.chars?_cons stands, are]
        rfl

section

variable {input middle next rest : List Char} {c : Char}

theorem readValue_word {word : List Char} {content : JsonSpelling}
    (known : (word, content) ∈ [(['n', 'u', 'l', 'l'], .null), (['t', 'r', 'u', 'e'], .bool true),
      (['f', 'a', 'l', 's', 'e'], .bool false)])
    (front : skipSpace input = word ++ rest) : Gives (readValue input) content rest := by
  simp only [List.mem_cons, Prod.mk.injEq, List.not_mem_nil, or_false] at known
  obtain ⟨rfl, rfl⟩ | ⟨rfl, rfl⟩ | ⟨rfl, rfl⟩ := known
  all_goals
    rw [readValue]
    split <;> rename_i same <;> cases front.symm.trans same
    exact ⟨_, rfl, rfl, rfl⟩

theorem ne_of_isDigit {mark : Char} (digit : isDigit c = true) (other : isDigit mark = false) :
    c ≠ mark := by
  rintro rfl
  rw [digit] at other
  cases other

theorem readValue_digits {digits : List Char} {numeral : JsonNumeral}
    (front : skipSpace input = digits ++ rest) (all : ∀ c ∈ digits, isDigit c = true)
    (stands : JsonNumeral.ofText? digits = some numeral) (ends : Ends rest) :
    Gives (readValue input) (.number numeral) rest := by
  cases digits with
  | nil => cases stands
  | cons c digits =>
      obtain ⟨digit, others⟩ := List.forall_mem_cons.mp all
      have inside : ∀ c ∈ digits, inNumber c = true := fun c among => by simp [inNumber, others c among]
      have apart {mark : Char} : isDigit mark = false → c ≠ mark := ne_of_isDigit digit
      have stops : rest.takeWhile inNumber = [] ∧ rest.dropWhile inNumber = rest := by
        cases rest with
        | nil => exact ⟨rfl, rfl⟩
        | cons first rest => simp [ends first rfl]
      rw [List.cons_append] at front
      rw [readValue]
      split <;> rename_i same <;> cases front.symm.trans same
      rw [if_neg (apart rfl), if_neg (apart rfl), if_neg (apart rfl), if_neg (apart rfl),
        if_neg (apart rfl), if_neg (apart rfl), if_pos (.inr digit), readNumber,
        List.takeWhile_append_of_pos inside, stops.1, List.append_nil, stands]
      refine ⟨_, rfl, rfl, ?_⟩
      simp only [Read.within, List.dropWhile_append_of_pos inside, stops.2]

theorem readValue_text {parts : List TextPart} (front : skipSpace input = '"' :: middle)
    (inside : Gives (readText middle) parts rest) : Gives (readValue input) (.text parts) rest := by
  obtain ⟨piece, read, rfl, rfl⟩ := inside
  rw [readValue]
  split <;> rename_i same <;> cases front.symm.trans same
  rw [if_pos rfl, read]
  exact ⟨_, rfl, rfl, rfl⟩

theorem readField_gives {name : List TextPart} {content : JsonSpelling}
    (front : skipSpace input = '"' :: middle) (named : Gives (readText middle) name (':' :: next))
    (read : Gives (readValue next) content rest) : Gives (readField input) (name, content) rest := by
  obtain ⟨first, one, rfl, colon⟩ := named
  obtain ⟨piece, read, rfl, rfl⟩ := read
  rw [readField]
  split
  · rename_i same
    cases front.symm.trans same
    rw [one]
    dsimp only
    split
    · rename_i same
      rw [colon] at same
      cases same
      rw [read]
      exact ⟨_, rfl, rfl, rfl⟩
    · rename_i other
      rw [colon] at other
      exact absurd rfl (other next)
  · rename_i other
    exact absurd front (other middle)

end

def isClosing (c : Char) : Bool := c = ']' || c = '\x7d'

structure Series {α : Type} (one : (input : List Char) → Option (Read α input))
    (many : (input : List Char) → Option (Read (List α) input)) (whole : List α → JsonSpelling)
    (opening closing : Char) : Prop where
  opens : isSpace opening = false ∧ isClosing opening = false
  closes : isClosing closing = true
  last : ∀ {input middle rest : List Char} {a : α}, Gives (one input) a middle →
    skipSpace middle = closing :: rest → Gives (many input) [a] rest
  more : ∀ {input middle next rest : List Char} {a : α} {others : List α}, Gives (one input) a middle →
    skipSpace middle = ',' :: next → Gives (many next) others rest → Gives (many input) (a :: others) rest
  none : ∀ {input rest : List Char}, skipSpace input = opening :: closing :: rest →
    Gives (readValue input) (whole []) rest
  some : ∀ {input middle rest : List Char} {parts : List α}, skipSpace input = opening :: middle →
    (skipSpace middle).head? ≠ some closing → Gives (many middle) parts rest →
    Gives (readValue input) (whole parts) rest

theorem series_items : Series readValue readItems .list '[' ']' where
  opens := ⟨rfl, rfl⟩
  closes := rfl
  last := by
    rintro input middle rest a ⟨piece, first, rfl, rfl⟩ closing
    rw [readItems, first]
    dsimp only
    split <;> rename_i same <;> cases closing.symm.trans same
    exact ⟨_, rfl, rfl, rfl⟩
  more := by
    rintro input middle next rest a others ⟨piece, first, rfl, rfl⟩ comma ⟨more, later, rfl, rfl⟩
    rw [readItems, first]
    dsimp only
    split <;> rename_i same <;> cases comma.symm.trans same
    rw [if_neg (by decide), if_pos rfl, later]
    exact ⟨_, rfl, rfl, rfl⟩
  none := by
    intro input rest front
    rw [readValue]
    split <;> rename_i same <;> cases front.symm.trans same
    exact ⟨_, rfl, rfl, rfl⟩
  some := by
    rintro input middle rest parts front inside ⟨piece, read, rfl, rfl⟩
    rw [readValue]
    split <;> rename_i same <;> cases front.symm.trans same
    rw [if_neg (by decide), if_pos rfl]
    split
    · rename_i closing
      exact absurd (congrArg List.head? closing) inside
    · rw [read]
      exact ⟨_, rfl, rfl, rfl⟩

theorem series_fields : Series readField readFields .record '\x7b' '\x7d' where
  opens := ⟨rfl, rfl⟩
  closes := rfl
  last := by
    rintro input middle rest a ⟨piece, first, rfl, rfl⟩ closing
    rw [readFields, first]
    dsimp only
    split <;> rename_i same <;> cases closing.symm.trans same
    exact ⟨_, rfl, rfl, rfl⟩
  more := by
    rintro input middle next rest a others ⟨piece, first, rfl, rfl⟩ comma ⟨more, later, rfl, rfl⟩
    rw [readFields, first]
    dsimp only
    split <;> rename_i same <;> cases comma.symm.trans same
    rw [if_neg (by decide), if_pos rfl, later]
    exact ⟨_, rfl, rfl, rfl⟩
  none := by
    intro input rest front
    rw [readValue]
    split <;> rename_i same <;> cases front.symm.trans same
    exact ⟨_, rfl, rfl, rfl⟩
  some := by
    rintro input middle rest parts front inside ⟨piece, read, rfl, rfl⟩
    rw [readValue]
    split <;> rename_i same <;> cases front.symm.trans same
    rw [if_neg (by decide), if_neg (by decide), if_pos rfl]
    split
    · rename_i closing
      exact absurd (congrArg List.head? closing) inside
    · rw [read]
      exact ⟨_, rfl, rfl, rfl⟩

/-- A text from which something with a meaning is read, whatever blanks stand in front of it and whatever
stands behind it, so long as it prolongs no number. -/
structure Reads {α β : Type} (one : (input : List Char) → Option (Read α input)) (means : α → β → Prop)
    (text : List Char) (meant : β) : Prop where
  begins : ∃ c more, text = c :: more ∧ isSpace c = false ∧ isClosing c = false
  reads : ∀ {input rest : List Char}, skipSpace input = text ++ rest → Ends rest →
    ∃ a, Gives (one input) a rest ∧ means a meant

def enclosed (opening closing : Char) (before after : List Char) (texts : List (List Char)) : List Char :=
  if texts.isEmpty then [opening, closing]
  else opening :: (before ++ ((',' :: before).intercalate texts ++ (after ++ [closing])))

section

variable {α β : Type} {one : (input : List Char) → Option (Read α input)}
  {many : (input : List Char) → Option (Read (List α) input)} {whole : List α → JsonSpelling}
  {means : α → β → Prop} {opening closing : Char} {texts : List (List Char)} {all : List β}
  {before after : List Char}

theorem Reads.behind {text : List Char} {meant : β} (reads : Reads one means text meant)
    {blanks rest : List Char} (blank : Blank blanks) (ends : Ends rest) :
    ∃ a, Gives (one (blanks ++ (text ++ rest))) a rest ∧ means a meant := by
  obtain ⟨c, more, rfl, solid, -⟩ := reads.begins
  refine reads.reads ?_ ends
  rw [skipSpace_append blank]
  exact skipSpace_cons solid _

theorem of_isClosing (closes : isClosing closing = true) :
    isSpace closing = false ∧ inNumber closing = false := by
  simp only [isClosing, Bool.or_eq_true, decide_eq_true_eq] at closes
  obtain rfl | rfl := closes <;> decide

theorem Series.reads_parts (series : Series one many whole opening closing)
    (each : List.Forall₂ (Reads one means) texts all) (some : texts ≠ []) (blank : Blank before)
    (blank' : Blank after) (rest : List Char) :
    ∃ parts, Gives (many (before ++ ((',' :: before).intercalate texts ++ (after ++ closing :: rest))))
      parts rest ∧ List.Forall₂ means parts all := by
  induction each with
  | nil => exact absurd rfl some
  | @cons text meant texts others first each ih =>
      cases each with
      | nil =>
          obtain ⟨solid, stops⟩ := of_isClosing series.closes
          obtain ⟨a, given, stands⟩ := first.behind blank (ends_append blank' (ends_cons stops rest))
          refine ⟨[a], ?_, .cons stands .nil⟩
          rw [List.intercalate_singleton]
          refine series.last given ?_
          rw [skipSpace_append blank']
          exact skipSpace_cons solid rest
      | @cons second _ texts _ next each =>
          obtain ⟨parts, later, are⟩ := ih (List.cons_ne_nil _ _)
          obtain ⟨a, given, stands⟩ := first.behind blank (ends_cons (c := ',') rfl _)
          refine ⟨a :: parts, ?_, .cons stands are⟩
          have comma := skipSpace_cons (c := ',') rfl
          rw [List.intercalate_cons_cons, List.append_assoc, List.append_assoc, List.cons_append]
          exact series.more given (comma _) later

theorem head_parts (each : List.Forall₂ (Reads one means) texts all) (some : texts ≠ [])
    (blank : Blank before) (closes : isClosing closing = true) (rest : List Char) :
    (skipSpace (before ++ ((',' :: before).intercalate texts ++ rest))).head? ≠ .some closing := by
  cases each with
  | nil => exact absurd rfl some
  | @cons text _ texts _ first _ =>
      obtain ⟨c, more, rfl, solid, other⟩ := first.begins
      obtain ⟨behind, same⟩ : ∃ behind, (',' :: before).intercalate ((c :: more) :: texts) = c :: behind := by
        cases texts <;> simp
      rw [skipSpace_append blank, same, List.cons_append, skipSpace_cons solid, List.head?_cons]
      rintro ⟨⟩
      rw [closes] at other
      cases other

theorem Series.reads (series : Series one many whole opening closing)
    (each : List.Forall₂ (Reads one means) texts all) (blank : Blank before) (blank' : Blank after)
    {means' : JsonSpelling → Json → Prop} {json : Json}
    (stands : ∀ parts, List.Forall₂ means parts all → means' (whole parts) json) :
    Reads readValue means' (enclosed opening closing before after texts) json where
  begins := by
    unfold enclosed
    split <;> exact ⟨_, _, rfl, series.opens⟩
  reads {input rest} front _ := by
    unfold enclosed at front
    split at front
    · rename_i none
      obtain rfl := List.isEmpty_iff.mp none
      cases each
      exact ⟨whole [], series.none front, stands [] .nil⟩
    · rename_i nonempty
      have some : texts ≠ [] := fun none => nonempty (List.isEmpty_iff.mpr none)
      obtain ⟨parts, given, are⟩ := series.reads_parts each some blank blank' rest
      have inside := head_parts each some blank series.closes (after ++ closing :: rest)
      simp only [List.cons_append, List.append_assoc, List.nil_append] at front
      exact ⟨whole parts, series.some front inside given, stands parts are⟩

end

end JsonSpelling

end PredicateLang
