import Mathlib.Data.List.TakeWhile
import PredicateLang.Proofs.Json.Reading

set_option autoImplicit false

namespace PredicateLang

namespace JsonSpelling

section

variable {room : Nat} {text : List Char} {json : Json}

def Means (room : Nat) (spelled : JsonSpelling) (json : Json) : Prop := spelled.meaning? room = some json

def FieldMeans (room : Nat) (spelled : List TextPart × JsonSpelling) (field : String × Json) : Prop :=
  TextPart.text? spelled.1 = some field.1 ∧ spelled.2.meaning? room = some field.2

theorem itemMeanings?_of {spelled : List JsonSpelling} {items : List Json}
    (each : List.Forall₂ (Means room) spelled items) : itemMeanings? room spelled = some items := by
  induction each with
  | nil => rfl
  | cons first each ih =>
      rw [Means] at first
      rw [itemMeanings?, first, ih]
      rfl

theorem fieldMeanings?_of {spelled : List (List TextPart × JsonSpelling)}
    {fields : List (String × Json)} (each : List.Forall₂ (FieldMeans room) spelled fields) :
    fieldMeanings? room spelled = some fields := by
  induction each with
  | nil => rfl
  | @cons one field _ _ first each ih =>
      rw [fieldMeanings?, first.1, first.2, ih]
      rfl

theorem reads_word {word : List Char} (content : JsonSpelling)
    (known : (word, content) ∈ [(['n', 'u', 'l', 'l'], .null), (['t', 'r', 'u', 'e'], .bool true),
      (['f', 'a', 'l', 's', 'e'], .bool false)])
    (means : Means room content json) : Reads readValue (Means room) word json where
  begins := by
    simp only [List.mem_cons, Prod.mk.injEq, List.not_mem_nil, or_false] at known
    obtain ⟨rfl, -⟩ | ⟨rfl, -⟩ | ⟨rfl, -⟩ := known <;> exact ⟨_, _, rfl, rfl, rfl⟩
  reads front _ := ⟨content, readValue_word known front, means⟩

theorem head_toDigits {n : Nat} (positive : 0 < n) : (Nat.toDigits 10 n).head? ≠ some '0' := by
  induction n using Nat.strongRecOn with
  | _ n ih =>
      by_cases small : n < 10
      · rw [Nat.toDigits_of_lt_base small]
        simpa using Nat.ne_of_gt positive
      · rw [Nat.toDigits_of_base_le (by decide) (by omega), List.head?_append_of_ne_nil _ Nat.toDigits_ne_nil]
        exact ih (n / 10) (by omega) (by omega)

theorem isDigit_toDigits (n : Nat) : ∀ c ∈ Nat.toDigits 10 n, isDigit c = true :=
  fun _ among => Nat.isDigit_of_mem_toDigits (by decide) (by decide) among

theorem ofText?_toDigits (n : Nat) :
    JsonNumeral.ofText? (Nat.toDigits 10 n) = some (.whole false (Nat.toDigits 10 n)) := by
  have all := isDigit_toDigits n
  have alone (zero : (Nat.toDigits 10 n).head? = some '0') : (Nat.toDigits 10 n).length ≤ 1 := by
    obtain rfl | positive := Nat.eq_zero_or_pos n
    · simp
    · exact absurd zero (head_toDigits positive)
  have unsigned : JsonNumeral.unsigned? false (Nat.toDigits 10 n) =
      some (.whole false (Nat.toDigits 10 n)) := by
    simpa [JsonNumeral.unsigned?, List.takeWhile_eq_self_iff.mpr all,
      List.dropWhile_eq_nil_iff.mpr all] using alone
  unfold JsonNumeral.ofText?
  split
  · rename_i text signed
    have digit := all '-' (by simp [signed])
    cases digit
  · exact unsigned

theorem reads_count {n : Nat} (fits : n < UInt64.size) :
    Reads readValue (Means room) (Nat.toDigits 10 n) (.ofNat n) where
  begins := by
    obtain ⟨c, more, same⟩ := List.exists_cons_of_ne_nil (Nat.toDigits_ne_nil (n := n) (b := 10))
    have digit := isDigit_toDigits n c (by simp [same])
    have apart (mark : Char) : isDigit mark = false → c ≠ mark := ne_of_isDigit digit
    have solid : isSpace c = false := by
      simp [isSpace, apart ' ' rfl, apart '\n' rfl, apart '\t' rfl, apart '\r' rfl]
    exact ⟨c, more, same, solid, by simp [isClosing, apart ']' rfl, apart '\x7d' rfl]⟩
  reads front ends := by
    refine ⟨_, readValue_digits front (isDigit_toDigits n) (ofText?_toDigits n) ends, ?_⟩
    have decoded : natOfDigits (Nat.toDigits 10 n) = n := Nat.ofDigitChars_ten_toDigits
    simp [Means, meaning?, JsonNumeral.value?, decoded, fits, Json.ofNat]

theorem reads_text (s : String) :
    Reads readValue (Means room) ('"' :: (s.toList.flatMap Json.escape ++ ['"'])) (.text s) where
  begins := ⟨_, _, rfl, rfl, rfl⟩
  reads {input rest} front ends := by
    obtain ⟨parts, inside, are⟩ := readText_quoted s.toList rest
    rw [List.cons_append, List.append_assoc] at front
    refine ⟨.text parts, readValue_text front inside, ?_⟩
    simp [Means, meaning?, TextPart.text?, are]

theorem reads_field {name : String} (reads : Reads readValue (Means room) text json) {gap : List Char}
    (blank : Blank gap) :
    Reads readField (FieldMeans room) ((Json.quote name).toList ++ ':' :: (gap ++ text)) (name, json) where
  begins := by
    rw [Json.quote, String.toList_ofList]
    exact ⟨_, _, rfl, rfl, rfl⟩
  reads {input rest} front ends := by
    simp only [Json.quote, String.toList_ofList, List.cons_append, List.append_assoc,
      List.nil_append] at front
    obtain ⟨parts, named, are⟩ := readText_quoted name.toList (':' :: (gap ++ (text ++ rest)))
    obtain ⟨content, given, stands⟩ := reads.behind blank ends
    refine ⟨(parts, content), readField_gives front named given, ?_, stands⟩
    simp [TextPart.text?, are]

theorem reads_list {texts : List (List Char)} {items : List Json} {before after : List Char}
    (each : List.Forall₂ (Reads readValue (Means room)) texts items) (blank : Blank before)
    (blank' : Blank after) :
    Reads readValue (Means (room + 1)) (enclosed '[' ']' before after texts) (.list items) :=
  series_items.reads each blank blank' fun parts are => by simp [Means, meaning?, itemMeanings?_of are]

theorem reads_record {texts : List (List Char)} {fields : List (String × Json)}
    {before after : List Char} (each : List.Forall₂ (Reads readField (FieldMeans room)) texts fields)
    (blank : Blank before) (blank' : Blank after) :
    Reads readValue (Means (room + 1)) (enclosed '\x7b' '\x7d' before after texts) (.record fields) :=
  series_fields.reads each blank blank' fun parts are => by simp [Means, meaning?, fieldMeanings?_of are]

end

end JsonSpelling

namespace Json

inductive Plain : Json → Prop
  | null : Plain .null
  | bool (b : Bool) : Plain (.bool b)
  | count {n : Nat} (fits : n < UInt64.size) : Plain (.ofNat n)
  | text (s : String) : Plain (.text s)
  | list {items : List Json} (each : ∀ item ∈ items, Plain item) : Plain (.list items)
  | record {fields : List (String × Json)} (each : ∀ field ∈ fields, Plain field.2) : Plain (.record fields)

mutual

def depth : Json → Nat
  | .null => 0
  | .bool _ => 0
  | .number _ => 0
  | .text _ => 0
  | .list items => depthOfItems items + 1
  | .record fields => depthOfFields fields + 1

def depthOfItems : List Json → Nat
  | [] => 0
  | item :: rest => max item.depth (depthOfItems rest)

def depthOfFields : List (String × Json) → Nat
  | [] => 0
  | (_, content) :: rest => max content.depth (depthOfFields rest)

end

theorem depth_le_of_item {items : List Json} {item : Json} (among : item ∈ items) :
    item.depth ≤ depthOfItems items := by
  induction items with
  | nil => cases among
  | cons first rest ih =>
      rw [depthOfItems]
      obtain rfl | later := List.mem_cons.mp among
      · exact Nat.le_max_left _ _
      · exact Nat.le_trans (ih later) (Nat.le_max_right _ _)

theorem depth_le_of_field {fields : List (String × Json)} {field : String × Json}
    (among : field ∈ fields) : field.2.depth ≤ depthOfFields fields := by
  induction fields with
  | nil => cases among
  | cons first rest ih =>
      obtain ⟨name, content⟩ := first
      rw [depthOfFields]
      obtain rfl | later := List.mem_cons.mp among
      · exact Nat.le_max_left _ _
      · exact Nat.le_trans (ih later) (Nat.le_max_right _ _)

theorem compactItems_eq (items : List Json) : compactItems items = items.map compact := by
  induction items with
  | nil => rfl
  | cons item rest ih => rw [compactItems, ih, List.map_cons]

theorem compactFields_eq (fields : List (String × Json)) :
    compactFields fields = fields.map fun field => quote field.1 ++ ":" ++ field.2.compact := by
  induction fields with
  | nil => rfl
  | cons field rest ih => rw [compactFields, ih, List.map_cons]

theorem prettyItems_eq (depth : Nat) (items : List Json) :
    prettyItems depth items = items.map (pretty (depth + 1)) := by
  induction items with
  | nil => rfl
  | cons item rest ih => rw [prettyItems, ih, List.map_cons]

theorem prettyFields_eq (depth : Nat) (fields : List (String × Json)) :
    prettyFields depth fields =
      fields.map fun field => quote field.1 ++ ": " ++ field.2.pretty (depth + 1) := by
  induction fields with
  | nil => rfl
  | cons field rest ih => rw [prettyFields, ih, List.map_cons]

section

variable {opening closing : String} {left right : Char}

theorem toList_enclose (begins : opening.toList = [left]) (ends : closing.toList = [right])
    (parts : List String) : (enclose opening closing parts).toList =
      JsonSpelling.enclosed left right [] [] (parts.map String.toList) := by
  cases parts <;> simp [enclose, JsonSpelling.enclosed, begins, ends]

theorem toList_encloseLines (depth : Nat) (begins : opening.toList = [left])
    (ends : closing.toList = [right]) (parts : List String) :
    (encloseLines depth opening closing parts).toList =
      JsonSpelling.enclosed left right (newline (depth + 1)).toList (newline depth).toList
        (parts.map String.toList) := by
  cases parts <;> simp [encloseLines, JsonSpelling.enclosed, begins, ends]

end

theorem blank_newline (depth : Nat) : JsonSpelling.Blank (newline depth).toList := by
  intro c among
  simp only [newline, String.toList_ofList, List.mem_cons, List.mem_replicate] at among
  obtain rfl | ⟨-, rfl⟩ := among <;> rfl

open JsonSpelling

theorem reads_written {α β : Type} {one : (input : List Char) → Option (Read α input)}
    {means : α → β → Prop} {write : β → String} {all : List β}
    (each : ∀ b ∈ all, Reads one means (write b).toList b) :
    List.Forall₂ (Reads one means) ((all.map write).map String.toList) all := by
  rw [List.map_map, List.forall₂_map_left_iff, List.forall₂_same]
  exact each

theorem reads_named {room : Nat} {name text : String} {json : Json}
    (reads : Reads readValue (Means room) text.toList json) {gap : List Char} (blank : Blank gap) :
    Reads readField (FieldMeans room) (quote name ++ String.ofList (':' :: gap) ++ text).toList
      (name, json) := by
  have field : Reads readField (FieldMeans room) _ (name, json) := reads_field reads blank
  simpa using field

def Legible (room : Nat) (json : Json) : Prop :=
  Reads readValue (Means room) json.compact.toList json ∧
    ∀ depth, Reads readValue (Means room) (json.pretty depth).toList json

theorem legible_list {room : Nat} {items : List Json} (each : ∀ item ∈ items, Legible room item) :
    Legible (room + 1) (.list items) := by
  constructor
  · rw [compact, compactItems_eq, toList_enclose rfl rfl]
    exact reads_list (reads_written fun item among => (each item among).1) blank_nil blank_nil
  · intro depth
    rw [pretty, prettyItems_eq, toList_encloseLines depth rfl rfl]
    exact reads_list (reads_written fun item among => (each item among).2 (depth + 1))
      (blank_newline _) (blank_newline _)

theorem legible_record {room : Nat} {fields : List (String × Json)}
    (each : ∀ field ∈ fields, Legible room field.2) : Legible (room + 1) (.record fields) := by
  constructor
  · rw [compact, compactFields_eq, toList_enclose rfl rfl]
    refine reads_record (reads_written fun field among => ?_) blank_nil blank_nil
    exact reads_named (each field among).1 blank_nil
  · intro depth
    rw [pretty, prettyFields_eq, toList_encloseLines depth rfl rfl]
    refine reads_record (reads_written fun field among => ?_) (blank_newline _) (blank_newline _)
    exact reads_named ((each field among).2 (depth + 1)) (by simp [Blank, isSpace])

theorem Plain.legible {json : Json} (plain : json.Plain) {room : Nat} (enough : json.depth ≤ room) :
    Legible room json := by
  induction plain generalizing room with
  | null =>
      have reads : Reads readValue (Means room) "null".toList .null := reads_word .null (by simp) rfl
      exact ⟨reads, fun _ => reads⟩
  | bool b =>
      have reads : Reads readValue (Means room) (if b then "true" else "false").toList (.bool b) := by
        cases b
        · exact reads_word (.bool false) (by simp) rfl
        · exact reads_word (.bool true) (by simp) rfl
      exact ⟨reads, fun _ => reads⟩
  | @count n fits =>
      have spelled : (JsonNumber.text (.whole n)).toList = Nat.toDigits 10 n := Nat.toList_repr
      have reads : Reads readValue (Means room) (JsonNumber.text (.whole n)).toList (.ofNat n) :=
        spelled ▸ reads_count fits
      exact ⟨reads, fun _ => reads⟩
  | text s =>
      have spelled : (quote s).toList = '"' :: (s.toList.flatMap escape ++ ['"']) := String.toList_ofList
      have reads : Reads readValue (Means room) (quote s).toList (.text s) := spelled ▸ reads_text s
      exact ⟨reads, fun _ => reads⟩
  | list _ ih =>
      rw [depth] at enough
      obtain ⟨room, rfl⟩ := Nat.exists_eq_add_of_le' (Nat.le_of_add_left_le enough)
      exact legible_list fun item among =>
        ih item among (Nat.le_trans (depth_le_of_item among) (Nat.le_of_succ_le_succ enough))
  | record _ ih =>
      rw [depth] at enough
      obtain ⟨room, rfl⟩ := Nat.exists_eq_add_of_le' (Nat.le_of_add_left_le enough)
      exact legible_record fun field among =>
        ih field among (Nat.le_trans (depth_le_of_field among) (Nat.le_of_succ_le_succ enough))

theorem read?_of_reads {room : Nat} {s : String} {json : Json}
    (reads : Reads readValue (Means room) s.toList json) : read? room s = some json := by
  obtain ⟨c, more, begins, solid, -⟩ := reads.begins
  have front : skipSpace s.toList = s.toList ++ [] := by
    rw [List.append_nil, begins, skipSpace_cons solid]
  obtain ⟨spelled, ⟨piece, given, rfl, none⟩, stands⟩ := reads.reads front nofun
  rw [Means] at stands
  simp [read?, JsonSpelling.read?, given, none, skipSpace, stands]

theorem Plain.read?_compact {json : Json} (plain : json.Plain) {room : Nat}
    (enough : json.depth ≤ room) : read? room json.compact = some json :=
  read?_of_reads (plain.legible enough).1

theorem Plain.read?_pretty {json : Json} (plain : json.Plain) {room : Nat}
    (enough : json.depth ≤ room) : read? room (json.pretty 0) = some json :=
  read?_of_reads ((plain.legible enough).2 0)

theorem Plain.eq_of_texts {one two : Json} (plain : one.Plain) (plain' : two.Plain)
    (same : one.compact = two.compact ∨ one.pretty 0 = two.pretty 0) : one = two := by
  have enough := Nat.le_max_left one.depth two.depth
  have enough' := Nat.le_max_right one.depth two.depth
  apply Option.some.inj
  obtain same | same := same
  · rw [← plain.read?_compact enough, same, plain'.read?_compact enough']
  · rw [← plain.read?_pretty enough, same, plain'.read?_pretty enough']

end Json

end PredicateLang
