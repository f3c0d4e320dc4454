import Mathlib.Data.List.Perm.Basic
import PredicateLang.Json.Parts
import PredicateLang.Proofs.Fields

set_option autoImplicit false

namespace PredicateLang.Json

mutual

/-- The same document, with the fields of every record in an order of their own. -/
inductive Alike : Json → Json → Prop
  | null : Alike .null .null
  | bool (b : Bool) : Alike (.bool b) (.bool b)
  | number (n : JsonNumber) : Alike (.number n) (.number n)
  | text (s : String) : Alike (.text s) (.text s)
  | list {items others : List Json} (each : AlikeItems items others) : Alike (.list items) (.list others)
  | record {fields listed others : List (String × Json)} (order : fields.Perm listed)
      (each : AlikeFields listed others) : Alike (.record fields) (.record others)

inductive AlikeItems : List Json → List Json → Prop
  | nil : AlikeItems [] []
  | cons {item other : Json} {items others : List Json} (same : Alike item other)
      (each : AlikeItems items others) : AlikeItems (item :: items) (other :: others)

inductive AlikeFields : List (String × Json) → List (String × Json) → Prop
  | nil : AlikeFields [] []
  | cons (name : String) {content other : Json} {fields others : List (String × Json)}
      (same : Alike content other) (each : AlikeFields fields others) :
      AlikeFields ((name, content) :: fields) ((name, other) :: others)

end

mutual

theorem Alike.refl (document : Json) : document.Alike document := by
  match document with
  | .null => exact .null
  | .bool b => exact .bool b
  | .number n => exact .number n
  | .text s => exact .text s
  | .list items => exact .list (AlikeItems.refl items)
  | .record fields => exact .record (.refl fields) (AlikeFields.refl fields)

theorem AlikeItems.refl (items : List Json) : AlikeItems items items := by
  match items with
  | [] => exact .nil
  | item :: rest => exact .cons (Alike.refl item) (AlikeItems.refl rest)

theorem AlikeFields.refl (fields : List (String × Json)) : AlikeFields fields fields := by
  match fields with
  | [] => exact .nil
  | (name, content) :: rest => exact .cons name (Alike.refl content) (AlikeFields.refl rest)

end

theorem AlikeFields.names {fields others : List (String × Json)} (each : AlikeFields fields others) :
    Fields.names fields = Fields.names others := by
  match each with
  | .nil => rfl
  | .cons name _ each => exact congrArg (name :: ·) each.names

theorem AlikeFields.contents {fields others : List (String × Json)} (each : AlikeFields fields others) :
    AlikeItems (fields.map Prod.snd) (others.map Prod.snd) := by
  match each with
  | .nil => exact .nil
  | .cons _ same each => exact .cons same each.contents

theorem Alike.items {document : Json} {others : List Json} (alike : document.Alike (.list others)) :
    ∃ items, document = .list items ∧ AlikeItems items others := by
  cases alike with
  | list each => exact ⟨_, rfl, each⟩

theorem AlikeItems.texts {items : List Json} {texts : List String}
    (each : AlikeItems items (texts.map .text)) : items = texts.map .text := by
  match texts, each with
  | [], .nil => rfl
  | s :: _, .cons (.text _) each => exact congrArg (.text s :: ·) each.texts

theorem part?_of_perm {fields listed : List (String × Json)} (order : fields.Perm listed)
    (name : String) : part? fields name = part? listed name := by
  have same := order.filter fun field => field.1 = name
  unfold part?
  generalize fields.filter _ = kept at same ⊢
  generalize listed.filter _ = others at same ⊢
  match others with
  | [] => rw [same.eq_nil]
  | [field] => rw [List.perm_singleton.mp same]
  | first :: second :: rest =>
      obtain _ | ⟨first', _ | ⟨second', rest'⟩⟩ := kept
      · cases same.length_eq
      · cases same.length_eq
      · rfl

theorem part?_of_mem {fields : List (String × Json)} (nodup : (Fields.names fields).Nodup)
    {field : String × Json} (among : field ∈ fields) : part? fields field.1 = some field.2 := by
  have only : fields.filter (fun other => other.1 = field.1) = [field] := by
    induction fields with
    | nil => cases among
    | cons first rest ih =>
        obtain ⟨new, nodup⟩ := List.nodup_cons.mp nodup
        have apart : ∀ other ∈ rest, other.1 ≠ first.1 :=
          fun other later same => new (same ▸ List.mem_map_of_mem later)
        cases List.mem_cons.mp among with
        | inl same =>
            subst same
            rw [List.filter_cons_of_pos (by simp), List.filter_eq_nil_iff.mpr (by simpa using apart)]
        | inr later =>
            rw [List.filter_cons_of_neg (by simpa using (apart field later).symm), ih nodup later]
  rw [part?, only]

theorem mapM_part? {fields : List (String × Json)} (nodup : (Fields.names fields).Nodup)
    {asked : List (String × Json)} (among : asked ⊆ fields) :
    (Fields.names asked).mapM (part? fields) = some (asked.map Prod.snd) := by
  induction asked with
  | nil => rfl
  | cons field rest ih =>
      obtain ⟨here, later⟩ := List.cons_subset.mp among
      have first := part?_of_mem nodup here
      have others := ih later
      simp only [Fields.names] at others
      simp [Fields.names, List.mapM_cons, first, others]

theorem Alike.parts? {document : Json} {fields : List (String × Json)}
    (alike : document.Alike (.record fields)) (names : List String)
    (named : Fields.names fields = names) (nodup : names.Nodup) :
    ∃ contents, document.parts? names = some contents ∧ AlikeItems contents (fields.map Prod.snd) := by
  cases alike with
  | @record shuffled listed _ order each =>
      obtain rfl : Fields.names listed = names := each.names.trans named
      refine ⟨listed.map Prod.snd, ?_, each.contents⟩
      rw [Json.parts?, funext (part?_of_perm order)]
      exact mapM_part? nodup (List.Subset.refl listed)

theorem Alike.tagged {document content : Json} {tag : String}
    (alike : document.Alike (.tagged tag content)) :
    ∃ inside : Json, document = .tagged tag inside ∧ inside.Alike content := by
  cases alike with
  | @record _ _ _ order each =>
      obtain _ | ⟨_, same, ⟨⟩⟩ := each
      exact ⟨_, congrArg Json.record (List.perm_singleton.mp order), same⟩

end PredicateLang.Json
