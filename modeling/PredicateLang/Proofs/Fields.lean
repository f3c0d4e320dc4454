import Mathlib.Data.List.Forall2
import PredicateLang.Fields

set_option autoImplicit false

namespace PredicateLang.Fields

variable {α β : Type}

def Ascending (fields : List (String × α)) : Prop := fields.Pairwise fun one other => one.1 < other.1

def names (fields : List (String × α)) : List String := fields.map Prod.fst

theorem mem_names_insert {name key : String} {content : α} {fields : List (String × α)}
    (present : key ∈ names (insert name content fields)) : key = name ∨ key ∈ names fields := by
  induction fields with
  | nil => exact .inl (List.mem_singleton.mp present)
  | cons field rest ih =>
      obtain ⟨other, old⟩ := field
      rw [insert] at present
      split_ifs at present with before same
      · exact List.mem_cons.mp present
      · rcases List.mem_cons.mp present with rfl | later
        · exact .inl rfl
        · exact .inr (List.mem_cons_of_mem _ later)
      · rcases List.mem_cons.mp present with rfl | later
        · exact .inr List.mem_cons_self
        · exact (ih later).imp_right (List.mem_cons_of_mem _)

theorem ascending_cons {name : String} {content : α} {fields : List (String × α)} :
    Ascending ((name, content) :: fields) ↔ (∀ key ∈ names fields, name < key) ∧ Ascending fields := by
  simp [Ascending, names]

theorem ascending_insert {fields : List (String × α)} (sorted : Ascending fields) (name : String)
    (content : α) : Ascending (insert name content fields) := by
  induction fields with
  | nil => exact List.pairwise_singleton _ _
  | cons field rest ih =>
      obtain ⟨other, old⟩ := field
      obtain ⟨least, sorted'⟩ := ascending_cons.mp sorted
      rw [insert]
      split_ifs with before same
      · refine ascending_cons.mpr ⟨fun key present => ?_, sorted⟩
        rcases List.mem_cons.mp present with rfl | later
        · exact before
        · exact String.lt_trans before (least key later)
      · subst same
        exact ascending_cons.mpr ⟨least, sorted'⟩
      · refine ascending_cons.mpr ⟨fun key present => ?_, ih sorted'⟩
        rcases mem_names_insert present with rfl | later
        · exact Std.lt_of_le_of_ne (String.not_lt.mp before) (Ne.symm same)
        · exact least key later

theorem insert_perm {name : String} {fields : List (String × α)} (new : name ∉ names fields)
    (content : α) : (insert name content fields).Perm ((name, content) :: fields) := by
  induction fields with
  | nil => exact .refl _
  | cons field rest ih =>
      obtain ⟨other, old⟩ := field
      have differs : name ≠ other := fun same => new (by simp [same, names])
      have later : name ∉ names rest := fun present => new (List.mem_cons_of_mem _ present)
      rw [insert, if_neg differs]
      split
      · exact .refl _
      · exact ((ih later).cons _).trans (.swap _ _ _)

section

variable {fields : List (String × α)}

theorem foldl_insert_perm (sorted : List (String × α))
    (new : (names fields ++ names sorted).Nodup) :
    (fields.foldl (fun sorted field => insert field.1 field.2 sorted) sorted).Perm (fields ++ sorted) := by
  induction fields generalizing sorted with
  | nil => exact .refl _
  | cons field rest ih =>
      have first : (insert field.1 field.2 sorted).Perm (field :: sorted) := by
        refine insert_perm (fun present => ?_) field.2
        exact (List.nodup_cons.mp new).1 (List.mem_append_right _ present)
      have moved : (names rest ++ names (insert field.1 field.2 sorted)).Perm
          (names (field :: rest) ++ names sorted) :=
        ((first.map Prod.fst).append_left _).trans List.perm_middle
      exact (ih _ (moved.nodup_iff.mpr new)).trans ((first.append_left rest).trans List.perm_middle)

theorem ofList_perm (nodup : (names fields).Nodup) : (ofList fields).Perm fields := by
  simpa [ofList] using foldl_insert_perm [] (by simpa [names] using nodup)

theorem mem_names_ofList (nodup : (names fields).Nodup) {name : String} :
    name ∈ names (ofList fields) ↔ name ∈ names fields :=
  ((ofList_perm nodup).map Prod.fst).mem_iff

theorem ascending_ofList (fields : List (String × α)) : Ascending (ofList fields) := by
  have each : ∀ sorted, Ascending sorted →
      Ascending (fields.foldl (fun sorted field => insert field.1 field.2 sorted) sorted) := by
    induction fields with
    | nil => exact fun _ sorted => sorted
    | cons field rest ih => exact fun _ sorted => ih _ (ascending_insert sorted _ _)
  exact each [] .nil

theorem ofList_congr {others : List (String × α)} (order : fields.Perm others)
    (nodup : (names fields).Nodup) : ofList fields = ofList others := by
  have nodup' : (names others).Nodup := (order.map Prod.fst).nodup_iff.mp nodup
  have same : (ofList fields).Perm (ofList others) :=
    (ofList_perm nodup).trans (order.trans (ofList_perm nodup').symm)
  refine same.eq_of_pairwise ?_ (ascending_ofList fields) (ascending_ofList others)
  exact fun one other _ _ before behind => absurd behind (String.lt_asymm before)

theorem eq_of_perm {others : List (String × α)} (order : fields.Perm others)
    (same : names fields = names others) (nodup : (names fields).Nodup) : fields = others := by
  induction fields generalizing others with
  | nil => exact order.nil_eq
  | cons field rest ih =>
      cases others with
      | nil => cases same
      | cons other behind =>
          obtain ⟨first, later⟩ := List.cons.inj same
          obtain ⟨new, nodup⟩ := List.nodup_cons.mp nodup
          have here : field = other := by
            cases List.mem_cons.mp (order.subset List.mem_cons_self) with
            | inl here => exact here
            | inr among => exact absurd (later ▸ List.mem_map_of_mem among) new
          subst here
          rw [ih order.cons_inv later nodup]

theorem eq_of_ofList {others : List (String × α)} (sorted : ofList fields = ofList others)
    (same : names fields = names others) (nodup : (names fields).Nodup) : fields = others := by
  have order := (ofList_perm nodup).symm.trans (sorted ▸ ofList_perm (same ▸ nodup))
  exact eq_of_perm order same nodup

end

def Related (related : α → β → Prop) : List (String × α) → List (String × β) → Prop :=
  List.Forall₂ fun one other => one.1 = other.1 ∧ related one.2 other.2

section

variable {related : α → β → Prop}

theorem Related.names {fields : List (String × α)} {others : List (String × β)}
    (each : Related related fields others) : names fields = names others := by
  induction each with
  | nil => rfl
  | cons same _ ih => exact congrArg₂ List.cons same.1 ih

theorem related_insert {fields : List (String × α)} {others : List (String × β)} {name : String}
    {content : α} {content' : β} (each : Related related fields others) (also : related content content') :
    Related related (insert name content fields) (insert name content' others) := by
  induction each with
  | nil => exact .cons ⟨rfl, also⟩ .nil
  | @cons field other rest rest' same each ih =>
      obtain ⟨key, old⟩ := field
      obtain ⟨key', old'⟩ := other
      obtain ⟨rfl, was⟩ : key = key' ∧ related old old' := same
      rw [insert, insert]
      split_ifs
      · exact .cons ⟨rfl, also⟩ (.cons ⟨rfl, was⟩ each)
      · exact .cons ⟨rfl, also⟩ each
      · exact .cons ⟨rfl, was⟩ ih

theorem related_ofList {fields : List (String × α)} {others : List (String × β)}
    (each : Related related fields others) : Related related (ofList fields) (ofList others) := by
  have all : ∀ sorted sorted', Related related sorted sorted' →
      Related related (fields.foldl (fun sorted field => insert field.1 field.2 sorted) sorted)
        (others.foldl (fun sorted field => insert field.1 field.2 sorted) sorted') := by
    induction each with
    | nil => exact fun _ _ sorted => sorted
    | @cons field other rest rest' same each ih =>
        intro sorted sorted' before
        rw [List.foldl_cons, List.foldl_cons, ← same.1]
        exact ih _ _ (related_insert before same.2)
  exact all [] [] .nil

end

end PredicateLang.Fields
