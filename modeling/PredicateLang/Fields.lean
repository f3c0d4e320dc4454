set_option autoImplicit false

namespace PredicateLang.Fields

def insert {α : Type} (name : String) (content : α) : List (String × α) → List (String × α)
  | [] => [(name, content)]
  | (other, old) :: rest =>
      if name < other then (name, content) :: (other, old) :: rest
      else if name = other then (name, content) :: rest
      else (other, old) :: insert name content rest

def ofList {α : Type} (fields : List (String × α)) : List (String × α) :=
  -- Sorts fields that come in any order; of two with one name the later stays.
  fields.foldl (fun sorted field => insert field.1 field.2 sorted) []

def get? {α : Type} (name : String) : List (String × α) → Option α
  | [] => none
  | (other, content) :: rest => if name = other then some content else get? name rest

theorem get?_insert_self {α : Type} (name : String) (content : α) (fields : List (String × α)) :
    get? name (insert name content fields) = some content := by
  induction fields with
  | nil => simp [insert, get?]
  | cons field rest ih =>
      obtain ⟨other, old⟩ := field
      simp only [insert]
      split
      · simp [get?]
      · split
        · simp [get?]
        · rename_i _ differs
          simp [get?, differs, ih]

theorem get?_insert_of_ne {α : Type} {name key : String} (differs : key ≠ name) (content : α)
    (fields : List (String × α)) : get? key (insert name content fields) = get? key fields := by
  induction fields with
  | nil => simp [insert, get?, differs]
  | cons field rest ih =>
      obtain ⟨other, old⟩ := field
      simp only [insert]
      split
      · simp [get?, differs]
      · split
        · rename_i _ same
          simp [get?, differs, ← same]
        · simp [get?, ih]

end PredicateLang.Fields
