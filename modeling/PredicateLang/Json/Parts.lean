import PredicateLang.Json.Document
import PredicateLang.Number.Double

set_option autoImplicit false

namespace PredicateLang.Json

def part? (fields : List (String × Json)) (name : String) : Option Json :=
  -- The part of a record with a given name, if just one field has the name.
  match fields.filter fun field => field.1 = name with
  | [field] => some field.2
  | _ => none

/-- The parts of a record with the given names, each there exactly once, or of a list of just as many
items. Other fields of the record are passed over. -/
def parts? (names : List String) : Json → Option (List Json)
  | .list items => if items.length = names.length then some items else none
  | .record fields => names.mapM (part? fields)
  | _ => none

theorem sizeOf_lt_of_part? {fields : List (String × Json)} {name : String} {part : Json}
    (found : part? fields name = some part) : sizeOf part < sizeOf (Json.record fields) := by
  unfold part? at found
  split at found
  · rename_i field only
    have member : field ∈ fields := by
      have kept : field ∈ fields.filter fun field => field.1 = name := by simp [only]
      exact (List.mem_filter.1 kept).1
    have smaller := List.sizeOf_lt_of_mem member
    cases found
    obtain ⟨key, content⟩ := field
    simp only [Prod.mk.sizeOf_spec, Json.record.sizeOf_spec] at smaller ⊢
    omega
  · cases found

theorem sizeOf_lt_of_parts? {names : List String} {document part : Json} {parts : List Json}
    (parted : document.parts? names = some parts) (member : part ∈ parts) :
    sizeOf part < sizeOf document := by
  cases document with
  | list items =>
      simp only [parts?] at parted
      split at parted
      · cases parted
        have smaller := List.sizeOf_lt_of_mem member
        simp only [Json.list.sizeOf_spec]
        omega
      · cases parted
  | record fields =>
      simp only [parts?] at parted
      induction names generalizing parts with
      | nil => simp_all
      | cons name rest ih =>
          simp only [List.mapM_cons] at parted
          cases found : part? fields name with
          | none => simp [found] at parted
          | some first =>
              cases others : rest.mapM (part? fields) with
              | none => simp [found, others] at parted
              | some more =>
                  simp only [found, others] at parted
                  cases parted
                  cases List.mem_cons.1 member with
                  | inl same => exact same ▸ sizeOf_lt_of_part? found
                  | inr later => exact ih later others
  | _ => simp [parts?] at parted

def caseName? : Json → Option String
  | .text name => some name
  | .record [(name, .null)] => some name
  | _ => none

def text? : Json → Option String
  | .text s => some s
  | _ => none

def bool? : Json → Option Bool
  | .bool b => some b
  | _ => none

def word? : Json → Option UInt32
  | .number (.whole i) => if 0 ≤ i ∧ i < UInt32.size then some i.toNat.toUInt32 else none
  | _ => none

def int64? : Json → Option Int64
  | .number (.whole i) =>
      if Int64.minValue.toInt ≤ i ∧ i ≤ Int64.maxValue.toInt then some (Int64.ofInt i) else none
  | _ => none

def double? : Json → Option Float
  | .number (.whole i) => some (Double.ofInt i)
  | .number (.double x) => some x
  | _ => none

def char? : Json → Option Char
  | .text s => match s.toList with
      | [c] => some c
      | _ => none
  | _ => none

end PredicateLang.Json
