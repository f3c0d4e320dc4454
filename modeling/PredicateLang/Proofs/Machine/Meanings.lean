import PredicateLang.Evaluation
import PredicateLang.Machine.Operation
import PredicateLang.Proofs.Value.Equality

set_option autoImplicit false

namespace PredicateLang.Term

theorem integer?_eq (v : Value) : integer? v = v.asInt? := by
  cases v with
  | bool b => cases b <;> rfl
  | _ => rfl

theorem double?_eq (v : Value) : double? v = v.asDouble? := by
  cases v <;> rfl

theorem place?_eq (v : Value) : place? v = v.asOrdered? := by
  cases v with
  | bool b => cases b <;> decide +kernel
  | _ => rfl

theorem intResult_means (operation : IntOperation) (safe : operation.divides = false)
    (left right : Value) : intResult operation left right =
      combined (.int operation) integer? (fun i j => .ok (.int (operation.apply i j))) left right := by
  rw [intResult, intOperand, intOperand, combined, integer?_eq, integer?_eq, safe]
  cases left.asInt? <;> cases right.asInt? <;> rfl

theorem doubleResult_means (operation : DoubleOperation) (left right : Value) :
    doubleResult operation left right =
      combined (.double operation) double? (fun x y =>
        if operation.divides && y == 0 then .error (.divisionByZero (.double operation))
        else .ok (.double (operation.apply x y))) left right := by
  rw [doubleResult, doubleOperand, doubleOperand, combined, double?_eq, double?_eq]
  cases left.asDouble? <;> cases right.asDouble? <;> rfl

theorem concatResult_means (left right : Value) :
    concatResult left right = concatenation left right := by
  cases left with
  | string s => cases right <;> rfl
  | _ => rfl

theorem integerSum_means (left right : Value) : intResult .add left right = integerSum left right := by
  have wraps (i j : Int64) : i + j = Int64.ofInt (i.toInt + j.toInt) := by simp
  rw [intResult_means .add rfl, integerSum]
  simp only [IntOperation.apply, wraps]

theorem arithmetic_means (op : Arithmetic) (kinds : List (Option ValueKind)) (left right : Value) :
    arithmetic op kinds left right = match op with
      | .add =>
          if some .string ∈ kinds then concatResult left right
          else if some .double ∈ kinds then doubleResult .add left right
          else intResult .add left right
      | .sub => doubleResult .sub left right
      | .mul => doubleResult .mul left right
      | .div => doubleResult .div left right
      | .pow => doubleResult .exp left right := by
  cases op with
  | add =>
      rw [arithmetic, sum]
      split_ifs
      · exact (concatResult_means left right).symm
      · exact (doubleResult_means .add left right).symm
      · exact (integerSum_means left right).symm
  | sub => exact (doubleResult_means .sub left right).symm
  | mul => exact (doubleResult_means .mul left right).symm
  | div => exact (doubleResult_means .div left right).symm
  | pow => exact (doubleResult_means .exp left right).symm

theorem connective_means (op : Connective) (left right : Value) :
    connective op left right = match op with
      | .and => intResult .and left right
      | .or => intResult .or left right := by
  cases op with
  | and => exact (intResult_means .and rfl left right).symm
  | or => exact (intResult_means .or rfl left right).symm

theorem related_means (op : Comparison) (left right : Value) :
    op.holds left right = related op left right := by
  cases op with
  | eq => exact Value.reprEq_unified left right
  | ne => exact congrArg not (Value.reprEq_unified left right)
  | _ =>
      simp only [Comparison.holds, related, placed, place?_eq]
      cases left.asOrdered? <;> cases right.asOrdered? <;> rfl

theorem comparison_means (op : Comparison) (left right : Value) :
    compareResult op left right = comparison op left right := by
  rw [compareResult, related_means]
  rfl

theorem get?_eq_find? {α : Type} (name : String) (fields : List (String × α)) :
    Fields.get? name fields = (fields.find? fun field => field.1 = name).map Prod.snd := by
  induction fields with
  | nil => rfl
  | cons field rest ih =>
      by_cases same : field.1 = name
      · simp [Fields.get?, same]
      · simp [Fields.get?, same, Ne.symm same, ih]

theorem attribute_means (v : Value) (name : String) : attribute? v name = attributeOf v name := by
  cases v with
  | object fields =>
      rw [attribute?, attributeOf, get?_eq_find?]
      cases fields.find? fun field => field.1 = name <;> rfl
  | array items =>
      rw [attribute?, attributeOf]
      cases Count.read? name with
      | none => rfl
      | some index =>
          by_cases inside : index < items.length
          · simp [inside]
          · simp [inside]
  | _ => rfl

end PredicateLang.Term
