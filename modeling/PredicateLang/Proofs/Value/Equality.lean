import PredicateLang.Proofs.Machine.Comparisons
import PredicateLang.Proofs.Number.Order

set_option autoImplicit false

namespace PredicateLang.Value

mutual

theorem reprEq_unified (a b : Value) : a.reprEq b = a.unified.strictEq b.unified := by
  cases a with
  | object fields =>
      cases b with
      | object others => exact reprEqFields_unified fields others
      | _ => rfl
  | array items =>
      cases b with
      | array others => exact reprEqItems_unified items others
      | _ => rfl
  | _ => cases b <;> rfl

theorem reprEqFields_unified (fields others : List (String × Value)) :
    reprEqFields fields others = strictEqFields (unifiedFields fields) (unifiedFields others) := by
  match fields, others with
  | [], [] | [], _ :: _ | _ :: _, [] => rfl
  | (name, content) :: rest, (other, value) :: others =>
      rw [reprEqFields, reprEq_unified content value, reprEqFields_unified rest others]
      rfl

theorem reprEqItems_unified (items others : List Value) :
    reprEqItems items others = strictEqItems (unifiedItems items) (unifiedItems others) := by
  match items, others with
  | [], [] | [], _ :: _ | _ :: _, [] => rfl
  | item :: rest, other :: others =>
      rw [reprEqItems, reprEq_unified item other, reprEqItems_unified rest others]
      rfl

end

def Plain : Value → Prop
  | .double _ | .object _ | .array _ => False
  | _ => True

theorem eq_of_strictEq {a b : Value} (same : a.strictEq b = true) (plain : a.Plain) : a = b := by
  cases a with
  | double | object | array => cases plain
  | _ =>
      cases b <;> first
        | cases same
        | simpa [strictEq] using same

theorem strictEq_double_iff {x : Float} {b : Value} :
    strictEq (.double x) b = true ↔ ∃ y, b = .double y ∧ (x == y) = true := by
  cases b <;> simp [strictEq]

theorem strictEq_object_iff {fields : List (String × Value)} {b : Value} :
    strictEq (.object fields) b = true ↔
      ∃ others, b = .object others ∧ strictEqFields fields others = true := by
  cases b <;> simp [strictEq]

theorem strictEq_array_iff {items : List Value} {b : Value} :
    strictEq (.array items) b = true ↔
      ∃ others, b = .array others ∧ strictEqItems items others = true := by
  cases b <;> simp [strictEq]

theorem strictEqFields_nil_iff {fields : List (String × Value)} :
    strictEqFields [] fields = true ↔ fields = [] := by
  cases fields <;> simp [strictEqFields]

theorem strictEqFields_cons_iff {field : String × Value} {rest fields : List (String × Value)} :
    strictEqFields (field :: rest) fields = true ↔
      ∃ value others, fields = (field.1, value) :: others ∧ field.2.strictEq value = true ∧
        strictEqFields rest others = true := by
  rcases fields with _ | ⟨⟨other, value⟩, others⟩
  · simp [strictEqFields]
  · simp only [strictEqFields, Bool.and_eq_true, beq_iff_eq, List.cons.injEq, Prod.mk.injEq]
    constructor
    · rintro ⟨⟨rfl, same⟩, rest⟩
      exact ⟨value, others, ⟨⟨rfl, rfl⟩, rfl⟩, same, rest⟩
    · rintro ⟨value, others, ⟨⟨rfl, rfl⟩, rfl⟩, same, rest⟩
      exact ⟨⟨rfl, same⟩, rest⟩

theorem strictEqItems_nil_iff {items : List Value} : strictEqItems [] items = true ↔ items = [] := by
  cases items <;> simp [strictEqItems]

theorem strictEqItems_cons_iff {item : Value} {rest items : List Value} :
    strictEqItems (item :: rest) items = true ↔
      ∃ other others, items = other :: others ∧ item.strictEq other = true ∧
        strictEqItems rest others = true := by
  rcases items with _ | ⟨other, others⟩ <;> simp [strictEqItems]

mutual

theorem strictEq_symm {a b : Value} (same : a.strictEq b = true) : b.strictEq a = true := by
  cases a with
  | double x =>
      obtain ⟨y, rfl, same⟩ := strictEq_double_iff.mp same
      exact PartialEquivBEq.symm (α := Float) same
  | object fields =>
      obtain ⟨others, rfl, same⟩ := strictEq_object_iff.mp same
      exact strictEqFields_symm same
  | array items =>
      obtain ⟨others, rfl, same⟩ := strictEq_array_iff.mp same
      exact strictEqItems_symm same
  | _ =>
      cases eq_of_strictEq same trivial
      exact same

theorem strictEqFields_symm {fields others : List (String × Value)}
    (same : strictEqFields fields others = true) : strictEqFields others fields = true := by
  match fields with
  | [] =>
      cases strictEqFields_nil_iff.mp same
      rfl
  | (name, content) :: rest =>
      obtain ⟨value, others, rfl, same, more⟩ := strictEqFields_cons_iff.mp same
      exact strictEqFields_cons_iff.mpr ⟨content, rest, rfl, strictEq_symm same, strictEqFields_symm more⟩

theorem strictEqItems_symm {items others : List Value} (same : strictEqItems items others = true) :
    strictEqItems others items = true := by
  match items with
  | [] =>
      cases strictEqItems_nil_iff.mp same
      rfl
  | item :: rest =>
      obtain ⟨other, others, rfl, same, more⟩ := strictEqItems_cons_iff.mp same
      exact strictEqItems_cons_iff.mpr ⟨item, rest, rfl, strictEq_symm same, strictEqItems_symm more⟩

end

mutual

theorem strictEq_trans {a b c : Value} (same : a.strictEq b = true) (next : b.strictEq c = true) :
    a.strictEq c = true := by
  cases a with
  | double x =>
      obtain ⟨y, rfl, same⟩ := strictEq_double_iff.mp same
      obtain ⟨z, rfl, next⟩ := strictEq_double_iff.mp next
      exact PartialEquivBEq.trans (α := Float) same next
  | object fields =>
      obtain ⟨others, rfl, same⟩ := strictEq_object_iff.mp same
      obtain ⟨lasts, rfl, next⟩ := strictEq_object_iff.mp next
      exact strictEqFields_trans same next
  | array items =>
      obtain ⟨others, rfl, same⟩ := strictEq_array_iff.mp same
      obtain ⟨lasts, rfl, next⟩ := strictEq_array_iff.mp next
      exact strictEqItems_trans same next
  | _ =>
      cases eq_of_strictEq same trivial
      exact next

theorem strictEqFields_trans {fields others lasts : List (String × Value)}
    (same : strictEqFields fields others = true) (next : strictEqFields others lasts = true) :
    strictEqFields fields lasts = true := by
  match fields with
  | [] =>
      cases strictEqFields_nil_iff.mp same
      exact next
  | (name, content) :: rest =>
      obtain ⟨value, others, rfl, same, more⟩ := strictEqFields_cons_iff.mp same
      obtain ⟨last, lasts, rfl, next, further⟩ := strictEqFields_cons_iff.mp next
      exact strictEqFields_cons_iff.mpr
        ⟨last, lasts, rfl, strictEq_trans same next, strictEqFields_trans more further⟩

theorem strictEqItems_trans {items others lasts : List Value}
    (same : strictEqItems items others = true) (next : strictEqItems others lasts = true) :
    strictEqItems items lasts = true := by
  match items with
  | [] =>
      cases strictEqItems_nil_iff.mp same
      exact next
  | item :: rest =>
      obtain ⟨other, others, rfl, same, more⟩ := strictEqItems_cons_iff.mp same
      obtain ⟨last, lasts, rfl, next, further⟩ := strictEqItems_cons_iff.mp next
      exact strictEqItems_cons_iff.mpr
        ⟨last, lasts, rfl, strictEq_trans same next, strictEqItems_trans more further⟩

end

mutual

theorem strictEq_unified {a b : Value} (same : a.strictEq b = true) :
    a.unified.strictEq b.unified = true := by
  cases a with
  | bool b =>
      cases eq_of_strictEq same trivial
      exact beq_self_eq_true (intOfBool b)
  | double x =>
      obtain ⟨y, rfl, equal⟩ := strictEq_double_iff.mp same
      exact equal
  | object fields =>
      obtain ⟨others, rfl, same⟩ := strictEq_object_iff.mp same
      exact strictEqFields_unified same
  | array items =>
      obtain ⟨others, rfl, same⟩ := strictEq_array_iff.mp same
      exact strictEqItems_unified same
  | _ =>
      cases eq_of_strictEq same trivial
      exact same

theorem strictEqFields_unified {fields others : List (String × Value)}
    (same : strictEqFields fields others = true) :
    strictEqFields (unifiedFields fields) (unifiedFields others) = true := by
  match fields with
  | [] =>
      cases strictEqFields_nil_iff.mp same
      rfl
  | (name, content) :: rest =>
      obtain ⟨value, others, rfl, same, more⟩ := strictEqFields_cons_iff.mp same
      exact strictEqFields_cons_iff.mpr
        ⟨_, _, rfl, strictEq_unified same, strictEqFields_unified more⟩

theorem strictEqItems_unified {items others : List Value} (same : strictEqItems items others = true) :
    strictEqItems (unifiedItems items) (unifiedItems others) = true := by
  match items with
  | [] =>
      cases strictEqItems_nil_iff.mp same
      rfl
  | item :: rest =>
      obtain ⟨other, others, rfl, same, more⟩ := strictEqItems_cons_iff.mp same
      exact strictEqItems_cons_iff.mpr ⟨_, _, rfl, strictEq_unified same, strictEqItems_unified more⟩

end

inductive Within (part : Value) : Value → Prop
  | self : Within part part
  | field {fields : List (String × Value)} {field : String × Value} (among : field ∈ fields)
      (inside : Within part field.2) : Within part (.object fields)
  | item {items : List Value} {item : Value} (among : item ∈ items) (inside : Within part item) :
      Within part (.array items)

theorem reprEqFields_self {fields : List (String × Value)} :
    reprEqFields fields fields = true ↔ ∀ field ∈ fields, field.2.reprEq field.2 = true := by
  induction fields with
  | nil => simp [reprEqFields]
  | cons field rest ih => simp [reprEqFields, ih]

theorem reprEqItems_self {items : List Value} :
    reprEqItems items items = true ↔ ∀ item ∈ items, item.reprEq item = true := by
  induction items with
  | nil => simp [reprEqItems]
  | cons item rest ih => simp [reprEqItems, ih]

theorem Within.reprEq_self {part whole : Value} (within : Within part whole)
    (same : whole.reprEq whole = true) : part.reprEq part = true := by
  induction within with
  | self => exact same
  | field among _ ih => exact ih (reprEqFields_self.mp same _ among)
  | item among _ ih => exact ih (reprEqItems_self.mp same _ among)

theorem reprEq_self_of_numbers (a : Value) (numbers : ∀ x, Within (.double x) a → x.isNaN = false) :
    a.reprEq a = true := by
  match a with
  | .double x => exact Double.beq_self_iff.mpr (numbers x .self)
  | .object fields =>
      refine reprEqFields_self.mpr fun (name, content) among => ?_
      have smaller : sizeOf content < sizeOf fields := by
        have part := List.sizeOf_lt_of_mem among
        rw [Prod.mk.sizeOf_spec] at part
        omega
      exact reprEq_self_of_numbers content fun x inside => numbers x (.field among inside)
  | .array items =>
      refine reprEqItems_self.mpr fun item among => ?_
      exact reprEq_self_of_numbers item fun x inside => numbers x (.item among inside)
  | .int i | .bool b | .char c | .string s | .dataRef name scope | .attrRef name owner => simp [reprEq]

theorem reprEq_self_iff {a : Value} :
    a.reprEq a = true ↔ ∀ x, Within (.double x) a → x.isNaN = false :=
  ⟨fun same _ within => Double.beq_self_iff.mp (within.reprEq_self same), reprEq_self_of_numbers a⟩

theorem reprEq_is_equality_of_unified :
    (∀ a b : Value, a.reprEq b = true ↔ a.unified.strictEq b.unified = true) ∧
      (∀ a b : Value, a.reprEq b = true → b.reprEq a = true) ∧
      (∀ a b c : Value, a.reprEq b = true → b.reprEq c = true → a.reprEq c = true) ∧
      (∀ a b : Value, a.strictEq b = true → a.reprEq b = true) ∧
      (∀ a : Value, a.reprEq a = false ↔ ∃ x : Float, x.isNaN = true ∧ Within (.double x) a) ∧
      ∀ a b : Value, Comparison.eq.Answers a b (if a.reprEq b then 1 else 0) ∧
        Comparison.ne.Answers a b (if a.reprEq b then 0 else 1) := by
  refine ⟨?unified, ?symmetric, ?transitive, ?strict, ?reflexive, ?answers⟩
  case unified =>
    intro a b
    rw [reprEq_unified]
  case symmetric =>
    intro a b same
    rw [reprEq_unified] at same ⊢
    exact strictEq_symm same
  case transitive =>
    intro a b c same next
    rw [reprEq_unified] at same next ⊢
    exact strictEq_trans same next
  case strict =>
    intro a b same
    rw [reprEq_unified]
    exact strictEq_unified same
  case reflexive =>
    intro a
    rw [← Bool.not_eq_true, reprEq_self_iff]
    simp only [not_forall, exists_prop, Bool.not_eq_false, and_comm]
  case answers =>
    intro a b
    have complement : (if a.reprEq b then 0 else 1) = Comparison.ne.answer a b := by
      rw [Comparison.answer, Comparison.holds]
      cases a.reprEq b <;> rfl
    rw [complement]
    exact ⟨Comparison.eq.answers_answer a b, Comparison.ne.answers_answer a b⟩

theorem nested_booleans_equal_integers :
    reprEq (.array [.int 1, .object [("off", .int 0)]])
        (.array [.bool true, .object [("off", .bool false)]]) = true ∧
      reprEq (.array [.object [("rate", .double Double.notANumber)]])
        (.array [.object [("rate", .double Double.notANumber)]]) = false := by
  obtain ⟨unified, symmetric, transitive, -, reflexive, -⟩ := reprEq_is_equality_of_unified
  have first : reprEq (.array [.bool true, .object [("off", .bool false)]])
      (.array [.bool true, .object [("off", .int 0)]]) = true := (unified _ _).mpr (by decide +kernel)
  have second : reprEq (.array [.bool true, .object [("off", .int 0)]])
      (.array [.int 1, .object [("off", .int 0)]]) = true := (unified _ _).mpr (by decide +kernel)
  refine ⟨symmetric _ _ (transitive _ _ _ first second), (reflexive _).mpr ?_⟩
  exact ⟨Double.notANumber, by decide +kernel, .item List.mem_cons_self (.field List.mem_cons_self .self)⟩

end PredicateLang.Value
