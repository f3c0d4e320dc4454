import PredicateLang.Proofs.Syntax.Primitives

set_option autoImplicit false

namespace PredicateLang

namespace Cursor

open Grammar

variable {σ : Type} [TokenSupply σ]

structure Means (level : Level) (operators : Operators) (kinds : List TokenKind) : Prop where
  accepts : ∀ kind : TokenKind, level.accept kind = true ↔ kind ∈ kinds
  reads : ∀ {op : Token} {combine : Node → Node → Node}, operators op combine →
    level.combine? op = some combine
  means : ∀ {op : Token} {combine : Node → Node → Node}, op.kind.Admits op.text.toList →
    op.kind ∈ kinds → level.combine? op = some combine → operators op combine
  apart : TokenKind.eof ∉ kinds

variable {level : Level} {operators : Operators} {rule : Rule} {kinds goesOn : List TokenKind}
  {next : Parse σ (Option Node)}

theorem Means.refuses (means : Means level operators kinds) {kind : TokenKind}
    (other : kind ∉ kinds) : level.accept kind = false := by
  rw [Bool.eq_false_iff]
  intro accepted
  exact other ((means.accepts kind).1 accepted)

theorem operand_derived (recognises : Recognises next rule goesOn) {op : Token}
    {c last : Cursor σ} {node : Node} (spelled : Spelled (upcoming c))
    (h : operand op next c = (.ok node, last)) :
    ∃ after right blanks, Blanks after ∧ Blanks blanks ∧
      upcoming c = after ++ (rule.tokens right ++ (blanks ++ upcoming last)) ∧
      rule.tree right = node := by
  obtain ⟨middle, stripped, parsed⟩ := operand_ok h
  obtain ⟨after, blank, whole⟩ := exists_blanks (upcoming c)
  rw [← stripped] at whole
  obtain ⟨right, blanks, blank', front, tree⟩ := recognises.derived (spelled.behind after whole) parsed
  rw [front] at whole
  exact ⟨after, right, blanks, blank, blank', whole, tree⟩

theorem behind_derived (means : Means level operators kinds)
    (recognises : Recognises next rule goesOn) {c opened last : Cursor σ} {op : Token}
    {combine : Node → Node → Node} {node : Node} {skipped : List Token} (blank : Blanks skipped)
    (spelled : Spelled (upcoming c)) (found : operator level.accept c = (.ok (some op), opened))
    (meant : level.combine? op = some combine) (h : operand op next opened = (.ok node, last)) :
    ∃ (behind : Behind operators rule) (blanks : List Token), Blanks blanks ∧
      Spelled (upcoming last) ∧
      skipped ++ upcoming c = behind.tokens ++ (blanks ++ upcoming last) ∧
      ∀ left, behind.join left = combine left node := by
  obtain ⟨before, front, whole, accepted⟩ := operator_some found (means.refuses means.apart)
  have admits : op.kind.Admits op.text.toList := by
    apply spelled
    rw [whole]
    simp
  have spelledBehind : Spelled (upcoming opened) :=
    spelled.behind (before ++ [op]) (by simp [whole])
  obtain ⟨after, right, blanks, back, blank', operandTokens, tree⟩ :=
    operand_derived recognises spelledBehind h
  have isOperator := means.means admits ((means.accepts _).1 accepted) meant
  -- The blanks that the left operand took along belong to the operator.
  refine ⟨⟨skipped ++ before, op, after, combine, right, blank.append front, isOperator, back⟩,
    blanks, blank', ?_, ?_, ?_⟩
  · apply spelledBehind.behind (after ++ rule.tokens right ++ blanks)
    simp [operandTokens]
  · simp [whole, operandTokens, Behind.tokens]
  · intro left
    simp [Behind.join, tree]

theorem behind_parses (fits : Fits operators kinds goesOn) (means : Means level operators kinds)
    (begins : rule.Begins) (recognises : Recognises next rule goesOn) {c : Cursor σ}
    {first : Behind operators rule} {behind : List Token}
    (front : strip (upcoming c) = strip (first.tokens ++ behind)) (stops : Stops goesOn behind) :
    ∃ opened last, operator level.accept c = (.ok (some first.op), opened) ∧
      operand first.op next opened = (.ok (rule.tree first.right), last) ∧
      strip (upcoming last) = strip behind := by
  have member := fits.belongs first.isOperator
  have visible := (fits.apart _ member).1
  simp only [Behind.tokens, List.append_assoc, List.cons_append, strip_blanks_append first.front,
    strip_cons visible] at front
  obtain ⟨opened, found, behindOp⟩ := operator_accepts level.accept front
    ((means.accepts _).2 member) (means.refuses means.apart)
  obtain ⟨t, rest, operandFront, seen⟩ := begins first.right
  have stripped : strip (upcoming opened) = t :: (rest ++ behind) := by
    rw [behindOp, strip_blanks_append first.back, operandFront, List.cons_append, strip_cons seen]
  obtain ⟨last, parsed, ends⟩ := operand_finds first.op stripped fun middle there =>
    recognises.parses (there.trans (by rw [operandFront, List.cons_append])) stops
  exact ⟨opened, last, found, parsed, ends⟩

theorem row_ends (means : Means level operators kinds) {c : Cursor σ} {behind : List Token}
    (front : strip (upcoming c) = strip behind) (stops : Stops (kinds ++ goesOn) behind) :
    ∃ last, operator level.accept c = (.ok none, last) ∧ strip (upcoming last) = strip behind := by
  obtain ⟨t, rest, first, other⟩ := stops
  have refused := means.refuses fun member => other (List.mem_append_left goesOn member)
  obtain ⟨last, found, same⟩ := operator_declines level.accept (front.trans first) refused
  exact ⟨last, found, by rw [same, strip_strip, front]⟩

theorem single_ok {c last : Cursor σ} {found : Option Node}
    (h : single level next c = (.ok found, last)) :
    (found = none ∧ next c = (.ok none, last)) ∨
      ∃ left after, next c = (.ok (some left), after) ∧
        ((found = some left ∧ operator level.accept after = (.ok none, last)) ∨
          ∃ op opened combine right, operator level.accept after = (.ok (some op), opened) ∧
            level.combine? op = some combine ∧ operand op next opened = (.ok right, last) ∧
            found = some (combine left right)) := by
  obtain ⟨left?, after, parsed, h⟩ := bind_ok h
  cases left? with
  | none =>
      cases h
      exact .inl ⟨rfl, parsed⟩
  | some left =>
      obtain ⟨op?, opened, seen, h⟩ := bind_ok h
      cases op? with
      | none =>
          cases h
          exact .inr ⟨left, after, parsed, .inl ⟨rfl, seen⟩⟩
      | some op =>
          cases meant : level.combine? op with
          | none =>
              simp only [meant] at h
              cases h
          | some combine =>
              simp only [meant] at h
              obtain ⟨right, final, parsedRight, h⟩ := bind_ok h
              cases h
              exact .inr ⟨left, after, parsed,
                .inr ⟨op, opened, combine, right, seen, meant, parsedRight, rfl⟩⟩

theorem single_recognises (fits : Fits operators kinds goesOn)
    (means : Means level operators kinds) (begins : rule.Begins)
    (recognises : Recognises next rule goesOn) :
    Recognises (single level next) (Grammar.single operators rule) (kinds ++ goesOn) where
  declined := by
    intro c last h
    obtain ⟨-, none⟩ | ⟨left, after, -, ⟨some, -⟩ | ⟨_, _, _, _, _, _, _, some⟩⟩ := single_ok h
    · exact recognises.declined none
    · cases some
    · cases some
  derived := by
    intro c last node spelled h
    obtain ⟨none, -⟩ | ⟨left, after, parsed, others⟩ := single_ok h
    · cases none
    · obtain ⟨first, skipped, blank, front, rfl⟩ := recognises.derived spelled parsed
      have spelledBehind : Spelled (upcoming after) :=
        spelled.behind (rule.tokens first ++ skipped) (by rw [front, List.append_assoc])
      obtain ⟨same, seen⟩ | ⟨op, opened, combine, right, seen, meant, parsedRight, same⟩ := others
      · cases same
        obtain ⟨blanks, blank', whole⟩ := operator_none seen
        refine ⟨(first, none), skipped ++ blanks, blank.append blank', ?_, rfl⟩
        simp [Grammar.single, rowTokens, front, whole]
      · cases same
        obtain ⟨behind, blanks, blank', -, whole, joins⟩ :=
          behind_derived means recognises blank spelledBehind seen meant parsedRight
        refine ⟨(first, some behind), blanks, blank', ?_, joins _⟩
        simp [Grammar.single, rowTokens, front, whole]
  declines := by
    intro c t front last
    obtain ⟨after, declined, same⟩ := recognises.declines front last
    refine ⟨after, ?_, same⟩
    simp only [single, bind_apply, declined]
    rfl
  parses := by
    rintro c ⟨first, second⟩ behind front stops
    simp only [Grammar.single, rowTokens, List.append_assoc] at front
    obtain ⟨after, parsed, rest⟩ := recognises.parses front (stops_row fits _ stops)
    cases second with
    | none =>
        obtain ⟨last, seen, ends⟩ := row_ends means rest stops
        refine ⟨last, ?_, ends⟩
        simp only [single, bind_apply, parsed, seen]
        rfl
    | some second =>
        simp only [Option.toList_some, List.flatMap_cons, List.flatMap_nil, List.append_nil] at rest
        obtain ⟨opened, last, seen, parsedRight, ends⟩ :=
          behind_parses fits means begins recognises rest (stops.mono (List.subset_append_right _ _))
        refine ⟨last, ?_, ends⟩
        simp only [single, bind_apply, parsed, seen, means.reads second.isOperator, parsedRight]
        rfl

-- Sums are not parsed as a level, but their operators are read like those of one.
def sums : Level where
  accept := addsUp
  combine? op := some (sumOf op)

theorem means_sum : Means sums SumOperator [.add, .sub] where
  accepts := by
    intro kind
    simp [sums, addsUp]
  reads := by
    rintro op combine (kind | kind) <;> simp [sums, sumOf, kind]
  means := by
    intro op combine _ member meant
    cases meant
    replace member : op.kind = .add ∨ op.kind = .sub := by simpa using member
    rcases member with kind | kind
    · simpa [sumOf, kind] using SumOperator.add kind
    · simpa [sumOf, kind] using SumOperator.sub kind
  apart := by decide

theorem sumFrom_of_none {left : Node} {c last : Cursor σ}
    (seen : operator addsUp c = (.ok none, last)) :
    sumFrom left c = (.ok (some left), last) := by
  rw [sumFrom]
  split <;> rename_i found <;> rw [seen] at found <;> cases found
  rfl

theorem sumFrom_of_some {left right : Node} {c opened last : Cursor σ} {op : Token}
    (seen : operator addsUp c = (.ok (some op), opened))
    (parsed : operand op product opened = (.ok right, last)) :
    sumFrom left c = sumFrom (sumOf op left right) last := by
  rw [sumFrom]
  split <;> rename_i found <;> rw [seen] at found <;> cases found
  split <;> rename_i found <;> rw [parsed] at found <;> cases found
  rfl

theorem sumFrom_ne_none (left : Node) (c last : Cursor σ) : sumFrom left c ≠ (.ok none, last) := by
  intro h
  fun_induction sumFrom left c with
  | case1 => cases h
  | case2 => cases h
  | case3 => cases h
  | case4 left c op opened seen right rest parsed ih => exact ih h

theorem sumFrom_derived {rule : Rule}
    (recognises : Recognises (product : Parse σ (Option Node)) rule goesOn) {left : Node}
    {c last : Cursor σ} {found : Option Node} {skipped : List Token} (blank : Blanks skipped)
    (spelled : Spelled (upcoming c)) (h : sumFrom left c = (.ok found, last)) :
    ∃ (row : List (Behind SumOperator rule)) (blanks : List Token), Blanks blanks ∧
      skipped ++ upcoming c = row.flatMap Behind.tokens ++ (blanks ++ upcoming last) ∧
      found = some (row.foldl Behind.join left) := by
  -- The induction is that of the loop: the row grows in front by what one round has taken.
  fun_induction sumFrom left c generalizing skipped with
  | case1 left c fault next seen => cases h
  | case2 left c next seen =>
      cases h
      obtain ⟨blanks, blank', whole⟩ := operator_none seen
      exact ⟨[], skipped ++ blanks, blank.append blank', by simp [whole], rfl⟩
  | case3 left c op opened seen fault rest failed => cases h
  | case4 left c op opened seen right rest parsed ih =>
      obtain ⟨behind, blanks, blank', spelled', whole, joins⟩ :=
        behind_derived means_sum recognises blank spelled seen rfl parsed
      obtain ⟨row, blanks', blank'', others, same⟩ := ih blank' spelled' h
      refine ⟨behind :: row, blanks', blank'', ?_, ?_⟩
      · rw [whole, others, List.flatMap_cons, List.append_assoc]
      · rw [same, List.foldl_cons, joins]

theorem sumFrom_parses {rule : Rule} (fits : Fits SumOperator [.add, .sub] goesOn)
    (begins : rule.Begins)
    (recognises : Recognises (product : Parse σ (Option Node)) rule goesOn)
    (left : Node) {row : List (Behind SumOperator rule)} {c : Cursor σ} {behind : List Token}
    (front : strip (upcoming c) = strip (row.flatMap Behind.tokens ++ behind))
    (stops : Stops ([.add, .sub] ++ goesOn) behind) :
    ∃ last, sumFrom left c = (.ok (some (row.foldl Behind.join left)), last) ∧
      strip (upcoming last) = strip behind := by
  induction row generalizing left c with
  | nil =>
      obtain ⟨last, seen, ends⟩ := row_ends means_sum front stops
      exact ⟨last, sumFrom_of_none seen, ends⟩
  | cons first row ih =>
      rw [List.flatMap_cons, List.append_assoc] at front
      obtain ⟨opened, after, seen, parsed, rest⟩ :=
        behind_parses fits means_sum begins recognises front (stops_row fits row stops)
      obtain ⟨last, summed, ends⟩ := ih (first.join left) rest
      have combined : sumOf first.op left (rule.tree first.right) = first.join left := by
        have read : sumOf first.op = first.combine :=
          Option.some.inj (means_sum.reads first.isOperator)
        rw [read]
        rfl
      refine ⟨last, ?_, ends⟩
      rw [sumFrom_of_some seen parsed, combined, summed, List.foldl_cons]

theorem sum_recognises {rule : Rule} (fits : Fits SumOperator [.add, .sub] goesOn)
    (begins : rule.Begins)
    (recognises : Recognises (product : Parse σ (Option Node)) rule goesOn) :
    Recognises (sum : Parse σ (Option Node)) (chain SumOperator rule)
      ([.add, .sub] ++ goesOn) where
  declined := by
    intro c last h
    obtain ⟨left?, after, parsed, h⟩ := bind_ok h
    cases left? with
    | none =>
        cases h
        exact recognises.declined parsed
    | some left => exact absurd h (sumFrom_ne_none left after last)
  derived := by
    intro c last node spelled h
    obtain ⟨left?, after, parsed, h⟩ := bind_ok h
    cases left? with
    | none => cases h
    | some left =>
        obtain ⟨first, skipped, blank, front, rfl⟩ := recognises.derived spelled parsed
        have spelledBehind : Spelled (upcoming after) :=
          spelled.behind (rule.tokens first ++ skipped) (by rw [front, List.append_assoc])
        obtain ⟨row, blanks, blank', whole, same⟩ :=
          sumFrom_derived recognises blank spelledBehind h
        cases same
        refine ⟨(first, row), blanks, blank', ?_, rfl⟩
        simp [chain, rowTokens, front, whole]
  declines := by
    intro c t front last
    obtain ⟨after, declined, same⟩ := recognises.declines front last
    refine ⟨after, ?_, same⟩
    simp only [sum, bind_apply, declined]
    rfl
  parses := by
    rintro c ⟨first, row⟩ behind front stops
    simp only [chain, rowTokens, List.append_assoc] at front
    obtain ⟨after, parsed, rest⟩ := recognises.parses front (stops_row fits row stops)
    obtain ⟨last, summed, ends⟩ := sumFrom_parses fits begins recognises (rule.tree first) rest stops
    refine ⟨last, ?_, ends⟩
    simp only [sum, bind_apply, parsed, summed]
    rfl

end Cursor

end PredicateLang
