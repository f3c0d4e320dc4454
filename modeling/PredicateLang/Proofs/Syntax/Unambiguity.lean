import PredicateLang.Syntax.Grammar

set_option autoImplicit false

/-!
# The grammar is unambiguous

A list of tokens has one derivation at most. A rule alone does not say where its tokens end, so what is
proved of it is this: of all the beginnings of a list that it derives, only one is followed by a token with
which it could not go on.
-/

namespace PredicateLang.Grammar

def strip (tokens : List Token) : List Token := tokens.dropWhile fun t => t.kind = .whitespace

theorem Blanks.append {blanks blanks' : List Token} (blank : Blanks blanks)
    (blank' : Blanks blanks') : Blanks (blanks ++ blanks') := by
  intro t present
  rcases List.mem_append.1 present with there | there
  · exact blank t there
  · exact blank' t there

theorem strip_blanks_append {blanks : List Token} (blank : Blanks blanks) (tokens : List Token) :
    strip (blanks ++ tokens) = strip tokens := by
  induction blanks with
  | nil => rfl
  | cons t rest ih =>
      have first : t.kind = .whitespace := blank t (by simp)
      have others : Blanks rest := fun u present => blank u (by simp [present])
      simpa [strip, first] using ih others

theorem strip_cons {t : Token} (visible : t.kind ≠ .whitespace) (rest : List Token) :
    strip (t :: rest) = t :: rest := by
  simp [strip, visible]

theorem exists_blanks (tokens : List Token) :
    ∃ blanks, Blanks blanks ∧ tokens = blanks ++ strip tokens := by
  induction tokens with
  | nil => exact ⟨[], List.forall_mem_nil _, rfl⟩
  | cons t rest ih =>
      by_cases first : t.kind = .whitespace
      · obtain ⟨blanks, blank, same⟩ := ih
        refine ⟨t :: blanks, ?_, ?_⟩
        · simpa [Blanks, first] using blank
        · simpa [strip, first] using same
      · exact ⟨[], List.forall_mem_nil _, by simp [strip, first]⟩

theorem strip_head {tokens rest : List Token} {t : Token} (h : strip tokens = t :: rest) :
    t.kind ≠ .whitespace := by
  induction tokens with
  | nil => cases h
  | cons u others ih =>
      by_cases first : u.kind = .whitespace
      · exact ih (by simpa [strip, first] using h)
      · rw [strip_cons first] at h
        cases h
        exact first

theorem strip_strip (tokens : List Token) : strip (strip tokens) = strip tokens := by
  cases visible : strip tokens with
  | nil => rfl
  | cons t rest => exact strip_cons (strip_head visible) rest

theorem blanks_unique {blanks blanks' tokens tokens' : List Token} {t t' : Token}
    (blank : Blanks blanks) (blank' : Blanks blanks') (visible : t.kind ≠ .whitespace)
    (visible' : t'.kind ≠ .whitespace)
    (same : blanks ++ t :: tokens = blanks' ++ t' :: tokens') :
    blanks = blanks' ∧ t = t' ∧ tokens = tokens' := by
  have behind : t :: tokens = t' :: tokens' := by
    have stripped := congrArg strip same
    rwa [strip_blanks_append blank, strip_blanks_append blank', strip_cons visible,
      strip_cons visible'] at stripped
  rw [behind] at same
  cases behind
  exact ⟨List.append_cancel_right same, rfl, rfl⟩

def Stops (goesOn : List TokenKind) (behind : List Token) : Prop :=
  ∃ t rest, strip behind = t :: rest ∧ t.kind ∉ goesOn

theorem Stops.mono {goesOn more : List TokenKind} {behind : List Token} (stops : Stops more behind)
    (fewer : goesOn ⊆ more) : Stops goesOn behind := by
  obtain ⟨t, rest, first, other⟩ := stops
  exact ⟨t, rest, first, fun present => other (fewer present)⟩

theorem stops_blanks_cons {goesOn : List TokenKind} {blanks rest : List Token} {t : Token}
    (blank : Blanks blanks) (visible : t.kind ≠ .whitespace) (other : t.kind ∉ goesOn) :
    Stops goesOn (blanks ++ t :: rest) :=
  ⟨t, rest, by rw [strip_blanks_append blank, strip_cons visible], other⟩

def Rule.Begins (rule : Rule) : Prop :=
  ∀ derivation, ∃ t rest, rule.tokens derivation = t :: rest ∧ t.kind ≠ .whitespace

theorem Rule.Begins.blanks_unique {rule : Rule} (begins : rule.Begins)
    {blanks blanks' : List Token} (blank : Blanks blanks) (blank' : Blanks blanks')
    {derivation derivation' : rule.Derivation} {behind behind' : List Token}
    (same : blanks ++ (rule.tokens derivation ++ behind) =
      blanks' ++ (rule.tokens derivation' ++ behind')) :
    blanks = blanks' ∧ rule.tokens derivation ++ behind = rule.tokens derivation' ++ behind' := by
  obtain ⟨t, rest, front, visible⟩ := begins derivation
  obtain ⟨t', rest', front', visible'⟩ := begins derivation'
  rw [front, front'] at same ⊢
  obtain ⟨rfl, rfl, others⟩ := Grammar.blanks_unique blank blank' visible visible' same
  exact ⟨rfl, congrArg (t :: ·) others⟩

def Rule.Unambiguous (rule : Rule) (goesOn : List TokenKind) : Prop :=
  ∀ (derivation derivation' : rule.Derivation) (behind behind' : List Token),
    Stops goesOn behind → Stops goesOn behind' →
    rule.tokens derivation ++ behind = rule.tokens derivation' ++ behind' →
      derivation = derivation' ∧ behind = behind'

theorem stops_dot {behind : List Token} (stops : Stops [.dot] behind) :
    ∃ t rest, behind = t :: rest ∧ t.kind ≠ .dot := by
  obtain ⟨t, rest, first, other⟩ := stops
  cases behind with
  | nil => cases first
  | cons u others =>
      refine ⟨u, others, rfl, fun dotted => ?_⟩
      rw [strip_cons (by simp [dotted])] at first
      cases first
      simp [dotted] at other

theorem path_unambiguous {path path' : List Segment} {behind behind' : List Token}
    (stops : Stops [.dot] behind) (stops' : Stops [.dot] behind')
    (same : pathTokens path ++ behind = pathTokens path' ++ behind') :
    path = path' ∧ behind = behind' := by
  obtain ⟨t, rest, first, other⟩ := stops_dot stops
  obtain ⟨t', rest', first', other'⟩ := stops_dot stops'
  induction path generalizing path' with
  | nil =>
      cases path' with
      | nil => exact ⟨rfl, same⟩
      | cons segment' path' =>
          subst first
          cases same
          exact absurd segment'.isDot other
  | cons segment path ih =>
      obtain ⟨dot, blanks, key, isDot, blank, isName⟩ := segment
      cases path' with
      | nil =>
          subst first'
          cases same
          exact absurd isDot other'
      | cons segment' path' =>
          obtain ⟨dot', blanks', key', isDot', blank', isName'⟩ := segment'
          simp only [pathTokens, List.flatMap_cons, Segment.tokens, List.cons_append,
            List.append_assoc, List.cons.injEq, List.nil_append] at same
          obtain ⟨sameDot, sameRest⟩ := same
          obtain ⟨sameBlanks, sameKey, sameBehind⟩ := blanks_unique blank blank'
            (by simp [isName]) (by simp [isName']) sameRest
          obtain ⟨samePath, sameEnd⟩ := ih sameBehind
          subst sameDot sameBlanks sameKey samePath
          exact ⟨rfl, sameEnd⟩

def Leaf.first : Leaf → TokenKind
  | .plain _ _ _ => .identifier
  | .external _ _ _ _ _ => .atSign
  | .string _ _ => .string
  | .number _ _ => .number
  | .boolean _ _ => .bool

theorem Leaf.tokens_first (leaf : Leaf) :
    ∃ t rest, leaf.tokens = t :: rest ∧ t.kind = leaf.first := by
  cases leaf with
  | plain base path isName => exact ⟨base, _, rfl, isName⟩
  | external sign base path isSign isName => exact ⟨sign, _, rfl, isSign⟩
  | string t isString => exact ⟨t, _, rfl, isString⟩
  | number t isNumber => exact ⟨t, _, rfl, isNumber⟩
  | boolean t isBool => exact ⟨t, _, rfl, isBool⟩

theorem primitive_begins : primitive.Begins := by
  intro leaf
  obtain ⟨t, rest, front, kind⟩ := Leaf.tokens_first leaf
  refine ⟨t, rest, front, ?_⟩
  rw [kind]
  cases leaf <;> simp [Leaf.first]

theorem primitive_unambiguous : primitive.Unambiguous [.dot] := by
  intro leaf leaf' behind behind' stops stops' same
  replace same : leaf.tokens ++ behind = leaf'.tokens ++ behind' := same
  have firsts : leaf.first = leaf'.first := by
    obtain ⟨t, rest, front, kind⟩ := Leaf.tokens_first leaf
    obtain ⟨t', rest', front', kind'⟩ := Leaf.tokens_first leaf'
    rw [front, front'] at same
    rw [← kind, ← kind', List.head_eq_of_cons_eq same]
  cases leaf with
  | plain base path isName =>
      cases leaf' with
      | plain base' path' isName' =>
          obtain ⟨rfl, others⟩ := List.cons.inj same
          obtain ⟨rfl, ends⟩ := path_unambiguous stops stops' others
          exact ⟨rfl, ends⟩
      | _ => cases firsts
  | external sign base path isSign isName =>
      cases leaf' with
      | external sign' base' path' isSign' isName' =>
          obtain ⟨rfl, named⟩ := List.cons.inj same
          obtain ⟨rfl, others⟩ := List.cons.inj named
          obtain ⟨rfl, ends⟩ := path_unambiguous stops stops' others
          exact ⟨rfl, ends⟩
      | _ => cases firsts
  | string t isString =>
      cases leaf' with
      | string t' isString' =>
          obtain ⟨rfl, ends⟩ := List.cons.inj same
          exact ⟨rfl, ends⟩
      | _ => cases firsts
  | number t isNumber =>
      cases leaf' with
      | number t' isNumber' =>
          obtain ⟨rfl, ends⟩ := List.cons.inj same
          exact ⟨rfl, ends⟩
      | _ => cases firsts
  | boolean t isBool =>
      cases leaf' with
      | boolean t' isBool' =>
          obtain ⟨rfl, ends⟩ := List.cons.inj same
          exact ⟨rfl, ends⟩
      | _ => cases firsts

structure Fits (operators : Operators) (kinds goesOn : List TokenKind) : Prop where
  belongs : ∀ {t : Token} {combine : Node → Node → Node}, operators t combine → t.kind ∈ kinds
  determined : ∀ {t : Token} {combine combine' : Node → Node → Node},
    operators t combine → operators t combine' → combine = combine'
  apart : ∀ kind ∈ kinds, kind ≠ .whitespace ∧ kind ∉ goesOn

section

variable {operators : Operators} {next : Rule} {kinds goesOn : List TokenKind}

theorem stops_row (fits : Fits operators kinds goesOn) (row : List (Behind operators next))
    {behind : List Token} (stops : Stops (kinds ++ goesOn) behind) :
    Stops goesOn (row.flatMap Behind.tokens ++ behind) := by
  -- An operand ends at the operator behind it, or else where the row ends.
  cases row with
  | nil => exact stops.mono (List.subset_append_right kinds goesOn)
  | cons first row =>
      obtain ⟨visible, other⟩ := fits.apart _ (fits.belongs first.isOperator)
      simp only [List.flatMap_cons, Behind.tokens, List.append_assoc, List.cons_append]
      exact stops_blanks_cons first.front visible other

theorem not_stops_behind (fits : Fits operators kinds goesOn) (first : Behind operators next)
    (row : List (Behind operators next)) (behind : List Token) :
    ¬ Stops (kinds ++ goesOn) ((first :: row).flatMap Behind.tokens ++ behind) := by
  rintro ⟨t, rest, front, other⟩
  have member := fits.belongs first.isOperator
  have visible := (fits.apart _ member).1
  simp only [List.flatMap_cons, Behind.tokens, List.append_assoc, List.cons_append,
    strip_blanks_append first.front, strip_cons visible] at front
  cases front
  exact other (List.mem_append_left _ member)

theorem row_unambiguous (fits : Fits operators kinds goesOn) (begins : next.Begins)
    (unambiguous : next.Unambiguous goesOn) {row row' : List (Behind operators next)}
    {behind behind' : List Token} (stops : Stops (kinds ++ goesOn) behind)
    (stops' : Stops (kinds ++ goesOn) behind')
    (same : row.flatMap Behind.tokens ++ behind = row'.flatMap Behind.tokens ++ behind') :
    row = row' ∧ behind = behind' := by
  -- Of two rows the longer one would go on with an operator where the other one stops.
  induction row generalizing row' with
  | nil =>
      cases row' with
      | nil => exact ⟨rfl, same⟩
      | cons first' row' =>
          rw [List.flatMap_nil, List.nil_append] at same
          exact absurd (same ▸ stops) (not_stops_behind fits first' row' behind')
  | cons first row ih =>
      cases row' with
      | nil =>
          rw [List.flatMap_nil, List.nil_append] at same
          exact absurd (same ▸ stops') (not_stops_behind fits first row behind)
      | cons first' row' =>
          have visible := (fits.apart _ (fits.belongs first.isOperator)).1
          have visible' := (fits.apart _ (fits.belongs first'.isOperator)).1
          obtain ⟨before, op, after, combine, right, front, isOperator, back⟩ := first
          obtain ⟨before', op', after', combine', right', front', isOperator', back'⟩ := first'
          simp only [List.flatMap_cons, Behind.tokens, List.append_assoc, List.cons_append] at same
          obtain ⟨rfl, rfl, others⟩ := blanks_unique front front' visible visible' same
          obtain ⟨rfl, operands⟩ := begins.blanks_unique back back' others
          obtain ⟨rfl, rows⟩ := unambiguous _ _ _ _ (stops_row fits row stops)
            (stops_row fits row' stops') operands
          obtain ⟨rfl, ends⟩ := ih rows
          obtain rfl := fits.determined isOperator isOperator'
          exact ⟨rfl, ends⟩

theorem rowTokens_unambiguous (fits : Fits operators kinds goesOn) (begins : next.Begins)
    (unambiguous : next.Unambiguous goesOn) {first first' : next.Derivation}
    {row row' : List (Behind operators next)} {behind behind' : List Token}
    (stops : Stops (kinds ++ goesOn) behind) (stops' : Stops (kinds ++ goesOn) behind')
    (same : rowTokens first row ++ behind = rowTokens first' row' ++ behind') :
    first = first' ∧ row = row' ∧ behind = behind' := by
  simp only [rowTokens, List.append_assoc] at same
  obtain ⟨firsts, rows⟩ := unambiguous _ _ _ _ (stops_row fits row stops)
    (stops_row fits row' stops') same
  exact ⟨firsts, row_unambiguous fits begins unambiguous stops stops' rows⟩

theorem rowTokens_begins (begins : next.Begins) (first : next.Derivation)
    (row : List (Behind operators next)) :
    ∃ t rest, rowTokens first row = t :: rest ∧ t.kind ≠ .whitespace := by
  obtain ⟨t, rest, front, visible⟩ := begins first
  exact ⟨t, rest ++ row.flatMap Behind.tokens, by simp [rowTokens, front], visible⟩

theorem single_begins (begins : next.Begins) : (single operators next).Begins :=
  fun derivation => rowTokens_begins begins derivation.1 derivation.2.toList

theorem chain_begins (begins : next.Begins) : (chain operators next).Begins :=
  fun derivation => rowTokens_begins begins derivation.1 derivation.2

theorem single_unambiguous (fits : Fits operators kinds goesOn) (begins : next.Begins)
    (unambiguous : next.Unambiguous goesOn) :
    (single operators next).Unambiguous (kinds ++ goesOn) := by
  rintro ⟨first, second⟩ ⟨first', second'⟩ behind behind' stops stops' same
  obtain ⟨rfl, rows, ends⟩ := rowTokens_unambiguous fits begins unambiguous stops stops' same
  have seconds : second = second' := by
    cases second <;> cases second' <;> simp_all
  exact ⟨by rw [seconds], ends⟩

theorem chain_unambiguous (fits : Fits operators kinds goesOn) (begins : next.Begins)
    (unambiguous : next.Unambiguous goesOn) :
    (chain operators next).Unambiguous (kinds ++ goesOn) := by
  rintro ⟨first, row⟩ ⟨first', row'⟩ behind behind' stops stops' same
  obtain ⟨rfl, rfl, ends⟩ := rowTokens_unambiguous fits begins unambiguous stops stops' same
  exact ⟨rfl, ends⟩

end

theorem fits_power : Fits PowerOperator [.pow] [.dot] where
  belongs := by
    rintro t combine ⟨kind⟩
    simp [kind]
  determined := by
    rintro t combine combine' ⟨kind⟩ ⟨kind'⟩
    rfl
  apart := by decide

theorem fits_product : Fits ProductOperator [.mult, .div] [.pow, .dot] where
  belongs := by
    rintro t combine (kind | kind) <;> simp [kind]
  determined := by
    rintro t combine combine' (kind | kind) (kind' | kind') <;> simp_all
  apart := by decide

theorem fits_sum : Fits SumOperator [.add, .sub] [.mult, .div, .pow, .dot] where
  belongs := by
    rintro t combine (kind | kind) <;> simp [kind]
  determined := by
    rintro t combine combine' (kind | kind) (kind' | kind') <;> simp_all
  apart := by decide

theorem fits_ordering :
    Fits OrderOperator [.comparisonOp] [.add, .sub, .mult, .div, .pow, .dot] where
  belongs := by
    rintro t combine (⟨kind, text⟩ | ⟨kind, text⟩ | ⟨kind, text⟩ | ⟨kind, text⟩) <;> simp [kind]
  determined := by
    intro t combine combine' operator operator'
    cases operator <;> cases operator' <;> simp_all
  apart := by decide

theorem fits_equality :
    Fits EqualityOperator [.equalityOp] [.comparisonOp, .add, .sub, .mult, .div, .pow, .dot] where
  belongs := by
    rintro t combine (⟨kind, text⟩ | ⟨kind, text⟩) <;> simp [kind]
  determined := by
    intro t combine combine' operator operator'
    cases operator <;> cases operator' <;> simp_all
  apart := by decide

theorem fits_conjunction : Fits AndOperator [.conjunction]
    [.equalityOp, .comparisonOp, .add, .sub, .mult, .div, .pow, .dot] where
  belongs := by
    rintro t combine ⟨kind⟩
    simp [kind]
  determined := by
    rintro t combine combine' ⟨kind⟩ ⟨kind'⟩
    rfl
  apart := by decide

theorem fits_disjunction : Fits OrOperator [.disjunction]
    [.conjunction, .equalityOp, .comparisonOp, .add, .sub, .mult, .div, .pow, .dot] where
  belongs := by
    rintro t combine ⟨kind⟩
    simp [kind]
  determined := by
    rintro t combine combine' ⟨kind⟩ ⟨kind'⟩
    rfl
  apart := by decide

def operatorKinds : List TokenKind :=
  [.disjunction, .conjunction, .equalityOp, .comparisonOp, .add, .sub, .mult, .div, .pow, .dot]

theorem power_begins : power.Begins := single_begins primitive_begins

theorem product_begins : product.Begins := single_begins power_begins

theorem sum_begins : sum.Begins := chain_begins product_begins

theorem ordering_begins : ordering.Begins := single_begins sum_begins

theorem equality_begins : equality.Begins := single_begins ordering_begins

theorem conjunction_begins : conjunction.Begins := single_begins equality_begins

theorem disjunction_begins : disjunction.Begins := single_begins conjunction_begins

theorem disjunction_unambiguous : disjunction.Unambiguous operatorKinds := by
  -- Level by level; what a level could go on with grows by its own operators.
  have powers : power.Unambiguous _ :=
    single_unambiguous fits_power primitive_begins primitive_unambiguous
  have products : product.Unambiguous _ := single_unambiguous fits_product power_begins powers
  have sums : sum.Unambiguous _ := chain_unambiguous fits_sum product_begins products
  have orderings : ordering.Unambiguous _ := single_unambiguous fits_ordering sum_begins sums
  have equalities : equality.Unambiguous _ :=
    single_unambiguous fits_equality ordering_begins orderings
  have conjunctions : conjunction.Unambiguous _ :=
    single_unambiguous fits_conjunction equality_begins equalities
  exact single_unambiguous fits_disjunction conjunction_begins conjunctions

theorem stops_finish {blanks : List Token} {finish : Token} (blank : Blanks blanks)
    (ends : finish.kind = .eof) : Stops operatorKinds (blanks ++ [finish]) :=
  stops_blanks_cons blank (by simp [ends]) (by simp [ends, operatorKinds])

theorem empty_ne_expression {blanks before after : List Token} {finish finish' : Token}
    {body : disjunction.Derivation} (blank : Blanks blanks)
    (same : blanks ++ [finish] = before ++ disjunction.tokens body ++ after ++ [finish']) :
    False := by
  -- An expression begins with a token that can be seen, and would have to be blank throughout.
  obtain ⟨all, -⟩ := List.append_inj' same rfl
  obtain ⟨t, rest, front, visible⟩ := disjunction_begins body
  apply visible
  apply blank
  rw [all, front]
  simp

theorem program_unambiguous {program program' : Program} (same : program.tokens = program'.tokens) :
    program = program' := by
  cases program with
  | empty blanks finish blank ends =>
      cases program' with
      | empty blanks' finish' blank' ends' =>
          obtain ⟨rfl, last⟩ := List.append_inj' same rfl
          cases last
          rfl
      | expression => exact (empty_ne_expression blank same).elim
  | expression before body after finish front back ends =>
      cases program' with
      | empty blanks' finish' blank' ends' => exact (empty_ne_expression blank' same.symm).elim
      | expression before' body' after' finish' front' back' ends' =>
          simp only [Program.tokens, List.append_assoc] at same
          obtain ⟨rfl, bodies⟩ := disjunction_begins.blanks_unique front front' same
          obtain ⟨rfl, rest⟩ := disjunction_unambiguous _ _ _ _ (stops_finish back ends)
            (stops_finish back' ends') bodies
          obtain ⟨rfl, last⟩ := List.append_inj' rest rfl
          cases last
          rfl

end PredicateLang.Grammar
