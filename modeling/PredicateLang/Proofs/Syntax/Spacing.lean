import PredicateLang.Proofs.Syntax.Shapes

set_option autoImplicit false

namespace PredicateLang

def visible (tokens : List Token) : List (TokenKind × String) :=
  (tokens.filter fun t => t.kind ≠ .whitespace).map fun t => (t.kind, t.text)

def Token.bare (t : Token) : Token := { t with position := Position.start }

def skeleton (tokens : List Token) : List Token :=
  (tokens.filter fun t => t.kind ≠ .whitespace).map Token.bare

theorem skeleton_of_visible {tokens tokens' : List Token} (same : visible tokens = visible tokens') :
    skeleton tokens = skeleton tokens' := by
  have told (tokens : List Token) :
      skeleton tokens = (visible tokens).map fun seen => ⟨seen.1, Position.start, seen.2⟩ := by
    simp only [skeleton, visible, List.map_map]
    rfl
  rw [told, told, same]

@[simp] theorem skeleton_nil : skeleton [] = [] := rfl

@[simp] theorem skeleton_append (front rest : List Token) :
    skeleton (front ++ rest) = skeleton front ++ skeleton rest := by
  simp [skeleton]

theorem skeleton_cons {t : Token} (marked : t.kind ≠ .whitespace) (rest : List Token) :
    skeleton (t :: rest) = t.bare :: skeleton rest := by
  simp [skeleton, marked]

namespace Grammar

@[simp] theorem Blanks.nil : Blanks [] := List.forall_mem_nil _

theorem Blanks.single {t : Token} (blank : t.kind = .whitespace) : Blanks [t] :=
  List.forall_mem_singleton.mpr blank

theorem Blanks.skeleton {blanks : List Token} (blank : Blanks blanks) : skeleton blanks = [] := by
  rw [PredicateLang.skeleton, List.filter_eq_nil_iff.mpr fun t present => by simp [blank t present]]
  rfl

def Rule.Bares (rule : Rule) : Prop :=
  ∀ derivation, ∃ bare, rule.tokens bare = skeleton (rule.tokens derivation) ∧
    rule.tree bare = (rule.tree derivation).bare

def Operators.Bare (operators : Operators) : Prop :=
  ∀ t combine, operators t combine → t.kind ≠ .whitespace ∧ ∃ joined, operators t.bare joined ∧
    ∀ left right, joined left.bare right.bare = (combine left right).bare

theorem bare_power : Operators.Bare PowerOperator := by
  rintro t combine ⟨kind⟩
  exact ⟨by simp [kind], _, .pow kind, fun _ _ => rfl⟩

theorem bare_product : Operators.Bare ProductOperator := by
  rintro t combine (kind | kind)
  · exact ⟨by simp [kind], _, .mul kind, fun _ _ => rfl⟩
  · exact ⟨by simp [kind], _, .div kind, fun _ _ => rfl⟩

theorem bare_sum : Operators.Bare SumOperator := by
  rintro t combine (kind | kind)
  · exact ⟨by simp [kind], _, .add kind, fun _ _ => rfl⟩
  · exact ⟨by simp [kind], _, .sub kind, fun _ _ => rfl⟩

theorem bare_order : Operators.Bare OrderOperator := by
  rintro t combine (⟨kind, text⟩ | ⟨kind, text⟩ | ⟨kind, text⟩ | ⟨kind, text⟩)
  · exact ⟨by simp [kind], _, .lt kind text, fun _ _ => rfl⟩
  · exact ⟨by simp [kind], _, .gt kind text, fun _ _ => rfl⟩
  · exact ⟨by simp [kind], _, .le kind text, fun _ _ => rfl⟩
  · exact ⟨by simp [kind], _, .ge kind text, fun _ _ => rfl⟩

theorem bare_equality : Operators.Bare EqualityOperator := by
  rintro t combine (⟨kind, text⟩ | ⟨kind, text⟩)
  · exact ⟨by simp [kind], _, .eq kind text, fun _ _ => rfl⟩
  · exact ⟨by simp [kind], _, .ne kind text, fun _ _ => rfl⟩

theorem bare_and : Operators.Bare AndOperator := by
  rintro t combine ⟨kind⟩
  exact ⟨by simp [kind], _, .and kind, fun _ _ => rfl⟩

theorem bare_or : Operators.Bare OrOperator := by
  rintro t combine ⟨kind⟩
  exact ⟨by simp [kind], _, .or kind, fun _ _ => rfl⟩

section

variable {operators : Operators} {next : Rule}

theorem bares_behind (bare : operators.Bare) (bares : next.Bares) (behind : Behind operators next) :
    ∃ bared : Behind operators next, bared.tokens = skeleton behind.tokens ∧
      ∀ left, bared.join left.bare = (behind.join left).bare := by
  obtain ⟨before, op, after, combine, right, front, isOperator, back⟩ := behind
  obtain ⟨marked, joined, means, joins⟩ := bare op combine isOperator
  obtain ⟨operand, operandTokens, operandTree⟩ := bares right
  refine ⟨⟨[], op.bare, [], joined, operand, .nil, means, .nil⟩, ?_, fun left => ?_⟩
  · simp [Behind.tokens, operandTokens, front.skeleton, back.skeleton, skeleton_cons marked]
  · simp only [Behind.join, operandTree, joins]

theorem bares_row (bare : operators.Bare) (bares : next.Bares) (row : List (Behind operators next)) :
    ∃ bared : List (Behind operators next),
      bared.flatMap Behind.tokens = skeleton (row.flatMap Behind.tokens) ∧
        ∀ left, bared.foldl Behind.join left.bare = (row.foldl Behind.join left).bare := by
  induction row with
  | nil => exact ⟨[], rfl, fun _ => rfl⟩
  | cons behind row ih =>
      obtain ⟨first, firstTokens, joins⟩ := bares_behind bare bares behind
      obtain ⟨others, otherTokens, folds⟩ := ih
      refine ⟨first :: others, ?_, fun left => ?_⟩
      · simp only [List.flatMap_cons, skeleton_append, firstTokens, otherTokens]
      · simp only [List.foldl_cons, joins, folds]

theorem bares_chain (bare : operators.Bare) (bares : next.Bares) : (chain operators next).Bares := by
  intro ⟨first, row⟩
  obtain ⟨operand, operandTokens, operandTree⟩ := bares first
  obtain ⟨others, otherTokens, folds⟩ := bares_row bare bares row
  refine ⟨(operand, others), ?_, ?_⟩
  · simp only [chain, rowTokens, skeleton_append, operandTokens, otherTokens]
  · simp only [chain, rowTree, operandTree, folds]

theorem bares_single (bare : operators.Bare) (bares : next.Bares) : (single operators next).Bares := by
  intro ⟨first, second⟩
  obtain ⟨operand, operandTokens, operandTree⟩ := bares first
  cases second with
  | none => exact ⟨(operand, none), by simpa [single, rowTokens] using operandTokens, operandTree⟩
  | some behind =>
      obtain ⟨bared, baredTokens, joins⟩ := bares_behind bare bares behind
      refine ⟨(operand, some bared), ?_, ?_⟩
      · simp [single, rowTokens, operandTokens, baredTokens]
      · simp [single, rowTree, operandTree, joins]

end

theorem bares_path (path : List Segment) : ∃ bared : List Segment,
    pathTokens bared = skeleton (pathTokens path) ∧ pathNames bared = pathNames path := by
  induction path with
  | nil => exact ⟨[], rfl, rfl⟩
  | cons segment path ih =>
      obtain ⟨dot, blanks, key, isDot, blank, isName⟩ := segment
      obtain ⟨others, otherTokens, names⟩ := ih
      refine ⟨⟨dot.bare, [], key.bare, isDot, .nil, isName⟩ :: others, ?_, ?_⟩
      · simp only [pathTokens, List.flatMap_cons, Segment.tokens] at otherTokens ⊢
        rw [skeleton_append, skeleton_append, skeleton_cons (by simp [isDot]), blank.skeleton,
          skeleton_cons (by simp [isName]), otherTokens]
        rfl
      · simp only [pathNames, List.map_cons] at names ⊢
        rw [names]
        rfl

theorem bares_primitive : primitive.Bares := by
  intro leaf
  cases leaf with
  | plain base path isName =>
      obtain ⟨others, otherTokens, names⟩ := bares_path path
      refine ⟨.plain base.bare others isName, ?_, ?_⟩
      · simp only [primitive, Leaf.tokens, skeleton_cons (t := base) (by simp [isName]), otherTokens]
      · simp only [primitive, Leaf.tree, names]
        rfl
  | external sign base path isSign isName =>
      obtain ⟨others, otherTokens, names⟩ := bares_path path
      refine ⟨.external sign.bare base.bare others isSign isName, ?_, ?_⟩
      · simp only [primitive, Leaf.tokens, skeleton_cons (t := sign) (by simp [isSign]),
          skeleton_cons (t := base) (by simp [isName]), otherTokens]
      · simp only [primitive, Leaf.tree, names]
        rfl
  | string t isString => exact ⟨.string t.bare isString, (skeleton_cons (by simp [isString]) []).symm, rfl⟩
  | number t isNumber => exact ⟨.number t.bare isNumber, (skeleton_cons (by simp [isNumber]) []).symm, rfl⟩
  | boolean t isBool => exact ⟨.boolean t.bare isBool, (skeleton_cons (by simp [isBool]) []).symm, rfl⟩

theorem bares_disjunction : disjunction.Bares :=
  bares_single bare_or <| bares_single bare_and <| bares_single bare_equality <|
    bares_single bare_order <| bares_chain bare_sum <| bares_single bare_product <|
      bares_single bare_power bares_primitive

theorem Program.bares (derivation : Program) : ∃ bared : Program,
    bared.tokens = skeleton derivation.tokens ∧ bared.tree = derivation.tree.bare := by
  cases derivation with
  | empty blanks finish blank ends =>
      refine ⟨.empty [] finish.bare .nil ends, ?_, rfl⟩
      simp [tokens, blank.skeleton, skeleton_cons (t := finish) (by simp [ends])]
  | expression before body after finish front back ends =>
      obtain ⟨bared, baredTokens, baredTree⟩ := bares_disjunction body
      refine ⟨.expression [] bared [] finish.bare .nil .nil ends, ?_, ?_⟩
      · simp [tokens, baredTokens, front.skeleton, back.skeleton,
          skeleton_cons (t := finish) (by simp [ends])]
      · simp only [tree, baredTree]
        rfl

theorem Program.bare_eq_of_skeleton {one two : Program}
    (same : skeleton one.tokens = skeleton two.tokens) : one.tree.bare = two.tree.bare := by
  obtain ⟨bared, tokens, tree⟩ := one.bares
  obtain ⟨bared', tokens', tree'⟩ := two.bares
  have alike : bared = bared' := program_unambiguous (tokens.trans (same.trans tokens'.symm))
  rw [← tree, ← tree', alike]

end Grammar

theorem bare_eq_of_visible {keywordBoundary : Bool} {source source' : String} {root root' : Node}
    {tokens tokens' : List Token}
    (parsed : parse (Scanner.ofString keywordBoundary source) = .ok root)
    (parsed' : parse (Scanner.ofString keywordBoundary source') = .ok root')
    (scanned : allTokens (Scanner.ofString keywordBoundary source) = .ok tokens)
    (scanned' : allTokens (Scanner.ofString keywordBoundary source') = .ok tokens')
    (same : visible tokens = visible tokens') : root.bare = root'.bare := by
  obtain ⟨one, rfl, derived⟩ := derived_of_parse parsed
  obtain ⟨two, rfl, derived'⟩ := derived_of_parse parsed'
  cases scanned.symm.trans derived
  cases scanned'.symm.trans derived'
  exact Grammar.Program.bare_eq_of_skeleton (skeleton_of_visible same)

end PredicateLang
