import PredicateLang.Proofs.Syntax.Shapes
import PredicateLang.Proofs.Token.Words

set_option autoImplicit false

namespace PredicateLang

namespace Node

mutual

def names : Node → List Identifier
  | .program _ items => namesAll items
  | .identifier _ name => [name]
  | .primitive _ inner => inner.names
  | .literal _ _ _ => []
  | .compare _ _ _ left right => left.names ++ right.names
  | .arith _ _ left right => left.names ++ right.names
  | .logical _ _ left right => left.names ++ right.names

def namesAll : List Node → List Identifier
  | [] => []
  | node :: rest => node.names ++ namesAll rest

end

def references (node : Node) : List String :=
  (node.names.filter Identifier.external).map Identifier.base

/-- How many values an expression has to hold at once, its operands taken from left to right. -/
def depth : Node → Nat
  | .compare _ _ _ left right => max left.depth (right.depth + 1)
  | .arith _ _ left right => max left.depth (right.depth + 1)
  | .logical _ _ left right => max left.depth (right.depth + 1)
  | _ => 1

variable {node left right : Node}

theorem names_operator (operands : node.operands? = some (left, right)) :
    node.names = left.names ++ right.names := by
  cases node <;> cases operands <;> rw [names]

theorem references_operator (operands : node.operands? = some (left, right)) :
    node.references = left.references ++ right.references := by
  simp only [references, names_operator operands, List.filter_append, List.map_append]

theorem depth_operator (operands : node.operands? = some (left, right)) :
    node.depth = max left.depth (right.depth + 1) := by
  cases node <;> cases operands <;> rfl

end Node

def externals : List Token → List String
  | [] => []
  | t :: rest =>
      if t.kind = .atSign then (rest.head?.map Token.text).toList ++ externals rest
      else externals rest

theorem externals_unsigned {front : List Token} (unsigned : ∀ t ∈ front, t.kind ≠ .atSign)
    (behind : List Token) : externals (front ++ behind) = externals behind := by
  induction front with
  | nil => rfl
  | cons t front ih =>
      rw [List.cons_append, externals, if_neg (unsigned t List.mem_cons_self)]
      exact ih fun t later => unsigned t (List.mem_cons_of_mem _ later)

namespace Grammar

theorem Blanks.unsigned {tokens : List Token} (blank : Blanks tokens) :
    ∀ t ∈ tokens, t.kind ≠ .atSign := by
  intro t present
  simp [blank t present]

def Operators.Joins (operators : Operators) : Prop :=
  ∀ t combine, operators t combine → t.kind ≠ .atSign ∧
    ∀ left right, (combine left right).operands? = some (left, right)

theorem joins_power : Operators.Joins PowerOperator := by
  rintro t combine ⟨kind⟩
  exact ⟨by simp [kind], fun _ _ => rfl⟩

theorem joins_product : Operators.Joins ProductOperator := by
  rintro t combine (kind | kind) <;> exact ⟨by simp [kind], fun _ _ => rfl⟩

theorem joins_sum : Operators.Joins SumOperator := by
  rintro t combine (kind | kind) <;> exact ⟨by simp [kind], fun _ _ => rfl⟩

theorem joins_order : Operators.Joins OrderOperator := by
  rintro t combine (kind | kind | kind | kind) <;> exact ⟨by simp [kind], fun _ _ => rfl⟩

theorem joins_equality : Operators.Joins EqualityOperator := by
  rintro t combine (kind | kind) <;> exact ⟨by simp [kind], fun _ _ => rfl⟩

theorem joins_and : Operators.Joins AndOperator := by
  rintro t combine ⟨kind⟩
  exact ⟨by simp [kind], fun _ _ => rfl⟩

theorem joins_or : Operators.Joins OrOperator := by
  rintro t combine ⟨kind⟩
  exact ⟨by simp [kind], fun _ _ => rfl⟩

section

variable {operators : Operators} {next : Rule}

structure Lists (tokens : List Token) (node : Node) : Prop where
  references : ∀ behind, externals (tokens ++ behind) = node.references ++ externals behind
  keys : ∀ name ∈ node.names, ∀ key ∈ name.path, ∃ t ∈ tokens, t.kind = .identifier ∧ t.text = key

def Rule.Lists (rule : Rule) : Prop :=
  ∀ derivation, Grammar.Lists (rule.tokens derivation) (rule.tree derivation)

theorem lists_join (joins : operators.Joins) (lists : next.Lists) {front : List Token} {left : Node}
    (first : Lists front left) (behind : Behind operators next) :
    Lists (front ++ behind.tokens) (behind.join left) := by
  obtain ⟨unsigned, operands⟩ := joins behind.op behind.combine behind.isOperator
  have second := lists behind.right
  replace operands : (behind.join left).operands? = some (left, next.tree behind.right) :=
    operands left _
  constructor
  · intro rest
    have between : ∀ t ∈ behind.before ++ behind.op :: behind.after, t.kind ≠ .atSign := by
      intro t present
      rcases List.mem_append.mp present with before | here
      · exact behind.front.unsigned t before
      · rcases List.mem_cons.mp here with rfl | after
        · exact unsigned
        · exact behind.back.unsigned t after
    have split : front ++ behind.tokens ++ rest = front ++
        ((behind.before ++ behind.op :: behind.after) ++ (next.tokens behind.right ++ rest)) := by
      simp [Behind.tokens]
    rw [split, first.references, externals_unsigned between, second.references,
      Node.references_operator operands, List.append_assoc]
  · intro name among key part
    rw [Node.names_operator operands, List.mem_append] at among
    rcases among with left | right
    · obtain ⟨t, present, same⟩ := first.keys name left key part
      exact ⟨t, List.mem_append_left _ present, same⟩
    · obtain ⟨t, present, same⟩ := second.keys name right key part
      exact ⟨t, by simp [Behind.tokens, present], same⟩

theorem lists_chain (joins : operators.Joins) (lists : next.Lists) : (chain operators next).Lists :=
  fun derivation =>
    @row_induction _ _ Grammar.Lists (fun _ _ behind first => lists_join joins lists first behind)
      derivation.2 _ _ (lists derivation.1)

theorem lists_single (joins : operators.Joins) (lists : next.Lists) : (single operators next).Lists :=
  fun derivation => lists_chain joins lists (derivation.1, derivation.2.toList)

def Rule.Within (rule : Rule) (most : Nat) : Prop := ∀ derivation, (rule.tree derivation).depth ≤ most

theorem within_chain (joins : operators.Joins) {most : Nat} (within : next.Within most) :
    (chain operators next).Within (most + 1) := by
  intro derivation
  refine @row_induction _ _ (fun _ node => node.depth ≤ most + 1) ?_ derivation.2
    (next.tokens derivation.1) _ (Nat.le_succ_of_le (within derivation.1))
  intro front left behind first
  have operands := (joins _ _ behind.isOperator).2 left (next.tree behind.right)
  have right := within behind.right
  rw [Behind.join, Node.depth_operator operands]
  omega

theorem within_single (joins : operators.Joins) {most : Nat} (within : next.Within most) :
    (single operators next).Within (most + 1) :=
  fun derivation => within_chain joins within (derivation.1, derivation.2.toList)

end

theorem unsigned_path (path : List Segment) : ∀ t ∈ pathTokens path, t.kind ≠ .atSign := by
  intro t present
  obtain ⟨segment, -, inside⟩ := List.mem_flatMap.mp present
  simp only [Segment.tokens, List.cons_append, List.mem_cons, List.mem_append, List.not_mem_nil,
    or_false] at inside
  rcases inside with rfl | blank | rfl
  · simp [segment.isDot]
  · exact segment.blank.unsigned t blank
  · simp [segment.isName]

theorem key_of_path {path : List Segment} {key : String} (part : key ∈ pathNames path) :
    ∃ t ∈ pathTokens path, t.kind = .identifier ∧ t.text = key := by
  obtain ⟨segment, among, rfl⟩ := List.mem_map.mp part
  exact ⟨segment.key, List.mem_flatMap.mpr ⟨segment, among, by simp [Segment.tokens]⟩,
    segment.isName, rfl⟩

theorem lists_literal {t : Token} (unsigned : t.kind ≠ .atSign) (kind : LiteralKind) :
    Lists [t] (.primitive t.position (.literal t.position kind t.text)) where
  references := externals_unsigned (by simpa using unsigned)
  keys := nofun

theorem lists_primitive : primitive.Lists := by
  intro leaf
  cases leaf with
  | plain base path isName =>
      constructor
      · exact externals_unsigned (List.forall_mem_cons.mpr ⟨by simp [isName], unsigned_path path⟩)
      · intro name among key part
        obtain rfl := List.mem_singleton.mp among
        obtain ⟨t, present, same⟩ := key_of_path part
        exact ⟨t, List.mem_cons_of_mem _ present, same⟩
  | external sign base path isSign isName =>
      constructor
      · intro behind
        have silent := externals_unsigned
          (List.forall_mem_cons.mpr ⟨by simp [isName], unsigned_path path⟩ :
            ∀ t ∈ base :: pathTokens path, t.kind ≠ .atSign) behind
        simp only [primitive, Leaf.tokens, List.cons_append] at silent ⊢
        rw [externals, if_pos isSign, silent]
        rfl
      · intro name among key part
        obtain rfl := List.mem_singleton.mp among
        obtain ⟨t, present, same⟩ := key_of_path part
        exact ⟨t, List.mem_cons_of_mem _ (List.mem_cons_of_mem _ present), same⟩
  | string t isString => exact lists_literal (by simp [isString]) .string
  | number t isNumber => exact lists_literal (by simp [isNumber]) .number
  | boolean t isBool => exact lists_literal (by simp [isBool]) .boolean

theorem lists_disjunction : disjunction.Lists :=
  lists_single joins_or <| lists_single joins_and <| lists_single joins_equality <|
    lists_single joins_order <| lists_chain joins_sum <| lists_single joins_product <|
      lists_single joins_power lists_primitive

theorem within_primitive : primitive.Within 1 := by
  intro leaf
  cases leaf <;> exact Nat.le_refl 1

theorem within_disjunction : disjunction.Within 8 :=
  within_single joins_or <| within_single joins_and <| within_single joins_equality <|
    within_single joins_order <| within_chain joins_sum <| within_single joins_product <|
      within_single joins_power within_primitive

end Grammar

structure Node.Parsed (node : Node) : Prop where
  sound : node.Sound
  shallow : node.depth ≤ 8
  uncounted : ∀ name ∈ node.names, ∀ key ∈ name.path, Count.read? key = none

section

variable {keywordBoundary : Bool} {source : String} {root : Node}

theorem expression_of_parse (parsed : parse (Scanner.ofString keywordBoundary source) = .ok root) :
    (root = .emptyProgram ∧ ∀ c ∈ source.toList, isBlank c = true) ∨
      ∃ node, root = .program .start [node] ∧ node.Parsed := by
  obtain ⟨derivation, rfl, tokenized⟩ := derived_of_parse parsed
  cases derivation with
  | empty blanks finish blank ends =>
      refine .inl ⟨rfl, Scanner.blank_of_allTokens tokenized fun t present => ?_⟩
      rcases List.mem_append.mp present with front | last
      · exact .inl (blank t front)
      · obtain rfl := List.mem_singleton.mp last
        exact .inr ends
  | expression before body after finish front back ends =>
      have inside : ∀ t ∈ Grammar.disjunction.tokens body,
          t ∈ (Grammar.Program.expression before body after finish front back ends).tokens := by
        intro t present
        simp [Grammar.Program.tokens, present]
      refine .inr ⟨_, rfl, ?_, Grammar.within_disjunction body, ?_⟩
      · exact Grammar.builds_disjunction body fun t present =>
          Scanner.legible_of_allTokens tokenized t (inside t present)
      · intro name among key part
        obtain ⟨t, present, named, rfl⟩ := (Grammar.lists_disjunction body).keys name among key part
        exact Scanner.uncounted_of_allTokens tokenized t (inside t present) named

theorem Grammar.Program.references_tree (derivation : Grammar.Program) :
    derivation.tree.references = externals derivation.tokens := by
  cases derivation with
  | empty blanks finish blank ends =>
      have unsigned : ∀ t ∈ blanks ++ [finish], t.kind ≠ .atSign := by
        intro t present
        rcases List.mem_append.mp present with front | last
        · exact blank.unsigned t front
        · simp [List.mem_singleton.mp last, ends]
      have silent := externals_unsigned unsigned []
      rw [List.append_nil] at silent
      exact silent.symm
  | expression before body after finish front back ends =>
      have unsigned : ∀ t ∈ after ++ [finish], t.kind ≠ .atSign := by
        intro t present
        rcases List.mem_append.mp present with inside | last
        · exact back.unsigned t inside
        · simp [List.mem_singleton.mp last, ends]
      have silent := externals_unsigned unsigned []
      rw [List.append_nil] at silent
      have root : (Node.program .start [disjunction.tree body]).references =
          (disjunction.tree body).references := by
        simp [Node.references, Node.names, Node.namesAll]
      rw [tree, root, tokens, List.append_assoc, List.append_assoc,
        externals_unsigned front.unsigned, (lists_disjunction body).references, silent]
      exact (List.append_nil _).symm

theorem references_of_parse (parsed : parse (Scanner.ofString keywordBoundary source) = .ok root) :
    ∃ tokens, allTokens (Scanner.ofString keywordBoundary source) = .ok tokens ∧
      root.references = externals tokens := by
  obtain ⟨derivation, rfl, tokenized⟩ := derived_of_parse parsed
  exact ⟨derivation.tokens, tokenized, derivation.references_tree⟩

end

end PredicateLang
