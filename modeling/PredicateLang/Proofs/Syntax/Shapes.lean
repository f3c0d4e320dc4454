import PredicateLang.Evaluation
import PredicateLang.Proofs.Syntax.Programs
import PredicateLang.Proofs.Token.Streams

set_option autoImplicit false

namespace PredicateLang

namespace Node

def operands? : Node → Option (Node × Node)
  | .compare _ _ _ left right => some (left, right)
  | .arith _ _ left right => some (left, right)
  | .logical _ _ left right => some (left, right)
  | _ => none

def Arithmetical : Node → Prop
  | .primitive _ _ => True
  | .arith _ _ _ _ => True
  | _ => False

inductive Sound : Node → Prop
  | name {position place : Position} (name : Identifier) :
      Sound (.primitive position (.identifier place name))
  | literal {position place : Position} {kind : LiteralKind} {raw : String} {v : Value}
      (known : Term.literalOf? kind raw = some v) :
      Sound (.primitive position (.literal place kind raw))
  | operator {node left right : Node} (operands : node.operands? = some (left, right))
      (one : Sound left) (two : Sound right) (level : node.Arithmetical → left.Arithmetical) :
      Sound node

theorem Sound.operand {node left right : Node} (sound : node.Sound)
    (operands : node.operands? = some (left, right)) :
    left.Sound ∧ right.Sound ∧ (node.Arithmetical → left.Arithmetical) := by
  cases sound with
  | name | literal => cases operands
  | operator own one two level =>
      cases own.symm.trans operands
      exact ⟨one, two, level⟩

end Node

namespace Grammar

def Rule.Builds (rule : Rule) (good : Node → Prop) : Prop :=
  ∀ derivation, (∀ t ∈ rule.tokens derivation, t.Legible) → good (rule.tree derivation)

def Keeps (operators : Operators) (good : Node → Prop) : Prop :=
  ∀ t combine, operators t combine → ∀ left right, good left → good right → good (combine left right)

theorem Rule.Builds.mono {rule : Rule} {good better : Node → Prop} (builds : rule.Builds better)
    (le : ∀ node, better node → good node) : rule.Builds good :=
  fun derivation legible => le _ (builds derivation legible)

section

variable {operators : Operators} {next : Rule} {good : Node → Prop}

theorem row_induction {related : List Token → Node → Prop}
    (joins : ∀ front left (behind : Behind operators next), related front left →
      related (front ++ behind.tokens) (behind.join left))
    (row : List (Behind operators next)) {front : List Token} {left : Node}
    (first : related front left) :
    related (front ++ row.flatMap Behind.tokens) (row.foldl Behind.join left) := by
  induction row generalizing front left with
  | nil => simpa using first
  | cons behind row ih =>
      rw [List.flatMap_cons, ← List.append_assoc]
      exact ih (joins front left behind first)

theorem builds_chain (keeps : Keeps operators good) (builds : next.Builds good) :
    (chain operators next).Builds good := by
  intro ⟨first, row⟩
  refine @row_induction _ _ (fun tokens node => (∀ t ∈ tokens, t.Legible) → good node) ?_ row _ _
    (builds first)
  intro front left behind inside legible
  rw [List.forall_mem_append] at legible
  have right : good (next.tree behind.right) := builds behind.right fun t present =>
    legible.2 t (by simp [Behind.tokens, present])
  exact keeps behind.op behind.combine behind.isOperator _ _ (inside legible.1) right

theorem builds_single (keeps : Keeps operators good) (builds : next.Builds good) :
    (single operators next).Builds good :=
  fun derivation legible => builds_chain keeps builds (derivation.1, derivation.2.toList) legible

end

def Summand (node : Node) : Prop := node.Sound ∧ node.Arithmetical

theorem builds_primitive : primitive.Builds Summand := by
  intro leaf legible
  refine ⟨?_, by cases leaf <;> trivial⟩
  cases leaf with
  | plain base path isName => exact .name _
  | external sign base path isSign isName => exact .name _
  | string t isString => exact .literal rfl
  | boolean t isBool => exact .literal rfl
  | number t isNumber =>
      obtain ⟨x, read⟩ := Option.isSome_iff_exists.mp (legible t (List.mem_singleton.mpr rfl) isNumber)
      exact .literal (congrArg (Option.map Value.double) read)

theorem summand_arith {position : Position} {op : Arithmetic} {left right : Node}
    (one : Summand left) (two : Summand right) : Summand (.arith position op left right) :=
  ⟨.operator rfl one.1 two.1 fun _ => one.2, trivial⟩

theorem builds_sum : sum.Builds Summand := by
  have power : power.Builds Summand := by
    refine builds_single ?_ builds_primitive
    rintro t combine ⟨⟩ left right one two
    exact summand_arith one two
  have product : product.Builds Summand := by
    refine builds_single ?_ power
    rintro t combine (_ | _) left right one two <;> exact summand_arith one two
  refine builds_chain ?_ product
  rintro t combine (_ | _) left right one two <;> exact summand_arith one two

theorem builds_disjunction : disjunction.Builds Node.Sound := by
  have ordering : ordering.Builds Node.Sound := by
    refine builds_single ?_ (builds_sum.mono fun _ => And.left)
    rintro t combine (_ | _ | _ | _) left right one two <;> exact .operator rfl one two False.elim
  have equality : equality.Builds Node.Sound := by
    refine builds_single ?_ ordering
    rintro t combine (_ | _) left right one two <;> exact .operator rfl one two False.elim
  have conjunction : conjunction.Builds Node.Sound := by
    refine builds_single ?_ equality
    rintro t combine ⟨⟩ left right one two
    exact .operator rfl one two False.elim
  refine builds_single ?_ conjunction
  rintro t combine ⟨⟩ left right one two
  exact .operator rfl one two False.elim

end Grammar

theorem derived_of_parse {keywordBoundary : Bool} {source : String} {root : Node}
    (parsed : parse (Scanner.ofString keywordBoundary source) = .ok root) :
    ∃ derivation : Grammar.Program, derivation.tree = root ∧
      allTokens (Scanner.ofString keywordBoundary source) = .ok derivation.tokens := by
  have spelled := Cursor.spelled_scanner (Scanner.drained_ofFeed keywordBoundary (.ofString source)) none
  cases found : Cursor.program (Cursor.ofSupply (Scanner.ofString keywordBoundary source)) with
  | mk result last =>
      rw [parse, found] at parsed
      replace parsed : result = .ok root := parsed
      subst parsed
      obtain ⟨derivation, derives, same⟩ := Cursor.program_derived spelled found
      obtain ⟨front, finish, whole, ends⟩ := Cursor.tokens_end derivation
      obtain ⟨tokenized, -⟩ := Cursor.allTokens_of_upcoming none (derives.symm.trans whole) ends
      rw [← whole] at tokenized
      exact ⟨derivation, same, tokenized⟩

theorem derivation_of_parse {keywordBoundary : Bool} {source : String} {root : Node}
    (parsed : parse (Scanner.ofString keywordBoundary source) = .ok root) :
    ∃ derivation : Grammar.Program, derivation.tree = root ∧
      ∀ t ∈ derivation.tokens, t.Legible := by
  obtain ⟨derivation, same, tokenized⟩ := derived_of_parse parsed
  exact ⟨derivation, same, Scanner.legible_of_allTokens tokenized⟩

def Token.space (column : UInt32) : Token := ⟨.whitespace, ⟨1, column, column⟩, " "⟩

theorem Grammar.blanks_space (column : UInt32) : Grammar.Blanks [.space column] := by
  simp [Blanks, Token.space]

theorem parse_of_rules {keywordBoundary : Bool} {source : String} (most : Nat)
    (derivation : Grammar.Program)
    (found : Rules.tokens? keywordBoundary most (.ofString source) = some derivation.tokens)
    (legal : ∀ t ∈ derivation.tokens, t.kind ≠ .illegal) :
    parse (Scanner.ofString keywordBoundary source) = .ok derivation.tree :=
  parse_of_tokens
    (Scanner.allTokens_of_rules (Scanner.stands_ofString keywordBoundary source) found) legal rfl

theorem shape_of_parse {keywordBoundary : Bool} {source : String} {root : Node}
    (parsed : parse (Scanner.ofString keywordBoundary source) = .ok root) :
    root = .emptyProgram ∨ ∃ node, root = .program .start [node] ∧ node.Sound := by
  obtain ⟨derivation, rfl, legible⟩ := derivation_of_parse parsed
  cases derivation with
  | empty => exact .inl rfl
  | expression before body after finish front back ends =>
      refine .inr ⟨_, rfl, Grammar.builds_disjunction body fun t present => legible t ?_⟩
      simp [Grammar.Program.tokens, present]

end PredicateLang
