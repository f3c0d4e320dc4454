import PredicateLang.Proofs.Syntax.Lexemes
import PredicateLang.Proofs.Syntax.Shapes

set_option autoImplicit false

namespace PredicateLang

inductive Operator
  | comparison (op : Comparison)
  | arithmetic (op : Arithmetic)
  | connective (op : Connective)
  deriving DecidableEq

namespace Operator

def all : List Operator :=
  Comparison.all.map .comparison ++ Arithmetic.all.map .arithmetic ++ [.connective .and, .connective .or]

def symbol : Operator → String
  | .comparison op => op.symbol
  | .arithmetic op => op.symbol
  | .connective op => op.word

def join (position : Position) : Operator → Node → Node → Node
  | .comparison op => .comparison position op
  | .arithmetic op => .arith position op
  | .connective op => .logical position op

theorem mem_all (op : Operator) : op ∈ all := by
  cases op with
  | comparison op => cases op <;> decide
  | arithmetic op => cases op <;> decide
  | connective op => cases op <;> decide

end Operator

def Token.Worded (t : Token) : Prop := t.kind.Takes t.written.toList

theorem Token.written_of_text {t : Token} (bare : t.kind ≠ .string) : t.written = t.text := if_neg bare

theorem Token.Worded.written_eq {t : Token} {kind : TokenKind} {symbol : String} (worded : t.Worded)
    (same : t.kind = kind) (fixed : ∀ word, kind.Takes word → (word, kind) ∈ Rules.fixed)
    (only : ∀ entry ∈ Rules.fixed, entry.2 = kind → entry.1 = symbol.toList) : t.written = symbol := by
  rw [Token.Worded, same] at worded
  exact String.toList_inj.mp (only _ (fixed _ worded) rfl)

namespace Grammar

def Operators.Spelled (operators : Operators) : Prop :=
  ∀ t combine, operators t combine → t.Worded →
    ∃ op : Operator, combine = op.join t.position ∧ t.written = op.symbol

theorem spelled_power : Operators.Spelled PowerOperator := by
  rintro t combine ⟨kind⟩ worded
  exact ⟨.arithmetic .pow, rfl, worded.written_eq kind (fun _ => id) (by decide)⟩

theorem spelled_product : Operators.Spelled ProductOperator := by
  rintro t combine (kind | kind) worded
  · exact ⟨.arithmetic .mul, rfl, worded.written_eq kind (fun _ => id) (by decide)⟩
  · exact ⟨.arithmetic .div, rfl, worded.written_eq kind (fun _ => id) (by decide)⟩

theorem spelled_sum : Operators.Spelled SumOperator := by
  rintro t combine (kind | kind) worded
  · exact ⟨.arithmetic .add, rfl, worded.written_eq kind (fun _ => id) (by decide)⟩
  · exact ⟨.arithmetic .sub, rfl, worded.written_eq kind (fun _ => id) (by decide)⟩

theorem spelled_order : Operators.Spelled OrderOperator := by
  rintro t combine (⟨kind, text⟩ | ⟨kind, text⟩ | ⟨kind, text⟩ | ⟨kind, text⟩) - <;>
    have written := (Token.written_of_text (by simp [kind])).trans text
  · exact ⟨.comparison .lt, rfl, written⟩
  · exact ⟨.comparison .gt, rfl, written⟩
  · exact ⟨.comparison .le, rfl, written⟩
  · exact ⟨.comparison .ge, rfl, written⟩

theorem spelled_equality : Operators.Spelled EqualityOperator := by
  rintro t combine (⟨kind, text⟩ | ⟨kind, text⟩) - <;>
    have written := (Token.written_of_text (by simp [kind])).trans text
  · exact ⟨.comparison .eq, rfl, written⟩
  · exact ⟨.comparison .ne, rfl, written⟩

theorem spelled_and : Operators.Spelled AndOperator := by
  rintro t combine ⟨kind⟩ worded
  exact ⟨.connective .and, rfl, worded.written_eq kind (fun _ => id) (by decide)⟩

theorem spelled_or : Operators.Spelled OrOperator := by
  rintro t combine ⟨kind⟩ worded
  exact ⟨.connective .or, rfl, worded.written_eq kind (fun _ => id) (by decide)⟩

section

variable {operators : Operators} {next : Rule} {related : List Token → Node → Prop}

def Rule.Relates (rule : Rule) (related : List Token → Node → Prop) : Prop :=
  ∀ derivation, (∀ t ∈ rule.tokens derivation, t.Worded) →
    related (rule.tokens derivation) (rule.tree derivation)

def Joined (related : List Token → Node → Prop) : Prop :=
  ∀ ⦃front before after behind : List Token⦄ ⦃left right : Node⦄ ⦃t : Token⦄ ⦃op : Operator⦄,
    Blanks before → Blanks after → t.written = op.symbol → related front left → related behind right →
      related (front ++ (before ++ t :: (after ++ behind))) (op.join t.position left right)

theorem relates_chain (joined : Joined related) (spelled : operators.Spelled)
    (relates : next.Relates related) : (chain operators next).Relates related := by
  intro ⟨first, row⟩
  refine @row_induction _ _ (fun tokens node => (∀ t ∈ tokens, t.Worded) → related tokens node) ?_ row _ _
    (relates first)
  intro front left behind inside worded
  rw [List.forall_mem_append] at worded
  have right : related (next.tokens behind.right) (next.tree behind.right) :=
    relates behind.right fun t present => worded.2 t (by simp [Behind.tokens, present])
  obtain ⟨op, combines, written⟩ := spelled behind.op behind.combine behind.isOperator
    (worded.2 behind.op (by simp [Behind.tokens]))
  rw [Behind.join, combines]
  exact joined behind.front behind.back written (inside worded.1) right

theorem relates_single (joined : Joined related) (spelled : operators.Spelled)
    (relates : next.Relates related) : (single operators next).Relates related :=
  fun derivation worded => relates_chain joined spelled relates (derivation.1, derivation.2.toList) worded

theorem relates_disjunction (joined : Joined related) (relates : primitive.Relates related) :
    disjunction.Relates related :=
  relates_single joined spelled_or <| relates_single joined spelled_and <|
    relates_single joined spelled_equality <| relates_single joined spelled_order <|
      relates_chain joined spelled_sum <| relates_single joined spelled_product <|
        relates_single joined spelled_power relates

end

end Grammar

theorem related_of_parse {keywordBoundary : Bool} {source : String} {root : Node}
    {related : List Token → Node → Prop} (joined : Grammar.Joined related)
    (leaves : Grammar.primitive.Relates related)
    (parsed : parse (Scanner.ofString keywordBoundary source) = .ok root) :
    root = .emptyProgram ∨ ∃ tokens node, root = .program .start [node] ∧
      tokens.map .ok <:+: delivered (Scanner.ofString keywordBoundary source) ∧ related tokens node := by
  obtain ⟨derivation, rfl, tokenized⟩ := derived_of_parse parsed
  have whole := delivered_of_tokens tokenized
  cases derivation with
  | empty => exact .inl rfl
  | expression before body after finish =>
      have inside : (Grammar.disjunction.tokens body).map .ok <:+:
          delivered (Scanner.ofString keywordBoundary source) := by
        refine ⟨before.map .ok, (after ++ [finish]).map .ok, ?_⟩
        simp [whole, Grammar.Program.tokens]
      refine .inr ⟨_, _, rfl, inside, Grammar.relates_disjunction joined leaves body fun t present => ?_⟩
      exact (Scanner.lexed_of_delivered keywordBoundary source _
        (inside.subset (List.mem_map_of_mem present))).1

end PredicateLang
