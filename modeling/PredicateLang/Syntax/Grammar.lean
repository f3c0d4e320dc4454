import PredicateLang.Syntax.Tree
import PredicateLang.Token.Basic

set_option autoImplicit false

/-!
# Grammar

Which lists of tokens are programs, how they are derived and which trees they stand for. The rules are

    program     = blanks [disjunction blanks] end
    disjunction = conjunction [blanks "or" blanks conjunction]
    conjunction = equality [blanks "and" blanks equality]
    equality    = ordering [blanks ("==" | "!=") blanks ordering]
    ordering    = sum [blanks ("<" | ">" | "<=" | ">=") blanks sum]
    sum         = product {blanks ("+" | "-") blanks product}
    product     = power [blanks ("*" | "/") blanks power]
    power       = primitive [blanks "**" blanks primitive]
    primitive   = ["@"] name {"." blanks name} | string | number | boolean

A binary node stands where its operator stands, a leaf where its first token stands.
-/

namespace PredicateLang.Grammar

/-- A rule has derivations. Each derives a list of tokens and stands for a tree. -/
structure Rule where
  Derivation : Type
  tokens : Derivation → List Token
  tree : Derivation → Node

def Blanks (tokens : List Token) : Prop := ∀ t ∈ tokens, t.kind = .whitespace

structure Segment where
  dot : Token
  blanks : List Token
  key : Token
  isDot : dot.kind = .dot
  blank : Blanks blanks
  isName : key.kind = .identifier

def Segment.tokens (segment : Segment) : List Token :=
  segment.dot :: segment.blanks ++ [segment.key]

def pathTokens (path : List Segment) : List Token := path.flatMap Segment.tokens

def pathNames (path : List Segment) : List String := path.map fun segment => segment.key.text

inductive Leaf
  | plain (base : Token) (path : List Segment) (isName : base.kind = .identifier)
  | external (sign base : Token) (path : List Segment) (isSign : sign.kind = .atSign)
      (isName : base.kind = .identifier)
  | string (t : Token) (isString : t.kind = .string)
  | number (t : Token) (isNumber : t.kind = .number)
  | boolean (t : Token) (isBool : t.kind = .bool)

namespace Leaf

def tokens : Leaf → List Token
  | .plain base path _ => base :: pathTokens path
  | .external sign base path _ _ => sign :: base :: pathTokens path
  | .string t _ => [t]
  | .number t _ => [t]
  | .boolean t _ => [t]

def tree : Leaf → Node
  | .plain base path _ =>
      .primitive base.position (.identifier base.position ⟨false, base.text, pathNames path⟩)
  | .external sign base path _ _ =>
      .primitive sign.position (.identifier sign.position ⟨true, base.text, pathNames path⟩)
  | .string t _ => .primitive t.position (.literal t.position .string t.text)
  | .number t _ => .primitive t.position (.literal t.position .number t.text)
  | .boolean t _ => .primitive t.position (.literal t.position .boolean t.text)

end Leaf

def primitive : Rule := ⟨Leaf, Leaf.tokens, Leaf.tree⟩

/-- What a token makes of the operands around it. -/
abbrev Operators := Token → (Node → Node → Node) → Prop

inductive PowerOperator : Operators
  | pow {t : Token} (kind : t.kind = .pow) : PowerOperator t (.arith t.position .pow)

inductive ProductOperator : Operators
  | mul {t : Token} (kind : t.kind = .mult) : ProductOperator t (.arith t.position .mul)
  | div {t : Token} (kind : t.kind = .div) : ProductOperator t (.arith t.position .div)

inductive SumOperator : Operators
  | add {t : Token} (kind : t.kind = .add) : SumOperator t (.arith t.position .add)
  | sub {t : Token} (kind : t.kind = .sub) : SumOperator t (.arith t.position .sub)

inductive OrderOperator : Operators
  | lt {t : Token} (kind : t.kind = .comparisonOp) (text : t.text = "<") :
      OrderOperator t (.compare t.position .ordering .lt)
  | gt {t : Token} (kind : t.kind = .comparisonOp) (text : t.text = ">") :
      OrderOperator t (.compare t.position .ordering .gt)
  | le {t : Token} (kind : t.kind = .comparisonOp) (text : t.text = "<=") :
      OrderOperator t (.compare t.position .ordering .le)
  | ge {t : Token} (kind : t.kind = .comparisonOp) (text : t.text = ">=") :
      OrderOperator t (.compare t.position .ordering .ge)

inductive EqualityOperator : Operators
  | eq {t : Token} (kind : t.kind = .equalityOp) (text : t.text = "==") :
      EqualityOperator t (.compare t.position .equality .eq)
  | ne {t : Token} (kind : t.kind = .equalityOp) (text : t.text = "!=") :
      EqualityOperator t (.compare t.position .equality .ne)

inductive AndOperator : Operators
  | and {t : Token} (kind : t.kind = .conjunction) : AndOperator t (.logical t.position .and)

inductive OrOperator : Operators
  | or {t : Token} (kind : t.kind = .disjunction) : OrOperator t (.logical t.position .or)

structure Behind (operators : Operators) (next : Rule) where
  before : List Token
  op : Token
  after : List Token
  combine : Node → Node → Node
  right : next.Derivation
  front : Blanks before
  isOperator : operators op combine
  back : Blanks after

section

variable {operators : Operators} {next : Rule}

def Behind.tokens (behind : Behind operators next) : List Token :=
  behind.before ++ behind.op :: (behind.after ++ next.tokens behind.right)

def Behind.join (left : Node) (behind : Behind operators next) : Node :=
  behind.combine left (next.tree behind.right)

def rowTokens (first : next.Derivation) (row : List (Behind operators next)) : List Token :=
  next.tokens first ++ row.flatMap Behind.tokens

def rowTree (first : next.Derivation) (row : List (Behind operators next)) : Node :=
  row.foldl Behind.join (next.tree first)

end

def single (operators : Operators) (next : Rule) : Rule where
  Derivation := next.Derivation × Option (Behind operators next)
  tokens derivation := rowTokens derivation.1 derivation.2.toList
  tree derivation := rowTree derivation.1 derivation.2.toList

def chain (operators : Operators) (next : Rule) : Rule where
  Derivation := next.Derivation × List (Behind operators next)
  tokens derivation := rowTokens derivation.1 derivation.2
  tree derivation := rowTree derivation.1 derivation.2

def power : Rule := single PowerOperator primitive

def product : Rule := single ProductOperator power

def sum : Rule := chain SumOperator product

def ordering : Rule := single OrderOperator sum

def equality : Rule := single EqualityOperator ordering

def conjunction : Rule := single AndOperator equality

def disjunction : Rule := single OrOperator conjunction

inductive Program
  | empty (blanks : List Token) (finish : Token) (blank : Blanks blanks)
      (ends : finish.kind = .eof)
  | expression (before : List Token) (body : disjunction.Derivation) (after : List Token)
      (finish : Token) (front : Blanks before) (back : Blanks after) (ends : finish.kind = .eof)

namespace Program

def tokens : Program → List Token
  | .empty blanks finish _ _ => blanks ++ [finish]
  | .expression before body after finish _ _ _ =>
      before ++ disjunction.tokens body ++ after ++ [finish]

def tree : Program → Node
  | .empty _ _ _ _ => .emptyProgram
  | .expression _ body _ _ _ _ _ => .program Position.start [disjunction.tree body]

end Program

end PredicateLang.Grammar
