import PredicateLang.Syntax.Cursor
import PredicateLang.Syntax.Tree

set_option autoImplicit false

namespace PredicateLang

namespace Cursor

variable {σ : Type} [TokenSupply σ]

def name : Parse σ String := do
  let t ← advance
  if t.kind = .identifier then pure t.text else throw (.unexpectedToken t)

def segment : Parse σ String := do
  skipBlanks
  name

theorem forward_name : Forward (name : Parse σ String) := by
  refine forward_bind forward_advance fun t => ?_
  split
  · exact forward_pure _
  · exact forward_throw _

theorem forward_segment : Forward (segment : Parse σ String) :=
  forward_bind forward_skipBlanks fun _ => forward_name

def isDot (kind : TokenKind) : Bool := kind = .dot

def path (c : Cursor σ) : Except ParseFault (List String) × Cursor σ :=
  match _found : takeIf isDot c with
  | (.error fault, next) => (.error fault, next)
  | (.ok none, next) => (.ok [], next)
  | (.ok (some _), next) =>
      match _named : segment next with
      | (.error fault, rest) => (.error fault, rest)
      | (.ok key, rest) =>
          match path rest with
          | (.error fault, rest) => (.error fault, rest)
          | (.ok more, rest) => (.ok (key :: more), rest)
termination_by c.left
decreasing_by
  have dotted := left_takeIf_lt _found rfl
  have named := forward_segment next
  rw [_named] at named
  exact Nat.lt_of_le_of_lt named dotted

def beginsName (kind : TokenKind) : Bool := kind = .identifier || kind = .atSign

def base (first : Token) : Parse σ String :=
  -- The name that a token begins; one from the host stands right behind its sign.
  if first.kind = .atSign then name else pure first.text

def identifier : Parse σ (Option Node) := do
  match ← takeIf beginsName with
  | none => pure none
  | some first =>
      let base ← base first
      pure (some (.identifier first.position ⟨first.kind = .atSign, base, ← path⟩))

def literalKind? : TokenKind → Option LiteralKind
  | .string => some .string
  | .number => some .number
  | .bool => some .boolean
  | _ => none

def literal : Parse σ (Option Node) := do
  match ← takeIf fun kind => (literalKind? kind).isSome with
  | none => pure none
  | some t => pure ((literalKind? t.kind).map fun kind => .literal t.position kind t.text)

def primitive : Parse σ (Option Node) := do
  match ← identifier with
  | some leaf => pure (some leaf.asPrimitive)
  | none => pure ((← literal).map Node.asPrimitive)

def operator (accept : TokenKind → Bool) : Parse σ (Option Token) := do
  skipBlanks
  takeIf accept

def operand (op : Token) (level : Parse σ (Option Node)) : Parse σ Node := do
  skipBlanks
  match ← level with
  | some node => pure node
  | none => throw (.missingOperand op)

structure Level where
  accept : TokenKind → Bool
  combine? : Token → Option (Node → Node → Node)

def single (level : Level) (next : Parse σ (Option Node)) : Parse σ (Option Node) := do
  match ← next with
  | none => pure none
  | some left =>
      match ← operator level.accept with
      | none => pure (some left)
      | some op =>
          match level.combine? op with
          | none => throw (.unexpectedToken op)
          | some combine => pure (some (combine left (← operand op next)))

def disjunctions : Level where
  accept kind := kind = .disjunction
  combine? op := some (.logical op.position .or)

def conjunctions : Level where
  accept kind := kind = .conjunction
  combine? op := some (.logical op.position .and)

def comparison? (op : Token) : Option (Node → Node → Node) :=
  (Comparison.ofSymbol? op.text).map (Node.comparison op.position)

def equalities : Level where
  accept kind := kind = .equalityOp
  combine? := comparison?

def orderings : Level where
  accept kind := kind = .comparisonOp
  combine? := comparison?

def products : Level where
  accept kind := kind = .mult || kind = .div
  combine? op := some (.arith op.position (if op.kind = .mult then .mul else .div))

def powers : Level where
  accept kind := kind = .pow
  combine? op := some (.arith op.position .pow)

def power : Parse σ (Option Node) := single powers primitive

def product : Parse σ (Option Node) := single products power

theorem forward_path : Forward (path : Parse σ (List String)) := by
  intro c
  have dotted := forward_takeIf isDot c
  fun_induction path c with
  | case1 c fault next found => simpa [found] using dotted
  | case2 c next found => simpa [found] using dotted
  | case3 c t next found fault rest named =>
      have step := forward_segment next
      simp_all
      omega
  | case4 c t next found key rest named fault last more ih =>
      have step := forward_segment next
      have others := ih (forward_takeIf isDot rest)
      simp_all
      omega
  | case5 c t next found key rest named names last more ih =>
      have step := forward_segment next
      have others := ih (forward_takeIf isDot rest)
      simp_all
      omega

theorem forward_base (first : Token) : Forward (base first : Parse σ String) := by
  unfold base
  split
  · exact forward_name
  · exact forward_pure _

theorem forward_identifier : Forward (identifier : Parse σ (Option Node)) := by
  refine forward_bind (forward_takeIf _) fun first => ?_
  split
  · exact forward_pure _
  · exact forward_bind (forward_base _) fun _ => forward_bind forward_path fun _ => forward_pure _

theorem forward_literal : Forward (literal : Parse σ (Option Node)) := by
  refine forward_bind (forward_takeIf _) fun t => ?_
  split <;> exact forward_pure _

theorem forward_primitive : Forward (primitive : Parse σ (Option Node)) := by
  refine forward_bind forward_identifier fun leaf => ?_
  split
  · exact forward_pure _
  · exact forward_bind forward_literal fun _ => forward_pure _

theorem forward_operator (accept : TokenKind → Bool) :
    Forward (operator accept : Parse σ (Option Token)) :=
  forward_bind forward_skipBlanks fun _ => forward_takeIf accept

theorem left_operator_lt {accept : TokenKind → Bool} {c next : Cursor σ} {op : Token}
    (h : operator accept c = (.ok (some op), next)) (other : accept .eof = false) :
    next.left < c.left := by
  have blanks := forward_skipBlanks c
  rw [operator, bind_apply] at h
  split at h
  · rename_i after found
    have taken := left_takeIf_lt h other
    simp_all
    omega
  · cases h

theorem forward_operand {next : Parse σ (Option Node)} (forward : Forward next) (op : Token) :
    Forward (operand op next) := by
  refine forward_bind forward_skipBlanks fun _ => forward_bind forward fun node => ?_
  split
  · exact forward_pure _
  · exact forward_throw _

theorem forward_single {next : Parse σ (Option Node)} (forward : Forward next) (level : Level) :
    Forward (single level next) := by
  refine forward_bind forward fun left => ?_
  split
  · exact forward_pure _
  · refine forward_bind (forward_operator _) fun op => ?_
    split
    · exact forward_pure _
    · split
      · exact forward_throw _
      · exact forward_bind (forward_operand forward _) fun _ => forward_pure _

theorem forward_product : Forward (product : Parse σ (Option Node)) :=
  forward_single (forward_single forward_primitive powers) products

def addsUp (kind : TokenKind) : Bool := kind = .add || kind = .sub

def sumOf (op : Token) : Node → Node → Node :=
  .arith op.position (if op.kind = .add then .add else .sub)

def sumFrom (left : Node) (c : Cursor σ) : Except ParseFault (Option Node) × Cursor σ :=
  -- The rest of a sum, where `left` is the sum so far.
  match _found : operator addsUp c with
  | (.error fault, next) => (.error fault, next)
  | (.ok none, next) => (.ok (some left), next)
  | (.ok (some op), next) =>
      match _right : operand op product next with
      | (.error fault, rest) => (.error fault, rest)
      | (.ok right, rest) => sumFrom (sumOf op left right) rest
termination_by c.left
decreasing_by
  have signed := left_operator_lt _found rfl
  have more := forward_operand forward_product op next
  rw [_right] at more
  exact Nat.lt_of_le_of_lt more signed

def sum : Parse σ (Option Node) := do
  match ← product with
  | none => pure none
  | some left => sumFrom left

def ordering : Parse σ (Option Node) := single orderings sum

def equality : Parse σ (Option Node) := single equalities ordering

def conjunction : Parse σ (Option Node) := single conjunctions equality

def disjunction : Parse σ (Option Node) := single disjunctions conjunction

def ending : Parse σ Unit := do
  let t ← advance
  if t.kind = .eof then pure () else throw (.unexpectedToken t)

def program : Parse σ Node := do
  skipBlanks
  match ← disjunction with
  | none =>
      ending
      pure .emptyProgram
  | some expression =>
      skipBlanks
      ending
      pure (.program Position.start [expression])

end Cursor

def parse {σ : Type} [TokenSupply σ] (supply : σ) : Except ParseFault Node :=
  (Cursor.program (Cursor.ofSupply supply)).1

end PredicateLang
