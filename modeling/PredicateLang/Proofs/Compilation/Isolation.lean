import PredicateLang.Proofs.Compilation.Kinds
import PredicateLang.Proofs.Machine.Frames

set_option autoImplicit false

namespace PredicateLang

open Emitted

def Node.plainNames : Node → Nat
  | .primitive _ inner => inner.plainNames
  | .identifier _ name => if name.external then 0 else 1
  | .compare _ _ _ left right => left.plainNames + right.plainNames
  | .arith _ _ left right => left.plainNames + right.plainNames
  | .logical _ _ left right => left.plainNames + right.plainNames
  | _ => 0

/-- A stack is left as it was, and on top of it so many operands: what the words leave when they are run
over nothing. -/
def Machine.Isolates {ω : Type} (m : Machine ω) (words : List UInt32) (count : Nat) (pc : Nat)
    (stack : Stack) (world : ω) (last : Stack) (after : ω) : Prop :=
  ∃ added, last = added ++ stack ∧ added.length = count ∧
    m.runFrom ⟨pc, words, [], world⟩ = (.ok added, after)

section

variable {ω : Type} {m : Machine ω}

theorem takes_path (path : List String) (context : EmitContext) :
    m.Takes 1 (emitPath path context).words := by
  induction path generalizing context with
  | nil =>
      intro taken pc stack world last after size ran
      obtain ⟨v, rfl⟩ := List.length_eq_one_iff.mp size
      rw [emitPath, words_nothing, m.runFrom_nil] at ran
      cases ran
      exact ⟨rfl, v, rfl, fun pc' below world' _ => m.runFrom_nil pc' _ world'⟩
  | cons key rest ih =>
      rw [emitPath, words_andThen rfl, words_constant]
      exact (m.takes_reference rfl Machine.acts_getAttr _).follow (.reference rfl _) (ih _)

theorem takes_identifier {supply : Supply} (supplied : m.bindings.Supplies supply)
    {name : Identifier} (outside : name.external = true) (context : EmitContext) :
    m.Takes 0 (emitIdentifier name context).words := by
  rw [emitIdentifier, if_pos outside, words_andThen rfl, words_constant]
  exact (Machine.takes_reference rfl (Machine.acts_getStatic supplied) _).follow (.reference rfl _)
    (takes_path name.path _)

theorem takes_literal {kind : LiteralKind} {raw : String} {v : Value}
    (known : Term.literalOf? kind raw = some v) (position : Position) (context : EmitContext) :
    m.Takes 0 (emitLiteral position kind raw context).words := by
  obtain ⟨load, -, same⟩ := outcome_literal known position context
  rw [same, words_constant]
  exact Machine.takes_reference rfl (Machine.acts_load load) _

def Opcode.operates : Opcode → Bool
  | .concat | .compare _ | .int .add | .int .and | .int .or => true
  | .double operation => operation ≠ .mod
  | _ => false

theorem Opcode.combines_of_operates {op : Opcode} (operates : op.operates = true) : op.combines = true := by
  cases op with
  | int | double | concat | compare => rfl
  | _ => cases operates

theorem Node.opcode_operates {node left right : Node} (operands : node.operands? = some (left, right))
    (one two : Option ValueKind) : (node.opcode one two).operates = true := by
  cases node with
  | compare => rfl
  | logical position op => cases op <;> rfl
  | arith position op =>
      cases op with
      | add =>
          simp only [Node.opcode, arithmeticOpcode]
          split_ifs <;> rfl
      | _ => rfl
  | _ => cases operands

theorem parts_operator {node left right : Node} (operands : node.operands? = some (left, right))
    (soundLeft : left.Sound) (soundRight : right.Sound) (context : EmitContext) :
    ∃ (place : EmitContext) (one two : Option ValueKind),
      place.nextConstant = context.nextConstant + .ofNat (emit left context).pool.length ∧
      (emit node context).words = (emit left context).words ++
        ((emit right place).words ++ [(node.opcode one two).word]) ∧
      (emit node context).pool = (emit left context).pool ++ (emit right place).pool := by
  obtain ⟨before, done, -⟩ := lastKind_emit soundLeft context
  obtain ⟨after, ended, -⟩ := lastKind_emit soundRight (node.keeps before)
  refine ⟨node.keeps before, before.lastKind, after.lastKind, ?_, ?_, ?_⟩
  · rw [Node.nextConstant_keeps]
    exact (laidOut_emit left context).counted before done
  · rw [emit_operator operands, words_andThen done, words_andThen ended, words_opcode]
  · rw [emit_operator operands, pool_andThen done, pool_andThen ended, pool_opcode, List.append_nil]

theorem plainNames_operator {node left right : Node} (operands : node.operands? = some (left, right)) :
    node.plainNames = left.plainNames + right.plainNames ∧ node.isPlain = false := by
  cases node <;> cases operands <;> exact ⟨rfl, rfl⟩

theorem takes_emit {supply : Supply} (supplied : m.bindings.Supplies supply) {node : Node}
    (sound : node.Sound) (supplies : node.plainNames = 0) (context : EmitContext) :
    m.Takes 0 (emit node context).words := by
  induction sound generalizing context with
  | name name =>
      have outside : name.external = true := by simpa [Node.plainNames] using supplies
      rw [emit, emit]
      exact takes_identifier supplied outside context
  | literal known =>
      rw [emit, emit]
      exact takes_literal known _ context
  | @operator node left right operands one two _ ihLeft ihRight =>
      rw [(plainNames_operator operands).1] at supplies
      obtain ⟨place, kind, kind', -, words, -⟩ := parts_operator operands one two context
      have combines := Opcode.combines_of_operates (Node.opcode_operates operands kind kind')
      rw [words]
      exact .operands (laidOut_emit left context).whole (laidOut_emit right place).whole
        (ihLeft (by omega) context) (ihRight (by omega) place)
        (Machine.takes_operation (Opcode.alone_of_combines combines) (Machine.acts_combines combines))

theorem size_emit {supply : Supply} (supplied : m.bindings.Supplies supply) {node : Node}
    (sound : node.Sound) {context : EmitContext} {pc : Nat} {stack last : Stack} {world after : ω}
    (ran : m.runFrom ⟨pc, (emit node context).words, stack, world⟩ = (.ok last, after)) :
    last.length ≤ max 1 (stack.length + 1 - node.plainNames) ∧
      (node.isPlain = false → last ≠ []) := by
  induction sound generalizing context pc stack last world after with
  | @name position place name =>
      rw [emit, emit] at ran
      cases outside : name.external with
      | true =>
          obtain ⟨-, v, rfl, -⟩ := takes_identifier supplied outside context [] rfl ran
          simp [Node.plainNames, outside]
      | false =>
          simp only [emitIdentifier, outside, Bool.false_eq_true, if_false, words_nothing,
            m.runFrom_nil] at ran
          cases ran
          simp only [Node.plainNames, Node.isPlain, outside, Bool.false_eq_true, if_false]
          exact ⟨by omega, by simp⟩
  | literal known =>
      rw [emit, emit] at ran
      obtain ⟨-, v, rfl, -⟩ := takes_literal known _ context [] rfl ran
      simp [Node.plainNames]
  | @operator node left right operands one two _ ihLeft ihRight =>
      obtain ⟨place, kind, kind', -, words, -⟩ := parts_operator operands one two context
      have combines := Opcode.combines_of_operates (Node.opcode_operates operands kind kind')
      rw [words] at ran
      obtain ⟨middle, between, front, ran⟩ :=
        (Machine.runFrom_append_ok (laidOut_emit left context).whole).mp ran
      obtain ⟨deep, between', behind, ran⟩ :=
        (Machine.runFrom_append_ok (laidOut_emit right place).whole).mp ran
      obtain ⟨performed, -⟩ :=
        (Machine.runFrom_operation_ok (Opcode.alone_of_combines combines)).mp ran
      obtain ⟨some, least⟩ := Opcode.size_perform combines performed
      have sizeLeft := (ihLeft front).1
      have sizeRight := (ihRight behind).1
      rw [(plainNames_operator operands).1]
      exact ⟨by omega, fun _ => some⟩

theorem words_plain {node : Node} (plain : node.isPlain = true) :
    node.plainNames = 1 ∧ ∀ context, (emit node context).words = [] := by
  unfold Node.isPlain at plain
  split at plain
  · rename_i position place name
    have outside : name.external = false := by simpa using plain
    exact ⟨by simp [Node.plainNames, outside], fun context => by simp [emit, emitIdentifier, outside]⟩
  · cases plain

variable {supply : Supply} {node : Node} {context : EmitContext} {pc : Nat} {stack last : Stack}
  {world after : ω}

theorem isolates_empty (supplied : m.bindings.Supplies supply) (sound : node.Sound)
    (ran : m.runFrom ⟨pc, (emit node context).words, [], world⟩ = (.ok last, after)) :
    m.Isolates (emit node context).words (if node.isPlain then 0 else 1) pc [] world last after := by
  refine ⟨last, by simp, ?_, ran⟩
  by_cases plain : node.isPlain = true
  · rw [(words_plain plain).2, m.runFrom_nil] at ran
    cases ran
    simp [plain]
  · obtain ⟨deep, some⟩ := size_emit supplied sound ran
    have least := List.length_pos_iff.mpr (some (by simpa using plain))
    rw [if_neg plain]
    simp only [List.length_nil] at deep
    omega

theorem isolates_plain (plain : node.isPlain = true)
    (ran : m.runFrom ⟨pc, (emit node context).words, stack, world⟩ = (.ok last, after)) :
    m.Isolates (emit node context).words 0 pc stack world last after := by
  rw [(words_plain plain).2, m.runFrom_nil] at ran
  cases ran
  exact ⟨[], rfl, rfl, by rw [(words_plain plain).2, m.runFrom_nil]⟩

theorem isolates_supplied (supplied : m.bindings.Supplies supply) (sound : node.Sound)
    (supplies : node.plainNames = 0)
    (ran : m.runFrom ⟨pc, (emit node context).words, stack, world⟩ = (.ok last, after)) :
    m.Isolates (emit node context).words 1 pc stack world last after := by
  obtain ⟨rfl, v, rfl, again⟩ := takes_emit supplied sound supplies context [] rfl ran
  exact ⟨[v], rfl, rfl, again pc [] after (by simp)⟩

theorem isolates_iff (supplied : m.bindings.Supplies supply) (sound : node.Sound)
    (ran : m.runFrom ⟨pc, (emit node context).words, stack, world⟩ = (.ok last, after)) :
    m.Isolates (emit node context).words (if node.isPlain then 0 else 1) pc stack world last after ↔
      stack = [] ∨ node.isPlain = true ∨ node.plainNames = 0 := by
  constructor
  · rintro ⟨added, rfl, size, -⟩
    by_contra apart
    obtain ⟨below, named, plain⟩ : stack ≠ [] ∧ node.isPlain = false ∧ node.plainNames ≠ 0 := by
      simpa using apart
    have deep := (size_emit supplied sound ran).1
    have least := List.length_pos_iff.mpr below
    rw [named] at size
    simp only [Bool.false_eq_true, if_false] at size
    rw [List.length_append] at deep
    omega
  · rintro (rfl | plain | supplies)
    · exact isolates_empty supplied sound ran
    · rw [if_pos plain]
      exact isolates_plain plain ran
    · have named : node.isPlain ≠ true := fun plain => by
        have one := (words_plain plain).1
        omega
      rw [if_neg named]
      exact isolates_supplied supplied sound supplies ran

end

/-- In the program of a text, the words of an operand leave what they find on the stack as it is, below
the one value that they leave over an empty stack too, unless there is something to find and a plain name
among other leaves of the operand. A plain name alone leaves nothing. -/
theorem operand_isolated_iff {keywordBoundary : Bool} {source : String} {root : Node}
    (parsed : parse (Scanner.ofString keywordBoundary source) = .ok root) {validate : Bool}
    {program : Program} (compiled : compile validate root = .ok program) {operator operand : Node}
    {context place : EmitContext} {before inside : List Emission}
    (part : Part root operator context before)
    (side : operator.Side context operand place inside) :
    (∃ behind, program.words = (before ++ inside).filterMap Emission.word? ++
      ((emit operand place).words ++ behind)) ∧
    ∀ {ω : Type} (bindings : Bindings ω) (supply : Supply) (limit : Nat), bindings.Supplies supply →
      ∀ (behind : List UInt32) (pc pc' : Nat) (stack last : Stack) (world after : ω),
        (Machine.mk program.constants bindings limit).Reaches
          ⟨pc, (emit operand place).words ++ behind, stack, world⟩ ⟨pc', behind, last, after⟩ →
        ((Machine.mk program.constants bindings limit).Isolates (emit operand place).words
            (if operand.isPlain then 0 else 1) pc stack world last after ↔
          stack = [] ∨ operand.isPlain = true ∨ operand.plainNames = 0) := by
  have sound := side.sound (part.fits (fits_of_parse parsed))
  refine ⟨(part.operand side).words compiled, ?_⟩
  intro ω bindings supply limit supplied behind pc pc' stack last world after past
  have ran := Machine.runFrom_of_reaches (laidOut_emit operand place).whole past
  exact isolates_iff supplied sound ran

def textB : Node := .primitive ⟨1, 11, 11⟩ (.literal ⟨1, 11, 11⟩ .string "b")

-- The tree of `"a" == x + "b"`, and its program.
def textAndConcat : Node := .program .start [textEquals (plainPlus textB)]

def textAndConcatProgram : Program := ⟨[22, 0, 22, 1, 23, 24], [.string "a", .string "b"]⟩

def bareMachine : Machine Unit := ⟨textAndConcatProgram.constants, .empty, 8⟩

theorem parse_text_and_concat :
    parse (Scanner.ofString true "\"a\" == x + \"b\"") = .ok textAndConcat :=
  parse_of_rules 10 (textEqualsPlus (.string ⟨.string, ⟨1, 11, 11⟩, "b"⟩ rfl) 14)
    (by decide +kernel) (by decide)

theorem side_plain_concat : ∃ inside,
    (textEquals (plainPlus textB)).Side .start (plainPlus textB) ⟨1, some .string⟩ inside :=
  ⟨_, .right rfl rfl⟩

theorem plain_concat_entered : bareMachine.Reaches ⟨0, textAndConcatProgram.words, [], ()⟩
    ⟨2, (emit (plainPlus textB) ⟨1, some .string⟩).words ++ [24], [.string "a"], ()⟩ :=
  .head rfl .refl

theorem plain_concat_past : bareMachine.Reaches
    ⟨2, (emit (plainPlus textB) ⟨1, some .string⟩).words ++ [24], [.string "a"], ()⟩
    ⟨5, [24], [.string "ab"], ()⟩ :=
  .head rfl (.head rfl .refl)

theorem plain_concat_takes_text :
    parse (Scanner.ofString true "\"a\" == x + \"b\"") = .ok textAndConcat ∧
      compile true textAndConcat = .ok textAndConcatProgram ∧
      ∃ context before place inside,
        Part textAndConcat (textEquals (plainPlus textB)) context before ∧
        (textEquals (plainPlus textB)).Side context (plainPlus textB) place inside ∧
        bareMachine.Reaches ⟨0, textAndConcatProgram.words, [], ()⟩
          ⟨2, (emit (plainPlus textB) place).words ++ [24], [.string "a"], ()⟩ ∧
        bareMachine.Reaches ⟨2, (emit (plainPlus textB) place).words ++ [24], [.string "a"], ()⟩
          ⟨5, [24], [.string "ab"], ()⟩ ∧
        ¬ [Value.string "a"] <:+ [Value.string "ab"] := by
  obtain ⟨inside, side⟩ := side_plain_concat
  refine ⟨parse_text_and_concat, rfl, _, _, _, inside, .expression .start _, side,
    plain_concat_entered, plain_concat_past, fun below => ?_⟩
  have same := below.eq_of_length rfl
  simp at same

theorem plain_concat_not_isolated :
    parse (Scanner.ofString true "\"a\" == x + \"b\"") = .ok textAndConcat ∧
      compile true textAndConcat = .ok textAndConcatProgram ∧
      ∃ place inside, (textEquals (plainPlus textB)).Side .start (plainPlus textB) place inside ∧
        ¬ bareMachine.Isolates (emit (plainPlus textB) place).words 1 2 [.string "a"] ()
          [.string "ab"] () := by
  have supplies : (Bindings.empty : Bindings Unit).Supplies fun _ => none := fun _ _ => rfl
  obtain ⟨inside, side⟩ := side_plain_concat
  have compiled : compile true textAndConcat = .ok textAndConcatProgram := rfl
  obtain ⟨-, isolated⟩ :=
    operand_isolated_iff parse_text_and_concat compiled (.expression .start _) side
  have apart := isolated .empty (fun _ => none) 8 supplies [24] 2 5 _ _ () () plain_concat_past
  exact ⟨parse_text_and_concat, rfl, _, inside, side, fun isolates => by
    simpa [plainPlus, plainName, Node.isPlain, Node.plainNames, textB] using apart.mp isolates⟩

end PredicateLang
