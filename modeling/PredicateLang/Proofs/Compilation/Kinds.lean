import PredicateLang.Proofs.Compilation.Refinement
import PredicateLang.Proofs.Compilation.Relocation

set_option autoImplicit false

namespace PredicateLang

open Emitted

namespace Node

def isPlain : Node → Bool
  | .primitive _ (.identifier _ name) => !name.external
  | _ => false

/-- Expressions behind which the kind from before them still stands. -/
def silent : Node → Bool
  | .compare _ _ _ left right => left.silent && right.silent
  | .logical _ _ left right => left.silent && right.silent
  | node => node.isPlain

/-- The kind that an expression leaves when it is compiled alone. -/
def kind? (node : Node) : Option ValueKind :=
  match (emit node .start).outcome with
  | .ok after => after.lastKind
  | .error _ => none

end Node

/-- A kind on the left that gives an arithmetic operator another operation than no kind at all. -/
def Arithmetic.swayedBy (op : Arithmetic) (standing right : Option ValueKind) : Bool :=
  op = .add && (standing = some .string && right ≠ some .string ||
    standing = some .double && right ≠ some .string && right ≠ some .double)

/-- A sum of the expression takes another operation because of the kind that stands before it. -/
def Node.swayed (standing : Option ValueKind) : Node → Bool
  | .compare _ _ _ left right => left.swayed standing || (left.silent && right.swayed standing)
  | .logical _ _ left right => left.swayed standing || (left.silent && right.swayed standing)
  | .arith _ op left right =>
      left.swayed standing || (left.silent && op.swayedBy standing right.kind?)
  | _ => false

theorem Opcode.word_injective {op other : Opcode} (same : op.word = other.word) : op = other := by
  have known := Opcode.ofWord?_word op
  rw [same, Opcode.ofWord?_word] at known
  exact (Option.some.inj known).symm

theorem arithmeticOpcode_standing (op : Arithmetic) (standing right : Option ValueKind) :
    arithmeticOpcode op standing right = arithmeticOpcode op none right ↔
      op.swayedBy standing right = false := by
  cases op with
  | add =>
      by_cases text : right = some .string <;> by_cases number : right = some .double <;>
        by_cases left : standing = some .string <;> by_cases left' : standing = some .double <;>
          simp_all [arithmeticOpcode, Arithmetic.swayedBy]
  | _ => simp [arithmeticOpcode, Arithmetic.swayedBy]

theorem lastKind_identifier (name : Identifier) : ∃ kind, ∀ context, ∃ after,
    (emitIdentifier name context).outcome = .ok after ∧
      after.lastKind = if !name.external then context.lastKind else kind := by
  cases outside : name.external with
  | false =>
      refine ⟨none, fun context => ⟨context, ?_, rfl⟩⟩
      simp [emitIdentifier, outside, nothing]
  | true =>
      refine ⟨some (if name.path.isEmpty then .dataRef else .attrRef), fun context => ?_⟩
      obtain ⟨after, done, kind⟩ :=
        outcome_path name.path ⟨context.nextConstant + 1, some .dataRef⟩
      refine ⟨after, ?_, ?_⟩
      · rw [emitIdentifier, if_pos outside, outcome_andThen rfl]
        exact done
      · rw [kind]
        cases name.path <;> rfl

section

variable {node left right : Node} {one two : Option ValueKind}

theorem contexts_operator (operands : node.operands? = some (left, right))
    (first : ∀ context, ∃ after, (emit left context).outcome = .ok after ∧
      after.lastKind = if left.silent then context.lastKind else one)
    (second : ∀ context, ∃ after, (emit right context).outcome = .ok after ∧
      after.lastKind = if right.silent then context.lastKind else two) (context : EmitContext) :
    ∃ before after, (emit node context).outcome = .ok (node.keeps after) ∧
      before.lastKind = (if left.silent then context.lastKind else one) ∧
      after.lastKind = if right.silent then (node.keeps before).lastKind else two := by
  obtain ⟨before, doneLeft, kindLeft⟩ := first context
  obtain ⟨after, doneRight, kindRight⟩ := second (node.keeps before)
  refine ⟨before, after, ?_, kindLeft, kindRight⟩
  rw [emit_operator operands, outcome_andThen doneLeft, outcome_andThen doneRight]
  rfl

theorem lastKind_operator (operands : node.operands? = some (left, right))
    (first : ∀ context, ∃ after, (emit left context).outcome = .ok after ∧
      after.lastKind = if left.silent then context.lastKind else one)
    (second : ∀ context, ∃ after, (emit right context).outcome = .ok after ∧
      after.lastKind = if right.silent then context.lastKind else two) :
    ∃ kind, ∀ context, ∃ after, (emit node context).outcome = .ok after ∧
      after.lastKind = if node.silent then context.lastKind else kind := by
  have ended := contexts_operator operands first second
  cases node with
  | compare | logical =>
      cases operands
      refine ⟨if right.silent then one else two, fun context => ?_⟩
      obtain ⟨before, after, done, kindLeft, kindRight⟩ := ended context
      refine ⟨after, done, ?_⟩
      rw [kindRight]
      simp only [Node.keeps, kindLeft, Node.silent]
      by_cases front : left.silent = true <;> by_cases behind : right.silent = true <;>
        simp [front, behind]
  | arith =>
      cases operands
      refine ⟨none, fun context => ?_⟩
      obtain ⟨before, after, done, -, -⟩ := ended context
      exact ⟨after.cleared, done, rfl⟩
  | _ => cases operands

end

theorem lastKind_sound {node : Node} (sound : node.Sound) : ∃ kind, ∀ context, ∃ after,
    (emit node context).outcome = .ok after ∧
      after.lastKind = if node.silent then context.lastKind else kind := by
  induction sound with
  | name name =>
      obtain ⟨kind, ends⟩ := lastKind_identifier name
      exact ⟨kind, fun context => by rw [emit, emit]; exact ends context⟩
  | @literal position place kind raw v known =>
      refine ⟨some v.kind, fun context => ?_⟩
      obtain ⟨load, -, same⟩ := outcome_literal known place context
      exact ⟨_, by rw [emit, emit, same]; rfl, rfl⟩
  | @operator node left right operands _ _ _ ihLeft ihRight =>
      obtain ⟨one, first⟩ := ihLeft
      obtain ⟨two, second⟩ := ihRight
      exact lastKind_operator operands first second

theorem lastKind_emit {node : Node} (sound : node.Sound) (context : EmitContext) :
    ∃ after, (emit node context).outcome = .ok after ∧
      after.lastKind = if node.silent then context.lastKind else node.kind? := by
  obtain ⟨kind, ends⟩ := lastKind_sound sound
  obtain ⟨alone, done, own⟩ := ends .start
  obtain ⟨after, ended, last⟩ := ends context
  have own' : node.kind? = if node.silent then none else kind := by
    rw [Node.kind?, done]
    exact own
  refine ⟨after, ended, last.trans ?_⟩
  by_cases quiet : node.silent = true <;> simp [own', quiet]

theorem kind?_silent {node : Node} (sound : node.Sound) (silent : node.silent = true) :
    node.kind? = none := by
  obtain ⟨after, done, kind⟩ := lastKind_emit sound .start
  rw [silent] at kind
  rw [Node.kind?, done]
  exact kind

theorem lastKind_cleared {node : Node} (sound : node.Sound) (context : EmitContext) :
    ∃ after, (emit node context.cleared).outcome = .ok after ∧ after.lastKind = node.kind? := by
  obtain ⟨after, done, last⟩ := lastKind_emit sound context.cleared
  refine ⟨after, done, last.trans ?_⟩
  by_cases quiet : node.silent = true
  · rw [if_pos quiet, kind?_silent sound quiet]
    rfl
  · rw [if_neg quiet]

structure Emitted.Sways (swayed : Bool) (e other : Emitted) : Prop where
  pool : e.pool = other.pool
  length : e.words.length = other.words.length
  words : e.words = other.words ↔ swayed = false

namespace Emitted

theorem Sways.same (e : Emitted) : e.Sways false e := ⟨rfl, rfl, by simp⟩

theorem sways_opcode {op other : Opcode} {swayed : Bool} (differ : op = other ↔ swayed = false)
    (context context' : EmitContext) :
    (opcode op context).Sways swayed (opcode other context') where
  pool := rfl
  length := rfl
  words := by
    rw [← differ]
    constructor
    · intro same
      exact Opcode.word_injective (List.cons.inj same).1
    · rintro rfl
      rfl

theorem Sways.andThen {first first' : Emitted} {next next' : EmitContext → Emitted} {x y : Bool}
    {middle middle' : EmitContext} (one : first.Sways x first')
    (done : first.outcome = .ok middle) (done' : first'.outcome = .ok middle')
    (two : (next middle).Sways y (next' middle')) :
    (first.andThen next).Sways (x || y) (first'.andThen next') where
  pool := by rw [pool_andThen done, pool_andThen done', one.pool, two.pool]
  length := by
    rw [words_andThen done, words_andThen done', List.length_append, List.length_append, one.length,
      two.length]
  words := by
    rw [words_andThen done, words_andThen done', Bool.or_eq_false_iff, ← one.words, ← two.words]
    constructor
    · exact fun same => List.append_inj same one.length
    · rintro ⟨front, behind⟩
      rw [front, behind]

end Emitted

theorem sways_identifier (name : Identifier) (context : EmitContext) :
    (emitIdentifier name context).Sways false (emitIdentifier name context.cleared) := by
  cases outside : name.external with
  | false =>
      simp only [emitIdentifier, outside, Bool.false_eq_true, if_false]
      exact ⟨rfl, rfl, by simp⟩
  | true =>
      -- The first constant replaces the kind that stood before.
      have same : emitIdentifier name context = emitIdentifier name context.cleared := by
        simp only [emitIdentifier, outside, if_true]
        rfl
      rw [same]
      exact .same _

theorem contexts_behind {node : Node} (sound : node.Sound) {context : EmitContext} {x : Bool}
    (sways : (emit node context).Sways x (emit node context.cleared)) :
    ∃ n, (emit node context).outcome =
        .ok ⟨n, if node.silent then context.lastKind else node.kind?⟩ ∧
      (emit node context.cleared).outcome = .ok ⟨n, if node.silent then none else node.kind?⟩ := by
  obtain ⟨⟨n, kind⟩, done, own⟩ := lastKind_emit sound context
  obtain ⟨⟨n', kind'⟩, done', own'⟩ := lastKind_emit sound context.cleared
  have counted : n = context.nextConstant + _ := (laidOut_emit node context).counted _ done
  have counted' : n' = context.nextConstant + _ :=
    (laidOut_emit node context.cleared).counted _ done'
  rw [← sways.pool, ← counted] at counted'
  subst counted'
  exact ⟨n', own ▸ done, own' ▸ done'⟩

theorem sways_operator {node left right : Node} (operands : node.operands? = some (left, right))
    {context context' before before' after after' : EmitContext} {x y z : Bool}
    (one : (emit left context).Sways x (emit left context'))
    (done : (emit left context).outcome = .ok before)
    (done' : (emit left context').outcome = .ok before')
    (two : (emit right (node.keeps before)).Sways y (emit right (node.keeps before')))
    (ends : (emit right (node.keeps before)).outcome = .ok after)
    (ends' : (emit right (node.keeps before')).outcome = .ok after')
    (three : node.opcode before.lastKind after.lastKind =
      node.opcode before'.lastKind after'.lastKind ↔ z = false) :
    (emit node context).Sways (x || (y || z)) (emit node context') := by
  rw [emit_operator operands, emit_operator operands]
  exact one.andThen done done' (two.andThen ends ends' (sways_opcode three _ _))

theorem sways_arith {position : Position} {op : Arithmetic} {left right : Node}
    (soundLeft : left.Sound) (soundRight : right.Sound) {context : EmitContext}
    (one : (emit left context).Sways (left.swayed context.lastKind) (emit left context.cleared)) :
    (emit (.arith position op left right) context).Sways
      ((Node.arith position op left right).swayed context.lastKind)
      (emit (.arith position op left right) context.cleared) := by
  obtain ⟨n, done, done'⟩ := contexts_behind soundLeft one
  obtain ⟨after, ends, own⟩ := lastKind_cleared soundRight ⟨n, none⟩
  have whole : (emit (.arith position op left right) context).Sways
      (left.swayed context.lastKind ||
        (false || (left.silent && op.swayedBy context.lastKind right.kind?)))
      (emit (.arith position op left right) context.cleared) := by
    -- Nothing stands before the right side, whatever stood before the left one.
    refine sways_operator rfl one done done' (.same (emit right ⟨n, none⟩)) ends ends ?_
    simp only [Node.opcode, own, Bool.and_eq_false_iff, ← arithmeticOpcode_standing]
    by_cases quiet : left.silent = true <;> simp [quiet]
  rwa [Node.swayed, ← Bool.false_or (left.silent && _)]

theorem sways_deaf {node left right : Node} (operands : node.operands? = some (left, right))
    (keeps : ∀ c, node.keeps c = c) (deaf : ∀ one two, node.opcode one two = node.opcode none none)
    (soundLeft : left.Sound) (soundRight : right.Sound) {context : EmitContext}
    (one : (emit left context).Sways (left.swayed context.lastKind) (emit left context.cleared))
    (two : ∀ c, (emit right c).Sways (right.swayed c.lastKind) (emit right c.cleared)) :
    (emit node context).Sways
      (left.swayed context.lastKind || (left.silent && right.swayed context.lastKind))
      (emit node context.cleared) := by
  obtain ⟨n, done, done'⟩ := contexts_behind soundLeft one
  obtain ⟨after, ends, -⟩ := lastKind_emit soundRight
    (node.keeps ⟨n, if left.silent then context.lastKind else left.kind?⟩)
  obtain ⟨after', ends', -⟩ := lastKind_emit soundRight
    (node.keeps ⟨n, if left.silent then none else left.kind?⟩)
  have behind : (emit right (node.keeps ⟨n, if left.silent then context.lastKind else left.kind?⟩)).Sways
      (left.silent && right.swayed context.lastKind)
      (emit right (node.keeps ⟨n, if left.silent then none else left.kind?⟩)) := by
    rw [keeps, keeps]
    by_cases quiet : left.silent = true
    · simp only [quiet, if_true, Bool.true_and]
      exact two ⟨n, context.lastKind⟩
    · simpa only [quiet, Bool.false_eq_true, if_false, Bool.false_and] using
        Sways.same (emit right ⟨n, left.kind?⟩)
  have same : ∀ kind kind' other other', node.opcode kind other = node.opcode kind' other' ↔
      false = false := by
    intro kind kind' other other'
    simp only [deaf]
  have whole := sways_operator operands one done done' behind ends ends' (same _ _ _ _)
  simpa only [Bool.or_false] using whole

theorem sways_emit {node : Node} (sound : node.Sound) (context : EmitContext) :
    (emit node context).Sways (node.swayed context.lastKind) (emit node context.cleared) := by
  induction sound generalizing context with
  | name name =>
      rw [emit, emit, emit, emit]
      exact sways_identifier name context
  | @literal position place kind raw v known =>
      have same : emitLiteral place kind raw context = emitLiteral place kind raw context.cleared := by
        cases kind with
        | string | boolean => rfl
        | number =>
            obtain ⟨x, read, -⟩ := Option.map_eq_some_iff.mp known
            simp only [emitLiteral, read]
            rfl
      rw [emit, emit, emit, emit, same]
      exact .same _
  | @operator node left right operands one two level ihLeft ihRight =>
      cases node with
      | arith =>
          cases operands
          exact sways_arith one two (ihLeft context)
      | compare | logical =>
          cases operands
          exact sways_deaf rfl (fun _ => rfl) (fun _ _ => rfl) one two (ihLeft context) ihRight
      | _ => cases operands

theorem silent_of_arithmetical {node : Node} (level : node.Arithmetical) :
    node.silent = node.isPlain := by
  cases node with
  | primitive | arith => rfl
  | _ => cases level

theorem operation_of_sum {position : Position} {left right : Node}
    (sound : (Node.arith position .add left right).Sound) (context : EmitContext) :
    (emit (.arith position .add left right) context).words.getLast? =
      some (arithmeticOpcode .add (if left.isPlain then context.lastKind else left.kind?)
        right.kind?).word := by
  obtain ⟨soundLeft, soundRight, level⟩ := sound.operand rfl
  obtain ⟨before, done, kind⟩ := lastKind_emit soundLeft context
  obtain ⟨after, ended, own⟩ := lastKind_cleared soundRight before
  rw [emit, words_andThen done, words_andThen ended, words_opcode, ← List.append_assoc,
    List.getLast?_concat, own, kind, silent_of_arithmetical (level trivial)]

theorem moved_alone {node : Node} (sound : node.Sound) (context : EmitContext) :
    (emit node .start).Moved context.nextConstant (emit node context.cleared) := by
  have place : EmitContext.start.moved context.nextConstant = context.cleared := by
    simp [EmitContext.moved, EmitContext.start, EmitContext.cleared]
  rw [← place]
  exact moved_emit sound .start

theorem operand_alone {node : Node} (sound : node.Sound) (position : Position)
    (context : EmitContext) :
    (emit node context).pool =
        (emit (.program position [node]) .start).pool.map (Value.readdress context.nextConstant) ∧
      ((emit node context).words =
          readdress context.nextConstant (emit (.program position [node]) .start).words ↔
        node.swayed context.lastKind = false) := by
  obtain ⟨after, done, -⟩ := lastKind_emit sound .start
  have sways := sways_emit sound context
  have moved := moved_alone sound context
  rw [pool_root position done, words_root position done, ← moved.pool, ← moved.words]
  exact ⟨sways.pool, sways.words⟩

theorem swayed_sum_iff {left right : Node} (sound : left.Sound) (standing : Option ValueKind) :
    arithmeticOpcode .add (if left.isPlain then standing else left.kind?) right.kind? =
        arithmeticOpcode .add left.kind? right.kind? ↔
      ¬ (left.isPlain = true ∧ Arithmetic.swayedBy .add standing right.kind? = true) := by
  by_cases plain : left.isPlain = true
  · have quiet : left.silent = true := by
      unfold Node.isPlain at plain
      split at plain
      · simpa [Node.silent, Node.isPlain] using plain
      · cases plain
    rw [if_pos plain, kind?_silent sound quiet, arithmeticOpcode_standing]
    simp [plain]
  · simp [plain]

/-- In the program of a text, the operation of a sum is that of the kinds of its own sides, unless the left
one is a plain name and the kind that stands before it sways the sum. Operands compile as they do alone
unless such a sum is among them. -/
theorem sum_heeds_standing_kind {keywordBoundary : Bool} {source : String} {root : Node}
    (parsed : parse (Scanner.ofString keywordBoundary source) = .ok root) {node : Node}
    {context : EmitContext} {before : List Emission} (part : Part root node context before) :
    (∀ validate program, compile validate root = .ok program → ∃ behind, program.words =
      before.filterMap Emission.word? ++ ((emit node context).words ++ behind)) ∧
    (∀ position left right, node = .arith position .add left right →
      (emit node context).words.getLast? = some (arithmeticOpcode .add
        (if left.isPlain then context.lastKind else left.kind?) right.kind?).word ∧
      ((emit node context).words.getLast? =
          some (arithmeticOpcode .add left.kind? right.kind?).word ↔
        ¬ (left.isPlain = true ∧
          Arithmetic.swayedBy .add context.lastKind right.kind? = true))) ∧
    ∀ operand place inside, node.Side context operand place inside →
      (emit operand place).pool =
          (emit (.program .start [operand]) .start).pool.map (Value.readdress place.nextConstant) ∧
        ((emit operand place).words =
            readdress place.nextConstant (emit (.program .start [operand]) .start).words ↔
          operand.swayed place.lastKind = false) := by
  have fits := part.fits (fits_of_parse parsed)
  refine ⟨fun validate program => part.words, ?_, fun operand place inside side => ?_⟩
  · rintro position left right rfl
    have sound := fits.sound rfl
    have operation := operation_of_sum sound context
    refine ⟨operation, ?_⟩
    rw [operation, ← swayed_sum_iff (sound.operand rfl).1 context.lastKind, Option.some_inj]
    exact ⟨Opcode.word_injective, congrArg Opcode.word⟩
  · exact operand_alone (side.sound fits) .start place

def plainName : Node := .primitive ⟨1, 7, 7⟩ (.identifier ⟨1, 7, 7⟩ ⟨false, "x", []⟩)

def plainPlus (other : Node) : Node := .arith ⟨1, 9, 9⟩ .add plainName other

def textEquals (right : Node) : Node :=
  .compare ⟨1, 4, 4⟩ .equality .eq (.primitive .start (.literal .start .string "a")) right

def textEqualsPlus (other : Grammar.Leaf) (column : UInt32) : Grammar.Program :=
  let text : Grammar.Leaf := .string ⟨.string, .start, "a"⟩ rfl
  let name : Grammar.Leaf := .plain ⟨.identifier, ⟨1, 7, 7⟩, "x"⟩ [] rfl
  let added : Grammar.Behind Grammar.SumOperator Grammar.product :=
    ⟨[.space 8], ⟨.add, ⟨1, 9, 9⟩, "+"⟩, [.space 10], _, ((other, none), none),
      Grammar.blanks_space 8, .add rfl, Grammar.blanks_space 10⟩
  let compared : Grammar.Behind Grammar.EqualityOperator Grammar.ordering :=
    ⟨[.space 3], ⟨.equalityOp, ⟨1, 4, 4⟩, "=="⟩, [.space 6], _,
      ((((name, none), none), [added]), none), Grammar.blanks_space 3, .eq rfl rfl,
      Grammar.blanks_space 6⟩
  .expression [] (((((((text, none), none), []), none), some compared), none), none) []
    ⟨.eof, ⟨1, column, column⟩, ""⟩ (List.forall_mem_nil _) (List.forall_mem_nil _) rfl

def numberOne : Node := .primitive ⟨1, 11, 11⟩ (.literal ⟨1, 11, 11⟩ .number "1")

-- The tree of `"a" == x + 1`.
def textAndSum : Node := .program .start [textEquals (plainPlus numberOne)]

theorem parse_text_and_sum :
    parse (Scanner.ofString true "\"a\" == x + 1") = .ok textAndSum :=
  parse_of_rules 10 (textEqualsPlus (.number ⟨.number, ⟨1, 11, 11⟩, "1"⟩ rfl) 12)
    (by decide +kernel) (by decide)

theorem part_plain_sum : ∃ before, Part textAndSum (plainPlus numberOne) ⟨1, some .string⟩ before :=
  ⟨_, .operand (.expression .start _) (.right rfl rfl)⟩

theorem plain_sum_swayed :
    parse (Scanner.ofString true "\"a\" == x + 1") = .ok textAndSum ∧
      ∃ context before, Part textAndSum (plainPlus numberOne) context before ∧
        (emit (plainPlus numberOne) context).words.getLast? = some Opcode.concat.word ∧
        arithmeticOpcode .add plainName.kind? numberOne.kind? = .double .add ∧
        (emit (plainPlus numberOne) context).words ≠
          readdress context.nextConstant
            (emit (.program .start [plainPlus numberOne]) .start).words := by
  obtain ⟨before, part⟩ := part_plain_sum
  exact ⟨parse_text_and_sum, _, before, part, by decide +kernel, by decide +kernel,
    by decide +kernel⟩

theorem plain_sum_heeds_text :
    parse (Scanner.ofString true "\"a\" == x + 1") = .ok textAndSum ∧
      ∃ context before, Part textAndSum (plainPlus numberOne) context before ∧
        (emit (plainPlus numberOne) context).words.getLast? =
          some (arithmeticOpcode .add context.lastKind numberOne.kind?).word := by
  obtain ⟨before, part⟩ := part_plain_sum
  have heeds := (sum_heeds_standing_kind parse_text_and_sum part).2.1 _ _ _ rfl
  exact ⟨parse_text_and_sum, _, before, part, heeds.1⟩

end PredicateLang
