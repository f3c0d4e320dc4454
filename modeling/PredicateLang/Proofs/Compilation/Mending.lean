import PredicateLang.Proofs.Compilation.Sinks
import PredicateLang.Proofs.Compilation.Totality

set_option autoImplicit false

namespace PredicateLang

open Emitted

mutual

/-- A tree whose first unreadable number has another text. -/
def Node.mended (raw : String) : Node → Node
  | .program position items => .program position (mendedAll raw items)
  | .identifier position name => .identifier position name
  | .primitive position inner => .primitive position (inner.mended raw)
  | .literal position kind old =>
      if kind = .number ∧ Double.read? old = none then .literal position kind raw
      else .literal position kind old
  | .compare position relation op left right =>
      if (unreadable? left.numbers).isSome then .compare position relation op (left.mended raw) right
      else .compare position relation op left (right.mended raw)
  | .arith position op left right =>
      if (unreadable? left.numbers).isSome then .arith position op (left.mended raw) right
      else .arith position op left (right.mended raw)
  | .logical position op left right =>
      if (unreadable? left.numbers).isSome then .logical position op (left.mended raw) right
      else .logical position op left (right.mended raw)

def Node.mendedAll (raw : String) : List Node → List Node
  | [] => []
  | node :: rest =>
      if (unreadable? node.numbers).isSome then node.mended raw :: rest else node :: mendedAll raw rest

end

theorem unreadable?_literal (position : Position) (kind : LiteralKind) (raw : String) :
    unreadable? (Node.literal position kind raw).numbers =
      if kind = .number ∧ Double.read? raw = none then some (position, raw) else none := by
  rw [Node.numbers]
  by_cases number : kind = .number
  · cases read : Double.read? raw <;> simp [unreadable?, number, read]
  · simp [unreadable?, number]

def mendedNumbers (raw : String) : List (Position × String) → List (Position × String)
  | [] => []
  | (position, old) :: rest =>
      if Double.read? old = none then (position, raw) :: rest else (position, old) :: mendedNumbers raw rest

theorem mendedNumbers_append (raw : String) (front behind : List (Position × String)) :
    mendedNumbers raw (front ++ behind) =
      if (unreadable? front).isSome then mendedNumbers raw front ++ behind
      else front ++ mendedNumbers raw behind := by
  induction front with
  | nil => rfl
  | cons number front ih =>
      obtain ⟨position, old⟩ := number
      by_cases bad : Double.read? old = none
      · simp [mendedNumbers, unreadable?, bad]
      · have good : (Double.read? old).isNone = false := by
          rwa [Option.isNone_eq_false_iff, ← Option.ne_none_iff_isSome]
        have skipped : unreadable? ((position, old) :: front) = unreadable? front := by
          simp [unreadable?, good]
        simp only [List.cons_append, mendedNumbers, if_neg bad, skipped, ih]
        split <;> rfl

mutual

theorem numbers_mended (raw : String) : (node : Node) →
    (node.mended raw).numbers = mendedNumbers raw node.numbers
  | .program _ items => numbers_mendedAll raw items
  | .identifier _ _ => rfl
  | .primitive _ inner => numbers_mended raw inner
  | .literal position kind old => by
      by_cases bad : kind = .number ∧ Double.read? old = none
      · obtain ⟨rfl, unread⟩ := bad
        simp [Node.mended, Node.numbers, mendedNumbers, unread]
      · rw [Node.mended, if_neg bad]
        by_cases number : kind = .number
        · have read : Double.read? old ≠ none := fun unread => bad ⟨number, unread⟩
          simp [Node.numbers, mendedNumbers, number, read]
        · simp [Node.numbers, mendedNumbers, number]
  | .compare _ _ _ left right => by
      rw [Node.mended, Node.numbers, mendedNumbers_append, ← numbers_mended raw left,
        ← numbers_mended raw right]
      split <;> rfl
  | .arith _ _ left right => by
      rw [Node.mended, Node.numbers, mendedNumbers_append, ← numbers_mended raw left,
        ← numbers_mended raw right]
      split <;> rfl
  | .logical _ _ left right => by
      rw [Node.mended, Node.numbers, mendedNumbers_append, ← numbers_mended raw left,
        ← numbers_mended raw right]
      split <;> rfl

theorem numbers_mendedAll (raw : String) : (items : List Node) →
    Node.numbersAll (Node.mendedAll raw items) = mendedNumbers raw (Node.numbersAll items)
  | [] => rfl
  | node :: rest => by
      rw [Node.mendedAll, Node.numbersAll, mendedNumbers_append, ← numbers_mended raw node,
        ← numbers_mendedAll raw rest]
      split <;> rfl

end

theorem mended_of_unreadable {numbers : List (Position × String)} {position : Position} {old : String}
    (bad : unreadable? numbers = some (position, old)) :
    ∃ front behind, numbers = front ++ (position, old) :: behind ∧
      (∀ number ∈ front, (Double.read? number.2).isSome = true) ∧
      ∀ raw, mendedNumbers raw numbers = front ++ (position, raw) :: behind := by
  rw [unreadable?, List.find?_eq_some_iff_append] at bad
  obtain ⟨unread, front, behind, rfl, good⟩ := bad
  have readable : ∀ number ∈ front, (Double.read? number.2).isSome = true := by simpa using good
  have skipped : unreadable? front = none := by
    rw [unreadable?, List.find?_eq_none]
    intro number present
    simp [Option.isSome_iff_ne_none.mp (readable number present)]
  refine ⟨front, behind, rfl, readable, fun raw => ?_⟩
  have first : Double.read? old = none := by simpa using unread
  simp [mendedNumbers_append, skipped, mendedNumbers, first]

def NumberBehind (root : Node) (position : Position) (raw : String) (items : List Emission) : Prop :=
  ∃ place, Part root (.literal position .number raw) place items

section

variable {root : Node} {raw old : String} {position : Position}

theorem part_mended_operator {node node' left left' right right' : Node}
    (operands : node.operands? = some (left, right))
    (operands' : node'.operands? =
      if (unreadable? left.numbers).isSome then some (left', right) else some (left, right'))
    (keeps : node'.keeps = node.keeps)
    (one : ∀ {context before}, unreadable? left.numbers = some (position, old) →
      Part root left' context before →
        NumberBehind root position raw (before ++ (emit left context).items))
    (two : ∀ {context before}, unreadable? right.numbers = some (position, old) →
      Part root right' context before →
        NumberBehind root position raw (before ++ (emit right context).items))
    {context : EmitContext} {before : List Emission}
    (bad : unreadable? (left.numbers ++ right.numbers) = some (position, old))
    (part : Part root node' context before) :
    NumberBehind root position raw (before ++ (emit node context).items) := by
  rw [unreadable?_append] at bad
  rw [emit_operator operands]
  obtain ⟨middle, ended⟩ := endsBy_emit left context
  cases unread : unreadable? left.numbers with
  | some number =>
      rw [unread] at bad ended operands'
      cases bad
      -- The walk stops inside the left operand, so nothing of the right one is emitted.
      rw [andThen_of_error ended]
      obtain ⟨place, inner⟩ := one unread (part.operand (.left operands'))
      rw [List.append_nil] at inner
      exact ⟨place, inner⟩
  | none =>
      rw [unread] at bad ended operands'
      obtain ⟨place, inner⟩ := two bad (part.operand (.right operands' ended))
      obtain ⟨last, stopped⟩ := endsBy_emit right (node.keeps middle)
      rw [Option.none_or] at bad
      rw [bad] at stopped
      rw [keeps, List.append_assoc] at inner
      have done : (emit left context).outcome = .ok middle := ended
      rw [andThen_of_ok done, andThen_of_error stopped]
      exact ⟨place, inner⟩

mutual

theorem part_mended : (node : Node) → {context : EmitContext} → {before : List Emission} →
    unreadable? node.numbers = some (position, old) → Part root (node.mended raw) context before →
      NumberBehind root position raw (before ++ (emit node context).items)
  | .program start items, context, before, bad, part => by
      rw [emit]
      simpa [emitAll, nothing] using part_mendedAll items [] bad part rfl
  | .identifier _ _, _, _, bad, _ => by cases bad
  | .primitive _ inner, context, before, bad, part => by
      rw [emit]
      exact part_mended inner bad part.inner
  | .literal start kind text, context, before, bad, part => by
      rw [unreadable?_literal] at bad
      split at bad
      · rename_i unread
        cases bad
        rw [Node.mended, if_pos unread] at part
        obtain ⟨rfl, unread⟩ := unread
        simp only [emit, emitLiteral, unread, List.append_nil]
        exact ⟨context, part⟩
      · cases bad
  | .compare _ _ _ left right, _, _, bad, part =>
      part_mended_operator rfl (by rw [Node.mended]; split <;> rfl) (by rw [Node.mended]; split <;> rfl)
        (part_mended left) (part_mended right) bad part
  | .arith _ _ left right, _, _, bad, part =>
      part_mended_operator rfl (by rw [Node.mended]; split <;> rfl) (by rw [Node.mended]; split <;> rfl)
        (part_mended left) (part_mended right) bad part
  | .logical _ _ left right, _, _, bad, part =>
      part_mended_operator rfl (by rw [Node.mended]; split <;> rfl) (by rw [Node.mended]; split <;> rfl)
        (part_mended left) (part_mended right) bad part

theorem part_mendedAll : (items : List Node) → (front : List Node) → {start : Position} →
    {context middle : EmitContext} → {before : List Emission} →
    unreadable? (Node.numbersAll items) = some (position, old) →
    Part root (.program start (front ++ Node.mendedAll raw items)) context before →
    (emitAll front context).outcome = .ok middle →
      NumberBehind root position raw
        (before ++ ((emitAll front context).items ++ (emitAll items middle).items))
  | [], _, _, _, _, _, bad, _, _ => by cases bad
  | node :: rest, front, start, context, middle, before, bad, part, done => by
      rw [Node.numbersAll, unreadable?_append] at bad
      rw [Node.mendedAll] at part
      rw [emitAll]
      obtain ⟨after, ended⟩ := endsBy_emit node middle
      cases unread : unreadable? node.numbers with
      | some number =>
          rw [unread] at bad ended part
          cases bad
          obtain ⟨place, inner⟩ := part_mended node unread (part.item done)
          rw [andThen_of_error ended, ← List.append_assoc]
          exact ⟨place, inner⟩
      | none =>
          rw [unread] at bad ended part
          rw [Option.none_or] at bad
          rw [if_neg (by simp), List.append_cons] at part
          have longer := emitAll_snoc done ended
          obtain ⟨place, inner⟩ := part_mendedAll rest (front ++ [node]) bad part (by rw [longer])
          rw [longer, List.append_assoc] at inner
          have done' : (emit node middle).outcome = .ok after := ended
          rw [andThen_of_ok done']
          exact ⟨place, inner⟩

end

end

theorem outcome_of_failed {validate : Bool} {root : Node} {position : Position} {old : String}
    (failed : compile validate root = .error (.invalidNumber position old)) :
    (emit root .start).outcome = .error (.invalidNumber position old) := by
  rw [compile] at failed
  split at failed
  · rename_i fault stopped
    cases failed
    exact stopped
  · -- What the validator finds is no fault of a number.
    dsimp only at failed
    split at failed
    · split at failed <;> cases failed
    · cases failed

theorem unreadable_of_outcome {root : Node} {position : Position} {old : String}
    (stopped : (emit root .start).outcome = .error (.invalidNumber position old)) :
    unreadable? root.numbers = some (position, old) := by
  obtain ⟨after, ended⟩ := endsBy_emit root .start
  rw [stopped] at ended
  cases bad : unreadable? root.numbers with
  | none =>
      rw [bad] at ended
      cases ended
  | some number =>
      rw [bad] at ended
      cases ended
      rfl

theorem sent_before_number {root : Node} {position : Position} {old raw : String} {x : Float}
    (bad : unreadable? root.numbers = some (position, old)) (read : Double.read? raw = some x) :
    ∃ others, (emit (root.mended raw) .start).items = (emit root .start).items ++
      [.constant (.double x), .word (Opcode.load .double).word,
        .word (.ofNat (pooled (emit root .start).items))] ++ others := by
  have top : Part (root.mended raw) (root.mended raw) .start [] := .whole
  obtain ⟨place, part⟩ := part_mended root bad top
  obtain ⟨-, counted, others, split⟩ := part.holds
  rw [UInt32.zero_add] at counted
  refine ⟨others, ?_⟩
  rw [split]
  simp [emit, emitLiteral, read, constant, counted, pooled]

/-- The instructions of a compiled program load its constants one by one in the order of the pool, which the
context that is left behind has counted. An attribute belongs to the constant before it, in the row of
constants of an external name of the tree, which are loaded one right after the other. Every sink gets the
emissions that a program is built from; and where compilation stops at a number, it gets those that come
before the number if another text stands there that can be read. -/
theorem constants_are_loaded_once_in_order (root : Node) :
    (∀ validate program, compile validate root = .ok program → constantCount root < UInt32.size →
      (∃ instructions, program.decode = instructions.map .ok ∧
        (operands instructions).map UInt32.toNat = List.range program.constants.length) ∧
      (∀ k key owner, program.constants[k]? = some (.attrRef key owner) →
        owner.toNat + 1 = k ∧ ∃ position name context before n,
          Part root (.identifier position name) context before ∧ name.external = true ∧
            program.Refers name (pooled before) ∧ name.path[n]? = some key ∧
              k = pooled before + 1 + n) ∧
      ∃ context items, Sent root (.ok context) items ∧
        context.nextConstant.toNat = program.constants.length ∧
          items.foldl Program.receive .empty = program) ∧
    ∀ validate position old, compile validate root = .error (.invalidNumber position old) →
      ∃ front behind items, root.numbers = front ++ (position, old) :: behind ∧
        (∀ number ∈ front, (Double.read? number.2).isSome = true) ∧
        Sent root (.error (.invalidNumber position old)) items ∧
        ∀ raw x, Double.read? raw = some x →
          (root.mended raw).numbers = front ++ (position, raw) :: behind ∧
          ∃ ended others, Sent (root.mended raw) ended
            (items ++ [.constant (.double x), .word (Opcode.load .double).word,
              .word (.ofNat (pooled items))] ++ others) := by
  constructor
  · intro validate program compiled few
    obtain ⟨context, done⟩ := outcome_of_compile compiled
    have sent := sent_emit root
    rw [done] at sent
    refine ⟨operands_of_compile compiled few,
      fun k key owner held => attribute_of_compile compiled few held,
      context, _, sent, counted_of_compile compiled few done, ?_⟩
    rw [Program.replay, compile_ok compiled]
  · intro validate position old failed
    have stopped := outcome_of_failed failed
    have bad := unreadable_of_outcome stopped
    obtain ⟨front, behind, split, good, mended⟩ := mended_of_unreadable bad
    have sent := sent_emit root
    rw [stopped] at sent
    refine ⟨front, behind, _, split, good, sent, fun raw x read => ⟨?_, ?_⟩⟩
    · rw [numbers_mended, mended]
    · obtain ⟨others, items⟩ := sent_before_number bad read
      have resumed := sent_emit (root.mended raw)
      rw [items] at resumed
      exact ⟨_, others, resumed⟩

-- The tree of `@user.role==` before a number.
def roleAgainst (raw : String) : Node :=
  .program .start [.compare ⟨1, 10, 10⟩ .equality .eq
    (.primitive .start (.identifier .start ⟨true, "user", ["role"]⟩))
    (.primitive ⟨1, 12, 12⟩ (.literal ⟨1, 12, 12⟩ .number raw))]

theorem role_is_sent_before_its_number :
    (∃ program context items, compile true (roleAgainst "1.5") = .ok program ∧
      program.constants[1]? = some (.attrRef "role" 0) ∧
      Sent (roleAgainst "1.5") (.ok context) items ∧
      context.nextConstant.toNat = program.constants.length ∧
      items.foldl Program.receive .empty = program) ∧
    compile true (roleAgainst "1.2.3") = .error (.invalidNumber ⟨1, 12, 12⟩ "1.2.3") ∧
      ∃ x items ended others,
        Sent (roleAgainst "1.2.3") (.error (.invalidNumber ⟨1, 12, 12⟩ "1.2.3")) items ∧
        Sent (roleAgainst "1.5") ended
          (items ++ [.constant (.double x), .word (Opcode.load .double).word,
            .word (.ofNat (pooled items))] ++ others) := by
  have few : constantCount (roleAgainst "1.5") < UInt32.size := by decide +kernel
  have few' : constantCount (roleAgainst "1.2.3") < UInt32.size := by decide +kernel
  have good : unreadable? (roleAgainst "1.5").numbers = none := by decide +kernel
  have bad : unreadable? (roleAgainst "1.2.3").numbers = some (⟨1, 12, 12⟩, "1.2.3") := by decide +kernel
  have compiled : compile true (roleAgainst "1.5") =
      .ok (assemble (emit (roleAgainst "1.5") .start).items) := by
    rw [compile_validated few, compile_unvalidated, good]
    rfl
  have failed : compile true (roleAgainst "1.2.3") = .error (.invalidNumber ⟨1, 12, 12⟩ "1.2.3") := by
    rw [compile_validated few', compile_unvalidated, bad]
    rfl
  obtain ⟨x, read⟩ : ∃ x, Double.read? "1.5" = some x := Option.isSome_iff_exists.mp (by decide +kernel)
  obtain ⟨-, -, context, items, sent, counted, replayed⟩ :=
    (constants_are_loaded_once_in_order (roleAgainst "1.5")).1 true _ compiled few
  obtain ⟨_, _, items', _, _, stopped, mended⟩ :=
    (constants_are_loaded_once_in_order (roleAgainst "1.2.3")).2 true _ _ failed
  obtain ⟨-, ended, others, resumed⟩ := mended "1.5" x read
  have same : (roleAgainst "1.2.3").mended "1.5" = roleAgainst "1.5" := by rfl
  rw [same] at resumed
  exact ⟨⟨_, context, items, compiled, by rfl, sent, counted, replayed⟩, failed,
    x, items', ended, others, stopped, resumed⟩

end PredicateLang
