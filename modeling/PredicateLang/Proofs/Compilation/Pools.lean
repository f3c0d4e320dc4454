import PredicateLang.Proofs.Compilation.Parts

set_option autoImplicit false

namespace PredicateLang

def operands (instructions : List Instruction) : List UInt32 := instructions.filterMap (·.operand)

def Identifier.constants (name : Identifier) (start : UInt32) : List Value :=
  .dataRef name.base .static :: name.path.mapIdx fun n key => .attrRef key (start + .ofNat n)

def Identifier.loads (name : Identifier) (pc : Nat) (start : UInt32) : List Instruction :=
  ⟨pc, .getStatic, some start⟩ ::
    name.path.mapIdx fun n _ => ⟨pc + 2 + 2 * n, .getAttr, some (start + 1 + .ofNat n)⟩

/-- A program has the constants of a name from an index on, and loads them one right after the other. -/
structure Program.Refers (p : Program) (name : Identifier) (start : Nat) : Prop where
  pooled : ∃ front behind, front.length = start ∧
    p.constants = front ++ (name.constants (.ofNat start) ++ behind)
  loaded : ∃ front pc behind,
    p.decode = front ++ ((name.loads pc (.ofNat start)).map .ok ++ behind)

namespace Emitted

variable {start : UInt32} {first : Emitted} {next : EmitContext → Emitted}

def Loads (start : UInt32) (e : Emitted) : Prop :=
  ∀ pc, ∃ instructions, Program.decodeFrom pc e.words = instructions.map .ok ∧
    operands instructions = (List.range e.pool.length).map fun n => start + .ofNat n

theorem loads_words {e : Emitted} (pool : e.pool = []) (words : e.words = []) : e.Loads start :=
  fun pc => ⟨[], by rw [words]; rfl, by rw [pool]; rfl⟩

theorem loads_opcode {op : Opcode} (alone : op.hasOperand = false) (context : EmitContext) :
    (opcode op context).Loads start := by
  intro pc
  refine ⟨[⟨pc, op, none⟩], ?_, rfl⟩
  simp [Program.decodeFrom, alone]

theorem loads_constant {op : Opcode} (followed : op.hasOperand = true) (v : Value)
    (context : EmitContext) : (constant op v context).Loads context.nextConstant := by
  intro pc
  refine ⟨[⟨pc, op, some context.nextConstant⟩], ?_, by simp [operands]⟩
  simp [Program.decodeFrom, followed]

theorem Loads.andThen (laidOut : first.LaidOut start) (one : first.Loads start)
    (two : ∀ middle, first.outcome = .ok middle → (next middle).Loads middle.nextConstant) :
    (first.andThen next).Loads start := by
  cases done : first.outcome with
  | error fault =>
      rw [andThen_of_error done]
      exact one
  | ok middle =>
      intro pc
      obtain ⟨front, decoded, counted⟩ := one pc
      obtain ⟨behind, decoded', counted'⟩ := two middle done (pc + first.words.length)
      refine ⟨front ++ behind, ?_, ?_⟩
      · rw [words_andThen done, Program.decodeFrom_append laidOut.whole, decoded, decoded', List.map_append]
      · have place := laidOut.counted middle done
        rw [operands, List.filterMap_append, ← operands, ← operands, counted, counted',
          pool_andThen done, List.length_append, List.range_add, List.map_append, List.map_map, place]
        simp [Function.comp_def, UInt32.ofNat_add, UInt32.add_assoc]

theorem closed_loads : Closed fun start e => e.LaidOut start ∧ e.Loads start where
  nothing context := ⟨closed_laidOut.nothing context, loads_words rfl rfl⟩
  opcode alone context := ⟨closed_laidOut.opcode alone context, loads_opcode alone context⟩
  constant followed suits context :=
    ⟨closed_laidOut.constant followed suits context, loads_constant followed _ context⟩
  fault start fault := ⟨closed_laidOut.fault start fault, loads_words rfl rfl⟩
  andThen one two :=
    ⟨closed_laidOut.andThen one.1 fun middle done => (two middle done).1,
      one.2.andThen one.1 fun middle done => (two middle done).2⟩

end Emitted

open Emitted

theorem loads_emit (node : Node) (context : EmitContext) :
    (emit node context).Loads context.nextConstant :=
  (closed_loads.emit node context).2

theorem index_succ (start : UInt32) (n : Nat) : start + .ofNat (n + 1) = start + 1 + .ofNat n := by
  rw [UInt32.ofNat_add, UInt32.add_comm (.ofNat n), ← UInt32.add_assoc]
  rfl

theorem pool_path (path : List String) (context : EmitContext) :
    (emitPath path context).pool =
      path.mapIdx fun n key => .attrRef key (context.nextConstant - 1 + .ofNat n) := by
  induction path generalizing context with
  | nil => rfl
  | cons key rest ih =>
      rw [emitPath, pool_andThen rfl, pool_constant, ih, List.mapIdx_cons]
      simp only [index_succ, UInt32.sub_add_cancel, UInt32.add_sub_cancel]
      simp

theorem decode_path (path : List String) (context : EmitContext) (pc : Nat) :
    Program.decodeFrom pc (emitPath path context).words =
      (path.mapIdx fun n _ =>
        (⟨pc + 2 * n, .getAttr, some (context.nextConstant + .ofNat n)⟩ : Instruction)).map .ok := by
  induction path generalizing context pc with
  | nil => rfl
  | cons key rest ih =>
      have place (n : Nat) : pc + 2 * (n + 1) = pc + 2 + 2 * n := by omega
      rw [emitPath, words_andThen rfl, words_constant, List.mapIdx_cons]
      simp only [index_succ, place]
      simp [Program.decodeFrom, Opcode.hasOperand, ih]

theorem pool_identifier {name : Identifier} (outside : name.external = true) (context : EmitContext) :
    (emitIdentifier name context).pool = name.constants context.nextConstant := by
  rw [emitIdentifier, if_pos outside, pool_andThen rfl, pool_constant, pool_path]
  simp [Identifier.constants]

theorem decode_identifier {name : Identifier} (outside : name.external = true) (context : EmitContext)
    (pc : Nat) :
    Program.decodeFrom pc (emitIdentifier name context).words =
      (name.loads pc context.nextConstant).map .ok := by
  rw [emitIdentifier, if_pos outside, words_andThen rfl, words_constant]
  simp [Program.decodeFrom, Opcode.hasOperand, decode_path, Identifier.loads]

def Node.isLeaf : Node → Bool
  | .literal _ _ _ | .identifier _ _ => true
  | _ => false

def pooled (items : List Emission) : Nat := (items.filterMap Emission.constant?).length

@[simp] theorem pooled_nil : pooled [] = 0 := rfl

@[simp] theorem pooled_append (front behind : List Emission) :
    pooled (front ++ behind) = pooled front + pooled behind := by
  simp [pooled]

inductive FromLeaf (root : Node) (v : Value) : Nat → Prop
  | intro {leaf : Node} {context : EmitContext} {before : List Emission} {n : Nat}
      (part : Part root leaf context before) (single : leaf.isLeaf = true)
      (held : (emit leaf context).pool[n]? = some v) : FromLeaf root v (pooled before + n)

theorem Emitted.get_andThen {first : Emitted} {next : EmitContext → Emitted} {n : Nat} {v : Value}
    (held : (first.andThen next).pool[n]? = some v) :
    first.pool[n]? = some v ∨ ∃ middle m, first.outcome = .ok middle ∧ n = pooled first.items + m ∧
      (next middle).pool[m]? = some v := by
  cases done : first.outcome with
  | error fault =>
      rw [andThen_of_error done] at held
      exact .inl held
  | ok middle =>
      rw [pool_andThen done] at held
      by_cases inner : n < first.pool.length
      · rw [List.getElem?_append_left inner] at held
        exact .inl held
      · have more : first.pool.length ≤ n := Nat.le_of_not_lt inner
        rw [List.getElem?_append_right more] at held
        exact .inr ⟨middle, n - first.pool.length, rfl, (Nat.add_sub_of_le more).symm, held⟩

theorem emitAll_snoc {front : List Node} {node : Node} {context middle last : EmitContext}
    (done : (emitAll front context).outcome = .ok middle) (ended : (emit node middle).outcome = .ok last) :
    emitAll (front ++ [node]) context =
      ⟨(emitAll front context).items ++ (emit node middle).items, .ok last⟩ := by
  rw [emitAll_append, andThen_of_ok done, emitAll, andThen_of_ok ended]
  simp [emitAll, nothing]

section

variable {root : Node} {v : Value}

theorem fromLeaf_operator {node left right : Node} (operands : node.operands? = some (left, right))
    (one : ∀ {context before n}, Part root left context before →
      (emit left context).pool[n]? = some v → FromLeaf root v (pooled before + n))
    (two : ∀ {context before n}, Part root right context before →
      (emit right context).pool[n]? = some v → FromLeaf root v (pooled before + n))
    {context : EmitContext} {before : List Emission} {n : Nat} (part : Part root node context before)
    (held : (emit node context).pool[n]? = some v) : FromLeaf root v (pooled before + n) := by
  rw [emit_operator operands] at held
  rcases get_andThen held with own | ⟨middle, m, done, rfl, others⟩
  · simpa using one (part.operand (.left operands)) own
  · rcases get_andThen others with own | ⟨last, m, ended, rfl, none⟩
    · simpa [Nat.add_assoc] using two (part.operand (.right operands done)) own
    · -- The operation itself has no constant.
      cases none

mutual

theorem fromLeaf_emit : (node : Node) → {context : EmitContext} → {before : List Emission} →
    {n : Nat} → Part root node context before → (emit node context).pool[n]? = some v →
      FromLeaf root v (pooled before + n)
  | .program position items, context, before, n, part, held => by
      rw [emit] at held
      simpa [emitAll, nothing] using fromLeaf_emitAll items [] part rfl held
  | .primitive _ inner, _, _, _, part, held => by
      rw [emit] at held
      exact fromLeaf_emit inner part.inner held
  | .literal _ _ _, _, _, _, part, held => .intro part rfl held
  | .identifier _ _, _, _, _, part, held => .intro part rfl held
  | .compare _ _ _ left right, _, _, _, part, held =>
      fromLeaf_operator rfl (fromLeaf_emit left) (fromLeaf_emit right) part held
  | .arith _ _ left right, _, _, _, part, held =>
      fromLeaf_operator rfl (fromLeaf_emit left) (fromLeaf_emit right) part held
  | .logical _ _ left right, _, _, _, part, held =>
      fromLeaf_operator rfl (fromLeaf_emit left) (fromLeaf_emit right) part held

theorem fromLeaf_emitAll : (items : List Node) → (front : List Node) → {position : Position} →
    {context middle : EmitContext} → {before : List Emission} → {n : Nat} →
    Part root (.program position (front ++ items)) context before →
    (emitAll front context).outcome = .ok middle → (emitAll items middle).pool[n]? = some v →
      FromLeaf root v (pooled before + (pooled (emitAll front context).items + n))
  | [], _, _, _, _, _, _, _, _, held => by
      rw [emitAll] at held
      cases held
  | node :: rest, front, position, context, middle, before, n, part, done, held => by
      rw [emitAll] at held
      rcases get_andThen held with own | ⟨last, m, ended, rfl, others⟩
      · simpa [Nat.add_assoc] using fromLeaf_emit node (part.item done) own
      · rw [List.append_cons] at part
        have longer := emitAll_snoc done ended
        have behind := fromLeaf_emitAll rest (front ++ [node]) part (by rw [longer]) others
        simpa [longer, Nat.add_assoc] using behind

end

end

section

variable {validate : Bool} {root : Node} {program : Program} {name : Identifier} {position : Position}
  {context : EmitContext} {before : List Emission}

theorem constants_of_compile (compiled : compile validate root = .ok program) :
    program.constants = (emit root .start).pool := by
  rw [compile_ok compiled]
  rfl

theorem count_of_compile (compiled : compile validate root = .ok program) :
    program.constants.length = constantCount root := by
  rw [compile_ok compiled]
  rfl

theorem toNat_index {n : Nat} (few : constantCount root < UInt32.size) (within : n ≤ constantCount root) :
    (UInt32.ofNat n).toNat = n := by
  rw [UInt32.toNat_ofNat']
  exact Nat.mod_eq_of_lt (Nat.lt_of_le_of_lt within few)

theorem Part.refers (part : Part root (.identifier position name) context before)
    (outside : name.external = true) (compiled : compile validate root = .ok program) :
    context.nextConstant = .ofNat (pooled before) ∧ program.Refers name (pooled before) := by
  obtain ⟨whole, counted, behind, split⟩ := part.holds
  rw [UInt32.zero_add] at counted
  have own : (emit (.identifier position name) context).pool = name.constants (.ofNat (pooled before)) := by
    rw [emit, pool_identifier outside, counted]
    rfl
  refine ⟨counted,
    ⟨⟨before.filterMap Emission.constant?, behind.filterMap Emission.constant?, rfl, ?_⟩, ?_⟩⟩
  · rw [constants_of_compile compiled, ← own, Emitted.pool, split, List.filterMap_append,
      List.filterMap_append]
    rfl
  · obtain ⟨rest, words⟩ := part.words compiled
    have decoded := Program.decodeFrom_append whole
      ((emit (.identifier position name) context).words ++ rest) 0
    rw [← words, Program.decodeFrom_append (laidOut_emit _ context).whole, emit,
      decode_identifier outside, counted] at decoded
    exact ⟨_, _, _, decoded⟩

theorem outcome_of_compile (compiled : compile validate root = .ok program) :
    ∃ after, (emit root .start).outcome = .ok after := by
  rw [compile] at compiled
  split at compiled
  · cases compiled
  · rename_i after done
    exact ⟨after, done⟩

theorem counted_of_compile (compiled : compile validate root = .ok program)
    (few : constantCount root < UInt32.size) {after : EmitContext}
    (done : (emit root .start).outcome = .ok after) :
    after.nextConstant.toNat = program.constants.length := by
  have counted := (laidOut_emit root .start).counted after done
  rw [counted, constants_of_compile compiled]
  exact (congrArg UInt32.toNat (UInt32.zero_add _)).trans (toNat_index few (Nat.le_refl _))

theorem operands_of_compile (compiled : compile validate root = .ok program)
    (few : constantCount root < UInt32.size) :
    ∃ instructions, program.decode = instructions.map .ok ∧
      (operands instructions).map UInt32.toNat = List.range program.constants.length := by
  obtain ⟨instructions, decoded, counted⟩ := loads_emit root .start 0
  refine ⟨instructions, ?_, ?_⟩
  · rw [compile_ok compiled]
    exact decoded
  · rw [counted, List.map_map, constants_of_compile compiled]
    conv_rhs => rw [← List.map_id (List.range _)]
    apply List.map_congr_left
    intro n within
    have small : n ≤ constantCount root := Nat.le_of_lt (List.mem_range.mp within)
    simpa [EmitContext.start] using toNat_index few small

theorem kind_of_literal {kind : LiteralKind} {raw : String} {n : Nat} {v : Value}
    (held : (emitLiteral position kind raw context).pool[n]? = some v) : v.kind ≠ .attrRef := by
  have only {load : LoadKind} {w : Value} (held : (constant (.load load) w context).pool[n]? = some v) :
      v = w := by simpa using List.mem_of_getElem? held
  cases kind with
  | string =>
      obtain rfl := only held
      exact ValueKind.noConfusion
  | boolean =>
      obtain rfl := only held
      exact ValueKind.noConfusion
  | number =>
      simp only [emitLiteral] at held
      split at held
      · obtain rfl := only held
        exact ValueKind.noConfusion
      · cases held

theorem attribute_of_compile (compiled : compile validate root = .ok program)
    (few : constantCount root < UInt32.size) {k : Nat} {key : String} {owner : UInt32}
    (held : program.constants[k]? = some (.attrRef key owner)) :
    owner.toNat + 1 = k ∧ ∃ position name context before n,
      Part root (.identifier position name) context before ∧ name.external = true ∧
        program.Refers name (pooled before) ∧ name.path[n]? = some key ∧ k = pooled before + 1 + n := by
  have within : k < constantCount root := by
    rw [← count_of_compile compiled]
    exact (List.getElem?_eq_some_iff.mp held).1
  rw [constants_of_compile compiled] at held
  have leaf : FromLeaf root (.attrRef key owner) k := by simpa using fromLeaf_emit root .whole held
  cases leaf with
  | @intro leaf context before n part single own =>
      cases leaf with
      | literal position kind raw =>
          rw [emit] at own
          exact absurd rfl (kind_of_literal own)
      | identifier position name =>
          rw [emit] at own
          cases outside : name.external with
          | false =>
              rw [emitIdentifier, outside] at own
              cases own
          | true =>
              obtain ⟨place, refers⟩ := part.refers outside compiled
              rw [pool_identifier outside, place] at own
              cases n with
              | zero => cases own
              | succ n =>
                  rw [Identifier.constants, List.getElem?_cons_succ, List.getElem?_mapIdx,
                    Option.map_eq_some_iff] at own
                  obtain ⟨key', named, same⟩ := own
                  cases same
                  have owned : (UInt32.ofNat (pooled before) + .ofNat n).toNat = pooled before + n := by
                    rw [← UInt32.ofNat_add]
                    exact toNat_index few (by omega)
                  rw [owned]
                  exact ⟨by omega, position, name, context, before, n, part, outside, refers, named,
                    by omega⟩
      | _ => cases single

end

end PredicateLang
