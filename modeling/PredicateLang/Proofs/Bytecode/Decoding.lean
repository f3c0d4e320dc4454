import PredicateLang.Proofs.Bytecode.Segments

set_option autoImplicit false

namespace PredicateLang

namespace Opcode

theorem word_of_all : ∀ k (h : k < all.length), all[k].word.toNat = k := by decide

theorem ofWord?_eq_some_iff {word : UInt32} {op : Opcode} : ofWord? word = some op ↔ op.word = word := by
  constructor
  · intro known
    obtain ⟨inside, rfl⟩ := List.getElem?_eq_some_iff.mp known
    exact UInt32.toNat_inj.mp (word_of_all word.toNat inside)
  · rintro rfl
    exact ofWord?_word op

end Opcode

namespace Program

def placed (instructions : List Instruction) : List Instruction :=
  instructions.mapIdx fun k instruction =>
    { instruction with pc := (encode (instructions.take k)).length }

@[simp] theorem encode_nil : encode [] = [] := rfl

@[simp] theorem encode_cons (instruction : Instruction) (rest : List Instruction) :
    encode (instruction :: rest) = instruction.encode ++ encode rest := rfl

theorem placed_cons (instruction : Instruction) (rest : List Instruction) :
    placed (instruction :: rest) = { instruction with pc := 0 } :: (placed rest).map fun later =>
      { later with pc := instruction.encode.length + later.pc } := by
  refine List.ext_getElem (by simp [placed]) fun k _ _ => ?_
  cases k <;> simp [placed]

theorem encode_take_placed (instructions : List Instruction) (k : Nat) :
    encode ((placed instructions).take k) = encode (instructions.take k) := by
  have same : (placed instructions).map Instruction.encode = instructions.map Instruction.encode :=
    List.ext_getElem (by simp [placed]) fun k _ _ => by simp [placed, Instruction.encode]
  simp only [encode, List.flatMap_def, List.map_take, same]

theorem encode_placed (instructions : List Instruction) :
    encode (placed instructions) = encode instructions := by
  have whole := encode_take_placed instructions instructions.length
  rwa [List.take_of_length_le (by simp [placed]), List.take_length] at whole

theorem placed_placed (instructions : List Instruction) :
    placed (placed instructions) = placed instructions := by
  rw [placed]
  simp only [encode_take_placed]
  exact List.ext_getElem (by simp [placed]) fun k _ _ => by simp [placed]

theorem formed_placed {instructions : List Instruction}
    (formed : ∀ instruction ∈ instructions, instruction.WellFormed) :
    ∀ instruction ∈ placed instructions, instruction.WellFormed := by
  intro instruction present
  obtain ⟨k, inside, rfl⟩ := List.mem_mapIdx.mp present
  exact formed instructions[k] (List.getElem_mem inside)

theorem whole_encode {instructions : List Instruction}
    (formed : ∀ instruction ∈ instructions, instruction.WellFormed) : Whole (encode instructions) := by
  induction instructions with
  | nil => exact .nil
  | cons instruction rest ih =>
      refine Whole.append ?_ (ih fun later present => formed later (List.mem_cons_of_mem _ present))
      obtain ⟨pc, op, operand⟩ := instruction
      have formed : operand.isSome = op.hasOperand := formed _ List.mem_cons_self
      cases operand with
      | none => exact .operation formed.symm
      | some index => exact .reference formed.symm index

theorem decodeFrom_encode {instructions : List Instruction}
    (formed : ∀ instruction ∈ instructions, instruction.WellFormed) (pc : Nat) :
    decodeFrom pc (encode instructions) =
      (placed instructions).map fun instruction => .ok { instruction with pc := pc + instruction.pc } := by
  induction instructions generalizing pc with
  | nil => rfl
  | cons instruction rest ih =>
      have later := ih fun later present => formed later (List.mem_cons_of_mem _ present)
      obtain ⟨place, op, operand⟩ := instruction
      have formed : operand.isSome = op.hasOperand := formed _ List.mem_cons_self
      rw [placed_cons, encode_cons]
      cases operand with
      | none =>
          have alone : op.hasOperand = false := formed.symm
          simp [Instruction.encode, decodeFrom, alone, later, Nat.add_assoc]
      | some index =>
          have followed : op.hasOperand = true := formed.symm
          simp [Instruction.encode, decodeFrom, followed, later, Nat.add_assoc]

theorem decodeFrom_whole {words : List UInt32} (whole : Whole words) (pc : Nat) :
    ∃ instructions, decodeFrom pc words = instructions.map .ok ∧ encode instructions = words := by
  induction whole generalizing pc with
  | nil => exact ⟨[], rfl, rfl⟩
  | @plain word op rest known alone _ ih =>
      obtain ⟨instructions, decoded, rfl⟩ := ih (pc + 1)
      obtain rfl := Opcode.ofWord?_eq_some_iff.mp known
      exact ⟨⟨pc, op, none⟩ :: instructions, by simp [decodeFrom, alone, decoded], rfl⟩
  | @withOperand word index op rest known followed _ ih =>
      obtain ⟨instructions, decoded, rfl⟩ := ih (pc + 2)
      obtain rfl := Opcode.ofWord?_eq_some_iff.mp known
      exact ⟨⟨pc, op, some index⟩ :: instructions, by simp [decodeFrom, followed, decoded], rfl⟩

/-- The words behind the last whole instruction, and the fault that they are decoded to. -/
inductive Broken (pc : Nat) : List UInt32 → ProgramFault → Prop
  | unknown {word : UInt32} (rest : List UInt32) (unknown : Opcode.ofWord? word = none) :
      Broken pc (word :: rest) (.invalidOpcode pc word)
  | cut {op : Opcode} (followed : op.hasOperand = true) :
      Broken pc [op.word] (.missingOperand pc op)

theorem Broken.decodeFrom_eq {pc : Nat} {words : List UInt32} {fault : ProgramFault}
    (broken : Broken pc words fault) : decodeFrom pc words = [.error fault] := by
  cases broken with
  | unknown rest unknown => simp [decodeFrom, unknown]
  | cut followed => simp [decodeFrom, followed]

theorem exists_instructions (words : List UInt32) : ∃ instructions rest,
    words = encode instructions ++ rest ∧
      (∀ instruction ∈ instructions, instruction.WellFormed) ∧
      (rest = [] ∨ ∀ pc, ∃ fault, Broken pc rest fault) := by
  -- The place does not matter to where the instructions end; the recursion of `decodeFrom` does.
  fun_induction decodeFrom 0 words with
  | case1 => exact ⟨[], [], rfl, List.forall_mem_nil _, .inl rfl⟩
  | case2 pc word rest unknown =>
      exact ⟨[], word :: rest, rfl, List.forall_mem_nil _, .inr fun pc => ⟨_, .unknown rest unknown⟩⟩
  | case3 pc word op known followed =>
      obtain rfl := Opcode.ofWord?_eq_some_iff.mp known
      exact ⟨[], [op.word], rfl, List.forall_mem_nil _, .inr fun pc => ⟨_, .cut followed⟩⟩
  | case4 pc word op known followed index rest ih =>
      obtain ⟨instructions, left, rfl, formed, ended⟩ := ih
      obtain rfl := Opcode.ofWord?_eq_some_iff.mp known
      refine ⟨⟨pc, op, some index⟩ :: instructions, left, rfl, ?_, ended⟩
      exact List.forall_mem_cons.mpr ⟨followed.symm, formed⟩
  | case5 pc word rest op known alone ih =>
      obtain ⟨instructions, left, rfl, formed, ended⟩ := ih
      obtain rfl := Opcode.ofWord?_eq_some_iff.mp known
      refine ⟨⟨pc, op, none⟩ :: instructions, left, rfl, ?_, ended⟩
      exact List.forall_mem_cons.mpr ⟨(Bool.eq_false_iff.mpr alone).symm, formed⟩

end Program

structure InstructionReader where
  words : List UInt32
  pc : Nat

namespace InstructionReader

def next? (reader : InstructionReader) :
    Option (Except ProgramFault Instruction × InstructionReader) :=
  (reader.words[reader.pc]?).map fun word =>
    match Opcode.ofWord? word with
    | none => (.error (.invalidOpcode reader.pc word), ⟨reader.words, reader.words.length⟩)
    | some op =>
        if op.hasOperand then
          match reader.words[reader.pc + 1]? with
          | some index => (.ok ⟨reader.pc, op, some index⟩, ⟨reader.words, reader.pc + 2⟩)
          | none => (.error (.missingOperand reader.pc op), ⟨reader.words, reader.words.length⟩)
        else (.ok ⟨reader.pc, op, none⟩, ⟨reader.words, reader.pc + 1⟩)

/-- All that a reader gives until it has nothing more. -/
inductive Gives : InstructionReader → List (Except ProgramFault Instruction) → Prop
  | ended {reader : InstructionReader} (nothing : reader.next? = none) : Gives reader []
  | item {reader after : InstructionReader} {item : Except ProgramFault Instruction}
      {items : List (Except ProgramFault Instruction)} (found : reader.next? = some (item, after))
      (more : Gives after items) : Gives reader (item :: items)

theorem Gives.unique {reader : InstructionReader} {items others : List (Except ProgramFault Instruction)}
    (one : Gives reader items) (other : Gives reader others) : items = others := by
  induction one generalizing others with
  | ended nothing =>
      cases other with
      | ended => rfl
      | item found => rw [nothing] at found; cases found
  | item found _ ih =>
      cases other with
      | ended nothing => rw [found] at nothing; cases nothing
      | item found' more' =>
          rw [found] at found'
          cases found'
          rw [ih more']

theorem gives_finished (words : List UInt32) : Gives ⟨words, words.length⟩ [] :=
  .ended (by simp [next?])

theorem gives_decodeFrom (before words : List UInt32) :
    Gives ⟨before ++ words, before.length⟩ (Program.decodeFrom before.length words) := by
  generalize placed : before.length = pc
  fun_induction Program.decodeFrom pc words generalizing before with
  | case1 =>
      subst placed
      simpa using gives_finished before
  | case2 pc word rest unknown =>
      subst placed
      have read : next? ⟨before ++ word :: rest, before.length⟩ =
          some (.error (.invalidOpcode before.length word),
            ⟨before ++ word :: rest, (before ++ word :: rest).length⟩) := by
        simp [next?, unknown]
      exact .item read (gives_finished _)
  | case3 pc word op known followed =>
      subst placed
      have read : next? ⟨before ++ [word], before.length⟩ =
          some (.error (.missingOperand before.length op), ⟨before ++ [word], (before ++ [word]).length⟩) := by
        simp [next?, known, followed]
      exact .item read (gives_finished _)
  | case4 pc word op known followed index rest ih =>
      subst placed
      have read : next? ⟨before ++ word :: index :: rest, before.length⟩ =
          some (.ok ⟨before.length, op, some index⟩, ⟨before ++ word :: index :: rest, before.length + 2⟩) := by
        simp [next?, known, followed]
      refine .item read ?_
      simpa using ih (before ++ [word, index]) (by simp)
  | case5 pc word rest op known alone ih =>
      subst placed
      have read : next? ⟨before ++ word :: rest, before.length⟩ =
          some (.ok ⟨before.length, op, none⟩, ⟨before ++ word :: rest, before.length + 1⟩) := by
        simp [next?, known, alone]
      refine .item read ?_
      simpa using ih (before ++ [word]) (by simp)

end InstructionReader

namespace Program

/-- Encoding and decoding are inverse as far as words are instructions: decoded words of instructions are
these, and of any words the instructions that they begin with, and then a fault if words are left. -/
theorem decoding_inverts_encoding :
    (∀ instructions constants, (∀ instruction ∈ instructions, instruction.WellFormed) →
      (Program.mk (encode instructions) constants).decode = (placed instructions).map .ok) ∧
    ∀ p : Program, (∀ items, InstructionReader.Gives ⟨p.words, 0⟩ items ↔ items = p.decode) ∧
      ∃ instructions, (∀ instruction ∈ instructions, instruction.WellFormed) ∧
        placed instructions = instructions ∧
        ((p.words = encode instructions ∧ p.decode = instructions.map .ok) ∨
          ∃ rest fault, p.words = encode instructions ++ rest ∧
            Broken (encode instructions).length rest fault ∧
            p.decode = instructions.map .ok ++ [.error fault]) := by
  have decoded : ∀ instructions, (∀ instruction ∈ instructions, instruction.WellFormed) →
      decodeFrom 0 (encode instructions) = (placed instructions).map .ok := by
    intro instructions formed
    rw [decodeFrom_encode formed]
    simp
  refine ⟨fun instructions _ => decoded instructions, fun p => ⟨fun items => ?_, ?_⟩⟩
  · have given : InstructionReader.Gives ⟨p.words, 0⟩ p.decode :=
      InstructionReader.gives_decodeFrom [] p.words
    exact ⟨fun other => other.unique given, fun same => same ▸ given⟩
  · obtain ⟨instructions, rest, split, formed, ended⟩ := exists_instructions p.words
    refine ⟨placed instructions, formed_placed formed, placed_placed instructions, ?_⟩
    rw [encode_placed, decode, split]
    rcases ended with rfl | broken
    · exact .inl (by simp [decoded instructions formed])
    · obtain ⟨fault, broken⟩ := broken (encode instructions).length
      refine .inr ⟨rest, fault, rfl, broken, ?_⟩
      rw [decodeFrom_append (whole_encode formed), decoded instructions formed, Nat.zero_add,
        broken.decodeFrom_eq]

-- The operand of the load is the word of an addition, and of no pool.
theorem load_of_five_decoded :
    (∀ instruction ∈ [Instruction.mk 9 (.load .int) (some 5), ⟨9, .int .add, none⟩],
      instruction.WellFormed) ∧
    (Program.mk [4, 5, 5] []).decode =
      [.ok ⟨0, .load .int, some 5⟩, .ok ⟨2, .int .add, none⟩] := by
  have formed : ∀ instruction ∈ [Instruction.mk 9 (.load .int) (some 5), ⟨9, .int .add, none⟩],
      instruction.WellFormed := by
    simp [Instruction.WellFormed, Opcode.hasOperand]
  exact ⟨formed, decoding_inverts_encoding.1 _ [] formed⟩

end Program

end PredicateLang
