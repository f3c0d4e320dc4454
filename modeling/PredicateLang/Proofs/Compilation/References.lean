import PredicateLang.Proofs.Compilation.Heights
import PredicateLang.Proofs.Host.Calls

set_option autoImplicit false

namespace PredicateLang

open Emitted

section

variable {constants : List Value}

theorem asked_append {first : List UInt32} (whole : Whole first) (second : List UInt32) (pc : Nat) :
    asked constants (Program.decodeFrom pc (first ++ second)) =
      asked constants (Program.decodeFrom pc first) ++
        asked constants (Program.decodeFrom (pc + first.length) second) := by
  simp only [asked, Program.decodeFrom_append whole, List.filterMap_append]

theorem asked_operation {op : Opcode} (alone : op.hasOperand = false) (pc : Nat) :
    asked constants (Program.decodeFrom pc [op.word]) = [] := by
  have silent : op.asks? none = none := by cases op <;> rfl
  simp [asked, Program.decodeFrom, alone, Except.toOption, Instruction.asks?, Instruction.constant?, silent]

theorem asked_reference {op : Opcode} {index : UInt32} {v : Value} (followed : op.hasOperand = true)
    (held : constants[index.toNat]? = some v) (pc : Nat) :
    asked constants (Program.decodeFrom pc [op.word, index]) = (op.asks? (some v)).toList := by
  cases asks : op.asks? (some v) <;>
    simp [asked, Program.decodeFrom, followed, Except.toOption, Instruction.asks?, Instruction.constant?,
      held, asks]

theorem asked_path (path : List String) (context : EmitContext) (pc : Nat)
    (hosted : Hosts constants context.nextConstant (emitPath path context).pool) :
    asked constants (Program.decodeFrom pc (emitPath path context).words) = [] := by
  induction path generalizing context pc with
  | nil => rfl
  | cons key rest ih =>
      rw [emitPath, pool_andThen rfl, pool_constant] at hosted
      rw [emitPath, words_andThen rfl, words_constant, asked_append (.reference rfl _),
        asked_reference rfl hosted.left.get]
      exact ih _ _ hosted.right

theorem asked_emit {node : Node} (sound : node.Sound) (context : EmitContext) (pc : Nat)
    (hosted : Hosts constants context.nextConstant (emit node context).pool) :
    asked constants (Program.decodeFrom pc (emit node context).words) = node.references := by
  induction sound generalizing context pc with
  | name name =>
      rw [emit, emit, emitIdentifier] at hosted ⊢
      cases outside : name.external with
      | false =>
          simp [outside, Node.references, Node.names, Program.decodeFrom, asked]
      | true =>
          simp only [outside, if_true] at hosted ⊢
          rw [pool_andThen rfl, pool_constant] at hosted
          rw [words_andThen rfl, words_constant, asked_append (.reference rfl _),
            asked_reference rfl hosted.left.get, asked_path _ _ _ hosted.right]
          simp [Opcode.asks?, Node.references, Node.names, outside]
  | literal known =>
      obtain ⟨load, -, same⟩ := outcome_literal known _ context
      rw [emit, emit, same, pool_constant] at hosted
      rw [emit, emit, same, words_constant, asked_reference rfl hosted.get]
      rfl
  | @operator node left right operands one two _ ihLeft ihRight =>
      obtain ⟨place, kind, kind', counted, words, pool⟩ := parts_operator operands one two context
      rw [pool] at hosted
      rw [words, asked_append (laidOut_emit left context).whole,
        asked_append (laidOut_emit right place).whole, ihLeft context pc hosted.left,
        ihRight place _ (counted ▸ hosted.right), asked_operation (node.opcode_alone kind kind'),
        List.append_nil, Node.references_operator operands]

end

theorem asked_compiled {options : EngineOptions} {source : String} {root : Node} {program : Program}
    (parsed : options.parse source = .ok root) (compiled : options.compile source = .ok program)
    (few : constantCount root < UInt32.size) :
    asked program.constants program.decode = root.references := by
  obtain ⟨other, same, built⟩ := EngineOptions.compile_ok.mp compiled
  cases parsed.symm.trans same
  obtain rfl := compile_ok built
  rcases expression_of_parse (EngineOptions.parse_ok.mp parsed) with ⟨rfl, -⟩ | ⟨node, rfl, expression⟩
  · rfl
  · obtain ⟨after, done, -⟩ := lastKind_emit expression.sound .start
    have pool : (emit (.program .start [node]) .start).pool = (emit node .start).pool :=
      pool_root .start done
    have references : (Node.program .start [node]).references = node.references := by
      simp [Node.references, Node.names, Node.namesAll]
    have hosted : Hosts (emit (.program .start [node]) .start).pool 0 (emit node .start).pool := by
      rw [← pool]
      exact Hosts.whole few
    rw [references, ← asked_emit expression.sound .start 0 hosted, ← words_root .start done]
    rfl

end PredicateLang
