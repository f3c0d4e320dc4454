import PredicateLang.Proofs.Bytecode.Listing
import PredicateLang.Proofs.Compilation.Layout
import PredicateLang.Proofs.Compilation.Parts
import PredicateLang.Proofs.Compilation.Stages
import PredicateLang.Proofs.Syntax.Display

set_option autoImplicit false

namespace PredicateLang

open Emitted

def Emitted.Clean (e : Emitted) : Prop := ∀ v ∈ e.pool, Unbroken (Program.preview v)

namespace Emitted

theorem clean_constant {v : Value} (unbroken : Unbroken (Program.preview v)) (op : Opcode)
    (context : EmitContext) : (constant op v context).Clean := by
  rwa [Clean, pool_constant, List.forall_mem_singleton]

theorem Clean.andThen {first : Emitted} {next : EmitContext → Emitted} (one : first.Clean)
    (two : ∀ context, (next context).Clean) : (first.andThen next).Clean := by
  cases done : first.outcome with
  | error fault => rwa [andThen_of_error done]
  | ok context =>
      rw [Clean, pool_andThen done]
      exact List.forall_mem_append.mpr ⟨one, two context⟩

end Emitted

theorem unbroken_of_letters {name : String} (letters : ∀ c ∈ name.toList, isLetter c = true) :
    Unbroken name := fun newline =>
  absurd (letters '\n' newline) (Bool.eq_false_iff.mp (not_letter_of_blank (by decide)))

theorem unbroken_dataRef {name : String} (unbroken : Unbroken name) (scope : Scope) :
    Unbroken (Program.preview (.dataRef name scope)) := by
  have marks : Unbroken "<" ∧ Unbroken " " ∧ Unbroken ">" ∧ Unbroken scope.text := by
    cases scope <;> simp [Unbroken, Scope.text]
  simp [Program.preview, Value.display, unbroken, marks]

theorem unbroken_attrRef {name : String} (unbroken : Unbroken name) (owner : UInt32) :
    Unbroken (Program.preview (.attrRef name owner)) := by
  have marks : Unbroken "<attr " ∧ Unbroken " of #" ∧ Unbroken ">" := by simp [Unbroken]
  simp [Program.preview, Value.display, unbroken, marks, unbroken_repr]

theorem unbroken_double (x : Float) : Unbroken (Program.preview (.double x)) := by
  have unsigned : Unbroken NumberStyle.display.plus := by simp [NumberStyle.display, Unbroken]
  simpa [Program.preview, Value.display] using NumberStyle.unbroken_write unsigned x

theorem unbroken_bool (b : Bool) : Unbroken (Program.preview (.bool b)) := by
  cases b <;> simp [Program.preview, Value.display, Unbroken]

theorem clean_path {path : List String} (letters : ∀ part ∈ path, ∀ c ∈ part.toList, isLetter c = true)
    (context : EmitContext) : (emitPath path context).Clean := by
  induction path generalizing context with
  | nil => exact List.forall_mem_nil _
  | cons key rest ih =>
      obtain ⟨first, others⟩ := List.forall_mem_cons.mp letters
      exact (clean_constant (unbroken_attrRef (unbroken_of_letters first) _) _ _).andThen (ih others)

theorem clean_emit {node : Node} (lexical : node.Lexical) (context : EmitContext) :
    (emit node context).Clean := by
  induction lexical generalizing context with
  | @name position place external base path some letters other =>
      obtain ⟨first, others⟩ := List.forall_mem_cons.mp letters
      rw [emit, emit, emitIdentifier]
      split
      · have base := unbroken_dataRef (unbroken_of_letters first) .static
        exact (clean_constant base _ _).andThen (clean_path others)
      · exact List.forall_mem_nil _
  | @string position place raw still bare =>
      rw [emit, emit, emitLiteral]
      exact clean_constant (Program.unbroken_string raw) _ _
  | @number position place raw digit all =>
      rw [emit, emit, emitLiteral]
      split
      · exact clean_constant (unbroken_double _) _ _
      · exact List.forall_mem_nil _
  | @boolean position place raw spelled =>
      rw [emit, emit, emitLiteral]
      exact clean_constant (unbroken_bool _) _ _
  | @join position op left right one two ih₁ ih₂ =>
      have silent (op : Opcode) (context : EmitContext) : (opcode op context).Clean := List.forall_mem_nil _
      cases op with
      | comparison op =>
          rw [Operator.join, Node.comparison, emit]
          exact ((ih₁ context).andThen ih₂).andThen (silent _)
      | arithmetic op =>
          rw [Operator.join, emit]
          exact (ih₁ context).andThen fun before => (ih₂ _).andThen fun after => silent _ _
      | connective op =>
          rw [Operator.join, emit]
          exact ((ih₁ context).andThen ih₂).andThen (silent _)

theorem clean_of_source {options : EngineOptions} {source : String} {program : Program}
    (compiled : options.compile source = .ok program) :
    ∀ v ∈ program.constants, Unbroken (Program.preview v) := by
  obtain ⟨root, parsed, built⟩ := EngineOptions.compile_ok.mp compiled
  obtain rfl := compile_ok built
  obtain rfl | ⟨node, rfl, lexical⟩ := lexical_of_parse (EngineOptions.parse_ok.mp parsed)
  · exact List.forall_mem_nil _
  · have clean : (emit (.program .start [node]) .start).Clean := by
      rw [emit, emitAll]
      exact (clean_emit lexical .start).andThen fun _ => List.forall_mem_nil _
    exact clean

theorem decode_of_source {options : EngineOptions} {source : String} {program : Program}
    (compiled : options.compile source = .ok program) :
    ∃ instructions, program.decode = instructions.map .ok ∧ Program.encode instructions = program.words := by
  obtain ⟨root, -, built⟩ := EngineOptions.compile_ok.mp compiled
  obtain rfl := compile_ok built
  exact Program.decodeFrom_whole (laidOut_emit root .start).whole 0

/-- The listing of a source that compiles has a line for each instruction, in their order, which shows the
instruction, and so it shows the words of the program. The full listing has a header, then a line for each
constant if there are any, and then the lines of the listing. No text that is previewed breaks its line. -/
theorem listings_of_sources {options : EngineOptions} {source : String} {program : Program}
    (compiled : options.compile source = .ok program) :
    (∃ (instructions : List Instruction) (lines : List String), program.decode = instructions.map .ok ∧
      splitLines program.listing = (lines, "") ∧ lines.map Program.readLine = instructions.map some) ∧
    Program.wordsOf program.listing = program.words ∧
    (∃ behind, splitLines behind =
        (Program.tableOf program.constants ++ ["", ";; code"] ++ (splitLines program.listing).1, "") ∧
      ∀ title, program.fullListing title = program.header title ++ "\n" ++ behind ∧
        (Unbroken title → Unbroken (program.header title))) ∧
    ∀ s, Unbroken (Program.preview (.string s)) := by
  have clean := clean_of_source compiled
  obtain ⟨instructions, decoded, words⟩ := decode_of_source compiled
  have behind := Program.splitLines_behind clean decoded
  refine ⟨⟨instructions, _, decoded, Program.splitLines_listing clean decoded, ?_⟩,
    Program.wordsOf_listing clean decoded words, ⟨_, behind, fun title => ?_⟩, Program.unbroken_string⟩
  · rw [List.map_map]
    exact List.map_congr_left fun instruction _ => program.readLine_lineOf instruction
  · exact ⟨program.fullListing_eq title, program.unbroken_header⟩

-- A text with a carriage return, a backslash and a quote, compared with an attribute.
def returnEqualsKey : Node :=
  .program .start [.compare ⟨1, 6, 6⟩ .equality .eq (.primitive .start (.literal .start .string "\r\\\""))
    (.primitive ⟨1, 9, 9⟩ (.identifier ⟨1, 9, 9⟩ ⟨true, "u", ["k"]⟩))]

def returnEqualsKeyProgram : Program :=
  ⟨[22, 0, 1, 1, 2, 2, 24], [.string "\r\\\"", .dataRef "u" .static, .attrRef "k" 1]⟩

theorem listing_of_carriage_return :
    EngineOptions.default.compile "\"\r\\\"\" == @u.k" = .ok returnEqualsKeyProgram ∧
      (splitLines returnEqualsKeyProgram.listing).1 =
        ["0000: sload      0    ;; \"\\r\\\\\\\"\"", "0002: getstatic  1    ;; <static u>",
          "0004: getattr    2    ;; <attr k of #1>", "0006: cmp_eq"] ∧
      Program.wordsOf returnEqualsKeyProgram.listing = returnEqualsKeyProgram.words := by
  let text : Grammar.Leaf := .string ⟨.string, .start, "\r\\\""⟩ rfl
  let key : Grammar.Segment :=
    ⟨⟨.dot, ⟨1, 11, 11⟩, "."⟩, [], ⟨.identifier, ⟨1, 12, 12⟩, "k"⟩, rfl, List.forall_mem_nil _, rfl⟩
  let name : Grammar.Leaf :=
    .external ⟨.atSign, ⟨1, 9, 9⟩, "@"⟩ ⟨.identifier, ⟨1, 10, 10⟩, "u"⟩ [key] rfl rfl
  let derivation : Grammar.Program :=
    .expression [] (((((((text, none), none), []), none),
      some ⟨[.space 5], ⟨.equalityOp, ⟨1, 6, 6⟩, "=="⟩, [.space 8], _, ((((name, none), none), []), none),
        Grammar.blanks_space 5, .eq rfl rfl, Grammar.blanks_space 8⟩), none), none) []
      ⟨.eof, ⟨1, 13, 13⟩, ""⟩ (List.forall_mem_nil _) (List.forall_mem_nil _) rfl
  have parsed : parse (Scanner.ofString true "\"\r\\\"\" == @u.k") = .ok returnEqualsKey :=
    parse_of_rules 9 derivation (by decide +kernel) (by decide)
  have built : compile true returnEqualsKey = .ok returnEqualsKeyProgram := rfl
  have compiled : EngineOptions.default.compile "\"\r\\\"\" == @u.k" = .ok returnEqualsKeyProgram :=
    EngineOptions.compile_ok.mpr ⟨_, EngineOptions.parse_ok.mpr parsed, built⟩
  exact ⟨compiled, by decide +kernel, (listings_of_sources compiled).2.1⟩

end PredicateLang
