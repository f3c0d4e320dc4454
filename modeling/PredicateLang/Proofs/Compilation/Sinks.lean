import PredicateLang.Proofs.Compilation.Pools

set_option autoImplicit false

namespace PredicateLang

open Emitted

/-- A walk over a tree that sends emissions to a sink. A fault drops the context, but not the sink. -/
abbrev Walk (σ : Type) := StateT EmitContext (ExceptT CompileFault (StateM σ))

section

variable {σ : Type} (receive : σ → Emission → σ)

def send (item : Emission) : Walk σ Unit := modifyThe σ (receive · item)

def sendConstant (op : Opcode) (v : Value) : Walk σ UInt32 := do
  let context ← get
  set (⟨context.nextConstant + 1, some v.kind⟩ : EmitContext)
  send receive (.constant v)
  send receive (.word op.word)
  send receive (.word context.nextConstant)
  return context.nextConstant

def takeKind : Walk σ (Option ValueKind) := do
  let context ← get
  set context.cleared
  return context.lastKind

def sendPath : List String → UInt32 → Walk σ Unit
  | [], _ => pure ()
  | key :: rest, owner => do
      let index ← sendConstant receive .getAttr (.attrRef key owner)
      sendPath rest index

def sendIdentifier (name : Identifier) : Walk σ Unit := do
  if name.external then
    let index ← sendConstant receive .getStatic (.dataRef name.base .static)
    sendPath receive name.path index

def sendLiteral (position : Position) (kind : LiteralKind) (raw : String) : Walk σ Unit := do
  match kind with
  | .string => discard (sendConstant receive (.load .string) (.string raw))
  | .boolean => discard (sendConstant receive (.load .int) (.bool (raw = "true")))
  | .number =>
      match Double.read? raw with
      | some x => discard (sendConstant receive (.load .double) (.double x))
      | none => throw (.invalidNumber position raw)

mutual

def sendNode : Node → Walk σ Unit
  | .program _ items => sendAll items
  | .primitive _ inner => sendNode inner
  | .literal position kind raw => sendLiteral receive position kind raw
  | .identifier _ name => sendIdentifier receive name
  | .arith _ op left right => do
      sendNode left
      let before ← takeKind
      sendNode right
      let after ← takeKind
      send receive (.word (arithmeticOpcode op before after).word)
  | .compare _ _ op left right => do
      sendNode left
      sendNode right
      send receive (.word (Opcode.compare op).word)
  | .logical _ op left right => do
      sendNode left
      sendNode right
      send receive (.word (connectiveOpcode op).word)

def sendAll : List Node → Walk σ Unit
  | [] => pure ()
  | node :: rest => do
      sendNode node
      sendAll rest

end

def compileInto (root : Node) (sink : σ) : Except CompileFault EmitContext × σ :=
  let (ended, sink) := ((sendNode receive root).run .start).run.run sink
  (ended.map Prod.snd, sink)

def Sends {α : Type} (x : Walk σ α) (context : EmitContext) (e : Emitted) (a : α) : Prop :=
  ∀ sink, (x.run context).run.run sink =
    (e.outcome.map fun after => (a, after), e.items.foldl receive sink)

end

section

variable {σ : Type} {receive : σ → Emission → σ} {α β : Type} {context : EmitContext}

theorem Sends.bind {x : Walk σ α} {f : α → Walk σ β} {first : Emitted} {next : EmitContext → Emitted}
    {a : α} {b : β} (one : Sends receive x context first a)
    (two : ∀ middle, first.outcome = .ok middle → Sends receive (f a) middle (next middle) b) :
    Sends receive (x >>= f) context (first.andThen next) b := by
  intro sink
  have ran := one sink
  simp only [StateT.run_bind, ExceptT.run_bind]
  rw [ran]
  cases done : first.outcome with
  | error fault =>
      rw [andThen_of_error done]
      rfl
  | ok middle =>
      rw [andThen_of_ok done, List.foldl_append]
      exact two middle done _

theorem Sends.pure (a : α) : Sends receive (pure a) context (.nothing context) a := fun _ => rfl

theorem Sends.send (item : Emission) :
    Sends receive (send receive item) context ⟨[item], .ok context⟩ () := fun _ => rfl

theorem Sends.constant (op : Opcode) (v : Value) :
    Sends receive (sendConstant receive op v) context (.constant op v context) context.nextConstant :=
  fun _ => rfl

theorem Sends.taking {f : Option ValueKind → Walk σ α} {e : Emitted} {a : α}
    (one : Sends receive (f context.lastKind) context.cleared e a) :
    Sends receive (takeKind >>= f) context e a := fun sink => one sink

theorem Sends.throw (fault : CompileFault) (a : α) :
    Sends receive (throw fault) context ⟨[], .error fault⟩ a := fun _ => rfl

theorem Sends.discard {x : Walk σ α} {e : Emitted} {a : α} (one : Sends receive x context e a) :
    Sends receive (discard x) context e () := by
  have ends : e = e.andThen .nothing := by
    obtain ⟨items, outcome⟩ := e
    cases outcome <;> simp [andThen, nothing]
  have same : Functor.discard x = x >>= fun _ => Pure.pure () := map_eq_pure_bind _ x
  rw [ends, same]
  exact one.bind fun middle _ => .pure ()

theorem sends_path (path : List String) {owner : UInt32} (owned : owner = context.nextConstant - 1) :
    Sends receive (sendPath receive path owner) context (emitPath path context) () := by
  induction path generalizing context owner with
  | nil => exact .pure ()
  | cons key rest ih =>
      subst owned
      refine (Sends.constant .getAttr _).bind fun middle done => ?_
      cases done
      exact ih (UInt32.add_sub_cancel _ _).symm

theorem sends_identifier (name : Identifier) (context : EmitContext) :
    Sends receive (sendIdentifier receive name) context (emitIdentifier name context) () := by
  rw [sendIdentifier, emitIdentifier]
  split
  · refine (Sends.constant .getStatic _).bind fun middle done => ?_
    cases done
    exact sends_path name.path (UInt32.add_sub_cancel _ _).symm
  · exact .pure ()

theorem sends_literal (position : Position) (kind : LiteralKind) (raw : String) (context : EmitContext) :
    Sends receive (sendLiteral receive position kind raw) context
      (emitLiteral position kind raw context) () := by
  cases kind with
  | string => exact (Sends.constant _ _).discard
  | boolean => exact (Sends.constant _ _).discard
  | number =>
      simp only [sendLiteral, emitLiteral]
      cases Double.read? raw with
      | none => exact .throw _ ()
      | some x => exact (Sends.constant _ _).discard

theorem Sends.pair {x y : Walk σ Unit} {first : Emitted} {next : EmitContext → Emitted}
    (one : Sends receive x context first ()) (two : ∀ middle, Sends receive y middle (next middle) ())
    (op : Opcode) :
    Sends receive (do x; y; PredicateLang.send receive (.word op.word)) context
      ((first.andThen next).andThen (.opcode op)) () := by
  rw [andThen_assoc]
  exact one.bind fun middle _ => (two middle).bind fun after _ => .send _

mutual

theorem sends_node : (node : Node) → (context : EmitContext) →
    Sends receive (sendNode receive node) context (emit node context) ()
  | .program _ items, context => by
      rw [sendNode, emit]
      exact sends_all items context
  | .primitive _ inner, context => by
      rw [sendNode, emit]
      exact sends_node inner context
  | .literal position kind raw, context => by
      rw [sendNode, emit]
      exact sends_literal position kind raw context
  | .identifier _ name, context => by
      rw [sendNode, emit]
      exact sends_identifier name context
  | .arith _ op left right, context => by
      rw [sendNode, emit]
      refine (sends_node left context).bind fun before _ => ?_
      refine Sends.taking ((sends_node right before.cleared).bind fun after _ => ?_)
      exact .taking (.send _)
  | .compare _ _ op left right, context => by
      rw [sendNode, emit]
      exact (sends_node left context).pair (sends_node right) _
  | .logical _ op left right, context => by
      rw [sendNode, emit]
      exact (sends_node left context).pair (sends_node right) _

theorem sends_all : (items : List Node) → (context : EmitContext) →
    Sends receive (sendAll receive items) context (emitAll items context) ()
  | [], context => by
      rw [sendAll, emitAll]
      exact .pure ()
  | node :: rest, context => by
      rw [sendAll, emitAll]
      exact (sends_node node context).bind fun middle _ => sends_all rest middle

end

theorem compileInto_eq (root : Node) (sink : σ) :
    compileInto receive root sink =
      ((emit root .start).outcome, (emit root .start).items.foldl receive sink) := by
  rw [compileInto, sends_node root .start sink]
  cases (emit root .start).outcome <;> rfl

end

/-- While a tree is compiled, a sink of any kind gets just these emissions, and the walk ends like this. -/
def Sent (root : Node) (ended : Except CompileFault EmitContext) (items : List Emission) : Prop :=
  ∀ (σ : Type) (receive : σ → Emission → σ) (sink : σ),
    compileInto receive root sink = (ended, items.foldl receive sink)

theorem sent_emit (root : Node) : Sent root (emit root .start).outcome (emit root .start).items :=
  fun _ _ sink => compileInto_eq root sink

def Program.receive (p : Program) : Emission → Program
  | .word word => p.pushWord word
  | .constant v => p.pushConstant v

theorem Program.foldl_receive (p : Program) (items : List Emission) :
    items.foldl receive p =
      ⟨p.words ++ items.filterMap Emission.word?, p.constants ++ items.filterMap Emission.constant?⟩ := by
  induction items generalizing p with
  | nil => simp
  | cons item items ih =>
      rw [List.foldl_cons, ih]
      cases item <;>
        simp [receive, pushWord, pushConstant, List.filterMap_cons, Emission.word?, Emission.constant?]

theorem Program.replay (items : List Emission) : items.foldl receive .empty = assemble items := by
  rw [foldl_receive, assemble]
  rfl

theorem compile_eq_compileInto (validate : Bool) (root : Node) :
    compile validate root =
      match compileInto Program.receive root .empty with
      | (.error fault, _) => .error fault
      | (.ok _, program) =>
          if validate then (program.validate.mapError .invalidProgram).map fun _ => program
          else .ok program := by
  rw [compileInto_eq, Program.replay, compile]
  cases (emit root .start).outcome with
  | error fault => rfl
  | ok context =>
      cases validate with
      | false => rfl
      | true => cases checked : (assemble (emit root .start).items).validate <;> simp [checked] <;> rfl

end PredicateLang
