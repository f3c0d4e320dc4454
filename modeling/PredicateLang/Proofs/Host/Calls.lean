import PredicateLang.Proofs.Machine.Segments

set_option autoImplicit false

namespace PredicateLang

namespace Fields

def replace {α β : Type} (f : String → α → β) (fields : List (String × α)) : List (String × β) :=
  fields.map fun field => (field.1, f field.1 field.2)

variable {α β : Type} (f : String → α → β)

theorem get?_replace (name : String) (fields : List (String × α)) :
    get? name (replace f fields) = (get? name fields).map (f name) := by
  induction fields with
  | nil => rfl
  | cons field rest ih =>
      obtain ⟨other, content⟩ := field
      by_cases same : name = other
      · simp [replace, get?, same]
      · simpa [replace, get?, same] using ih

theorem insert_replace (name : String) (content : α) (fields : List (String × α)) :
    insert name (f name content) (replace f fields) = replace f (insert name content fields) := by
  induction fields with
  | nil => rfl
  | cons field rest ih =>
      obtain ⟨other, old⟩ := field
      simp only [replace, List.map_cons, insert] at ih ⊢
      split
      · rfl
      · split
        · rfl
        · rw [List.map_cons, ← ih]

end Fields

def Opcode.asks? (op : Opcode) (constant : Option Value) : Option String :=
  match op, constant with
  | .getStatic, some (.dataRef name .static) => some name
  | _, _ => none

theorem Opcode.asks?_eq_some {op : Opcode} {constant : Option Value} {name : String}
    (asked : op.asks? constant = some name) :
    op = .getStatic ∧ constant = some (.dataRef name .static) := by
  unfold Opcode.asks? at asked
  split at asked <;> cases asked
  exact ⟨rfl, rfl⟩

abbrev Call (ω : Type) := String × Producer ω

def Producer.recorded {ω : Type} (name : String) (producer : Producer ω) :
    Producer (List (Call ω) × ω) :=
  fun (log, world) => ((producer world).1, log ++ [(name, producer)], (producer world).2)

namespace Bindings

variable {ω : Type} (b : Bindings ω)

def recorded : Bindings (List (Call ω) × ω) := ⟨Fields.replace Producer.recorded b.entries⟩

def callsTo (name : String) : List (Call ω) := ((b.find? name).map fun producer => (name, producer)).toList

def called (op : Opcode) (constant : Option Value) : List (Call ω) :=
  ((op.asks? constant).map b.callsTo).getD []

theorem find?_recorded (name : String) :
    b.recorded.find? name = (b.find? name).map (Producer.recorded name) :=
  Fields.get?_replace _ name b.entries

theorem register_recorded (name : String) (producer : Producer ω) :
    b.recorded.register name (producer.recorded name) = (b.register name producer).recorded :=
  congrArg mk (Fields.insert_replace _ name producer b.entries)

theorem names_recorded : b.recorded.names = b.names := by
  simp [names, recorded, Fields.replace]

end Bindings

def replay {ω : Type} (calls : List (Call ω)) (world : ω) : ω :=
  calls.foldl (fun world call => (call.2 world).2) world

structure Tallies {α ω : Type} (log : List (Call ω)) (world : ω) (calls : List (Call ω))
    (plain : α × ω) (recorded : α × List (Call ω) × ω) : Prop where
  same : recorded = (plain.1, log ++ calls, plain.2)
  replayed : plain.2 = replay calls world

namespace Tallies

variable {α β ω : Type} {log : List (Call ω)} {world : ω} {calls : List (Call ω)}
  {plain : α × ω} {recorded : α × List (Call ω) × ω}

theorem nothing (log : List (Call ω)) (world : ω) (a : α) :
    Tallies log world [] (a, world) (a, log, world) where
  same := by rw [List.append_nil]
  replayed := rfl

theorem map (h : Tallies log world calls plain recorded) (f : α → β) :
    Tallies log world calls (f plain.1, plain.2) (f recorded.1, recorded.2) where
  same := by rw [h.same]
  replayed := h.replayed

theorem follow {more : List (Call ω)} {plain' : β × ω} {recorded' : β × List (Call ω) × ω}
    (h : Tallies log world calls plain recorded)
    (next : Tallies (log ++ calls) plain.2 more plain' recorded') :
    Tallies log world (calls ++ more) plain' recorded' where
  same := by rw [next.same, List.append_assoc]
  replayed := by rw [next.replayed, h.replayed, replay, replay, replay, List.foldl_append]

end Tallies

namespace Machine

variable {ω : Type} (m : Machine ω)

def recorded : Machine (List (Call ω) × ω) := ⟨m.constants, m.bindings.recorded, m.limit⟩

theorem tallies_fetchBinding (b : Bindings ω) (constant : Value) (log : List (Call ω)) (world : ω) :
    Tallies log world (b.called .getStatic (some constant)) (fetchBinding b constant world)
      (fetchBinding b.recorded constant (log, world)) := by
  cases constant with
  | dataRef name scope =>
      cases scope with
      | static =>
          simp only [Bindings.called, Opcode.asks?, Option.map_some, Option.getD_some, Bindings.callsTo,
            fetchBinding, Bindings.resolve, b.find?_recorded name]
          cases b.find? name with
          | none => exact .nothing log world _
          | some producer =>
              -- A producer that fails has been called all the same.
              cases ended : producer world with
              | mk result after =>
                  have replayed : after = replay [(name, producer)] world := by simp [replay, ended]
                  cases result <;> exact ⟨by simp [Producer.recorded, ended], by simpa [ended] using replayed⟩
      | _ => exact .nothing log world _
  | _ => exact .nothing log world _

theorem perform_getStatic (constant : Value) (stack : Stack) (world : ω) :
    m.perform ⟨.getStatic, some constant, []⟩ stack world =
      ((fetchBinding m.bindings constant world).1.bind (Stack.push m.limit · stack),
        (fetchBinding m.bindings constant world).2) := by
  simp only [perform]
  rcases fetchBinding m.bindings constant world with ⟨cause | v, after⟩ <;> rfl

theorem tallies_perform (op : Opcode) (constant : Option Value) (stack : Stack) (log : List (Call ω))
    (world : ω) :
    Tallies log world (m.bindings.called op constant) (m.perform ⟨op, constant, []⟩ stack world)
      (m.recorded.perform ⟨op, constant, []⟩ stack (log, world)) := by
  by_cases other : op ≠ .getStatic
  · have silent : m.bindings.called op constant = [] := by
      cases asked : op.asks? constant with
      | none => simp [Bindings.called, asked]
      | some name => exact absurd (Opcode.asks?_eq_some asked).1 other
    rw [silent, m.perform_of_ne other, m.recorded.perform_of_ne other]
    exact .nothing log world _
  · obtain rfl : op = .getStatic := by simpa using other
    cases constant with
    | none => exact .nothing log world _
    | some constant =>
        rw [m.perform_getStatic, m.recorded.perform_getStatic]
        exact (tallies_fetchBinding m.bindings constant log world).map
          (Except.bind · (Stack.push m.limit · stack))

theorem names_called {op : Opcode} {constant : Option Value} {stack left : Stack} {world : ω}
    (done : (m.perform ⟨op, constant, []⟩ stack world).1 = .ok left) :
    (m.bindings.called op constant).map Prod.fst = (op.asks? constant).toList := by
  cases asked : op.asks? constant with
  | none => simp [Bindings.called, asked]
  | some name =>
      obtain ⟨rfl, rfl⟩ := Opcode.asks?_eq_some asked
      cases found : m.bindings.find? name with
      | none =>
          rw [m.perform_getStatic] at done
          simp [fetchBinding, Bindings.resolve, found, Except.bind] at done
      | some producer => simp [Bindings.called, asked, Bindings.callsTo, found]

end Machine

namespace Instruction

variable {α : Type}

def constant? (constants : List Value) (instruction : Instruction) : Option Value :=
  instruction.operand.bind fun index => constants[index.toNat]?

/-- Whether a run that ends so comes to an instruction, which the one that it stops at still is. -/
def entered (result : Except RuntimeFault α) (instruction : Instruction) : Bool :=
  match result with
  | .error fault => instruction.pc ≤ fault.pc
  | .ok _ => true

def asks? (constants : List Value) (instruction : Instruction) : Option String :=
  instruction.opcode.asks? (instruction.constant? constants)

def calls {ω : Type} (constants : List Value) (b : Bindings ω) (instruction : Instruction) :
    List (Call ω) :=
  b.called instruction.opcode (instruction.constant? constants)

end Instruction

/-- The calls for the instructions that a run comes to. -/
def callsIn {α ω : Type} (constants : List Value) (b : Bindings ω)
    (items : List (Except ProgramFault Instruction)) (result : Except RuntimeFault α) : List (Call ω) :=
  ((items.filterMap Except.toOption).filter (Instruction.entered result)).flatMap
    (Instruction.calls constants b)

def asked (constants : List Value) (items : List (Except ProgramFault Instruction)) : List String :=
  (items.filterMap Except.toOption).filterMap (Instruction.asks? constants)

def Program.calls {α ω : Type} (p : Program) (b : Bindings ω) (result : Except RuntimeFault α) :
    List (Call ω) :=
  callsIn p.constants b p.decode result

section

variable {α ω : Type} {constants : List Value} {b : Bindings ω} {instruction : Instruction}
  {items : List (Except ProgramFault Instruction)} {result : Except RuntimeFault α}

theorem callsIn_entered (entered : instruction.entered result = true) :
    callsIn constants b (.ok instruction :: items) result =
      instruction.calls constants b ++ callsIn constants b items result := by
  simp [callsIn, Except.toOption, entered]

theorem asked_ok : asked constants (.ok instruction :: items) =
    (instruction.asks? constants).toList ++ asked constants items := by
  cases asks : instruction.asks? constants <;> simp [asked, Except.toOption, asks]

theorem callsIn_beyond {fault : RuntimeFault}
    (beyond : ∀ instruction, .ok instruction ∈ items → fault.pc < instruction.pc) :
    callsIn constants b items (.error fault : Except RuntimeFault α) = [] := by
  have none : (items.filterMap Except.toOption).filter
      (Instruction.entered (.error fault : Except RuntimeFault α)) = [] := by
    refine List.filter_eq_nil_iff.mpr fun instruction among => ?_
    obtain ⟨item, present, same⟩ := List.mem_filterMap.mp among
    cases item with
    | error other => cases same
    | ok other =>
        cases same
        simpa [Instruction.entered] using beyond instruction present
  rw [callsIn, none, List.flatMap_nil]

end

theorem Program.pc_le_of_decoded {pc : Nat} {words : List UInt32} {instruction : Instruction}
    (decoded : .ok instruction ∈ decodeFrom pc words) : pc ≤ instruction.pc := by
  fun_induction decodeFrom pc words with
  | case1 | case2 | case3 => simp at decoded
  | case4 pc word op known followed operand rest ih =>
      rcases List.mem_cons.mp decoded with same | later
      · cases same
        exact Nat.le_refl _
      · have onward := ih later
        omega
  | case5 pc word rest op known alone ih =>
      rcases List.mem_cons.mp decoded with same | later
      · cases same
        exact Nat.le_refl _
      · have onward := ih later
        omega

namespace Machine

variable {ω : Type}

/-- What a run from here on calls, if these are the instructions from here on. -/
structure Traced (m : Machine ω) (pc : Nat) (words : List UInt32) (stack : Stack) (log : List (Call ω))
    (world : ω) (items : List (Except ProgramFault Instruction)) : Prop where
  tallies : Tallies log world
    (callsIn m.constants m.bindings items (m.runFrom ⟨pc, words, stack, world⟩).1)
    (m.runFrom ⟨pc, words, stack, world⟩) (m.recorded.runFrom ⟨pc, words, stack, (log, world)⟩)
  late : ∀ fault, (m.runFrom ⟨pc, words, stack, world⟩).1 = .error fault → pc ≤ fault.pc
  supplied : ∀ last, (m.runFrom ⟨pc, words, stack, world⟩).1 = .ok last →
    (callsIn m.constants m.bindings items (.ok last : Except RuntimeFault Stack)).map Prod.fst =
      asked m.constants items

variable {m : Machine ω} {pc : Nat} {word : UInt32} {rest next : List UInt32} {stack : Stack}
  {log : List (Call ω)} {world : ω} {items : List (Except ProgramFault Instruction)}

theorem Traced.unfetched {cause : RuntimeCause} (failed : fetch m.constants word rest = .error cause)
    (silent : callsIn m.constants m.bindings items (.error ⟨pc, cause⟩ : Except RuntimeFault Stack) = []) :
    m.Traced pc (word :: rest) stack log world items := by
  have run := m.runFrom_unfetched failed pc stack world
  have run' := m.recorded.runFrom_unfetched failed pc stack (log, world)
  constructor
  · rw [run, run', silent]
    exact .nothing log world _
  · intro fault stopped
    rw [run] at stopped
    cases stopped
    exact Nat.le_refl _
  · intro last done
    rw [run] at done
    cases done

theorem Traced.failed {op : Opcode} {constant : Option Value} {operand : Option UInt32}
    (found : fetch m.constants word rest = .ok ⟨op, constant, next⟩)
    (held : (Instruction.mk pc op operand).constant? m.constants = constant)
    (later : ∀ instruction, .ok instruction ∈ items → pc + op.width ≤ instruction.pc)
    {cause : RuntimeCause} {after : ω}
    (performed : m.perform ⟨op, constant, []⟩ stack world = (.error cause, after)) :
    m.Traced pc (word :: rest) stack log world (.ok ⟨pc, op, operand⟩ :: items) := by
  have first := m.tallies_perform op constant stack log world
  have run := m.runFrom_fetched found pc stack world
  have run' := m.recorded.runFrom_fetched found pc stack (log, world)
  rw [act, performed] at run
  rw [act, first.same, performed] at run'
  rw [performed] at first
  have silent : callsIn m.constants m.bindings items
      (.error ⟨pc, cause⟩ : Except RuntimeFault Stack) = [] := by
    refine callsIn_beyond fun other among => ?_
    have beyond := later other among
    have wide := op.width_pos
    simp only
    omega
  have entered : (Instruction.mk pc op operand).entered
      (.error ⟨pc, cause⟩ : Except RuntimeFault Stack) = true := by simp [Instruction.entered]
  constructor
  · rw [run, run']
    simp only [goOn]
    rw [callsIn_entered entered, silent, List.append_nil, Instruction.calls, held]
    exact ⟨rfl, first.replayed⟩
  · intro fault stopped
    rw [run] at stopped
    cases stopped
    exact Nat.le_refl _
  · intro last done
    rw [run] at done
    cases done

theorem Traced.performed {op : Opcode} {constant : Option Value} {operand : Option UInt32}
    (found : fetch m.constants word rest = .ok ⟨op, constant, next⟩)
    (held : (Instruction.mk pc op operand).constant? m.constants = constant) {left : Stack} {after : ω}
    (performed : m.perform ⟨op, constant, []⟩ stack world = (.ok left, after))
    (onward : m.Traced (pc + op.width) next left (log ++ m.bindings.called op constant) after items) :
    m.Traced pc (word :: rest) stack log world (.ok ⟨pc, op, operand⟩ :: items) := by
  have first := m.tallies_perform op constant stack log world
  have run := m.runFrom_fetched found pc stack world
  have run' := m.recorded.runFrom_fetched found pc stack (log, world)
  rw [act, performed] at run
  rw [act, first.same, performed] at run'
  rw [performed] at first
  replace run : m.runFrom ⟨pc, word :: rest, stack, world⟩ =
      m.runFrom ⟨pc + op.width, next, left, after⟩ := run
  replace run' : m.recorded.runFrom ⟨pc, word :: rest, stack, (log, world)⟩ =
      m.recorded.runFrom ⟨pc + op.width, next, left, (log ++ m.bindings.called op constant, after)⟩ := run'
  constructor
  · have entered : (Instruction.mk pc op operand).entered
        (m.runFrom ⟨pc + op.width, next, left, after⟩).1 = true := by
      cases ended : (m.runFrom ⟨pc + op.width, next, left, after⟩).1 with
      | ok last => rfl
      | error fault =>
          have behind := onward.late fault ended
          simp only [Instruction.entered, decide_eq_true_eq]
          omega
    rw [run, run', callsIn_entered entered, Instruction.calls, held]
    exact first.follow onward.tallies
  · intro fault stopped
    rw [run] at stopped
    have behind := onward.late fault stopped
    omega
  · intro last done
    rw [run] at done
    have names := m.names_called (congrArg Prod.fst performed)
    rw [callsIn_entered rfl, asked_ok, List.map_append, onward.supplied last done, Instruction.calls,
      Instruction.asks?, held, names]

theorem Traced.fetched {op : Opcode} {constant : Option Value} {operand : Option UInt32}
    (found : fetch m.constants word rest = .ok ⟨op, constant, next⟩)
    (held : (Instruction.mk pc op operand).constant? m.constants = constant)
    (later : ∀ instruction, .ok instruction ∈ items → pc + op.width ≤ instruction.pc)
    (onward : ∀ stack log world, m.Traced (pc + op.width) next stack log world items) :
    m.Traced pc (word :: rest) stack log world (.ok ⟨pc, op, operand⟩ :: items) := by
  cases performed : m.perform ⟨op, constant, []⟩ stack world with
  | mk result after =>
      cases result with
      | error cause => exact .failed found held later performed
      | ok left => exact .performed found held performed (onward left _ after)

theorem traced_words (m : Machine ω) (pc : Nat) (words : List UInt32) (stack : Stack)
    (log : List (Call ω)) (world : ω) :
    m.Traced pc words stack log world (Program.decodeFrom pc words) := by
  -- The cases are those of the decoder; in each the machine fetches from the same words.
  fun_induction Program.decodeFrom pc words generalizing stack log world with
  | case1 pc =>
      constructor
      · rw [runFrom_nil, runFrom_nil]
        exact .nothing log world _
      · intro fault stopped
        rw [runFrom_nil] at stopped
        cases stopped
      · intro last done
        rfl
  | case2 pc word rest unknown => exact .unfetched (fetch_unknown unknown _ _) rfl
  | case3 pc word op known followed => exact .unfetched (fetch_unfollowed known followed _) rfl
  | case4 pc word op known followed index rest ih =>
      have found := fetch_withOperand known followed m.constants index rest
      cases held : m.constants[index.toNat]? with
      | none =>
          rw [held] at found
          have silent : callsIn m.constants m.bindings (Program.decodeFrom (pc + 2) rest)
              (.error ⟨pc, .constantOutOfRange (some index)⟩ : Except RuntimeFault Stack) = [] :=
            callsIn_beyond fun instruction among =>
              Nat.lt_of_lt_of_le (by simp) (Program.pc_le_of_decoded among)
          have missing : (Instruction.mk pc op (some index)).constant? m.constants = none := held
          refine .unfetched found ?_
          rw [callsIn_entered (by simp [Instruction.entered]), silent, Instruction.calls, missing]
          cases op <;> rfl
      | some constant =>
          rw [held] at found
          refine .fetched found held ?_ ?_
          · intro instruction among
            rw [Opcode.width_followed followed]
            exact Program.pc_le_of_decoded among
          · rw [Opcode.width_followed followed]
            exact ih
  | case5 pc word rest op known alone ih =>
      have plain : op.hasOperand = false := by simpa using alone
      refine .fetched (fetch_plain known plain m.constants rest) rfl ?_ ?_
      · intro instruction among
        rw [Opcode.width_alone plain]
        exact Program.pc_le_of_decoded among
      · rw [Opcode.width_alone plain]
        exact ih

end Machine

section

variable {ω : Type} {b : Bindings ω}

theorem found_of_call {α : Type} {constants : List Value}
    {items : List (Except ProgramFault Instruction)} {result : Except RuntimeFault α} {call : Call ω}
    (called : call ∈ callsIn constants b items result) : b.find? call.1 = some call.2 := by
  obtain ⟨instruction, -, among⟩ := List.mem_flatMap.mp called
  obtain ⟨name, -, rest⟩ : ∃ name, instruction.asks? constants = some name ∧ call ∈ b.callsTo name := by
    rw [Instruction.calls, Bindings.called, ← Instruction.asks?] at among
    cases asks : instruction.asks? constants with
    | none => simp [asks] at among
    | some name => exact ⟨name, rfl, by simpa [asks] using among⟩
  obtain ⟨producer, found, rfl⟩ := Option.map_eq_some_iff.mp (Option.mem_toList.mp rest)
  exact found

variable {limit : Nat} {world : ω}

theorem entered_map {α β : Type} (f : α → β) (result : Except RuntimeFault α) :
    Instruction.entered (result.map f) = Instruction.entered result := by
  cases result <;> rfl

theorem tallies_run (p : Program) (log : List (Call ω)) :
    Tallies log world (p.calls b (p.run b limit world).1) (p.run b limit world)
      (p.run b.recorded limit (log, world)) := by
  have traced := (Machine.mk p.constants b limit).traced_words 0 p.words [] log world
  have tallies := traced.tallies.map (Except.map List.head?)
  rw [Program.calls, callsIn, Program.run, Machine.run, entered_map]
  exact tallies

theorem names_of_run {p : Program} {v : Option Value} (done : (p.run b limit world).1 = .ok v) :
    (p.calls b (p.run b limit world).1).map Prod.fst = asked p.constants p.decode := by
  have traced := (Machine.mk p.constants b limit).traced_words 0 p.words [] [] world
  cases ended : ((Machine.mk p.constants b limit).run p.words world).1 with
  | error fault =>
      have failed : (p.run b limit world).1 =
          (((Machine.mk p.constants b limit).run p.words world).1).map List.head? := rfl
      rw [failed, ended] at done
      cases done
  | ok last =>
      rw [done]
      exact traced.supplied last ended

end

end PredicateLang
