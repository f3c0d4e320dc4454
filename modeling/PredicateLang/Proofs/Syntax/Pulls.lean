import PredicateLang.Proofs.Syntax.Levels
import PredicateLang.Proofs.Syntax.Simulation
import PredicateLang.Proofs.Token.Supplies

set_option autoImplicit false

namespace PredicateLang

def Passed (tokens : List Token) : Prop := ∀ t ∈ tokens, t.kind ≠ .eof ∧ t.kind ≠ .illegal

theorem Passed.append {front behind : List Token} (one : Passed front) (other : Passed behind) :
    Passed (front ++ behind) :=
  List.forall_mem_append.mpr ⟨one, other⟩

/-- The fault arises at the last of these pulls. A missing operand is missed at the token that stands in
its place, behind the operator and its blanks. -/
inductive ParseFault.ArisesAt : ParseFault → List (Except LexFault Token) → Prop
  | unexpected {front : List Token} {t : Token} (passed : Passed front) (legal : t.kind ≠ .illegal) :
      ArisesAt (.unexpectedToken t) ((front ++ [t]).map .ok)
  | missing {front blanks : List Token} {op t : Token} (passed : Passed (front ++ [op]))
      (blank : Grammar.Blanks blanks) (visible : t.kind ≠ .whitespace) (legal : t.kind ≠ .illegal) :
      ArisesAt (.missingOperand op) ((front ++ [op] ++ blanks ++ [t]).map .ok)
  | illegal {front : List Token} {t : Token} (passed : Passed front) (illegal : t.kind = .illegal) :
      ArisesAt (.lexical ⟨t.position, .illegalCharacter (Cursor.illegalCharacter t)⟩)
        ((front ++ [t]).map .ok)
  | lexical {front : List Token} {fault : LexFault} (passed : Passed front) :
      ArisesAt (.lexical fault) (front.map .ok ++ [.error fault])

namespace Cursor

open Grammar

variable {σ : Type} [TokenSupply σ] {all : List (Except LexFault Token)} {taken : List Token}
  {t : Token} {c next : Cursor (Recorded σ)}

/-- The last pull has given this token, and those before it have given the tokens in front of it. -/
structure Pulled (all : List (Except LexFault Token)) (taken : List Token) (t : Token)
    (c : Cursor (Recorded σ)) : Prop where
  passed : Passed taken
  legal : t.kind ≠ .illegal
  pulled : c.supply.pulled = (taken ++ [t]).map .ok
  ahead : c.supply.pulled ++ deliveredBehind t c.supply.supply = all

/-- These tokens have been taken for good, and perhaps one more was pulled and given back. -/
inductive Ready (all : List (Except LexFault Token)) (taken : List Token) (c : Cursor (Recorded σ)) : Prop
  | fresh (none : c.returned = none) (passed : Passed taken) (pulled : c.supply.pulled = taken.map .ok)
      (ahead : c.supply.pulled ++ delivered c.supply.supply = all)
  | back (t : Token) (some : c.returned = some t) (last : Pulled all taken t c)

def Fine (all : List (Except LexFault Token)) (c : Cursor (Recorded σ)) : Prop :=
  ∃ taken, Ready all taken c

def Orderly (all : List (Except LexFault Token)) {α : Type} (good : α → Cursor (Recorded σ) → Prop)
    (x : Except ParseFault α × Cursor (Recorded σ)) : Prop :=
  match x with
  | (.ok a, next) => good a next
  | (.error fault, next) => fault.ArisesAt next.supply.pulled ∧ next.supply.pulled <+: all

section

variable {α β : Type} {good : α → Cursor (Recorded σ) → Prop}

omit [TokenSupply σ] in
theorem Orderly.bind {better : β → Cursor (Recorded σ) → Prop} {p : Parse (Recorded σ) α}
    {f : α → Parse (Recorded σ) β} (first : Orderly all good (p c))
    (second : ∀ a next, p c = (.ok a, next) → good a next → Orderly all better (f a next)) :
    Orderly all better ((p >>= f) c) := by
  rw [bind_apply]
  cases found : p c with
  | mk result next =>
      rw [found] at first
      cases result with
      | error fault => exact first
      | ok a => exact second a next found first

omit [TokenSupply σ] in
theorem Orderly.mono {better : α → Cursor (Recorded σ) → Prop}
    {x : Except ParseFault α × Cursor (Recorded σ)} (orderly : Orderly all good x)
    (le : ∀ a next, good a next → better a next) : Orderly all better x := by
  obtain ⟨result, next⟩ := x
  cases result with
  | error fault => exact orderly
  | ok a => exact le a next orderly

end

theorem Pulled.ready (last : Pulled all taken t c) (free : c.returned = none) (more : t.kind ≠ .eof) :
    Ready all (taken ++ [t]) c := by
  refine .fresh free ?_ last.pulled ?_
  · exact last.passed.append (by simpa [Passed] using ⟨more, last.legal⟩)
  · have ahead := last.ahead
    rwa [deliveredBehind, if_neg more] at ahead

theorem Pulled.started (last : Pulled all taken t c) : c.supply.pulled <+: all :=
  ⟨_, last.ahead⟩

theorem orderly_advance (ready : Ready all taken c) :
    Orderly all (fun t next => Pulled all taken t next ∧ next.returned = none ∧ next.last = some t)
      (advance c) := by
  obtain ⟨⟨s, log⟩, last, returned⟩ := c
  cases ready with
  | back t some pulled =>
      obtain rfl : returned = .some t := some
      simp only [advance, pull, if_neg pulled.legal]
      exact ⟨⟨pulled.passed, pulled.legal, pulled.pulled, pulled.ahead⟩, rfl, rfl⟩
  | fresh none passed pulled ahead =>
      obtain rfl : returned = .none := none
      obtain rfl : log = taken.map .ok := pulled
      replace ahead : taken.map .ok ++ delivered s = all := ahead
      cases found : TokenSupply.pull s with
      | mk result s' =>
          simp only [advance, pull, Recorded.pull_of_pull found]
          cases result with
          | error fault =>
              rw [delivered_of_fault found] at ahead
              exact ⟨.lexical passed, ⟨[], by simpa using ahead⟩⟩
          | ok t =>
              rw [delivered_of_token found] at ahead
              have log : (taken.map .ok ++ [.ok t] : List (Except LexFault Token)) =
                  (taken ++ [t]).map .ok := by simp
              have whole : taken.map .ok ++ [.ok t] ++ deliveredBehind t s' = all := by
                simpa using ahead
              by_cases illegal : t.kind = .illegal
              · simp only [if_pos illegal]
                refine ⟨?_, ⟨_, whole⟩⟩
                rw [log]
                exact .illegal passed illegal
              · simp only [if_neg illegal]
                exact ⟨⟨passed, illegal, log, whole⟩, rfl, rfl⟩

theorem orderly_giveBack (last : Pulled all taken t c) (free : c.returned = none)
    (held : c.last = some t) :
    Orderly all (fun _ back => back.returned = some t ∧ Pulled all taken t back) (giveBack c) := by
  simp only [giveBack, free, held]
  exact ⟨rfl, last.passed, last.legal, last.pulled, last.ahead⟩

theorem orderly_takeIf {accept : TokenKind → Bool} (ready : Ready all taken c)
    (apart : accept .eof = false) :
    Orderly all (fun found next => match found with
      | some t => Ready all (taken ++ [t]) next ∧ next.returned = none
      | none => Ready all taken next) (takeIf accept c) := by
  refine (orderly_advance ready).bind fun t after _ ⟨last, free, held⟩ => ?_
  split
  · rename_i accepted
    have more : t.kind ≠ .eof := fun ends => by simp [ends, apart] at accepted
    exact ⟨last.ready free more, free⟩
  · exact (orderly_giveBack last free held).bind fun _ back _ ⟨here, kept⟩ => .back t here kept

theorem orderly_skipBlanks {taken : List Token} {c : Cursor (Recorded σ)} (ready : Ready all taken c) :
    Orderly all (fun _ next => ∃ blanks t, Blanks blanks ∧ t.kind ≠ .whitespace ∧
      next.returned = some t ∧ Pulled all (taken ++ blanks) t next) (skipBlanks c) := by
  rw [skipBlanks_eq]
  refine (orderly_advance ready).bind fun t next found ⟨last, free, held⟩ => ?_
  split
  · rename_i blank
    have more : t.kind ≠ .eof := by simp [blank]
    have fewer : next.left < c.left := left_advance_lt found more
    refine (orderly_skipBlanks (last.ready free more)).mono ?_
    rintro - last ⟨blanks, u, blanks', visible, here, kept⟩
    refine ⟨t :: blanks, u, List.forall_mem_cons.mpr ⟨blank, blanks'⟩, visible, here, ?_⟩
    simpa using kept
  · rename_i visible
    exact (orderly_giveBack last free held).mono fun _ back ⟨here, kept⟩ =>
      ⟨[], t, nofun, visible, here, by simpa using kept⟩
termination_by c.left

theorem Pulled.unexpected {α : Type} {good : α → Cursor (Recorded σ) → Prop}
    (last : Pulled all taken t c) :
    Orderly all good ((throw (.unexpectedToken t) : Parse (Recorded σ) α) c) := by
  refine ⟨?_, last.started⟩
  rw [last.pulled]
  exact .unexpected last.passed last.legal

theorem Pulled.missing {α : Type} {good : α → Cursor (Recorded σ) → Prop} {front blanks : List Token}
    {op : Token} (last : Pulled all (front ++ [op] ++ blanks) t c) (blank : Blanks blanks)
    (visible : t.kind ≠ .whitespace) :
    Orderly all good ((throw (.missingOperand op) : Parse (Recorded σ) α) c) := by
  refine ⟨?_, last.started⟩
  rw [last.pulled]
  exact .missing (fun u present => last.passed u (List.mem_append_left blanks present)) blank visible
    last.legal

theorem orderly_name (fine : Fine all c) : Orderly all (fun _ next => Fine all next) (name c) := by
  obtain ⟨taken, ready⟩ := fine
  refine (orderly_advance ready).bind fun t next _ ⟨last, free, held⟩ => ?_
  split
  · rename_i isName
    exact ⟨_, last.ready free (by simp [isName])⟩
  · exact last.unexpected

theorem orderly_segment (fine : Fine all c) :
    Orderly all (fun _ next => Fine all next) (segment c) := by
  obtain ⟨taken, ready⟩ := fine
  refine (orderly_skipBlanks ready).bind fun _ next _ ⟨blanks, t, _, _, here, last⟩ => ?_
  exact orderly_name ⟨_, .back t here last⟩

theorem orderly_path {c : Cursor (Recorded σ)} (fine : Fine all c) :
    Orderly all (fun _ next => Fine all next) (path c) := by
  obtain ⟨taken, ready⟩ := fine
  rw [path_eq]
  refine (orderly_takeIf ready rfl).bind fun dot next found taken => ?_
  cases dot with
  | none => exact ⟨_, taken⟩
  | some dot =>
      refine (orderly_segment ⟨_, taken.1⟩).bind fun key rest named fine => ?_
      have fewer : rest.left < c.left :=
        Nat.lt_of_le_of_lt (forward_segment.found named) (left_takeIf_lt found rfl)
      exact (orderly_path fine).bind fun more last _ fine => fine
termination_by c.left

theorem orderly_identifier (fine : Fine all c) :
    Orderly all (fun _ next => Fine all next) (identifier c) := by
  obtain ⟨taken, ready⟩ := fine
  refine (orderly_takeIf ready rfl).bind fun first next _ taken => ?_
  cases first with
  | none => exact ⟨_, taken⟩
  | some first =>
      have base : Orderly all (fun _ next => Fine all next) (base first next) := by
        unfold base
        split
        · exact orderly_name ⟨_, taken.1⟩
        · exact ⟨_, taken.1⟩
      exact base.bind fun key next _ fine => (orderly_path fine).bind fun names next _ fine => fine

theorem orderly_literal (fine : Fine all c) :
    Orderly all (fun _ next => Fine all next) (literal c) := by
  obtain ⟨taken, ready⟩ := fine
  refine (orderly_takeIf ready rfl).bind fun t next _ taken => ?_
  cases t with
  | none => exact ⟨_, taken⟩
  | some t => exact ⟨_, taken.1⟩

structure Tame (level : Parse (Recorded σ) (Option Node)) : Prop where
  orderly : ∀ {all : List (Except LexFault Token)} {c : Cursor (Recorded σ)}, Fine all c →
    Orderly all (fun _ next => Fine all next) (level c)
  idle : ∀ {c next : Cursor (Recorded σ)} {t : Token}, c.returned = some t →
    level c = (.ok none, next) → next.supply = c.supply ∧ next.returned = some t

theorem takeIf_idle {accept : TokenKind → Bool} (here : c.returned = some t)
    (h : takeIf accept c = (.ok none, next)) : next.supply = c.supply ∧ next.returned = some t := by
  obtain ⟨u, after, found, h⟩ := bind_ok h
  simp only [advance, pull, here] at found
  split at found
  · cases found
  · cases found
    split at h
    · cases h
    · obtain ⟨_, back, gave, h⟩ := bind_ok h
      cases h
      simp only [giveBack] at gave
      cases gave
      exact ⟨rfl, rfl⟩

theorem tame_primitive : Tame (primitive : Parse (Recorded σ) (Option Node)) where
  orderly := by
    intro all c fine
    refine (orderly_identifier fine).bind fun leaf next _ fine => ?_
    cases leaf with
    | some leaf => exact fine
    | none => exact (orderly_literal fine).bind fun leaf next _ fine => fine
  idle := by
    intro c next t here h
    obtain ⟨leaf, -, some⟩ | ⟨after, leaf?, named, spelled, none⟩ := primitive_ok h
    · cases some
    · obtain ⟨-, refused⟩ | ⟨_, _, _, _, _, _, _, _, some⟩ := identifier_ok named
      · obtain ⟨same, here⟩ := takeIf_idle here refused
        obtain ⟨-, missed⟩ | ⟨_, _, _, _, rfl⟩ := literal_ok spelled
        · obtain ⟨same', here⟩ := takeIf_idle here missed
          exact ⟨same'.trans same, here⟩
        · cases none
      · cases some

def Opened (all : List (Except LexFault Token)) (op : Token) (c : Cursor (Recorded σ)) : Prop :=
  ∃ front, Ready all (front ++ [op]) c ∧ c.returned = none

theorem orderly_operator {accept : TokenKind → Bool} (fine : Fine all c)
    (apart : accept .eof = false) :
    Orderly all (fun found next => match found with
      | some op => Opened all op next
      | none => Fine all next) (operator accept c) := by
  obtain ⟨taken, ready⟩ := fine
  refine (orderly_skipBlanks ready).bind fun _ next _ ⟨blanks, t, _, _, here, last⟩ => ?_
  refine (orderly_takeIf (.back t here last) apart).mono fun op next taken => ?_
  cases op with
  | none => exact ⟨_, taken⟩
  | some op => exact ⟨_, taken⟩

theorem Opened.unexpected {α : Type} {good : α → Cursor (Recorded σ) → Prop} {op : Token}
    (opened : Opened all op c) :
    Orderly all good ((throw (.unexpectedToken op) : Parse (Recorded σ) α) c) := by
  obtain ⟨front, ready, free⟩ := opened
  cases ready with
  | back t some last => simp [free] at some
  | fresh none passed pulled ahead =>
      refine ⟨?_, ⟨_, ahead⟩⟩
      rw [pulled]
      exact .unexpected (fun u present => passed u (List.mem_append_left [op] present))
        (passed op (by simp)).2

theorem orderly_operand {level : Parse (Recorded σ) (Option Node)} {op : Token} (tame : Tame level)
    (opened : Opened all op c) : Orderly all (fun _ next => Fine all next) (operand op level c) := by
  obtain ⟨front, ready, -⟩ := opened
  refine (orderly_skipBlanks ready).bind fun _ after _ ⟨blanks, t, blank, visible, here, last⟩ => ?_
  refine (tame.orderly ⟨_, .back t here last⟩).bind fun node next parsed fine => ?_
  cases node with
  | some node => exact fine
  | none =>
      -- The level has looked at the token behind the operator, and at nothing behind that one.
      obtain ⟨same, -⟩ := tame.idle here parsed
      have still : Pulled all (front ++ [op] ++ blanks) t next := by
        obtain ⟨passed, legal, pulled, ahead⟩ := last
        exact ⟨passed, legal, same ▸ pulled, same ▸ ahead⟩
      exact still.missing blank visible

theorem Tame.single {below : Parse (Recorded σ) (Option Node)} (tame : Tame below) (level : Level)
    (apart : level.accept .eof = false) : Tame (single level below) where
  orderly := by
    intro all c fine
    refine (tame.orderly fine).bind fun left next _ fine => ?_
    cases left with
    | none => exact fine
    | some left =>
        refine (orderly_operator fine apart).bind fun op next _ opened => ?_
        cases op with
        | none => exact opened
        | some op =>
            cases meant : level.combine? op with
            | none =>
                simp only [meant]
                exact Opened.unexpected opened
            | some combine =>
                simp only [meant]
                exact (orderly_operand tame opened).bind fun right next _ fine => fine
  idle := by
    intro c next t here h
    obtain ⟨-, none⟩ | ⟨left, after, -, ⟨some, -⟩ | ⟨_, _, _, _, _, _, _, some⟩⟩ := single_ok h
    · exact tame.idle here none
    · cases some
    · cases some

theorem tame_product : Tame (product : Parse (Recorded σ) (Option Node)) :=
  (tame_primitive.single powers rfl).single products rfl

theorem orderly_sumFrom (left : Node) {c : Cursor (Recorded σ)} (fine : Fine all c) :
    Orderly all (fun _ next => Fine all next) (sumFrom left c) := by
  rw [sumFrom_eq]
  refine (orderly_operator fine rfl).bind fun op next found opened => ?_
  cases op with
  | none => exact opened
  | some op =>
      refine (orderly_operand tame_product opened).bind fun right rest parsed fine => ?_
      have fewer : rest.left < c.left := Nat.lt_of_le_of_lt
        ((forward_operand forward_product op).found parsed) (left_operator_lt found rfl)
      exact orderly_sumFrom (sumOf op left right) fine
termination_by c.left

theorem tame_sum : Tame (sum : Parse (Recorded σ) (Option Node)) where
  orderly := by
    intro all c fine
    refine (tame_product.orderly fine).bind fun left next _ fine => ?_
    cases left with
    | none => exact fine
    | some left => exact orderly_sumFrom left fine
  idle := by
    intro c next t here h
    obtain ⟨left?, after, parsed, h⟩ := bind_ok h
    cases left? with
    | none =>
        cases h
        exact tame_product.idle here parsed
    | some left => exact absurd h (sumFrom_ne_none left after next)

theorem tame_disjunction : Tame (disjunction : Parse (Recorded σ) (Option Node)) :=
  (((tame_sum.single orderings rfl).single equalities rfl).single conjunctions rfl).single
    disjunctions rfl

def Completed (all : List (Except LexFault Token)) (c : Cursor (Recorded σ)) : Prop :=
  c.supply.pulled = all ∧ ∃ front finish, Passed front ∧ finish.kind = .eof ∧
    all = (front ++ [finish]).map .ok

theorem orderly_ending (fine : Fine all c) : Orderly all (fun _ next => Completed all next) (ending c) := by
  obtain ⟨taken, ready⟩ := fine
  refine (orderly_advance ready).bind fun t next _ ⟨last, _, _⟩ => ?_
  split
  · rename_i ends
    have whole : next.supply.pulled = all := by
      have ahead := last.ahead
      rwa [deliveredBehind, if_pos ends, List.append_nil] at ahead
    exact ⟨whole, taken, t, last.passed, ends, whole.symm.trans last.pulled⟩
  · exact last.unexpected

theorem orderly_program (s : σ) :
    Orderly (delivered s) (fun _ next => Completed (delivered s) next)
      (program (ofSupply (Recorded.start s))) := by
  have begun : Ready (delivered s) [] (ofSupply (Recorded.start s)) := .fresh rfl nofun rfl rfl
  refine (orderly_skipBlanks begun).bind fun _ next _ ⟨blanks, t, _, _, here, last⟩ => ?_
  refine (tame_disjunction.orderly ⟨_, .back t here last⟩).bind fun expression next _ fine => ?_
  cases expression with
  | none => exact (orderly_ending fine).bind fun _ next _ completed => completed
  | some expression =>
      obtain ⟨taken, ready⟩ := fine
      refine (orderly_skipBlanks ready).bind fun _ next _ ⟨blanks, t, _, _, here, last⟩ => ?_
      exact (orderly_ending ⟨_, .back t here last⟩).bind fun _ next _ completed => completed

end Cursor

variable {σ : Type} [TokenSupply σ]

def pulls (s : σ) : List (Except LexFault Token) :=
  (Cursor.program (Cursor.ofSupply (Recorded.start s))).2.supply.pulled

theorem parse_start (s : σ) : parse (Recorded.start s) = parse s := by
  have pulls : TokenSupply.Alike fun (r : Recorded σ) (s : σ) => r.supply = s := by
    rintro r _ rfl
    exact ⟨rfl, rfl⟩
  exact parse_eq_of_alike pulls rfl

theorem pulls_of_ok {s : σ} {tree : Node} (h : parse s = .ok tree) :
    pulls s = delivered s ∧ ∃ front finish, Passed front ∧ finish.kind = .eof ∧
      delivered s = (front ++ [finish]).map .ok := by
  have orderly := Cursor.orderly_program s
  rw [← parse_start] at h
  unfold Cursor.Orderly at orderly
  split at orderly <;> rename_i found <;> rw [parse, found] at h <;> cases h
  rw [pulls, found]
  exact orderly

theorem pulls_of_error {s : σ} {fault : ParseFault} (h : parse s = .error fault) :
    fault.ArisesAt (pulls s) ∧ pulls s <+: delivered s := by
  have orderly := Cursor.orderly_program s
  rw [← parse_start] at h
  unfold Cursor.Orderly at orderly
  split at orderly <;> rename_i found <;> rw [parse, found] at h <;> cases h
  rw [pulls, found]
  exact orderly

end PredicateLang
