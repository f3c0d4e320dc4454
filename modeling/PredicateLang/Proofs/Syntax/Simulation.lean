import PredicateLang.Syntax.Parser

set_option autoImplicit false

namespace PredicateLang

namespace TokenSupply

/-- Supplies that are alike give the same at a pull, and are alike behind it. -/
def Alike {σ τ : Type} [TokenSupply σ] [TokenSupply τ] (alike : σ → τ → Prop) : Prop :=
  ∀ s t, alike s t → (pull s).1 = (pull t).1 ∧ alike (pull s).2 (pull t).2

inductive Gives {σ : Type} [TokenSupply σ] : σ → List (Except LexFault Token) → σ → Prop
  | nothing {s : σ} : Gives s [] s
  | more {s next rest : σ} {result : Except LexFault Token} {given : List (Except LexFault Token)}
      (pulled : pull s = (result, next)) (others : Gives next given rest) :
      Gives s (result :: given) rest

section

variable {σ τ : Type} [TokenSupply σ] [TokenSupply τ] {given given' : List (Except LexFault Token)}

theorem Gives.append {s middle rest : σ} (one : Gives s given middle) (other : Gives middle given' rest) :
    Gives s (given ++ given') rest := by
  induction one with
  | nothing => exact other
  | more pulled _ ih => exact .more pulled (ih other)

theorem Gives.split {s rest : σ} (both : Gives s (given ++ given') rest) :
    ∃ middle, Gives s given middle ∧ Gives middle given' rest := by
  induction given generalizing s with
  | nil => exact ⟨s, .nothing, both⟩
  | cons result given ih =>
      obtain - | ⟨pulled, others⟩ := both
      obtain ⟨middle, one, other⟩ := ih others
      exact ⟨middle, .more pulled one, other⟩

theorem Alike.gives {alike : σ → τ → Prop} (pulls : Alike alike) {s rest : σ} {t : τ} (same : alike s t)
    (gives : Gives s given rest) : ∃ rest', Gives t given rest' := by
  induction gives generalizing t with
  | nothing => exact ⟨t, .nothing⟩
  | @more s next rest result given pulled _ ih =>
      obtain ⟨first, kept⟩ := pulls s t same
      rw [pulled] at first kept
      obtain ⟨rest', others⟩ := ih kept
      exact ⟨rest', .more (Prod.ext first.symm rfl) others⟩

end

end TokenSupply

namespace Cursor

section

variable {σ : Type} [TokenSupply σ]

theorem skipBlanks_eq (c : Cursor σ) : skipBlanks c =
    (advance >>= fun t => if t.kind = .whitespace then skipBlanks else giveBack : Parse σ Unit) c := by
  rw [skipBlanks, bind_apply]
  split <;> rename_i found <;> simp only [found]
  split <;> rfl

theorem path_eq (c : Cursor σ) : path c =
    (takeIf isDot >>= fun
      | none => pure []
      | some _ => segment >>= fun key => path >>= fun more => pure (key :: more) :
        Parse σ (List String)) c := by
  rw [path, bind_apply]
  split <;> rename_i found <;> simp only [found]
  · rfl
  · rw [bind_apply]
    split <;> rename_i named <;> simp only [named]
    rw [bind_apply]
    split <;> rename_i more <;> simp only [more]
    rfl

theorem sumFrom_eq (left : Node) (c : Cursor σ) : sumFrom left c =
    (operator addsUp >>= fun
      | none => pure (some left)
      | some op => operand op product >>= fun right => sumFrom (sumOf op left right) :
        Parse σ (Option Node)) c := by
  rw [sumFrom, bind_apply]
  split <;> rename_i found <;> simp only [found]
  · rfl
  · rw [bind_apply]
    split <;> rename_i right <;> simp only [right]

theorem left_advance_lt {c next : Cursor σ} {t : Token} (h : advance c = (.ok t, next))
    (more : t.kind ≠ .eof) : next.left < c.left := by
  have fewer := (left_advance_ok h).1
  rw [weight_of_ne more] at fewer
  omega

theorem Forward.found {α : Type} {p : Parse σ α} (forward : Forward p) {c next : Cursor σ}
    {result : Except ParseFault α} (h : p c = (result, next)) : next.left ≤ c.left := by
  have bound := forward c
  rwa [h] at bound

end

def onSupply {σ τ : Type} (c : Cursor σ) (supply : τ) : Cursor τ := ⟨supply, c.last, c.returned⟩

variable {σ τ : Type} [TokenSupply σ] [TokenSupply τ] {α β : Type}

def SettledAt (p : Parse σ α) (q : Parse τ α) (c : Cursor σ) : Prop :=
  ∃ given, TokenSupply.Gives c.supply given (p c).2.supply ∧
    ∀ supply rest, TokenSupply.Gives supply given rest →
      q (c.onSupply supply) = ((p c).1, (p c).2.onSupply rest)

def Settled (p : Parse σ α) (q : Parse τ α) : Prop := ∀ c, SettledAt p q c

theorem SettledAt.congr {p p' : Parse σ α} {q q' : Parse τ α} {c : Cursor σ} (settled : SettledAt p q c)
    (same : p' c = p c) (same' : ∀ d, q' d = q d) : SettledAt p' q' c := by
  simpa only [SettledAt, same, same'] using settled

theorem SettledAt.bind {p : Parse σ α} {q : Parse τ α} {f : α → Parse σ β} {g : α → Parse τ β}
    {c : Cursor σ} (first : SettledAt p q c)
    (second : ∀ a next, p c = (.ok a, next) → SettledAt (f a) (g a) next) :
    SettledAt (p >>= f) (q >>= g) c := by
  obtain ⟨given, gives, same⟩ := first
  cases found : p c with
  | mk result next =>
      rw [found] at gives same
      cases result with
      | error fault =>
          refine ⟨given, by simpa only [bind_apply, found] using gives, fun supply rest again => ?_⟩
          simp only [bind_apply, found, same supply rest again]
      | ok a =>
          -- The second step asks behind what was given to the first one.
          obtain ⟨given', gives', same'⟩ := second a next found
          refine ⟨given ++ given', ?_, fun supply rest both => ?_⟩
          · simpa only [bind_apply, found] using gives.append gives'
          · obtain ⟨middle, one, other⟩ := both.split
            simp only [bind_apply, found, same supply middle one, same' middle rest other]

theorem settled_bind {p : Parse σ α} {q : Parse τ α} {f : α → Parse σ β} {g : α → Parse τ β}
    (first : Settled p q) (second : ∀ a, Settled (f a) (g a)) : Settled (p >>= f) (q >>= g) :=
  fun c => (first c).bind fun a next _ => second a next

theorem settled_pure (a : α) : Settled (pure a : Parse σ α) (pure a : Parse τ α) :=
  fun _ => ⟨[], .nothing, fun _ _ again => by cases again; rfl⟩

theorem settled_throw (fault : ParseFault) :
    Settled (throw fault : Parse σ α) (throw fault : Parse τ α) :=
  fun _ => ⟨[], .nothing, fun _ _ again => by cases again; rfl⟩

theorem settled_giveBack : Settled (giveBack : Parse σ Unit) (giveBack : Parse τ Unit) := by
  rintro ⟨s, last, returned⟩
  cases returned <;> cases last <;>
    exact ⟨[], .nothing, fun _ _ again => by cases again; rfl⟩

theorem settled_advance : Settled (advance : Parse σ Token) (advance : Parse τ Token) := by
  rintro ⟨s, last, returned⟩
  cases returned with
  | some t =>
      refine ⟨[], ?_, fun supply rest again => ?_⟩
      · simp only [advance, pull]
        split <;> exact .nothing
      · cases again
        simp only [advance, pull, onSupply]
        split <;> rfl
  | none =>
      cases found : TokenSupply.pull s with
      | mk result s' =>
          have asked : (advance ⟨s, last, none⟩).2.supply = s' := by
            simp only [advance, pull, found]
            cases result with
            | error fault => rfl
            | ok t =>
                dsimp only
                split <;> rfl
          refine ⟨[result], .more found (asked ▸ .nothing), fun supply rest again => ?_⟩
          obtain - | ⟨pulled, others⟩ := again
          cases others
          simp only [advance, pull, onSupply, found, pulled]
          cases result with
          | error fault => rfl
          | ok t =>
              dsimp only
              split <;> rfl

theorem settled_takeIf (accept : TokenKind → Bool) :
    Settled (takeIf accept : Parse σ (Option Token)) (takeIf accept : Parse τ (Option Token)) := by
  refine settled_bind settled_advance fun t => ?_
  split
  · exact settled_pure _
  · exact settled_bind settled_giveBack fun _ => settled_pure _

theorem settled_skipBlanks (c : Cursor σ) :
    SettledAt (skipBlanks : Parse σ Unit) (skipBlanks : Parse τ Unit) c := by
  refine SettledAt.congr ((settled_advance c).bind fun t next found => ?_) (skipBlanks_eq c) skipBlanks_eq
  split
  · rename_i blank
    have fewer : next.left < c.left := left_advance_lt found (by simp [blank])
    exact settled_skipBlanks next
  · exact settled_giveBack next
termination_by c.left

theorem settled_name : Settled (name : Parse σ String) (name : Parse τ String) := by
  refine settled_bind settled_advance fun t => ?_
  split
  · exact settled_pure _
  · exact settled_throw _

theorem settled_segment : Settled (segment : Parse σ String) (segment : Parse τ String) :=
  settled_bind settled_skipBlanks fun _ => settled_name

theorem settled_path (c : Cursor σ) :
    SettledAt (path : Parse σ (List String)) (path : Parse τ (List String)) c := by
  refine SettledAt.congr ((settled_takeIf isDot c).bind fun t next found => ?_) (path_eq c) path_eq
  cases t with
  | none => exact settled_pure _ next
  | some t =>
      refine (settled_segment next).bind fun key rest named => ?_
      have fewer : rest.left < c.left :=
        Nat.lt_of_le_of_lt (forward_segment.found named) (left_takeIf_lt found rfl)
      exact (settled_path rest).bind fun more last _ => settled_pure _ last
termination_by c.left

theorem settled_identifier :
    Settled (identifier : Parse σ (Option Node)) (identifier : Parse τ (Option Node)) := by
  refine settled_bind (settled_takeIf beginsName) fun first => ?_
  cases first with
  | none => exact settled_pure none
  | some first =>
      have base : Settled (base first : Parse σ String) (base first : Parse τ String) := by
        unfold base
        split
        · exact settled_name
        · exact settled_pure _
      exact settled_bind base fun _ => settled_bind settled_path fun _ => settled_pure _

theorem settled_literal : Settled (literal : Parse σ (Option Node)) (literal : Parse τ (Option Node)) := by
  refine settled_bind (settled_takeIf _) fun t => ?_
  cases t <;> exact settled_pure _

theorem settled_primitive :
    Settled (primitive : Parse σ (Option Node)) (primitive : Parse τ (Option Node)) := by
  refine settled_bind settled_identifier fun leaf => ?_
  cases leaf with
  | none => exact settled_bind settled_literal fun _ => settled_pure _
  | some leaf => exact settled_pure _

theorem settled_operator (accept : TokenKind → Bool) :
    Settled (operator accept : Parse σ (Option Token)) (operator accept : Parse τ (Option Token)) :=
  settled_bind settled_skipBlanks fun _ => settled_takeIf accept

section

variable {below : Parse σ (Option Node)} {below' : Parse τ (Option Node)} (level : Settled below below')

include level

theorem settled_operand (op : Token) : Settled (operand op below) (operand op below') := by
  refine settled_bind settled_skipBlanks fun _ => settled_bind level fun node => ?_
  cases node with
  | none => exact settled_throw _
  | some node => exact settled_pure _

theorem settled_single (operators : Level) : Settled (single operators below) (single operators below') := by
  refine settled_bind level fun left => ?_
  cases left with
  | none => exact settled_pure _
  | some left =>
      refine settled_bind (settled_operator _) fun op => ?_
      cases op with
      | none => exact settled_pure _
      | some op =>
          cases combine : operators.combine? op with
          | none =>
              simp only [combine]
              exact settled_throw _
          | some combine =>
              simp only [combine]
              exact settled_bind (settled_operand level op) fun _ => settled_pure _

end

theorem settled_product : Settled (product : Parse σ (Option Node)) (product : Parse τ (Option Node)) :=
  settled_single (settled_single settled_primitive powers) products

theorem settled_sumFrom (left : Node) (c : Cursor σ) :
    SettledAt (sumFrom left : Parse σ (Option Node)) (sumFrom left : Parse τ (Option Node)) c := by
  refine SettledAt.congr ((settled_operator addsUp c).bind fun op next found => ?_) (sumFrom_eq left c)
    (sumFrom_eq left)
  cases op with
  | none => exact settled_pure _ next
  | some op =>
      refine (settled_operand settled_product op next).bind fun right rest parsed => ?_
      have fewer : rest.left < c.left := Nat.lt_of_le_of_lt
        ((forward_operand forward_product op).found parsed) (left_operator_lt found rfl)
      exact settled_sumFrom (sumOf op left right) rest
termination_by c.left

theorem settled_disjunction :
    Settled (disjunction : Parse σ (Option Node)) (disjunction : Parse τ (Option Node)) := by
  have sums : Settled (sum : Parse σ (Option Node)) (sum : Parse τ (Option Node)) := by
    refine settled_bind settled_product fun left => ?_
    cases left with
    | none => exact settled_pure _
    | some left => exact settled_sumFrom left
  exact settled_single (settled_single (settled_single (settled_single sums orderings) equalities)
    conjunctions) disjunctions

theorem settled_program : Settled (program : Parse σ Node) (program : Parse τ Node) := by
  have ending : Settled (ending : Parse σ Unit) (ending : Parse τ Unit) := by
    refine settled_bind settled_advance fun t => ?_
    split
    · exact settled_pure _
    · exact settled_throw _
  refine settled_bind settled_skipBlanks fun _ => settled_bind settled_disjunction fun expression => ?_
  cases expression with
  | none => exact settled_bind ending fun _ => settled_pure _
  | some expression =>
      exact settled_bind settled_skipBlanks fun _ => settled_bind ending fun _ => settled_pure _

theorem Settled.eq_of_alike {p : Parse σ α} {q : Parse τ α} (settled : Settled p q) {alike : σ → τ → Prop}
    (pulls : TokenSupply.Alike alike) {s : σ} {t : τ} (same : alike s t) :
    (p (ofSupply s)).1 = (q (ofSupply t)).1 := by
  obtain ⟨given, gives, again⟩ := settled (ofSupply s)
  obtain ⟨rest, gives'⟩ := pulls.gives same gives
  exact (congrArg Prod.fst (again t rest gives')).symm

end Cursor

theorem parse_eq_of_alike {σ τ : Type} [TokenSupply σ] [TokenSupply τ] {alike : σ → τ → Prop}
    (pulls : TokenSupply.Alike alike) {s : σ} {t : τ} (same : alike s t) : parse s = parse t :=
  Cursor.settled_program.eq_of_alike pulls same

end PredicateLang
