import PredicateLang.Syntax.Fault
import PredicateLang.Token.Supply

set_option autoImplicit false

namespace PredicateLang

structure Cursor (σ : Type) where
  supply : σ
  -- The last token taken, unless it was returned.
  last : Option Token
  -- The token that will be taken next.
  returned : Option Token

namespace Cursor

def ofSupply {σ : Type} (supply : σ) : Cursor σ := ⟨supply, none, none⟩

/-- A step of a cursor, which moves on also where it fails. -/
abbrev Parse (σ : Type) := ExceptT ParseFault (StateM (Cursor σ))

theorem bind_apply {σ α β : Type} (p : Parse σ α) (f : α → Parse σ β) (c : Cursor σ) :
    (p >>= f) c = match p c with
      | (.ok a, next) => f a next
      | (.error fault, next) => (.error fault, next) := by
  show (ExceptT.bind p f) c = _
  simp only [ExceptT.bind, ExceptT.mk]
  show (ExceptT.bindCont f (p c).1) (p c).2 = _
  rcases p c with ⟨⟨fault⟩ | ⟨a⟩, next⟩ <;> rfl

variable {σ : Type} [TokenSupply σ]

def pull (c : Cursor σ) : Except LexFault Token × Cursor σ :=
  -- A returned token if there is one, or else the next of the supply.
  match c.returned with
  | some t => (.ok t, { c with returned := none })
  | none =>
      match TokenSupply.pull c.supply with
      | (result, supply) => (result, { c with supply := supply })

-- The character that an illegal token consists of.
def illegalCharacter (t : Token) : Char := t.text.toList.head?.getD '\ufffd'

def advance : Parse σ Token := fun c =>
  match pull c with
  | (.error fault, next) => (.error (.lexical fault), next)
  | (.ok t, next) =>
      if t.kind = .illegal then
        (.error (.lexical ⟨t.position, .illegalCharacter (illegalCharacter t)⟩), next)
      else (.ok t, { next with last := some t })

def giveBack : Parse σ Unit := fun c =>
  match c.returned, c.last with
  | some _, _ => (.error (.misuse .alreadyReturned), c)
  | none, none => (.error (.misuse .nothingToReturn), c)
  | none, some t => (.ok (), { c with last := none, returned := some t })

def weight (t : Token) : Nat := if t.kind = .eof then 0 else 1

def left (c : Cursor σ) : Nat := (c.returned.map weight).getD 0 + TokenSupply.left c.supply

theorem left_pull_le (c : Cursor σ) : (pull c).2.left ≤ c.left := by
  have steps := (TokenSupply.left_pull c.supply).1
  unfold pull
  split <;> simp_all [left]

theorem left_pull_ok {c next : Cursor σ} {t : Token} (h : pull c = (.ok t, next)) :
    next.left + weight t ≤ c.left ∧ next.returned = none := by
  obtain ⟨steps, shrinks⟩ := TokenSupply.left_pull c.supply
  unfold pull at h
  split at h
  · cases h
    simp_all [left, Nat.add_comm]
  · cases pulled : TokenSupply.pull c.supply with
    | mk result supply =>
        rw [pulled] at h steps shrinks
        cases h
        replace steps : TokenSupply.left supply ≤ TokenSupply.left c.supply := steps
        have free : c.returned = none := by assumption
        refine ⟨?_, free⟩
        simp only [left, weight, free, Option.map_none, Option.getD_none]
        by_cases last : t.kind = .eof
        · simp only [if_pos last]
          omega
        · have fewer : TokenSupply.left supply < TokenSupply.left c.supply := shrinks t rfl last
          simp only [if_neg last]
          omega

theorem left_advance_le (c : Cursor σ) : (advance c).2.left ≤ c.left := by
  have pulled := left_pull_le c
  unfold advance
  split
  · simp_all
  · split <;> simp_all [left]

theorem left_advance_ok {c next : Cursor σ} {t : Token} (h : advance c = (.ok t, next)) :
    next.left + weight t ≤ c.left ∧ next.returned = none ∧ next.last = some t := by
  unfold advance at h
  split at h
  · cases h
  · rename_i t' after pulled
    split at h
    · cases h
    · cases h
      exact ⟨(left_pull_ok pulled).1, (left_pull_ok pulled).2, rfl⟩

theorem left_giveBack {c next : Cursor σ} {t : Token} (h : advance c = (.ok t, next)) :
    (giveBack next).2.left ≤ c.left := by
  obtain ⟨smaller, free, held⟩ := left_advance_ok h
  simp only [giveBack, free, held]
  simp only [left, free] at smaller ⊢
  simpa [Nat.add_comm] using smaller

theorem weight_of_ne {t : Token} (other : t.kind ≠ .eof) : weight t = 1 := by simp [weight, other]

def skipBlanks (c : Cursor σ) : Except ParseFault Unit × Cursor σ :=
  match _found : advance c with
  | (.error fault, next) => (.error fault, next)
  | (.ok t, next) => if t.kind = .whitespace then skipBlanks next else giveBack next
termination_by c.left
decreasing_by
  rename_i blank
  have smaller := (left_advance_ok _found).1
  rw [weight_of_ne (by rw [blank]; decide)] at smaller
  omega

def peekKind : Parse σ TokenKind := do
  let t ← advance
  giveBack
  pure t.kind

def takeIf (accept : TokenKind → Bool) : Parse σ (Option Token) := do
  let t ← advance
  if accept t.kind then pure (some t)
  else
    giveBack
    pure none

def Forward {α : Type} (p : Parse σ α) : Prop := ∀ c : Cursor σ, (p c).2.left ≤ c.left

theorem forward_pure {α : Type} (a : α) : Forward (pure a : Parse σ α) := fun _ => Nat.le_refl _

theorem forward_throw {α : Type} (fault : ParseFault) : Forward (throw fault : Parse σ α) :=
  fun _ => Nat.le_refl _

theorem forward_bind {α β : Type} {p : Parse σ α} {f : α → Parse σ β} (first : Forward p)
    (second : ∀ a, Forward (f a)) : Forward (p >>= f) := by
  intro c
  have start := first c
  rw [bind_apply]
  split
  · rename_i a next found
    rw [found] at start
    exact Nat.le_trans (second a next) start
  · simp_all

theorem forward_advance : Forward (advance : Parse σ Token) := left_advance_le

theorem forward_skipBlanks : Forward (skipBlanks : Parse σ Unit) := by
  intro c
  fun_induction skipBlanks c with
  | case1 c fault next found => simpa [found] using left_advance_le c
  | case2 c t next found blank ih =>
      have smaller := (left_advance_ok found).1
      exact Nat.le_trans ih (by omega)
  | case3 c t next found other => exact left_giveBack found

theorem forward_takeIf (accept : TokenKind → Bool) :
    Forward (takeIf accept : Parse σ (Option Token)) := by
  intro c
  have steps := left_advance_le c
  rw [takeIf, bind_apply]
  split
  · rename_i t next found
    rw [found] at steps
    split
    · exact steps
    · rw [bind_apply]
      have back := left_giveBack found
      split <;> simp_all
      exact back
  · simp_all

theorem left_takeIf_lt {accept : TokenKind → Bool} {c next : Cursor σ} {t : Token}
    (h : takeIf accept c = (.ok (some t), next)) (other : accept .eof = false) :
    next.left < c.left := by
  rw [takeIf, bind_apply] at h
  split at h
  · rename_i t' after found
    have smaller := (left_advance_ok found).1
    split at h
    · rename_i accepted
      cases h
      have notEnd : t.kind ≠ .eof := fun ends => by simp [ends, other] at accepted
      rw [weight_of_ne notEnd] at smaller
      omega
    · rw [bind_apply] at h
      split at h <;> cases h
  · cases h

end Cursor

end PredicateLang
