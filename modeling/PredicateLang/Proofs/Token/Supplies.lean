import Mathlib.Data.List.Basic
import PredicateLang.Token.Supply

set_option autoImplicit false

namespace PredicateLang

variable {σ : Type} [TokenSupply σ]

def delivered (s : σ) : List (Except LexFault Token) :=
  match _found : TokenSupply.pull s with
  | (.error fault, _) => [.error fault]
  | (.ok t, next) => if t.kind = .eof then [.ok t] else .ok t :: delivered next
termination_by TokenSupply.left s
decreasing_by
  rename_i other
  have shrinks := (TokenSupply.left_pull s).2 t (by rw [_found]) other
  rwa [_found] at shrinks

def deliveredBehind (t : Token) (s : σ) : List (Except LexFault Token) :=
  if t.kind = .eof then [] else delivered s

theorem delivered_of_fault {s next : σ} {fault : LexFault}
    (h : TokenSupply.pull s = (.error fault, next)) : delivered s = [.error fault] := by
  rw [delivered]
  split <;> rename_i found <;> rw [h] at found <;> cases found
  rfl

theorem delivered_of_token {s next : σ} {t : Token} (h : TokenSupply.pull s = (.ok t, next)) :
    delivered s = .ok t :: deliveredBehind t next := by
  rw [delivered, deliveredBehind]
  split <;> rename_i found <;> rw [h] at found <;> cases found
  split <;> rfl

theorem delivered_of_tokens {s : σ} {tokens : List Token} (h : allTokens s = .ok tokens) :
    delivered s = tokens.map .ok := by
  fun_induction allTokens s generalizing tokens with
  | case1 s fault next found => cases h
  | case2 s t next found ends =>
      cases h
      rw [delivered_of_token found, deliveredBehind, if_pos ends]
      rfl
  | case3 s t next found more ih =>
      cases others : allTokens next with
      | error fault =>
          rw [others] at h
          cases h
      | ok rest =>
          rw [others] at h
          cases h
          rw [delivered_of_token found, deliveredBehind, if_neg more, ih others]
          rfl

theorem delivered_of_error {s : σ} {fault : LexFault} (h : allTokens s = .error fault) :
    ∃ front : List Token, delivered s = front.map .ok ++ [.error fault] := by
  fun_induction allTokens s with
  | case1 s other next found =>
      cases h
      exact ⟨[], delivered_of_fault found⟩
  | case2 s t next found ends => cases h
  | case3 s t next found more ih =>
      cases others : allTokens next with
      | error other =>
          rw [others] at h
          cases h
          obtain ⟨front, whole⟩ := ih others
          exact ⟨t :: front, by rw [delivered_of_token found, deliveredBehind, if_neg more, whole]; rfl⟩
      | ok rest =>
          rw [others] at h
          cases h

structure Recorded (σ : Type) where
  supply : σ
  pulled : List (Except LexFault Token)

namespace Recorded

def start (s : σ) : Recorded σ := ⟨s, []⟩

def pull (r : Recorded σ) : Except LexFault Token × Recorded σ :=
  match TokenSupply.pull r.supply with
  | (result, next) => (result, ⟨next, r.pulled ++ [result]⟩)

instance : TokenSupply (Recorded σ) where
  pull := pull
  left r := TokenSupply.left r.supply
  left_pull r := TokenSupply.left_pull r.supply

theorem pull_of_pull {s next : σ} {result : Except LexFault Token}
    (found : TokenSupply.pull s = (result, next)) (pulled : List (Except LexFault Token)) :
    TokenSupply.pull (⟨s, pulled⟩ : Recorded σ) = (result, ⟨next, pulled ++ [result]⟩) := by
  show pull _ = _
  rw [pull, found]

end Recorded

end PredicateLang
