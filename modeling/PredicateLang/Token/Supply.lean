import PredicateLang.Token.Progress

set_option autoImplicit false

namespace PredicateLang

class TokenSupply (σ : Type) where
  pull : σ → Except LexFault Token × σ
  -- An upper bound on the tokens before the end of input.
  left : σ → Nat
  left_pull : ∀ s : σ, left (pull s).2 ≤ left s ∧
    ∀ t, (pull s).1 = .ok t → t.kind ≠ .eof → left (pull s).2 < left s

instance : TokenSupply Scanner where
  pull := Scanner.next
  left := Scanner.left
  left_pull := Scanner.left_next

structure TokenList where
  -- A list of tokens supplies these, then the end of input for ever.
  tokens : List Token
  -- Where the input ends.
  finish : Position

namespace TokenList

def pull (s : TokenList) : Except LexFault Token × TokenList :=
  match s.tokens with
  | [] => (.ok ⟨.eof, s.finish, ""⟩, s)
  | t :: rest => (.ok t, { s with tokens := rest })

instance : TokenSupply TokenList where
  pull := pull
  left s := s.tokens.length
  left_pull s := by
    unfold pull
    split
    · exact ⟨Nat.le_refl _, fun t done other => absurd (by cases done; rfl) other⟩
    · rename_i t rest held
      simp [held]

end TokenList

/-- Every token up to the end of input, which is the last one, or the first fault. -/
def allTokens {σ : Type} [TokenSupply σ] (s : σ) : Except LexFault (List Token) :=
  match _found : TokenSupply.pull s with
  | (.error fault, _) => .error fault
  | (.ok t, next) => if t.kind = .eof then .ok [t] else (allTokens next).map (t :: ·)
termination_by TokenSupply.left s
decreasing_by
  rename_i other
  have shrinks := (TokenSupply.left_pull s).2 t (by rw [_found]) other
  rwa [_found] at shrinks

def tokenize (keywordBoundary : Bool) (feed : Feed) : Except LexFault (List Token) :=
  allTokens (Scanner.ofFeed keywordBoundary feed)

end PredicateLang
