import PredicateLang.Proofs.Syntax.Programs

set_option autoImplicit false

namespace PredicateLang

namespace Grammar

def Rule.Begun (rule : Rule) (front : List Token) : Prop :=
  ∃ derivation, front <+: rule.tokens derivation

/-- A program can begin with these tokens. -/
def Viable (front : List Token) : Prop := ∃ program : Program, front <+: program.tokens

section

variable {operators : Operators} {next : Rule} {front : List Token}

theorem single_begun (begun : next.Begun front) : (single operators next).Begun front := by
  obtain ⟨first, begins⟩ := begun
  exact ⟨(first, none), begins.trans (List.prefix_append _ _)⟩

theorem chain_begun (begun : next.Begun front) : (chain operators next).Begun front := by
  obtain ⟨first, begins⟩ := begun
  exact ⟨(first, []), begins.trans (List.prefix_append _ _)⟩

end

theorem dropLast_append_prefix {rest behind : List Token} (front : List Token)
    (begins : rest.dropLast <+: behind) : (front ++ rest).dropLast <+: front ++ behind := by
  rw [List.dropLast_append]
  split
  · exact (List.dropLast_prefix front).trans (List.prefix_append front behind)
  · exact (List.prefix_append_right_inj front).2 begins

-- Stands where the parser was looking for a name.
def anyName : Token := ⟨.identifier, .start, "a"⟩

def anyEnd : Token := ⟨.eof, .start, ""⟩

end Grammar

def ParseFault.Lexical (fault : ParseFault) : Prop := ∃ cause, fault = .lexical cause

namespace Cursor

open Grammar

variable {σ : Type} [TokenSupply σ]

def Exhausted (c : Cursor σ) : Prop := upcoming (ofSupply c.supply) = []

def Stuck {α : Type} (x : Except ParseFault α × Cursor σ) : Prop :=
  match x with
  | (.ok _, _) => False
  | (.error fault, next) => ¬ fault.Lexical ∧ Exhausted next

theorem Stuck.bind {α β : Type} {p : Parse σ α} {f : α → Parse σ β} {c : Cursor σ}
    (stuck : Stuck ((p >>= f) c)) :
    Stuck (p c) ∨ ∃ a next, p c = (.ok a, next) ∧ Stuck (f a next) := by
  rw [bind_apply] at stuck
  cases found : p c with
  | mk result next =>
      rw [found] at stuck
      cases result with
      | error fault => exact .inl stuck
      | ok a => exact .inr ⟨a, next, rfl, stuck⟩

theorem Stuck.behind {α β : Type} {p : Parse σ α} {f : α → Parse σ β} {c : Cursor σ}
    (stuck : Stuck ((p >>= f) c)) (first : ¬ Stuck (p c)) :
    ∃ a next, p c = (.ok a, next) ∧ Stuck (f a next) :=
  stuck.bind.resolve_left first

theorem Stuck.before {α β : Type} {p : Parse σ α} {g : α → β} {c : Cursor σ}
    (stuck : Stuck ((p >>= fun a => pure (g a)) c)) : Stuck (p c) :=
  stuck.bind.resolve_right fun ⟨_, _, _, done⟩ => done

theorem upcoming_of_free {c : Cursor σ} (free : c.returned = none) :
    upcoming c = upcoming (ofSupply c.supply) := by
  obtain ⟨s, last, returned⟩ := c
  obtain rfl : returned = none := free
  cases pulled : TokenSupply.pull s with
  | mk result s' =>
      cases result with
      | error fault =>
          exact (upcoming_of_fault last pulled).trans (upcoming_of_fault none pulled).symm
      | ok t =>
          by_cases legal : t.kind = .illegal
          · exact (upcoming_of_illegal last pulled legal).trans
              (upcoming_of_illegal none pulled legal).symm
          · apply upcoming_congr
            rw [advance_of_pull last pulled legal]
            exact (advance_of_pull none pulled legal).symm

theorem advance_last {c next : Cursor σ} {t : Token} (found : advance c = (.ok t, next))
    (exhausted : Exhausted next) : upcoming c = [t] := by
  have free := (left_advance_ok found).2.1
  rw [upcoming_of_ok found, upcoming_of_free free, show upcoming _ = [] from exhausted]
  split <;> rfl

theorem Exhausted.dropLast {c : Cursor σ} (exhausted : Exhausted c) :
    (upcoming c).dropLast <+: [] := by
  obtain ⟨s, last, returned⟩ := c
  cases returned with
  | none =>
      rw [upcoming_of_free rfl, show upcoming _ = [] from exhausted]
      exact List.prefix_rfl
  | some t =>
      have kept : (advance ⟨s, last, some t⟩).2.supply = s := by
        simp only [advance, pull]
        split <;> rfl
      cases found : advance ⟨s, last, some t⟩ with
      | mk result next =>
          rw [found] at kept
          cases result with
          | error fault =>
              rw [upcoming_of_error found]
              exact List.prefix_rfl
          | ok u =>
              have behind : Exhausted next := by rwa [Exhausted, kept]
              rw [advance_last found behind]
              exact List.prefix_rfl

theorem not_stuck_advance (c : Cursor σ) : ¬ Stuck (advance c) := by
  unfold advance
  split
  · exact fun stuck => stuck.1 ⟨_, rfl⟩
  · split
    · exact fun stuck => stuck.1 ⟨_, rfl⟩
    · exact id

theorem not_stuck_giveBack {c next : Cursor σ} {t : Token} (found : advance c = (.ok t, next)) :
    ¬ Stuck (giveBack next) := by
  obtain ⟨back, gave, -⟩ := giveBack_of_advance found
  rw [gave]
  exact id

theorem not_stuck_takeIf (accept : TokenKind → Bool) (c : Cursor σ) : ¬ Stuck (takeIf accept c) := by
  intro stuck
  obtain ⟨t, next, found, stuck⟩ := stuck.behind (not_stuck_advance c)
  split at stuck
  · exact stuck
  · exact not_stuck_giveBack found stuck.before

theorem not_stuck_skipBlanks (c : Cursor σ) : ¬ Stuck (skipBlanks c) := by
  fun_induction skipBlanks c with
  | case1 c fault next found =>
      intro stuck
      exact not_stuck_advance c (by rw [found]; exact stuck)
  | case2 c t next found blank ih => exact ih
  | case3 c t next found visible => exact not_stuck_giveBack found

theorem not_stuck_operator (accept : TokenKind → Bool) (c : Cursor σ) :
    ¬ Stuck (operator accept c) := by
  intro stuck
  obtain ⟨_, next, _, stuck⟩ := stuck.behind (not_stuck_skipBlanks c)
  exact not_stuck_takeIf accept next stuck

theorem taken_stuck {α : Type} {f : Token → Parse σ α} {c : Cursor σ}
    (objects : ∀ t next, Stuck (f t next) → Exhausted next) (stuck : Stuck ((advance >>= f) c)) :
    (upcoming c).dropLast <+: [] := by
  obtain ⟨t, next, found, stuck⟩ := stuck.behind (not_stuck_advance c)
  rw [advance_last found (objects t next stuck)]
  exact List.prefix_rfl

theorem name_stuck {c : Cursor σ} (stuck : Stuck (name c)) : (upcoming c).dropLast <+: [] := by
  refine taken_stuck (fun t next stuck => ?_) stuck
  split at stuck
  · exact stuck.elim
  · exact stuck.2

theorem segment_stuck {c : Cursor σ} (stuck : Stuck (segment c)) :
    ∃ blanks, Blanks blanks ∧ (upcoming c).dropLast <+: blanks := by
  obtain ⟨_, middle, skipped, stuck⟩ := stuck.behind (not_stuck_skipBlanks c)
  obtain ⟨blanks, blank, whole⟩ := exists_blanks (upcoming c)
  rw [← skipBlanks_ok skipped] at whole
  have begins := dropLast_append_prefix blanks (name_stuck stuck)
  rw [← whole, List.append_nil] at begins
  exact ⟨blanks, blank, begins⟩

theorem path_stuck {c : Cursor σ} (stuck : Stuck (path c)) :
    ∃ segments, (upcoming c).dropLast <+: pathTokens segments := by
  -- Segments that are complete stay as they are; the one that lacks its name gets one.
  fun_induction path c with
  | case1 c fault after took =>
      exact absurd (by rw [took]; exact stuck) (not_stuck_takeIf isDot c)
  | case2 c after took => exact stuck.elim
  | case3 c dot after took fault last named =>
      obtain ⟨front, isDot⟩ := takeIf_some took rfl
      obtain ⟨blanks, blank, begins⟩ := segment_stuck (by rw [named]; exact stuck)
      refine ⟨[⟨dot, blanks, anyName, by simpa [Cursor.isDot] using isDot, blank, rfl⟩], ?_⟩
      have whole := dropLast_append_prefix [dot] begins
      rw [front]
      exact whole.trans ⟨[anyName], by simp [pathTokens, Segment.tokens]⟩
  | case4 c dot after took key last named fault final failed ih =>
      obtain ⟨front, isDot⟩ := takeIf_some took rfl
      obtain ⟨blanks, t, blank, isName, -, middle⟩ := segment_ok named
      obtain ⟨segments, begins⟩ := ih (by rw [failed]; exact stuck)
      refine ⟨⟨dot, blanks, t, by simpa [Cursor.isDot] using isDot, blank, isName⟩ :: segments, ?_⟩
      have whole := dropLast_append_prefix (dot :: blanks ++ [t]) begins
      simpa [front, middle, pathTokens, Segment.tokens] using whole
  | case5 c dot after took key last named others final more ih => exact stuck.elim

theorem identifier_stuck {c : Cursor σ} (stuck : Stuck (identifier c)) :
    Grammar.primitive.Begun (upcoming c).dropLast := by
  obtain ⟨first?, after, took, stuck⟩ := stuck.behind (not_stuck_takeIf beginsName c)
  cases first? with
  | none => exact stuck.elim
  | some first =>
      obtain ⟨front, begins⟩ := takeIf_some took rfl
      rw [front]
      by_cases isSign : first.kind = .atSign
      · obtain stuck | ⟨key, named, keyed, stuck⟩ := stuck.bind
        · rw [base, if_pos isSign] at stuck
          have whole := dropLast_append_prefix [first] (name_stuck stuck)
          exact ⟨.external first anyName [] isSign rfl, whole.trans ⟨[anyName], rfl⟩⟩
        · rw [base, if_pos isSign] at keyed
          obtain ⟨t, isName, -, middle⟩ := name_ok keyed
          obtain ⟨segments, begins⟩ := path_stuck stuck.before
          rw [middle]
          exact ⟨.external first t segments isSign isName, dropLast_append_prefix [first, t] begins⟩
      · have isName : first.kind = .identifier := by simpa [beginsName, isSign] using begins
        have plain : base first after = (.ok first.text, after) := by
          rw [base, if_neg isSign]
          rfl
        obtain ⟨key, named, keyed, stuck⟩ := stuck.behind (by rw [plain]; exact id)
        cases plain.symm.trans keyed
        obtain ⟨segments, begins⟩ := path_stuck stuck.before
        exact ⟨.plain first segments isName, dropLast_append_prefix [first] begins⟩

/-- Where the level gets stuck, the rule derives something that begins with all tokens but the last. -/
structure Completes (level : Parse σ (Option Node)) (rule : Rule) : Prop where
  derives : rule.Begun []
  begun : ∀ {c : Cursor σ}, Spelled (upcoming c) → Stuck (level c) → rule.Begun (upcoming c).dropLast

theorem primitive_completes : Completes (primitive : Parse σ (Option Node)) Grammar.primitive where
  derives := ⟨.plain anyName [] rfl, List.nil_prefix⟩
  begun := by
    intro c _ stuck
    obtain stuck | ⟨leaf?, after, named, stuck⟩ := stuck.bind
    · exact identifier_stuck stuck
    · cases leaf? with
      | some leaf => exact stuck.elim
      | none =>
          obtain ⟨t?, _, _, stuck⟩ := stuck.before.behind (not_stuck_takeIf _ after)
          cases t? <;> exact stuck.elim

def Level.Total (level : Level) : Prop :=
  ∀ op : Token, op.kind.Admits op.text.toList → level.accept op.kind = true → level.combine? op ≠ none

variable {level : Level} {operators : Operators} {rule : Rule} {kinds goesOn : List TokenKind}
  {next : Parse σ (Option Node)}

theorem operand_stuck (recognises : Recognises next rule goesOn) (completes : Completes next rule)
    {op : Token} {c : Cursor σ} (spelled : Spelled (upcoming c)) (stuck : Stuck (operand op next c)) :
    ∃ after right, Blanks after ∧ (upcoming c).dropLast <+: after ++ rule.tokens right := by
  obtain ⟨_, middle, skipped, stuck⟩ := stuck.behind (not_stuck_skipBlanks c)
  obtain ⟨after, blank, whole⟩ := exists_blanks (upcoming c)
  rw [← skipBlanks_ok skipped] at whole
  have begun : rule.Begun (upcoming middle).dropLast := by
    obtain stuck | ⟨node?, last, parsed, stuck⟩ := stuck.bind
    · exact completes.begun (spelled.behind after whole) stuck
    · cases node? with
      | some node => exact stuck.elim
      | none =>
          -- The level has given back the token at which the operand is missing.
          rw [← recognises.declined parsed, List.prefix_nil.1 stuck.2.dropLast]
          exact completes.derives
  obtain ⟨right, begins⟩ := begun
  rw [whole]
  exact ⟨after, right, blank, dropLast_append_prefix after begins⟩

theorem operator_meant (means : Means level operators kinds) (total : level.Total) {c opened : Cursor σ}
    {op : Token} (spelled : Spelled (upcoming c))
    (found : operator level.accept c = (.ok (some op), opened)) :
    ∃ combine, level.combine? op = some combine ∧ operators op combine := by
  obtain ⟨before, -, whole, accepted⟩ := operator_some found (means.refuses means.apart)
  have admits : op.kind.Admits op.text.toList := by
    apply spelled
    rw [whole]
    simp
  obtain ⟨combine, meant⟩ := Option.ne_none_iff_exists'.1 (total op admits accepted)
  exact ⟨combine, meant, means.means admits ((means.accepts _).1 accepted) meant⟩

theorem behind_stuck (means : Means level operators kinds) (total : level.Total)
    (recognises : Recognises next rule goesOn) (completes : Completes next rule) {c opened : Cursor σ}
    {op : Token} {skipped : List Token} (blank : Blanks skipped) (spelled : Spelled (upcoming c))
    (found : operator level.accept c = (.ok (some op), opened)) (stuck : Stuck (operand op next opened)) :
    ∃ behind : Behind operators rule, (skipped ++ upcoming c).dropLast <+: behind.tokens := by
  obtain ⟨combine, -, isOperator⟩ := operator_meant means total spelled found
  obtain ⟨before, front, whole, -⟩ := operator_some found (means.refuses means.apart)
  have spelledBehind : Spelled (upcoming opened) :=
    spelled.behind (before ++ [op]) (by simp [whole])
  obtain ⟨after, right, back, begins⟩ := operand_stuck recognises completes spelledBehind stuck
  refine ⟨⟨skipped ++ before, op, after, combine, right, blank.append front, isOperator, back⟩, ?_⟩
  have longer := dropLast_append_prefix (skipped ++ before ++ [op]) begins
  simpa [whole, Behind.tokens] using longer

theorem single_completes (means : Means level operators kinds) (total : level.Total)
    (recognises : Recognises next rule goesOn) (completes : Completes next rule) :
    Completes (single level next) (Grammar.single operators rule) where
  derives := single_begun completes.derives
  begun := by
    intro c spelled stuck
    obtain stuck | ⟨left?, after, parsed, stuck⟩ := stuck.bind
    · exact single_begun (completes.begun spelled stuck)
    · cases left? with
      | none => exact stuck.elim
      | some left =>
          obtain ⟨first, skipped, blank, front, -⟩ := recognises.derived spelled parsed
          have spelledBehind : Spelled (upcoming after) :=
            spelled.behind (rule.tokens first ++ skipped) (by rw [front, List.append_assoc])
          obtain ⟨op?, opened, seen, stuck⟩ := stuck.behind (not_stuck_operator _ after)
          cases op? with
          | none => exact stuck.elim
          | some op =>
              obtain ⟨combine, meant, -⟩ := operator_meant means total spelledBehind seen
              simp only [meant] at stuck
              obtain ⟨behind, begins⟩ :=
                behind_stuck means total recognises completes blank spelledBehind seen stuck.before
              refine ⟨(first, some behind), ?_⟩
              have longer := dropLast_append_prefix (rule.tokens first) begins
              simpa [front, Grammar.single, rowTokens] using longer

theorem sumFrom_stuck {rule : Rule} (recognises : Recognises (product : Parse σ (Option Node)) rule goesOn)
    (completes : Completes (product : Parse σ (Option Node)) rule) {left : Node} {c : Cursor σ}
    {skipped : List Token} (blank : Blanks skipped) (spelled : Spelled (upcoming c))
    (stuck : Stuck (sumFrom left c)) :
    ∃ row : List (Behind SumOperator rule),
      (skipped ++ upcoming c).dropLast <+: row.flatMap Behind.tokens := by
  have total : sums.Total := fun op _ _ => Option.some_ne_none _
  fun_induction sumFrom left c generalizing skipped with
  | case1 left c fault next seen =>
      exact absurd (by rw [seen]; exact stuck) (not_stuck_operator addsUp c)
  | case2 left c next seen => exact stuck.elim
  | case3 left c op opened seen fault rest failed =>
      obtain ⟨behind, begins⟩ := behind_stuck means_sum total recognises completes blank spelled seen
        (by rw [failed]; exact stuck)
      exact ⟨[behind], by simpa using begins⟩
  | case4 left c op opened seen right rest parsed ih =>
      obtain ⟨behind, blanks, blank', spelled', whole, -⟩ :=
        behind_derived means_sum recognises blank spelled seen rfl parsed
      obtain ⟨row, begins⟩ := ih blank' spelled' stuck
      refine ⟨behind :: row, ?_⟩
      rw [whole]
      exact dropLast_append_prefix behind.tokens begins

theorem sum_completes {rule : Rule} (recognises : Recognises (product : Parse σ (Option Node)) rule goesOn)
    (completes : Completes (product : Parse σ (Option Node)) rule) :
    Completes (sum : Parse σ (Option Node)) (chain SumOperator rule) where
  derives := chain_begun completes.derives
  begun := by
    intro c spelled stuck
    obtain stuck | ⟨left?, after, parsed, stuck⟩ := stuck.bind
    · exact chain_begun (completes.begun spelled stuck)
    · cases left? with
      | none => exact stuck.elim
      | some left =>
          obtain ⟨first, skipped, blank, front, -⟩ := recognises.derived spelled parsed
          have spelledBehind : Spelled (upcoming after) :=
            spelled.behind (rule.tokens first ++ skipped) (by rw [front, List.append_assoc])
          obtain ⟨row, begins⟩ := sumFrom_stuck recognises completes blank spelledBehind stuck
          refine ⟨(first, row), ?_⟩
          have longer := dropLast_append_prefix (rule.tokens first) begins
          simpa [front, chain, rowTokens] using longer

theorem total_orderings : orderings.Total := by
  intro op admits accepted
  have kind : op.kind = .comparisonOp := by simpa [orderings] using accepted
  rw [kind] at admits
  show comparison? op ≠ none
  rcases admits with text | text | text | text
  · simp [(comparison_of_characters .lt text).2]
  · simp [(comparison_of_characters .gt text).2]
  · simp [(comparison_of_characters .le text).2]
  · simp [(comparison_of_characters .ge text).2]

theorem total_equalities : equalities.Total := by
  intro op admits accepted
  have kind : op.kind = .equalityOp := by simpa [equalities] using accepted
  rw [kind] at admits
  show comparison? op ≠ none
  rcases admits with text | text
  · simp [(comparison_of_characters .eq text).2]
  · simp [(comparison_of_characters .ne text).2]

theorem disjunction_completes :
    Completes (disjunction : Parse σ (Option Node)) Grammar.disjunction := by
  have powers : Completes (power : Parse σ (Option Node)) Grammar.power :=
    single_completes means_power nofun primitive_recognises primitive_completes
  have products : Completes (product : Parse σ (Option Node)) Grammar.product :=
    single_completes means_product nofun recognises_power powers
  have sums : Completes (sum : Parse σ (Option Node)) Grammar.sum :=
    sum_completes recognises_product products
  have orderings : Completes (ordering : Parse σ (Option Node)) Grammar.ordering :=
    single_completes means_ordering total_orderings recognises_sum sums
  have equalities : Completes (equality : Parse σ (Option Node)) Grammar.equality :=
    single_completes means_equality total_equalities recognises_ordering orderings
  have conjunctions : Completes (conjunction : Parse σ (Option Node)) Grammar.conjunction :=
    single_completes means_conjunction nofun recognises_equality equalities
  exact single_completes means_disjunction nofun recognises_conjunction conjunctions

theorem ending_stuck {c : Cursor σ} (stuck : Stuck (ending c)) : (upcoming c).dropLast <+: [] := by
  refine taken_stuck (fun t next stuck => ?_) stuck
  split at stuck
  · exact stuck.elim
  · exact stuck.2

theorem program_stuck {c : Cursor σ} (spelled : Spelled (upcoming c)) (stuck : Stuck (program c)) :
    Viable (upcoming c).dropLast := by
  obtain ⟨_, begun, skipped, stuck⟩ := stuck.behind (not_stuck_skipBlanks c)
  obtain ⟨before, front, whole⟩ := exists_blanks (upcoming c)
  rw [← skipBlanks_ok skipped] at whole
  have spelledBehind : Spelled (upcoming begun) := spelled.behind before whole
  rw [whole]
  obtain stuck | ⟨expression?, after, parsed, stuck⟩ := stuck.bind
  · obtain ⟨body, begins⟩ := disjunction_completes.begun spelledBehind stuck
    refine ⟨.expression before body [] anyEnd front (List.forall_mem_nil _) rfl, ?_⟩
    have longer := dropLast_append_prefix before begins
    exact longer.trans ⟨[anyEnd], by simp [Program.tokens]⟩
  · cases expression? with
    | none =>
        have longer := dropLast_append_prefix before (ending_stuck stuck.before)
        rw [recognises_disjunction.declined parsed] at longer
        exact ⟨.empty before anyEnd front rfl, longer.trans ⟨[anyEnd], by simp [Program.tokens]⟩⟩
    | some expression =>
        obtain ⟨body, blanks, blank, bodyTokens, -⟩ :=
          recognises_disjunction.derived spelledBehind parsed
        obtain ⟨_, final, skipped', stuck⟩ := stuck.behind (not_stuck_skipBlanks after)
        obtain ⟨blanks', blank', rest⟩ := exists_blanks (upcoming after)
        rw [← skipBlanks_ok skipped'] at rest
        refine ⟨.expression before body (blanks ++ blanks') anyEnd front (blank.append blank') rfl, ?_⟩
        have longer := dropLast_append_prefix
          (before ++ Grammar.disjunction.tokens body ++ (blanks ++ blanks')) (ending_stuck stuck.before)
        rw [bodyTokens, rest]
        refine List.IsPrefix.trans ?_ ⟨[anyEnd], rfl⟩
        simpa using longer

end Cursor

end PredicateLang
