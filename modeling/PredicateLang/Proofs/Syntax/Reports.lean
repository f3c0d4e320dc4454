import PredicateLang.Proofs.Syntax.Faults
import PredicateLang.Proofs.Syntax.Prefixes
import PredicateLang.Proofs.Syntax.Shapes

set_option autoImplicit false

/-!
# Faults are reported at the earliest token

The token that a fault of syntax is laid to is the first one with which the tokens are not the beginning of a
program any more. That they still are one in front of it was seen where the parser gets stuck. That they are
none with it comes from what the parser asks for: it has not looked behind this token, so it would stop here
in every program that began with the same tokens.
-/

namespace PredicateLang

structure Excerpt where
  tokens : List Token

namespace Excerpt

def pull (s : Excerpt) : Except LexFault Token × Excerpt :=
  match s.tokens with
  | [] => (.error ⟨.start, .stream "broken off"⟩, s)
  | t :: rest => (.ok t, ⟨rest⟩)

instance : TokenSupply Excerpt where
  pull := pull
  left s := s.tokens.length
  left_pull s := by
    unfold pull
    split
    · exact ⟨Nat.le_refl _, nofun⟩
    · rename_i t rest held
      simp [held]

theorem gives (front rest : List Token) :
    TokenSupply.Gives (⟨front ++ rest⟩ : Excerpt) (front.map .ok) ⟨rest⟩ := by
  induction front with
  | nil => exact .nothing
  | cons t front ih => exact .more rfl ih

theorem upcoming_end (last : Option Token) : Cursor.upcoming ⟨(⟨[]⟩ : Excerpt), last, none⟩ = [] :=
  Cursor.upcoming_of_fault last rfl

theorem upcoming_excerpt {front : List Token} {t : Token} (passed : Passed front)
    (legal : t.kind ≠ .illegal) (last : Option Token) :
    Cursor.upcoming ⟨(⟨front ++ [t]⟩ : Excerpt), last, none⟩ = front ++ [t] := by
  induction front generalizing last with
  | nil =>
      rw [List.nil_append, Cursor.upcoming_of_ok (Cursor.advance_of_pull last rfl legal), upcoming_end]
      split <;> rfl
  | cons u front ih =>
      obtain ⟨more, legal⟩ := passed u List.mem_cons_self
      rw [List.cons_append, Cursor.upcoming_of_ok (Cursor.advance_of_pull last rfl legal), if_neg more,
        ih fun v present => passed v (List.mem_cons_of_mem u present)]

end Excerpt

namespace Grammar

theorem Blanks.passed {blanks : List Token} (blank : Blanks blanks) : Passed blanks := by
  intro t present
  simp [blank t present]

def Rule.Passes (rule : Rule) : Prop := ∀ derivation, Passed (rule.tokens derivation)

theorem passed_path (path : List Segment) : Passed (pathTokens path) := by
  intro t present
  obtain ⟨segment, -, part⟩ := List.mem_flatMap.1 present
  simp only [Segment.tokens, List.cons_append, List.mem_cons, List.mem_append, List.not_mem_nil,
    or_false] at part
  obtain rfl | blank | rfl := part
  · simp [segment.isDot]
  · exact segment.blank.passed t blank
  · simp [segment.isName]

theorem passes_primitive : primitive.Passes := by
  intro leaf
  have alone {t : Token} (more : t.kind ≠ .eof) (legal : t.kind ≠ .illegal) : Passed [t] :=
    List.forall_mem_singleton.2 ⟨more, legal⟩
  cases leaf with
  | plain base path isName => exact (alone (by simp [isName]) (by simp [isName])).append (passed_path path)
  | external sign base path isSign isName =>
      have signed : Passed [sign] := alone (by simp [isSign]) (by simp [isSign])
      have based : Passed [base] := alone (by simp [isName]) (by simp [isName])
      exact signed.append (based.append (passed_path path))
  | string t isString => exact alone (by simp [isString]) (by simp [isString])
  | number t isNumber => exact alone (by simp [isNumber]) (by simp [isNumber])
  | boolean t isBool => exact alone (by simp [isBool]) (by simp [isBool])

section

variable {operators : Operators} {next : Rule} {kinds goesOn : List TokenKind}
  (fits : Fits operators kinds goesOn) (plain : ∀ kind ∈ kinds, kind ≠ .eof ∧ kind ≠ .illegal)
  (passes : next.Passes)

include fits plain passes

theorem passed_row (first : next.Derivation) (row : List (Behind operators next)) :
    Passed (rowTokens first row) := by
  refine (passes first).append fun t present => ?_
  obtain ⟨behind, -, part⟩ := List.mem_flatMap.1 present
  simp only [Behind.tokens, List.mem_append, List.mem_cons] at part
  obtain blank | rfl | blank | operand := part
  · exact behind.front.passed t blank
  · exact plain _ (fits.belongs behind.isOperator)
  · exact behind.back.passed t blank
  · exact passes behind.right t operand

theorem passes_single : (single operators next).Passes :=
  fun derivation => passed_row fits plain passes derivation.1 derivation.2.toList

theorem passes_chain : (chain operators next).Passes :=
  fun derivation => passed_row fits plain passes derivation.1 derivation.2

end

theorem passes_disjunction : disjunction.Passes := by
  have powers : power.Passes := passes_single fits_power (by decide) passes_primitive
  have products : product.Passes := passes_single fits_product (by decide) powers
  have sums : sum.Passes := passes_chain fits_sum (by decide) products
  have orderings : ordering.Passes := passes_single fits_ordering (by decide) sums
  have equalities : equality.Passes := passes_single fits_equality (by decide) orderings
  have conjunctions : conjunction.Passes := passes_single fits_conjunction (by decide) equalities
  exact passes_single fits_disjunction (by decide) conjunctions

theorem Program.passed (program : Program) :
    ∃ front finish, program.tokens = front ++ [finish] ∧ Passed front ∧ finish.kind = .eof := by
  cases program with
  | empty blanks finish blank ends => exact ⟨blanks, finish, rfl, blank.passed, ends⟩
  | expression before body after finish front back ends =>
      exact ⟨_, finish, rfl, (front.passed.append (passes_disjunction body)).append back.passed, ends⟩

end Grammar

theorem parse_excerpt (program : Grammar.Program) :
    parse (⟨program.tokens⟩ : Excerpt) = .ok program.tree := by
  obtain ⟨front, finish, whole, passed, ends⟩ := program.passed
  have there : Cursor.upcoming (Cursor.ofSupply (⟨program.tokens⟩ : Excerpt)) = program.tokens := by
    rw [whole]
    exact Excerpt.upcoming_excerpt passed (by simp [ends]) none
  obtain ⟨last, parsed⟩ := Cursor.program_parses there
  rw [parse, parsed]

variable {σ τ : Type} [TokenSupply σ] [TokenSupply τ]

theorem Recorded.pulled_of_gives {r rest : Recorded σ} {given : List (Except LexFault Token)}
    (gives : TokenSupply.Gives r given rest) : rest.pulled = r.pulled ++ given := by
  induction gives with
  | nothing => exact (List.append_nil _).symm
  | @more r next rest result given pulled _ ih =>
      cases found : TokenSupply.pull r.supply with
      | mk result' supply =>
          have written := Recorded.pull_of_pull found r.pulled
          cases written.symm.trans pulled
          rw [ih, List.append_assoc]
          rfl

theorem program_of_pulls {s : σ} {supply rest : τ} (gives : TokenSupply.Gives supply (pulls s) rest) :
    ∃ next, Cursor.program (Cursor.ofSupply supply) = (parse s, next) ∧ next.supply = rest := by
  have settled : Cursor.Settled (Cursor.program : Cursor.Parse (Recorded σ) Node)
      (Cursor.program : Cursor.Parse τ Node) := Cursor.settled_program
  obtain ⟨given, asked, again⟩ := settled (Cursor.ofSupply (Recorded.start s))
  have same : pulls s = given := Recorded.pulled_of_gives asked
  rw [← parse_start]
  exact ⟨_, again supply rest (same ▸ gives), rfl⟩

variable {s : σ} {front : List Token} {t : Token} {fault : ParseFault}

theorem viable_before_fault (failed : parse s = .error fault) (syntactic : ¬ fault.Lexical)
    (pulled : pulls s = (front ++ [t]).map .ok) (passed : Passed front) (legal : t.kind ≠ .illegal)
    (spelled : Cursor.Spelled (front ++ [t])) : Grammar.Viable front := by
  -- The run is repeated over nothing but the tokens that it has asked for.
  have gives := Excerpt.gives (front ++ [t]) []
  rw [List.append_nil, ← pulled] at gives
  obtain ⟨next, again, spent⟩ := program_of_pulls gives
  rw [failed] at again
  have there := Excerpt.upcoming_excerpt passed legal none
  have stuck : Cursor.Stuck (Cursor.program (Cursor.ofSupply (⟨front ++ [t]⟩ : Excerpt))) := by
    rw [again]
    refine ⟨syntactic, ?_⟩
    rw [Cursor.Exhausted, spent]
    exact Excerpt.upcoming_end none
  have viable := Cursor.program_stuck (by rw [Cursor.ofSupply, there]; exact spelled) stuck
  rwa [Cursor.ofSupply, there, List.dropLast_concat] at viable

theorem not_viable_at_fault (failed : parse s = .error fault) (pulled : pulls s = front.map .ok) :
    ¬ Grammar.Viable front := by
  rintro ⟨program, rest, whole⟩
  have gives := Excerpt.gives front rest
  rw [whole, ← pulled] at gives
  obtain ⟨next, again, -⟩ := program_of_pulls gives
  have accepted := parse_excerpt program
  rw [parse, again, failed] at accepted
  cases accepted

/-- The fault speaks of this token, and these are in front of it: it is unexpected, or it is the one that
stands where the operand of the operator should. -/
inductive ParseFault.Offends : List Token → Token → ParseFault → Prop
  | unexpected {before : List Token} {t : Token} : Offends before t (.unexpectedToken t)
  | missing {front blanks : List Token} {op t : Token} (blank : Grammar.Blanks blanks)
      (visible : t.kind ≠ .whitespace) : Offends (front ++ [op] ++ blanks) t (.missingOperand op)

theorem ParseFault.ArisesAt.offends {pulled : List (Except LexFault Token)} {tokens : List Token}
    (arises : fault.ArisesAt pulled) (begins : pulled <+: tokens.map .ok)
    (legal : ∀ t ∈ tokens, t.kind ≠ .illegal) :
    ¬ fault.Lexical ∧ ∃ before t, before ++ [t] <+: tokens ∧ fault.Offends before t ∧
      pulled = (before ++ [t]).map .ok ∧ Passed before ∧ t.kind ≠ .illegal := by
  have syntactic : ¬ fault.Lexical := by
    rintro ⟨cause, rfl⟩
    obtain ⟨t, first, illegal, -⟩ := arises.firstIllegal begins
    exact legal t (List.mem_of_find?_eq_some first) illegal
  refine ⟨syntactic, ?_⟩
  cases arises with
  | @unexpected front t passed legal =>
      exact ⟨front, t, prefix_of_pulled begins, .unexpected, rfl, passed, legal⟩
  | @missing front blanks op t passed blank visible legal =>
      exact ⟨front ++ [op] ++ blanks, t, prefix_of_pulled begins, .missing blank visible, rfl,
        passed.append blank.passed, legal⟩
  | illegal passed illegal => exact absurd ⟨_, rfl⟩ syntactic
  | lexical passed => exact absurd ⟨_, rfl⟩ syntactic

theorem parse_of_leftover {before behind rest : List Token} {body : Grammar.disjunction.Derivation}
    (tokenized : allTokens s = .ok (before ++ (Grammar.disjunction.tokens body ++ behind)))
    (legal : ∀ u ∈ before ++ (Grammar.disjunction.tokens body ++ behind), u.kind ≠ .illegal)
    (blank : Grammar.Blanks before) (first : Grammar.strip behind = t :: rest)
    (other : t.kind ∉ Grammar.operatorKinds) (more : t.kind ≠ .eof) :
    parse s = .error (.unexpectedToken t) := by
  obtain ⟨final, left, same⟩ :=
    Cursor.expression_parses (Cursor.upcoming_of_allTokens none tokenized legal) blank first other
  obtain ⟨last, found, -⟩ := Cursor.advance_of_cons left
  rw [parse, Cursor.ofSupply, same]
  simp only [Cursor.ending, Cursor.bind_apply, found, if_neg more]
  rfl

open Grammar in
/-- Where the tokens of a stream have no fault of their own, a fault of syntax is laid to the first of them
that cannot stand where it does: what is in front of it can be completed to a program, and nothing that goes
on with it can. Its position, as well as that of an operator without its operand, is that of no other token
as long as the index can count the stream. -/
theorem fault_at_first_unviable (keywordBoundary : Bool) (feed : Feed) {tokens : List Token}
    {fault : ParseFault} (tokenized : tokenize keywordBoundary feed = .ok tokens)
    (legal : ∀ t ∈ tokens, t.kind ≠ .illegal)
    (failed : parse (Scanner.ofFeed keywordBoundary feed) = .error fault) :
    (∃ before t after, tokens = before ++ t :: after ∧ fault.Offends before t ∧
      Viable before ∧ ¬ Viable (before ++ [t])) ∧
    (feed.runes.length < UInt32.size → (tokens.map Token.position).Nodup) := by
  have drained := Scanner.drained_ofFeed keywordBoundary feed
  have whole := delivered_of_tokens tokenized
  refine ⟨?_, fun short => ?_⟩
  · obtain ⟨arises, begins⟩ := pulls_of_error failed
    rw [whole] at begins
    obtain ⟨syntactic, before, t, front, offends, pulled, passed, legal'⟩ := arises.offends begins legal
    have spelled := Cursor.spelled_scanner drained none
    rw [Cursor.upcoming_of_allTokens none tokenized legal] at spelled
    refine ⟨before, t, ?_⟩
    obtain ⟨after, rfl⟩ := front
    refine ⟨after, by simp, offends, ?_, not_viable_at_fault failed pulled⟩
    exact viable_before_fault failed syntactic pulled passed legal'
      fun u present => spelled u (List.mem_append_left after present)
  · have countable : (Scanner.ofFeed keywordBoundary feed).Countable := by
      show 0 + feed.runes.length < UInt32.size
      rwa [Nat.zero_add]
    have ascends := (Scanner.delivered_ascends drained countable).1
    rw [whole, List.pairwise_map] at ascends
    refine List.pairwise_map.2 (ascends.imp fun earlier same => ?_)
    simp [Scanner.deliveredAt, same] at earlier

-- The tokens of `a b`, and the derivation of the first name.
def twoNames : List Token :=
  [⟨.identifier, ⟨1, 0, 0⟩, "a"⟩, .space 1, ⟨.identifier, ⟨1, 2, 2⟩, "b"⟩, ⟨.eof, ⟨1, 3, 3⟩, ""⟩]

def firstName : Grammar.disjunction.Derivation :=
  let leaf : Grammar.Leaf := .plain ⟨.identifier, ⟨1, 0, 0⟩, "a"⟩ [] rfl
  (((((((leaf, none), none), []), none), none), none), none)

theorem second_name_unexpected :
    let feed := Feed.ofString "a b"
    let fault := ParseFault.unexpectedToken ⟨.identifier, ⟨1, 2, 2⟩, "b"⟩
    tokenize true feed = .ok twoNames ∧ (∀ t ∈ twoNames, t.kind ≠ .illegal) ∧
      parse (Scanner.ofFeed true feed) = .error fault ∧
      (∃ before t after, twoNames = before ++ t :: after ∧ fault.Offends before t ∧
        Grammar.Viable before ∧ ¬ Grammar.Viable (before ++ [t])) ∧
      (twoNames.map Token.position).Nodup := by
  intro feed fault
  have short : feed.runes.length < UInt32.size := by
    rw [Feed.runes_ofString]
    decide
  have found : Rules.tokens? true 5 (.ofString "a b") = some twoNames := by decide +kernel
  have tokenized : tokenize true feed = .ok twoNames :=
    Scanner.allTokens_of_rules (Scanner.stands_ofString true "a b") found
  have legal : ∀ t ∈ twoNames, t.kind ≠ .illegal := by decide
  have whole : twoNames =
      [] ++ (Grammar.disjunction.tokens firstName ++ (.space 1 :: twoNames.drop 2)) := rfl
  have failed : parse (Scanner.ofFeed true feed) = .error fault :=
    parse_of_leftover (by rw [← whole]; exact tokenized) (by rw [← whole]; exact legal)
      (List.forall_mem_nil _) rfl (by decide) (by decide)
  obtain ⟨offends, distinct⟩ := fault_at_first_unviable true feed tokenized legal failed
  exact ⟨tokenized, legal, failed, offends, distinct short⟩

end PredicateLang
