import PredicateLang.Proofs.Syntax.Levels
import PredicateLang.Proofs.Token.Coverage
import PredicateLang.Proofs.Token.Reading

set_option autoImplicit false

namespace PredicateLang

namespace Cursor

open Grammar

variable {σ : Type} [TokenSupply σ]

theorem means_power : Means powers PowerOperator [.pow] where
  accepts := by
    intro kind
    simp [powers]
  reads := by
    rintro op combine ⟨kind⟩
    rfl
  means := by
    intro op combine _ member meant
    cases meant
    exact .pow (List.mem_singleton.1 member)
  apart := by decide

theorem means_product : Means products ProductOperator [.mult, .div] where
  accepts := by
    intro kind
    simp [products]
  reads := by
    rintro op combine (kind | kind) <;> simp [products, kind]
  means := by
    intro op combine _ member meant
    cases meant
    replace member : op.kind = .mult ∨ op.kind = .div := by simpa using member
    rcases member with kind | kind
    · simpa [kind] using ProductOperator.mul kind
    · simpa [kind] using ProductOperator.div kind
  apart := by decide

theorem means_conjunction : Means conjunctions AndOperator [.conjunction] where
  accepts := by
    intro kind
    simp [conjunctions]
  reads := by
    rintro op combine ⟨kind⟩
    rfl
  means := by
    intro op combine _ member meant
    cases meant
    exact .and (List.mem_singleton.1 member)
  apart := by decide

theorem means_disjunction : Means disjunctions OrOperator [.disjunction] where
  accepts := by
    intro kind
    simp [disjunctions]
  reads := by
    rintro op combine ⟨kind⟩
    rfl
  means := by
    intro op combine _ member meant
    cases meant
    exact .or (List.mem_singleton.1 member)
  apart := by decide

theorem ofSymbol?_symbol (comparison : Comparison) :
    Comparison.ofSymbol? comparison.symbol = some comparison := by
  cases comparison <;> decide

theorem comparison_of_symbol {op : Token} (comparison : Comparison)
    (text : op.text = comparison.symbol) :
    comparison? op = some (Node.comparison op.position comparison) := by
  simp [comparison?, text, ofSymbol?_symbol]

theorem comparison_of_characters {op : Token} (comparison : Comparison)
    (text : op.text.toList = comparison.symbol.toList) :
    op.text = comparison.symbol ∧
      comparison? op = some (Node.comparison op.position comparison) := by
  have same := String.toList_injective text
  exact ⟨same, comparison_of_symbol comparison same⟩

theorem means_ordering : Means orderings OrderOperator [.comparisonOp] where
  accepts := by
    intro kind
    simp [orderings]
  reads := by
    rintro op combine (⟨_, text⟩ | ⟨_, text⟩ | ⟨_, text⟩ | ⟨_, text⟩)
    · exact comparison_of_symbol .lt text
    · exact comparison_of_symbol .gt text
    · exact comparison_of_symbol .le text
    · exact comparison_of_symbol .ge text
  means := by
    intro op combine admits member meant
    have kind := List.mem_singleton.1 member
    rw [kind] at admits
    rcases admits with text | text | text | text
    · obtain ⟨same, read⟩ := comparison_of_characters .lt text
      cases meant.symm.trans read
      exact .lt kind same
    · obtain ⟨same, read⟩ := comparison_of_characters .gt text
      cases meant.symm.trans read
      exact .gt kind same
    · obtain ⟨same, read⟩ := comparison_of_characters .le text
      cases meant.symm.trans read
      exact .le kind same
    · obtain ⟨same, read⟩ := comparison_of_characters .ge text
      cases meant.symm.trans read
      exact .ge kind same
  apart := by decide

theorem means_equality : Means equalities EqualityOperator [.equalityOp] where
  accepts := by
    intro kind
    simp [equalities]
  reads := by
    rintro op combine (⟨_, text⟩ | ⟨_, text⟩)
    · exact comparison_of_symbol .eq text
    · exact comparison_of_symbol .ne text
  means := by
    intro op combine admits member meant
    have kind := List.mem_singleton.1 member
    rw [kind] at admits
    rcases admits with text | text
    · obtain ⟨same, read⟩ := comparison_of_characters .eq text
      cases meant.symm.trans read
      exact .eq kind same
    · obtain ⟨same, read⟩ := comparison_of_characters .ne text
      cases meant.symm.trans read
      exact .ne kind same
  apart := by decide

-- Level by level, as in the grammar; what a level could go on with grows by its own operators.

theorem recognises_power :
    Recognises (power : Parse σ (Option Node)) Grammar.power [.pow, .dot] :=
  single_recognises fits_power means_power primitive_begins primitive_recognises

theorem recognises_product :
    Recognises (product : Parse σ (Option Node)) Grammar.product [.mult, .div, .pow, .dot] :=
  single_recognises fits_product means_product power_begins recognises_power

theorem recognises_sum :
    Recognises (sum : Parse σ (Option Node)) Grammar.sum [.add, .sub, .mult, .div, .pow, .dot] :=
  sum_recognises fits_sum product_begins recognises_product

theorem recognises_ordering : Recognises (ordering : Parse σ (Option Node)) Grammar.ordering
    [.comparisonOp, .add, .sub, .mult, .div, .pow, .dot] :=
  single_recognises fits_ordering means_ordering sum_begins recognises_sum

theorem recognises_equality : Recognises (equality : Parse σ (Option Node)) Grammar.equality
    [.equalityOp, .comparisonOp, .add, .sub, .mult, .div, .pow, .dot] :=
  single_recognises fits_equality means_equality ordering_begins recognises_ordering

theorem recognises_conjunction : Recognises (conjunction : Parse σ (Option Node)) Grammar.conjunction
    [.conjunction, .equalityOp, .comparisonOp, .add, .sub, .mult, .div, .pow, .dot] :=
  single_recognises fits_conjunction means_conjunction equality_begins recognises_equality

theorem recognises_disjunction :
    Recognises (disjunction : Parse σ (Option Node)) Grammar.disjunction operatorKinds :=
  single_recognises fits_disjunction means_disjunction conjunction_begins recognises_conjunction

theorem ending_ok {c last : Cursor σ} {done : Unit} (h : ending c = (.ok done, last)) :
    ∃ finish, finish.kind = .eof ∧ upcoming c = [finish] := by
  obtain ⟨t, after, found, h⟩ := bind_ok h
  by_cases ends : t.kind = .eof
  · exact ⟨t, ends, by rw [upcoming_of_ok found, if_pos ends]⟩
  · rw [if_neg ends] at h
    cases h

theorem ending_parses {c : Cursor σ} {finish : Token} (front : upcoming c = [finish])
    (ends : finish.kind = .eof) : ∃ last, ending c = (.ok (), last) := by
  obtain ⟨last, found, -⟩ := advance_of_cons front
  refine ⟨last, ?_⟩
  simp only [ending, bind_apply, found, ends, if_true]
  rfl

theorem program_derived {c last : Cursor σ} {tree : Node} (spelled : Spelled (upcoming c))
    (h : program c = (.ok tree, last)) :
    ∃ derivation : Grammar.Program, derivation.tokens = upcoming c ∧ derivation.tree = tree := by
  obtain ⟨_, begun, skipped, h⟩ := bind_ok h
  obtain ⟨expression?, after, parsed, h⟩ := bind_ok h
  obtain ⟨before, front, whole⟩ := exists_blanks (upcoming c)
  rw [← skipBlanks_ok skipped] at whole
  cases expression? with
  | none =>
      obtain ⟨_, last, ended, h⟩ := bind_ok h
      cases h
      obtain ⟨finish, ends, rest⟩ := ending_ok ended
      refine ⟨.empty before finish front ends, ?_, rfl⟩
      rw [whole, ← recognises_disjunction.declined parsed, rest]
      rfl
  | some expression =>
      obtain ⟨_, final, skipped', h⟩ := bind_ok h
      obtain ⟨_, last, ended, h⟩ := bind_ok h
      cases h
      obtain ⟨finish, ends, rest⟩ := ending_ok ended
      obtain ⟨body, blanks, blank, bodyTokens, rfl⟩ :=
        recognises_disjunction.derived (spelled.behind before whole) parsed
      obtain ⟨blanks', blank', whole'⟩ := exists_blanks (upcoming after)
      rw [← skipBlanks_ok skipped', rest] at whole'
      refine ⟨.expression before body (blanks ++ blanks') finish front (blank.append blank') ends,
        ?_, rfl⟩
      rw [whole, bodyTokens, whole']
      simp [Grammar.Program.tokens]

theorem expression_parses {c : Cursor σ} {before behind rest : List Token} {t : Token}
    {body : Grammar.disjunction.Derivation}
    (front : upcoming c = before ++ (Grammar.disjunction.tokens body ++ behind)) (blank : Blanks before)
    (first : strip behind = t :: rest) (other : t.kind ∉ operatorKinds) :
    ∃ final, upcoming final = t :: rest ∧ program c =
      (ending >>= fun _ => pure (.program Position.start [Grammar.disjunction.tree body]) : Parse σ Node)
        final := by
  obtain ⟨u, others, bodyFront, visible⟩ := disjunction_begins body
  have stripped : strip (upcoming c) = u :: (others ++ behind) := by
    rw [front, strip_blanks_append blank, bodyFront, List.cons_append, strip_cons visible]
  obtain ⟨begun, skipped, there⟩ := skipBlanks_finds stripped
  have bodyThere : upcoming begun = Grammar.disjunction.tokens body ++ behind := by
    rw [there, bodyFront, List.cons_append]
  obtain ⟨parsed, found, rests⟩ := recognises_disjunction.parses bodyThere ⟨t, rest, first, other⟩
  obtain ⟨final, skipped', left⟩ := skipBlanks_finds (rests.trans first)
  refine ⟨final, left, ?_⟩
  simp only [program, bind_apply, skipped, found, skipped']

theorem program_parses {c : Cursor σ} {derivation : Grammar.Program}
    (front : upcoming c = derivation.tokens) :
    ∃ last, program c = (.ok derivation.tree, last) := by
  cases derivation with
  | empty blanks finish blank ends =>
      have stripped : strip (upcoming c) = [finish] := by
        rw [front, Program.tokens, strip_blanks_append blank, strip_cons (by simp [ends])]
      obtain ⟨begun, skipped, there⟩ := skipBlanks_finds stripped
      obtain ⟨after, declined, same⟩ := recognises_disjunction.declines there ends
      obtain ⟨last, ended⟩ := ending_parses (same.trans there) ends
      refine ⟨last, ?_⟩
      simp only [program, bind_apply, skipped, declined, ended]
      rfl
  | expression before body after finish blank back ends =>
      have stripped : strip (after ++ [finish]) = [finish] := by
        rw [strip_blanks_append back, strip_cons (by simp [ends])]
      have whole : upcoming c = before ++ (Grammar.disjunction.tokens body ++ (after ++ [finish])) := by
        rw [front, Program.tokens, List.append_assoc, List.append_assoc]
      obtain ⟨final, left, same⟩ :=
        expression_parses whole blank stripped (by simp [ends, operatorKinds])
      obtain ⟨last, ended⟩ := ending_parses left ends
      refine ⟨last, ?_⟩
      rw [same, bind_apply, ended]
      rfl

theorem advance_of_pull {s supply : σ} {t : Token} (last : Option Token)
    (pulled : TokenSupply.pull s = (.ok t, supply)) (legal : t.kind ≠ .illegal) :
    advance ⟨s, last, none⟩ = (.ok t, ⟨supply, some t, none⟩) := by
  simp [advance, pull, pulled, legal]

theorem upcoming_of_illegal {s supply : σ} {t : Token} (last : Option Token)
    (pulled : TokenSupply.pull s = (.ok t, supply)) (illegal : t.kind = .illegal) :
    upcoming ⟨s, last, none⟩ = [] :=
  upcoming_of_error (by simp only [advance, pull, pulled, illegal, if_true]; rfl)

theorem upcoming_of_fault {s supply : σ} {fault : LexFault} (last : Option Token)
    (pulled : TokenSupply.pull s = (.error fault, supply)) : upcoming ⟨s, last, none⟩ = [] :=
  upcoming_of_error (by simp only [advance, pull, pulled]; rfl)

theorem upcoming_of_allTokens {s : σ} {tokens : List Token} (last : Option Token)
    (h : allTokens s = .ok tokens) (legal : ∀ t ∈ tokens, t.kind ≠ .illegal) :
    upcoming ⟨s, last, none⟩ = tokens := by
  fun_induction allTokens s generalizing tokens last with
  | case1 s fault supply pulled => cases h
  | case2 s t supply pulled ends =>
      cases h
      rw [upcoming_of_ok (advance_of_pull last pulled (by simp [ends])), if_pos ends]
  | case3 s t supply pulled more ih =>
      cases others : allTokens supply with
      | error fault =>
          rw [others] at h
          cases h
      | ok rest =>
          rw [others] at h
          cases h
          have first := legal t List.mem_cons_self
          rw [upcoming_of_ok (advance_of_pull last pulled first), if_neg more,
            ih (some t) others fun u present => legal u (List.mem_cons_of_mem t present)]

theorem allTokens_of_upcoming {s : σ} {front : List Token} {finish : Token} (last : Option Token)
    (h : upcoming ⟨s, last, none⟩ = front ++ [finish]) (ends : finish.kind = .eof) :
    allTokens s = .ok (front ++ [finish]) ∧ ∀ t ∈ front ++ [finish], t.kind ≠ .illegal := by
  fun_induction allTokens s generalizing front last with
  | case1 s fault supply pulled =>
      rw [upcoming_of_fault last pulled] at h
      simp at h
  | case2 s t supply pulled final =>
      rw [upcoming_of_ok (advance_of_pull last pulled (by simp [final])), if_pos final] at h
      rw [← h]
      exact ⟨rfl, by simp [final]⟩
  | case3 s t supply pulled more ih =>
      by_cases legal : t.kind = .illegal
      · rw [upcoming_of_illegal last pulled legal] at h
        simp at h
      · rw [upcoming_of_ok (advance_of_pull last pulled legal), if_neg more] at h
        cases front with
        | nil =>
            obtain ⟨rfl, -⟩ := List.cons.inj h
            exact absurd ends more
        | cons u front =>
            obtain ⟨rfl, rest⟩ := List.cons.inj h
            obtain ⟨others, fine⟩ := ih (some t) rest
            rw [others]
            exact ⟨rfl, by simpa [legal] using fine⟩

theorem tokens_end (derivation : Grammar.Program) :
    ∃ front finish, derivation.tokens = front ++ [finish] ∧ finish.kind = .eof := by
  cases derivation with
  | empty blanks finish blank ends => exact ⟨blanks, finish, rfl, ends⟩
  | expression before body after finish front back ends => exact ⟨_, finish, rfl, ends⟩

theorem admits_text {t : Token} {word : List Char} (spells : t.Spells word)
    (admits : t.kind.Admits word) : t.kind.Admits t.text.toList := by
  unfold Token.Spells at spells
  cases kind : t.kind <;> simp_all [TokenKind.Admits]

theorem spelled_scanner {s : Scanner} (drained : s.Drained) (last : Option Token) :
    Spelled (upcoming ⟨s, last, none⟩) := by
  fun_induction allTokens s generalizing last with
  | case1 s fault supply pulled =>
      rw [upcoming_of_fault last pulled]
      exact List.forall_mem_nil _
  | case2 s t supply pulled final =>
      rw [upcoming_of_ok (advance_of_pull last pulled (by simp [final])), if_pos final]
      simp [Spelled, final, TokenKind.Admits]
  | case3 s t supply pulled more ih =>
      have found : s.next = (.ok t, supply) := pulled
      have still := (Scanner.next_covers drained).1.drained
      obtain ⟨-, text, admits, -⟩ := Scanner.next_token drained (congrArg Prod.fst found)
      rw [found] at still
      by_cases legal : t.kind = .illegal
      · rw [upcoming_of_illegal last pulled legal]
        exact List.forall_mem_nil _
      · rw [upcoming_of_ok (advance_of_pull last pulled legal), if_neg more]
        intro u present
        rcases List.mem_cons.1 present with rfl | later
        · exact admits_text text admits
        · exact ih still (some t) u later

end Cursor

theorem parse_of_tokens {σ : Type} [TokenSupply σ] {s : σ} {tokens : List Token}
    {derivation : Grammar.Program} (tokenized : allTokens s = .ok tokens)
    (legal : ∀ t ∈ tokens, t.kind ≠ .illegal) (derives : derivation.tokens = tokens) :
    parse s = .ok derivation.tree := by
  have front : Cursor.upcoming (Cursor.ofSupply s) = derivation.tokens :=
    (Cursor.upcoming_of_allTokens none tokenized legal).trans derives.symm
  obtain ⟨last, parsed⟩ := Cursor.program_parses front
  rw [parse, parsed]

theorem parse_blanks (keywordBoundary : Bool) {source : String}
    (blank : ∀ c ∈ source.toList, isBlank c = true) :
    parse (Scanner.ofString keywordBoundary source) = .ok .emptyProgram := by
  obtain ⟨blanks, finish, tokenized, blankTokens, ends⟩ :=
    Scanner.allTokens_of_blanks (Scanner.reads_ofString keywordBoundary source) blank
  have derives : (Grammar.Program.empty blanks finish blankTokens ends).tokens = blanks ++ [finish] :=
    rfl
  refine parse_of_tokens tokenized ?_ derives
  intro t present
  rcases List.mem_append.1 present with there | there
  · simp [blankTokens t there]
  · simp [List.mem_singleton.1 there, ends]

open Grammar in
/-- The parser accepts what the grammar derives and nothing else, with the tree of the derivation, and no tokens
have two derivations. A text of blanks has the empty program. -/
theorem parse_ok_iff_derived (keywordBoundary : Bool) (feed : Feed) :
    (∀ tree : Node, parse (Scanner.ofFeed keywordBoundary feed) = .ok tree ↔
      ∃ tokens, tokenize keywordBoundary feed = .ok tokens ∧ (∀ t ∈ tokens, t.kind ≠ .illegal) ∧
        ∃ derivation : Program, derivation.tokens = tokens ∧ derivation.tree = tree) ∧
    (∀ one other : Program, one.tokens = other.tokens → one = other) ∧
    ∀ source : String, (∀ c ∈ source.toList, isBlank c = true) →
      parse (Scanner.ofString keywordBoundary source) = .ok .emptyProgram := by
  refine ⟨fun tree => ⟨fun accepted => ?_, ?_⟩, fun one other => program_unambiguous,
    fun source => parse_blanks keywordBoundary⟩
  · have spelled := Cursor.spelled_scanner (Scanner.drained_ofFeed keywordBoundary feed) none
    cases parsed : Cursor.program (Cursor.ofSupply (Scanner.ofFeed keywordBoundary feed)) with
    | mk result last =>
        rw [parse, parsed] at accepted
        replace accepted : result = .ok tree := accepted
        subst accepted
        obtain ⟨derivation, derives, same⟩ := Cursor.program_derived spelled parsed
        obtain ⟨front, finish, whole, ends⟩ := Cursor.tokens_end derivation
        obtain ⟨tokenized, legal⟩ :=
          Cursor.allTokens_of_upcoming none (derives.symm.trans whole) ends
        exact ⟨front ++ [finish], tokenized, legal, derivation, whole, same⟩
  · rintro ⟨tokens, tokenized, legal, derivation, derives, rfl⟩
    exact parse_of_tokens tokenized legal derives

end PredicateLang
