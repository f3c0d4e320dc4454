import PredicateLang.Proofs.Syntax.Pulls
import PredicateLang.Proofs.Token.Places

set_option autoImplicit false

namespace PredicateLang

/-- The token that a fault speaks of. A fault that ends the tokens speaks of none. -/
def ParseFault.LaidTo (t : Token) : ParseFault → Prop
  | .unexpectedToken found => found = t
  | .missingOperand operator => operator = t
  | .lexical fault => t.kind = .illegal ∧
      fault = ⟨t.position, .illegalCharacter (Cursor.illegalCharacter t)⟩
  | .misuse _ => False

variable {fault : ParseFault} {pulled : List (Except LexFault Token)} {tokens : List Token}

theorem ParseFault.ArisesAt.laidTo {ending : LexFault} (arises : fault.ArisesAt pulled)
    (begins : pulled <+: tokens.map .ok ++ [.error ending]) :
    fault = .lexical ending ∨ ∃ t ∈ tokens, fault.LaidTo t := by
  have among {t : Token} (present : .ok t ∈ pulled) : t ∈ tokens := by
    simpa using begins.subset present
  cases arises with
  | unexpected passed legal => exact .inr ⟨_, among (by simp), rfl⟩
  | missing passed blank visible legal => exact .inr ⟨_, among (by simp), rfl⟩
  | illegal passed illegal => exact .inr ⟨_, among (by simp), illegal, rfl⟩
  | @lexical front fault passed =>
      have last : (.error fault : Except LexFault Token) ∈ tokens.map .ok ++ [.error ending] :=
        begins.subset (by simp)
      exact .inl (by simpa using last)

theorem prefix_of_pulled {front tokens : List Token}
    (begins : front.map (Except.ok : Token → Except LexFault Token) <+: tokens.map .ok) :
    front <+: tokens := by
  obtain ⟨rest, whole⟩ := begins
  obtain ⟨one, behind, rfl, same, -⟩ := List.map_eq_append_iff.1 whole.symm
  obtain rfl : one = front := List.map_injective_iff.2 (fun _ _ same => Except.ok.inj same) same
  exact List.prefix_append one behind

theorem ParseFault.ArisesAt.firstIllegal {fault : LexFault}
    (arises : (ParseFault.lexical fault).ArisesAt pulled) (begins : pulled <+: tokens.map .ok) :
    ∃ t, tokens.find? (·.kind = .illegal) = some t ∧ (ParseFault.lexical fault).LaidTo t := by
  cases arises with
  | @illegal front t passed illegal =>
      obtain ⟨rest, rfl⟩ := prefix_of_pulled begins
      have legal : ∀ u ∈ front, ¬ decide (u.kind = .illegal) = true := by
        intro u present
        simpa using (passed u present).2
      refine ⟨t, ?_, illegal, rfl⟩
      rw [List.append_assoc, List.find?_append, List.find?_eq_none.2 legal]
      simp [illegal]
  | @lexical front fault passed =>
      have last : (.error fault : Except LexFault Token) ∈ tokens.map .ok :=
        begins.subset (by simp)
      simp at last

/-- Over every stream that the index can count, the parser asks for the tokens in their order, each of them
once, and for none behind the one at which it stops. It reports the fault that ends the tokens, or a fault
laid to a token in front of that one; where the tokens end without a fault, it reports a lexical one only
for the first character that begins no token. -/
theorem faults_of_tokens_and_syntax (keywordBoundary : Bool) (feed : Feed)
    (short : feed.runes.length < UInt32.size) :
    let s := Scanner.ofFeed keywordBoundary feed
    parse (Recorded.start s) = parse s ∧ pulls s <+: delivered s ∧
    (∀ tree, parse s = .ok tree → pulls s = delivered s) ∧
    (∀ fault, parse s = .error fault → fault.ArisesAt (pulls s)) ∧
    (∀ ending, tokenize keywordBoundary feed = .error ending →
      ∃ tokens : List Token, delivered s = tokens.map .ok ++ [.error ending] ∧
        (parse s = .error (.lexical ending) ∨ ∃ fault, parse s = .error fault ∧
          ∃ t ∈ tokens, fault.LaidTo t ∧ t.position.index < ending.position.index)) ∧
    ∀ tokens, tokenize keywordBoundary feed = .ok tokens →
      delivered s = tokens.map .ok ∧
        ∀ fault, parse s = .error (.lexical fault) →
          ∃ t c, tokens.find? (·.kind = .illegal) = some t ∧ t.text = String.singleton c ∧
            fault = ⟨t.position, .illegalCharacter c⟩ := by
  intro s
  have drained : s.Drained := Scanner.drained_ofFeed keywordBoundary feed
  have countable : s.Countable := by
    show 0 + feed.runes.length < UInt32.size
    rwa [Nat.zero_add]
  refine ⟨parse_start s, ?_, fun tree parsed => (pulls_of_ok parsed).1,
    fun fault failed => (pulls_of_error failed).1, fun ending stopped => ?_, fun tokens done => ?_⟩
  · cases parsed : parse s with
    | ok tree => exact (pulls_of_ok parsed).1 ▸ List.prefix_rfl
    | error fault => exact (pulls_of_error parsed).2
  · obtain ⟨tokens, whole⟩ := delivered_of_error stopped
    refine ⟨tokens, whole, ?_⟩
    cases parsed : parse s with
    | ok tree =>
        -- What a tree is made of ends with the end of input, and not with a fault.
        obtain ⟨-, front, finish, -, -, same⟩ := pulls_of_ok parsed
        have last := congrArg List.getLast? (whole.symm.trans same)
        simp at last
    | error fault =>
        obtain ⟨arises, begins⟩ := pulls_of_error parsed
        rw [whole] at begins
        obtain same | ⟨t, present, laid⟩ := arises.laidTo begins
        · exact .inl (congrArg Except.error same)
        · have ascends := (Scanner.delivered_ascends drained countable).1
          rw [whole, List.pairwise_append] at ascends
          have before := ascends.2.2 (.ok t) (List.mem_map_of_mem present) (.error ending)
            List.mem_cons_self
          exact .inr ⟨fault, rfl, t, present, laid, before⟩
  · have whole := delivered_of_tokens done
    refine ⟨whole, fun fault failed => ?_⟩
    obtain ⟨arises, begins⟩ := pulls_of_error failed
    rw [whole] at begins
    obtain ⟨t, first, illegal, rfl⟩ := arises.firstIllegal begins
    have present : .ok t ∈ delivered s := by
      rw [whole]
      exact List.mem_map_of_mem (List.mem_of_find?_eq_some first)
    obtain ⟨c, alone⟩ := Scanner.delivered_illegal drained present illegal
    refine ⟨t, c, first, ?_, ?_⟩
    · rw [← String.toList_inj, alone, String.toList_singleton]
    · rw [Cursor.illegalCharacter, alone]
      rfl

theorem sign_before_failing_read :
    let feed : Feed := [.bytes [43], .failed "reset"]
    let sign : Token := ⟨.add, ⟨1, 0, 0⟩, "+"⟩
    let ending : LexFault := ⟨⟨1, 1, 1⟩, .stream "reset"⟩
    let s := Scanner.ofFeed true feed
    feed.runes.length < UInt32.size ∧ tokenize true feed = .error ending ∧
      delivered s = [.ok sign, .error ending] ∧ pulls s <+: [.ok sign, .error ending] ∧
      (parse s = .error (.lexical ending) ∨ ∃ fault, parse s = .error fault ∧ fault.LaidTo sign) := by
  intro feed sign ending s
  have first : Window.pull feed = (.ok (some '+'), [.bytes [], .failed "reset"]) := by decide
  have second : Window.pull [.bytes [], .failed "reset"] = (.error (.failed "reset"), []) := by decide
  have short : feed.runes.length < UInt32.size := by
    rw [Feed.runes_some first, Feed.runes_error second, Feed.runes_nil]
    decide
  have found : s.next = (.ok sign, s.next.2) := rfl
  have failed : s.next.2.next = (.error ending, s.next.2.next.2) := rfl
  have whole : delivered s = [.ok sign, .error ending] := by
    rw [delivered_of_token found, deliveredBehind, if_neg (by decide), delivered_of_fault failed]
  have stopped : tokenize true feed = .error ending := by
    cases outcome : tokenize true feed with
    | ok tokens =>
        have last : .error ending ∈ delivered s := by simp [whole]
        rw [delivered_of_tokens outcome] at last
        simp at last
    | error other =>
        obtain ⟨front, same⟩ := delivered_of_error outcome
        simpa using congrArg List.getLast? (same.symm.trans whole)
  obtain ⟨-, begins, -, -, fails, -⟩ := faults_of_tokens_and_syntax true feed short
  obtain ⟨tokens, same, parsed | ⟨fault, parsed, t, present, laid, -⟩⟩ := fails ending stopped
  · exact ⟨short, stopped, whole, whole ▸ begins, .inl parsed⟩
  · refine ⟨short, stopped, whole, whole ▸ begins, .inr ⟨fault, parsed, ?_⟩⟩
    obtain rfl : t = sign := by
      have there : .ok t ∈ delivered s := by
        rw [same]
        exact List.mem_append_left _ (List.mem_map_of_mem present)
      simpa [whole] using there
    exact laid

end PredicateLang
