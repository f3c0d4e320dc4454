import PredicateLang.Proofs.Syntax.Lookahead
import PredicateLang.Proofs.Token.Texts

set_option autoImplicit false

namespace PredicateLang

namespace Cursor

open Grammar

variable {σ : Type} [TokenSupply σ]

-- The text of an operator token decides what it means, and only texts of its kind mean anything.
def Spelled (tokens : List Token) : Prop := ∀ t ∈ tokens, t.kind.Admits t.text.toList

theorem Spelled.behind {tokens behind : List Token} (spelled : Spelled tokens) (front : List Token)
    (same : tokens = front ++ behind) : Spelled behind := by
  intro t present
  apply spelled
  rw [same]
  exact List.mem_append_right _ present

structure Recognises (level : Parse σ (Option Node)) (rule : Rule) (goesOn : List TokenKind) :
    Prop where
  declined : ∀ {c next : Cursor σ}, level c = (.ok none, next) → upcoming next = upcoming c
  derived : ∀ {c next : Cursor σ} {node : Node}, Spelled (upcoming c) →
    level c = (.ok (some node), next) →
      ∃ derivation blanks, Blanks blanks ∧
        upcoming c = rule.tokens derivation ++ (blanks ++ upcoming next) ∧
        rule.tree derivation = node
  declines : ∀ {c : Cursor σ} {t : Token}, upcoming c = [t] → t.kind = .eof →
    ∃ next, level c = (.ok none, next) ∧ upcoming next = upcoming c
  parses : ∀ {c : Cursor σ} {derivation : rule.Derivation} {behind : List Token},
    upcoming c = rule.tokens derivation ++ behind → Stops goesOn behind →
      ∃ next, level c = (.ok (some (rule.tree derivation)), next) ∧
        strip (upcoming next) = strip behind

theorem name_ok {c next : Cursor σ} {key : String} (h : name c = (.ok key, next)) :
    ∃ t, t.kind = .identifier ∧ key = t.text ∧ upcoming c = t :: upcoming next := by
  obtain ⟨t, after, found, h⟩ := bind_ok h
  by_cases isName : t.kind = .identifier
  · rw [if_pos isName] at h
    cases h
    exact ⟨t, isName, rfl, by rw [upcoming_of_ok found, if_neg (by simp [isName])]⟩
  · rw [if_neg isName] at h
    cases h

theorem name_parses {c : Cursor σ} {t : Token} {rest : List Token} (front : upcoming c = t :: rest)
    (isName : t.kind = .identifier) :
    ∃ next, name c = (.ok t.text, next) ∧ upcoming next = rest := by
  obtain ⟨next, found, behind⟩ := advance_of_cons front
  refine ⟨next, ?_, behind (by simp [isName])⟩
  simp only [name, bind_apply, found, isName, if_true]
  rfl

theorem segment_ok {c next : Cursor σ} {key : String} (h : segment c = (.ok key, next)) :
    ∃ blanks t, Blanks blanks ∧ t.kind = .identifier ∧ key = t.text ∧
      upcoming c = blanks ++ t :: upcoming next := by
  obtain ⟨_, middle, skipped, named⟩ := bind_ok h
  obtain ⟨t, isName, text, front⟩ := name_ok named
  obtain ⟨blanks, blank, whole⟩ := exists_blanks (upcoming c)
  rw [← skipBlanks_ok skipped, front] at whole
  exact ⟨blanks, t, blank, isName, text, whole⟩

theorem segment_parses {c : Cursor σ} {blanks rest : List Token} {t : Token}
    (front : upcoming c = blanks ++ t :: rest) (blank : Blanks blanks)
    (isName : t.kind = .identifier) :
    ∃ next, segment c = (.ok t.text, next) ∧ upcoming next = rest := by
  have stripped : strip (upcoming c) = t :: rest := by
    rw [front, strip_blanks_append blank, strip_cons (by simp [isName])]
  obtain ⟨middle, skipped, visible⟩ := skipBlanks_finds stripped
  obtain ⟨next, named, behind⟩ := name_parses visible isName
  exact ⟨next, by simp [segment, bind_apply, skipped, named], behind⟩

theorem path_ok {c next : Cursor σ} {names : List String} (h : path c = (.ok names, next)) :
    ∃ segments, names = pathNames segments ∧ upcoming c = pathTokens segments ++ upcoming next := by
  fun_induction path c generalizing names with
  | case1 c fault after found => cases h
  | case2 c after found =>
      cases h
      exact ⟨[], rfl, (takeIf_none found).symm⟩
  | case3 c dot after found fault last named => cases h
  | case4 c dot after found key last named fault final more ih => cases h
  | case5 c dot after found key last named others final more ih =>
      cases h
      obtain ⟨segments, rfl, rest⟩ := ih more
      obtain ⟨front, isDot⟩ := takeIf_some found rfl
      obtain ⟨blanks, t, blank, isName, rfl, middle⟩ := segment_ok named
      refine ⟨⟨dot, blanks, t, by simpa [Cursor.isDot] using isDot, blank, isName⟩ :: segments,
        rfl, ?_⟩
      simp [front, middle, rest, pathTokens, Segment.tokens]

theorem path_of_none {c next : Cursor σ} (took : takeIf isDot c = (.ok none, next)) :
    path c = (.ok [], next) := by
  rw [path]
  split <;> rename_i found <;> rw [took] at found <;> cases found
  rfl

theorem path_of_some {c dotted named last : Cursor σ} {dot : Token} {key : String}
    {others : List String} (took : takeIf isDot c = (.ok (some dot), dotted))
    (keyed : segment dotted = (.ok key, named)) (more : path named = (.ok others, last)) :
    path c = (.ok (key :: others), last) := by
  rw [path]
  split <;> rename_i found <;> rw [took] at found <;> cases found
  split <;> rename_i found <;> rw [keyed] at found <;> cases found
  rw [more]

theorem path_parses {c : Cursor σ} {segments : List Segment} {t : Token} {rest : List Token}
    (front : upcoming c = pathTokens segments ++ t :: rest) (other : t.kind ≠ .dot) :
    ∃ next, path c = (.ok (pathNames segments), next) ∧ upcoming next = t :: rest := by
  induction segments generalizing c with
  | nil =>
      obtain ⟨next, took, same⟩ := takeIf_declines isDot front (by simp [isDot, other])
      exact ⟨next, path_of_none took, same.trans front⟩
  | cons segment segments ih =>
      simp only [pathTokens, List.flatMap_cons, Segment.tokens, List.cons_append,
        List.append_assoc, List.nil_append] at front
      obtain ⟨dotted, took, behindDot⟩ := takeIf_accepts isDot front
        (by simp [isDot, segment.isDot]) rfl
      obtain ⟨named, keyed, behindKey⟩ := segment_parses behindDot segment.blank segment.isName
      obtain ⟨next, more, ends⟩ := ih behindKey
      exact ⟨next, path_of_some took keyed more, ends⟩

theorem identifier_ok {c next : Cursor σ} {found : Option Node}
    (h : identifier c = (.ok found, next)) :
    (found = none ∧ takeIf beginsName c = (.ok none, next)) ∨
      ∃ first key names after named, takeIf beginsName c = (.ok (some first), after) ∧
        base first after = (.ok key, named) ∧ path named = (.ok names, next) ∧
        found = some (.identifier first.position ⟨first.kind = .atSign, key, names⟩) := by
  obtain ⟨first?, after, took, h⟩ := bind_ok h
  cases first? with
  | none =>
      cases h
      exact .inl ⟨rfl, took⟩
  | some first =>
      obtain ⟨key, named, keyed, h⟩ := bind_ok h
      obtain ⟨names, last, pathed, h⟩ := bind_ok h
      cases h
      exact .inr ⟨first, key, names, after, named, took, keyed, pathed, rfl⟩

def isLiteral (kind : TokenKind) : Bool := (literalKind? kind).isSome

theorem literal_ok {c next : Cursor σ} {found : Option Node} (h : literal c = (.ok found, next)) :
    (found = none ∧ takeIf isLiteral c = (.ok none, next)) ∨
      ∃ t kind, takeIf isLiteral c = (.ok (some t), next) ∧ literalKind? t.kind = some kind ∧
        found = some (.literal t.position kind t.text) := by
  obtain ⟨t?, after, took, h⟩ := bind_ok h
  cases t? with
  | none =>
      cases h
      exact .inl ⟨rfl, took⟩
  | some t =>
      have accepted := (takeIf_some took rfl).2
      cases meant : literalKind? t.kind with
      | none => simp [meant] at accepted
      | some kind =>
          simp only [meant] at h
          cases h
          exact .inr ⟨t, kind, took, meant, rfl⟩

theorem primitive_ok {c next : Cursor σ} {found : Option Node}
    (h : primitive c = (.ok found, next)) :
    (∃ leaf, identifier c = (.ok (some leaf), next) ∧ found = some leaf.asPrimitive) ∨
      ∃ after leaf?, identifier c = (.ok none, after) ∧ literal after = (.ok leaf?, next) ∧
        found = leaf?.map Node.asPrimitive := by
  obtain ⟨leaf?, after, named, h⟩ := bind_ok h
  cases leaf? with
  | none =>
      obtain ⟨leaf?, last, spelled, h⟩ := bind_ok h
      cases h
      exact .inr ⟨after, leaf?, named, spelled, rfl⟩
  | some leaf =>
      cases h
      exact .inl ⟨leaf, named, rfl⟩

theorem identifier_derived {c next : Cursor σ} {node : Node}
    (h : identifier c = (.ok (some node), next)) :
    ∃ leaf : Leaf, upcoming c = leaf.tokens ++ upcoming next ∧ leaf.tree = node.asPrimitive := by
  obtain ⟨none, -⟩ | ⟨first, key, names, after, named, took, keyed, pathed, same⟩ := identifier_ok h
  · cases none
  · cases same
    obtain ⟨front, begins⟩ := takeIf_some took rfl
    obtain ⟨segments, rfl, behind⟩ := path_ok pathed
    by_cases isSign : first.kind = .atSign
    · rw [base, if_pos isSign] at keyed
      obtain ⟨t, isName, rfl, middle⟩ := name_ok keyed
      refine ⟨.external first t segments isSign isName, ?_, ?_⟩
      · simp [front, middle, behind, Leaf.tokens]
      · simp [Leaf.tree, Node.asPrimitive, Node.position, isSign]
    · have isName : first.kind = .identifier := by simpa [beginsName, isSign] using begins
      rw [base, if_neg isSign] at keyed
      cases keyed
      refine ⟨.plain first segments isName, ?_, ?_⟩
      · simp [front, behind, Leaf.tokens]
      · simp [Leaf.tree, Node.asPrimitive, Node.position, isSign]

theorem literal_derived {c next : Cursor σ} {node : Node}
    (h : literal c = (.ok (some node), next)) :
    ∃ leaf : Leaf, upcoming c = leaf.tokens ++ upcoming next ∧ leaf.tree = node.asPrimitive := by
  obtain ⟨none, -⟩ | ⟨t, kind, took, meant, same⟩ := literal_ok h
  · cases none
  · cases same
    have front := (takeIf_some took rfl).1
    unfold literalKind? at meant
    split at meant <;> rename_i known <;> cases meant
    · exact ⟨.string t known, front, rfl⟩
    · exact ⟨.number t known, front, rfl⟩
    · exact ⟨.boolean t known, front, rfl⟩

theorem identifier_parses {c after named next : Cursor σ} {first : Token} {key : String}
    {names : List String} (took : takeIf beginsName c = (.ok (some first), after))
    (keyed : base first after = (.ok key, named)) (pathed : path named = (.ok names, next)) :
    primitive c = (.ok (some (.primitive first.position
      (.identifier first.position ⟨first.kind = .atSign, key, names⟩))), next) := by
  simp only [primitive, identifier, bind_apply, took, keyed, pathed]
  rfl

theorem identifier_declines {c after : Cursor σ} (refused : takeIf beginsName c = (.ok none, after)) :
    identifier c = (.ok none, after) := by
  simp only [identifier, bind_apply, refused]
  rfl

theorem literal_parses (kind : LiteralKind) {c : Cursor σ} {t : Token} {rest : List Token}
    (front : upcoming c = t :: rest) (meant : literalKind? t.kind = some kind) :
    ∃ next, primitive c = (.ok (some (.primitive t.position
      (.literal t.position kind t.text))), next) ∧ upcoming next = rest := by
  have noName : beginsName t.kind = false := by
    cases known : t.kind <;> simp_all [literalKind?, beginsName]
  obtain ⟨after, refused, same⟩ := takeIf_declines beginsName front noName
  obtain ⟨next, took, behind⟩ := takeIf_accepts isLiteral (same.trans front)
    (by simp [isLiteral, meant]) rfl
  have spelled : literal after = (.ok (some (.literal t.position kind t.text)), next) := by
    replace took : takeIf (fun kind => (literalKind? kind).isSome) after = _ := took
    simp only [literal, bind_apply, took, meant]
    rfl
  refine ⟨next, ?_, behind⟩
  simp only [primitive, bind_apply, identifier_declines refused, spelled]
  rfl

theorem primitive_declines {c : Cursor σ} {t : Token} {rest : List Token}
    (front : upcoming c = t :: rest) (noName : beginsName t.kind = false)
    (noLiteral : literalKind? t.kind = none) :
    ∃ next, primitive c = (.ok none, next) ∧ upcoming next = upcoming c := by
  obtain ⟨after, refused, same⟩ := takeIf_declines beginsName front noName
  obtain ⟨next, missed, still⟩ := takeIf_declines isLiteral (same.trans front)
    (by simp [isLiteral, noLiteral])
  have unspelled : literal after = (.ok none, next) := by
    replace missed : takeIf (fun kind => (literalKind? kind).isSome) after = _ := missed
    simp only [literal, bind_apply, missed]
    rfl
  refine ⟨next, ?_, still.trans same⟩
  simp only [primitive, bind_apply, identifier_declines refused, unspelled]
  rfl

theorem primitive_recognises :
    Recognises (primitive : Parse σ (Option Node)) Grammar.primitive [.dot] where
  declined := by
    intro c next h
    obtain ⟨leaf, -, some⟩ | ⟨after, leaf?, named, spelled, none⟩ := primitive_ok h
    · cases some
    · obtain ⟨-, refused⟩ | ⟨_, _, _, _, _, _, _, _, some⟩ := identifier_ok named
      · obtain ⟨-, missed⟩ | ⟨_, _, _, _, rfl⟩ := literal_ok spelled
        · rw [takeIf_none missed, takeIf_none refused]
        · cases none
      · cases some
  derived := by
    intro c next node spelled h
    obtain ⟨leaf, named, same⟩ | ⟨after, leaf?, named, read, same⟩ := primitive_ok h
    · cases same
      obtain ⟨derivation, front, tree⟩ := identifier_derived named
      exact ⟨derivation, [], List.forall_mem_nil _, front, tree⟩
    · obtain ⟨-, refused⟩ | ⟨_, _, _, _, _, _, _, _, some⟩ := identifier_ok named
      · obtain ⟨leaf, rfl, rfl⟩ := Option.map_eq_some_iff.1 same.symm
        obtain ⟨derivation, front, tree⟩ := literal_derived read
        exact ⟨derivation, [], List.forall_mem_nil _, (takeIf_none refused).symm.trans front, tree⟩
      · cases some
  declines := by
    intro c t front last
    exact primitive_declines front (by rw [last]; rfl) (by rw [last]; rfl)
  parses := by
    intro c leaf behind front stops
    -- A path goes on as long as there are dots, so what stands behind it must not begin with one.
    obtain ⟨t, rest, rfl, other⟩ := stops_dot stops
    cases leaf with
    | plain b segments isName =>
        obtain ⟨after, took, behindBase⟩ := takeIf_accepts beginsName front
          (by simp [beginsName, isName]) rfl
        obtain ⟨next, pathed, ends⟩ := path_parses behindBase other
        have keyed : base b after = (.ok b.text, after) := by
          simp only [base, isName]
          rfl
        refine ⟨next, ?_, by rw [ends]⟩
        simp [identifier_parses took keyed pathed, Grammar.primitive, Leaf.tree, isName]
    | external sign b segments isSign isName =>
        obtain ⟨after, took, behindSign⟩ := takeIf_accepts beginsName front
          (by simp [beginsName, isSign]) rfl
        obtain ⟨named, keyed, behindBase⟩ := name_parses behindSign isName
        obtain ⟨next, pathed, ends⟩ := path_parses behindBase other
        replace keyed : base sign after = (.ok b.text, named) := by rw [base, if_pos isSign, keyed]
        refine ⟨next, ?_, by rw [ends]⟩
        simp [identifier_parses took keyed pathed, Grammar.primitive, Leaf.tree, isSign]
    | string t isString =>
        obtain ⟨next, parsed, ends⟩ := literal_parses .string front (by rw [isString]; rfl)
        exact ⟨next, parsed, congrArg strip ends⟩
    | number t isNumber =>
        obtain ⟨next, parsed, ends⟩ := literal_parses .number front (by rw [isNumber]; rfl)
        exact ⟨next, parsed, congrArg strip ends⟩
    | boolean t isBool =>
        obtain ⟨next, parsed, ends⟩ := literal_parses .boolean front (by rw [isBool]; rfl)
        exact ⟨next, parsed, congrArg strip ends⟩

end Cursor

end PredicateLang
