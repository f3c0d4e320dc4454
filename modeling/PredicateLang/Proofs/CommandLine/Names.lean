import PredicateLang.CommandLine.Binding
import PredicateLang.Proofs.Compilation.Stages
import PredicateLang.Proofs.Syntax.Names
import PredicateLang.Proofs.Token.Letters

set_option autoImplicit false

namespace PredicateLang

def IsWord (text : List Char) : Prop := text ≠ [] ∧ ∀ c ∈ text, isLetter c = true

namespace Grammar

def Rule.Roots (rule : Rule) : Prop :=
  ∀ derivation, ∀ name ∈ (rule.tree derivation).names,
    ∃ t ∈ rule.tokens derivation, t.kind = .identifier ∧ t.text = name.base

section

variable {operators : Operators} {next : Rule}

theorem roots_chain (joins : operators.Joins) (roots : next.Roots) : (chain operators next).Roots := by
  intro ⟨first, row⟩
  refine @row_induction _ _ (fun tokens node => ∀ name ∈ node.names,
    ∃ t ∈ tokens, t.kind = .identifier ∧ t.text = name.base) ?_ row _ _ (roots first)
  intro front left behind inside name among
  have operands := (joins _ _ behind.isOperator).2 left (next.tree behind.right)
  rw [Behind.join, Node.names_operator operands, List.mem_append] at among
  rcases among with earlier | later
  · obtain ⟨t, present, same⟩ := inside name earlier
    exact ⟨t, List.mem_append_left _ present, same⟩
  · obtain ⟨t, present, same⟩ := roots behind.right name later
    exact ⟨t, by simp [Behind.tokens, present], same⟩

theorem roots_single (joins : operators.Joins) (roots : next.Roots) :
    (single operators next).Roots :=
  fun derivation => roots_chain joins roots (derivation.1, derivation.2.toList)

end

theorem roots_primitive : primitive.Roots := by
  intro leaf name among
  cases leaf with
  | plain base path isName =>
      obtain rfl := List.mem_singleton.mp among
      exact ⟨base, List.mem_cons_self, isName, rfl⟩
  | external sign base path isSign isName =>
      obtain rfl := List.mem_singleton.mp among
      exact ⟨base, List.mem_cons_of_mem _ List.mem_cons_self, isName, rfl⟩
  | string | number | boolean => cases among

theorem roots_disjunction : disjunction.Roots :=
  roots_single joins_or <| roots_single joins_and <| roots_single joins_equality <|
    roots_single joins_order <| roots_chain joins_sum <| roots_single joins_product <|
      roots_single joins_power roots_primitive

theorem Program.root_of_name (derivation : Program) :
    ∀ name ∈ derivation.tree.names,
      ∃ t ∈ derivation.tokens, t.kind = .identifier ∧ t.text = name.base := by
  intro name among
  cases derivation with
  | empty => cases among
  | expression before body after finish front back ends =>
      have inside : name ∈ (disjunction.tree body).names := by
        simpa [tree, Node.names, Node.namesAll] using among
      obtain ⟨t, present, same⟩ := roots_disjunction body name inside
      exact ⟨t, by simp [tokens, present], same⟩

end Grammar

/-- The tree of a text that is a single name of the host. -/
def Node.IsReference (root : Node) (name : String) : Prop :=
  ∃ place position, root = .program .start [.primitive place (.identifier position ⟨true, name, []⟩)]

/-- An expression can refer to a name: with its sign in front it is an expression. -/
def IsReferable (name : String) : Prop :=
  ∃ root, EngineOptions.default.parse ("@" ++ name) = .ok root ∧ root.IsReference name

section

variable {name : String}

theorem name_of_referable (referable : IsReferable name) :
    ∃ tokens, allTokens (Scanner.ofString true ("@" ++ name)) = .ok tokens ∧
      ∃ t ∈ tokens, t.kind = .identifier ∧ t.text = name := by
  obtain ⟨root, parsed, place, position, rfl⟩ := referable
  obtain ⟨derivation, same, tokenized⟩ := derived_of_parse (EngineOptions.parse_ok.mp parsed)
  refine ⟨derivation.tokens, tokenized, derivation.root_of_name ⟨true, name, []⟩ ?_⟩
  rw [same]
  simp [Node.names, Node.namesAll]

theorem word_of_referable (referable : IsReferable name) : IsWord name.toList := by
  obtain ⟨tokens, tokenized, t, present, named, rfl⟩ := name_of_referable referable
  exact Scanner.letters_of_allTokens tokenized t present named

end

namespace Rules

theorem found_sign (rest : List Char) : found true ('@' :: rest) = .token .atSign 1 := by
  have noLetter : isLetter '@' = false := by decide +kernel
  have noBlank : isBlank '@' = false := by decide
  have noDigit : isDigit '@' = false := by decide
  simp [found, noLetter, noBlank, noDigit, begins?, pairs, singles]

theorem found_keyword : ∀ entry ∈ keywords,
    entry.2 ≠ .identifier ∧ entry.2 ≠ .string ∧ entry.2 ≠ .eof ∧
      found true entry.1 = .token entry.2 entry.1.length := by
  decide +kernel

theorem tokens?_signed {name : String} {kind : TokenKind} (plain : kind ≠ .string) (more : kind ≠ .eof)
    (whole : found true name.toList = .token kind name.toList.length) :
    ∃ finish, tokens? true 3 (.ofString ("@" ++ name)) =
      some [⟨.atSign, .start, "@"⟩, ⟨kind, Position.start.advance '@', name⟩, ⟨.eof, finish, ""⟩] := by
  let finish := (Position.start.advance '@').advanceOver name.toList
  refine ⟨finish, ?_⟩
  have sign : next true (.ofString ("@" ++ name)) =
      (.ok ⟨.atSign, .start, "@"⟩, ⟨Position.start.advance '@', name.toList⟩) := by
    simp [next, Remaining.ofString, found_sign, lexeme, Remaining.drop, Position.advanceOver]
  have word : next true ⟨Position.start.advance '@', name.toList⟩ =
      (.ok ⟨kind, Position.start.advance '@', name⟩, ⟨finish, []⟩) := by
    simp [next, whole, lexeme, plain, Remaining.drop, finish]
  have last : next true ⟨finish, []⟩ = (.ok ⟨.eof, finish, ""⟩, ⟨finish, []⟩) := rfl
  simp [tokens?, sign, word, more, last]

end Rules

theorem referable_of_word {name : String} (word : IsWord name.toList)
    (free : name.toList ∉ Rules.spellings) : IsReferable name := by
  obtain ⟨first, rest, split⟩ := List.exists_cons_of_ne_nil word.1
  have whole : Rules.found true name.toList = .token .identifier name.toList.length := by
    have letter : isLetter first = true := word.2 first (by simp [split])
    rw [← Rules.word_of_letters word.2 free, split, Rules.found_of_letter letter]
  obtain ⟨finish, tokens⟩ := Rules.tokens?_signed (by decide) (by decide) whole
  let leaf : Grammar.Leaf :=
    .external ⟨.atSign, .start, "@"⟩ ⟨.identifier, Position.start.advance '@', name⟩ [] rfl rfl
  let derivation : Grammar.Program := .expression []
    (((((((leaf, none), none), []), none), none), none), none) [] ⟨.eof, finish, ""⟩ nofun nofun rfl
  have parsed := parse_of_rules 3 derivation tokens (by
    intro t present
    simp only [derivation, leaf] at present
    rcases present with _ | ⟨_, _ | ⟨_, _ | ⟨_, ⟨⟩⟩⟩⟩ <;> simp)
  exact ⟨derivation.tree, EngineOptions.parse_ok.mpr parsed, _, _, rfl⟩

theorem unreferable_of_keyword {name : String} (keyword : name.toList ∈ Rules.spellings) :
    ¬ IsReferable name := by
  intro referable
  obtain ⟨tokens, tokenized, t, present, named, -⟩ := name_of_referable referable
  obtain ⟨entry, listed, spelled⟩ := List.mem_map.mp keyword
  obtain ⟨other, plain, more, what⟩ := Rules.found_keyword entry listed
  rw [spelled] at what
  obtain ⟨finish, found⟩ := Rules.tokens?_signed plain more what
  have same := Scanner.allTokens_of_rules (Scanner.stands_ofString true _) found
  cases tokenized.symm.trans same
  simp only [List.mem_cons, List.not_mem_nil, or_false] at present
  rcases present with rfl | rfl | rfl <;> simp_all

namespace BindingArgument

theorem splitAtEquals?_append {front : List Char} (free : '=' ∉ front) (rest : List Char) :
    splitAtEquals? (front ++ '=' :: rest) = some (front, rest) := by
  induction front with
  | nil => rfl
  | cons c front ih =>
      have other : c ≠ '=' := fun same => free (by simp [same])
      have later : '=' ∉ front := fun present => free (List.mem_cons_of_mem c present)
      rw [List.cons_append, splitAtEquals?, if_neg other, ih later]
      rfl

theorem bareName_of_unsigned {front : List Char} (unsigned : front.head? ≠ some '@') :
    bareName front = front := by
  unfold bareName
  split
  · exact absurd rfl unsigned
  · rfl

variable {name text : String}

theorem ofInline_eq (unsigned : name.toList.head? ≠ some '@') (free : '=' ∉ name.toList) :
    ofInline (name ++ "=" ++ text) =
      if name.toList.isEmpty || !name.toList.all isLetter then .error (.invalidName name)
      else .ok ⟨name, .json text⟩ := by
  have whole : (name ++ "=" ++ text).toList = name.toList ++ '=' :: text.toList := by simp
  rw [ofInline, split, whole, splitAtEquals?_append free]
  simp only [bareName_of_unsigned unsigned, String.ofList_toList]
  split <;> rfl

theorem ofInline_iff (unsigned : name.toList.head? ≠ some '@') (free : '=' ∉ name.toList)
    (binding : BindingArgument) :
    ofInline (name ++ "=" ++ text) = .ok binding ↔
      IsWord name.toList ∧ binding = ⟨name, .json text⟩ := by
  have test : (name.toList.isEmpty || !name.toList.all isLetter) = true ↔ ¬ IsWord name.toList := by
    simp [IsWord, imp_iff_not_or]
  rw [ofInline_eq unsigned free]
  by_cases word : IsWord name.toList
  · rw [if_neg (by simpa [test] using word)]
    simp [word, eq_comm]
  · rw [if_pos (test.mpr word)]
    simp [word]

end BindingArgument

theorem word_of_spelling (spelling : List Char) (listed : spelling ∈ Rules.spellings) :
    IsWord spelling := by
  have letters : (Rules.spellings.all fun text => text.all isLetter) = true := by decide +kernel
  refine ⟨?_, List.all_eq_true.mp (List.all_eq_true.mp letters spelling listed)⟩
  rintro rfl
  exact absurd listed (by decide)

theorem mem_spellings {name : String} :
    name.toList ∈ Rules.spellings ↔ name ∈ ["and", "or", "true", "false"] := by
  have texts : Rules.spellings = ["and", "or", "true", "false"].map String.toList := by decide
  rw [texts, List.mem_map]
  constructor
  · rintro ⟨other, listed, same⟩
    rwa [← String.toList_injective same]
  · exact fun listed => ⟨name, listed, rfl⟩

open BindingArgument in
/-- The names that the command line takes are those that an expression can refer to, and the keywords. The
value is the text behind the first sign of equality, whatever it is. -/
theorem inline_name_referable_or_keyword (name text : String)
    (unsigned : name.toList.head? ≠ some '@') (free : '=' ∉ name.toList) :
    (ofInline (name ++ "=" ++ text) = .ok ⟨name, .json text⟩ ↔
      IsReferable name ∨ name ∈ ["and", "or", "true", "false"]) ∧
    (∀ binding, ofInline (name ++ "=" ++ text) = .ok binding → binding = ⟨name, .json text⟩) ∧
    ∀ keyword ∈ ["and", "or", "true", "false"], ¬ IsReferable keyword := by
  refine ⟨?_, fun binding taken => ((ofInline_iff unsigned free binding).mp taken).2,
    fun keyword listed => unreferable_of_keyword (mem_spellings.mpr listed)⟩
  rw [ofInline_iff unsigned free, ← mem_spellings]
  constructor
  · rintro ⟨word, -⟩
    by_cases keyword : name.toList ∈ Rules.spellings
    · exact .inr keyword
    · exact .inl (referable_of_word word keyword)
  · rintro (referable | keyword)
    · exact ⟨word_of_referable referable, rfl⟩
    · exact ⟨word_of_spelling _ keyword, rfl⟩

theorem user_bound_to_equation :
    BindingArgument.ofInline ("user" ++ "=" ++ "\"a=b\"") = .ok ⟨"user", .json "\"a=b\""⟩ ∧
      IsReferable "user" := by
  have taken : BindingArgument.ofInline ("user" ++ "=" ++ "\"a=b\"") =
      .ok ⟨"user", .json "\"a=b\""⟩ := by
    decide +kernel
  have names := inline_name_referable_or_keyword "user" "\"a=b\"" (by decide) (by decide)
  exact ⟨taken, (names.1.mp taken).resolve_right (by decide)⟩

theorem truth_bound_unreferable :
    BindingArgument.ofInline ("true" ++ "=" ++ "1") = .ok ⟨"true", .json "1"⟩ ∧
      ¬ IsReferable "true" :=
  ⟨by decide +kernel, unreferable_of_keyword (by decide)⟩

end PredicateLang
