import PredicateLang.Proofs.Syntax.Operators

set_option autoImplicit false

namespace PredicateLang

namespace Node

inductive Lexical : Node → Prop
  | name {position place : Position} {external : Bool} {base : String} {path : List String}
      (some : base.toList ≠ []) (letters : ∀ part ∈ base :: path, ∀ c ∈ part.toList, isLetter c = true)
      (other : external = false → base.toList ∉ Rules.spellings) :
      Lexical (.primitive position (.identifier place ⟨external, base, path⟩))
  | string {position place : Position} {raw : String} (still : Rules.Open raw.toList)
      (bare : Rules.escaped raw.toList = false) : Lexical (.primitive position (.literal place .string raw))
  | number {position place : Position} {raw : String} (digit : beginsIn isDigit raw.toList = true)
      (all : ∀ c ∈ raw.toList, Rules.numeric c = true) :
      Lexical (.primitive position (.literal place .number raw))
  | boolean {position place : Position} {raw : String} (spelled : raw = "true" ∨ raw = "false") :
      Lexical (.primitive position (.literal place .boolean raw))
  | join {position : Position} {op : Operator} {left right : Node} (one : Lexical left)
      (two : Lexical right) : Lexical (op.join position left right)

end Node

namespace Grammar

theorem lexical_primitive : primitive.Relates fun _ node => node.Lexical := by
  have letters {t : Token} (named : t.kind = .identifier) (worded : t.Worded) :
      t.text.toList ≠ [] ∧ (∀ c ∈ t.text.toList, isLetter c = true) ∧ t.text.toList ∉ Rules.spellings := by
    rw [← Token.written_of_text (by simp [named])]
    rwa [Token.Worded, named] at worded
  have keys {path : List Segment} (worded : ∀ t ∈ pathTokens path, t.Worded) :
      ∀ part ∈ pathNames path, ∀ c ∈ part.toList, isLetter c = true := by
    intro part present
    obtain ⟨segment, among, rfl⟩ := List.mem_map.mp present
    have inside : segment.key ∈ pathTokens path :=
      List.mem_flatMap.mpr ⟨segment, among, by simp [Segment.tokens]⟩
    exact (letters segment.isName (worded _ inside)).2.1
  intro leaf worded
  cases leaf with
  | plain base path isName =>
      obtain ⟨first, others⟩ := List.forall_mem_cons.mp worded
      obtain ⟨some, all, other⟩ := letters isName first
      exact .name some (List.forall_mem_cons.mpr ⟨all, keys others⟩) fun _ => other
  | external sign base path isSign isName =>
      obtain ⟨first, others⟩ := List.forall_mem_cons.mp (List.forall_mem_cons.mp worded).2
      obtain ⟨some, all, -⟩ := letters isName first
      exact .name some (List.forall_mem_cons.mpr ⟨all, keys others⟩) (by simp)
  | string t isString =>
      have first := List.forall_mem_singleton.mp worded
      rw [Token.Worded, isString] at first
      obtain ⟨inside, whole, still, bare⟩ := first
      have same : t.text.toList = inside := by simpa [Token.written, isString] using whole
      rw [← same] at still bare
      exact .string still bare
  | number t isNumber =>
      have first := List.forall_mem_singleton.mp worded
      rw [Token.Worded, isNumber, Token.written_of_text (by simp [isNumber])] at first
      exact .number first.1 first.2
  | boolean t isBool =>
      have first := List.forall_mem_singleton.mp worded
      rw [Token.Worded, isBool, Token.written_of_text (by simp [isBool])] at first
      have listed : ∀ entry ∈ Rules.fixed, entry.2 = .bool →
          entry.1 = "true".toList ∨ entry.1 = "false".toList := by decide
      exact .boolean ((listed _ first rfl).imp String.toList_inj.mp String.toList_inj.mp)

end Grammar

theorem lexical_of_parse {keywordBoundary : Bool} {source : String} {root : Node}
    (parsed : parse (Scanner.ofString keywordBoundary source) = .ok root) :
    root = .emptyProgram ∨ ∃ node, root = .program .start [node] ∧ node.Lexical := by
  have joined : Grammar.Joined fun _ node => node.Lexical :=
    fun _ _ _ _ _ _ _ _ _ _ _ one two => .join one two
  obtain none | ⟨tokens, node, same, -, lexical⟩ :=
    related_of_parse joined Grammar.lexical_primitive parsed
  · exact .inl none
  · exact .inr ⟨node, same, lexical⟩

namespace PrefixForm

def nameChar (c : Char) : Bool := isLetter c || c = '.'

def nameOf (external : Bool) (run : List Char) : Node :=
  let parts := (run.splitOn '.').map String.ofList
  .identifier .start ⟨external, parts.headD "", parts.tail⟩

def wordOf (run : List Char) : Node :=
  -- Without a sign, nothing is named like a truth value.
  if run = "true".toList ∨ run = "false".toList then .literal .start .boolean (String.ofList run)
  else nameOf false run

def numberOf (run : List Char) : Node := .literal .start .number (String.ofList run)

def readRun (class? : Char → Bool) (make : List Char → Node) (text : List Char) : Node × List Char :=
  (make (text.takeWhile class?), text.dropWhile class?)

def readQuoted (text : List Char) : Node × List Char :=
  let length := (Rules.closing? text).getD text.length
  (.literal .start .string (String.ofList (text.take length)), text.drop (length + 1))

def readLeaf : List Char → Node × List Char
  | '"' :: rest => readQuoted rest
  | '@' :: rest => readRun nameChar (nameOf true) rest
  | text =>
      if beginsIn isDigit text then readRun Rules.numeric numberOf text
      else readRun nameChar wordOf text

def operator? (word : List Char) : Option Operator := Operator.all.find? fun op => op.symbol.toList = word

def read : Nat → List Char → Option (Node × List Char)
  | 0, _ => none
  | fuel + 1, text =>
      match text with
      | '(' :: rest => do
          let op ← operator? (rest.takeWhile (· ≠ ' '))
          let (left, rest) ← read fuel (rest.dropWhile (· ≠ ' ')).tail
          let (right, rest) ← read fuel rest.tail
          some (op.join .start left right, rest.tail)
      | _ =>
          let (leaf, rest) := readLeaf text
          some (.primitive .start leaf, rest)

section

variable {class? : Char → Bool} {make : List Char → Node} {run rest : List Char}

def Ends (rest : List Char) : Prop := ∀ c, rest.head? = some c → c = ' ' ∨ c = ')'

theorem Ends.stops (ends : Ends rest) (space : class? ' ' = false) (parenthesis : class? ')' = false) :
    beginsIn class? rest = false := by
  cases rest with
  | nil => rfl
  | cons c rest =>
      obtain rfl | rfl := ends c rfl
      · exact space
      · exact parenthesis

theorem Ends.stops_name (ends : Ends rest) : beginsIn nameChar rest = false := by
  have space : isLetter ' ' = false := not_letter_of_blank (by decide)
  have parenthesis : isLetter ')' = false := Rules.not_letter_of_punctuation rfl
  exact ends.stops (by simp [nameChar, space]) (by simp [nameChar, parenthesis])

theorem dropWhile_append_of_stop (all : ∀ c ∈ run, class? c = true) (stops : beginsIn class? rest = false) :
    (run ++ rest).dropWhile class? = rest := by
  rw [List.dropWhile_append_of_pos all]
  cases rest with
  | nil => rfl
  | cons c rest => rw [List.dropWhile_cons_of_neg (by simpa [beginsIn] using stops)]

theorem readRun_append (all : ∀ c ∈ run, class? c = true) (stops : beginsIn class? rest = false) :
    readRun class? make (run ++ rest) = (make run, rest) := by
  rw [readRun, takeWhile_append_of_stop all stops, dropWhile_append_of_stop all stops]

theorem readQuoted_append (still : Rules.Open run) (bare : Rules.escaped run = false) :
    readQuoted (run ++ '"' :: rest) = (.literal .start .string (String.ofList run), rest) := by
  rw [readQuoted, Rules.closing?_of_closes still (by simp [Rules.closes, bare])]
  simp

section

variable {external : Bool} {base : String} {path : List String}

theorem splitOn_intercalate (letters : ∀ part ∈ base :: path, ∀ c ∈ part.toList, isLetter c = true) :
    (".".intercalate (base :: path)).toList.splitOn '.' = (base :: path).map String.toList := by
  have apart : ∀ part ∈ (base :: path).map String.toList, '.' ∉ part := by
    intro part present point
    obtain ⟨word, among, rfl⟩ := List.mem_map.mp present
    exact absurd (letters word among '.' point) (Bool.eq_false_iff.mp (Rules.not_letter_of_punctuation rfl))
  rw [String.toList_intercalate]
  exact List.splitOn_intercalate '.' apart (by simp)

theorem nameOf_intercalate (letters : ∀ part ∈ base :: path, ∀ c ∈ part.toList, isLetter c = true) :
    nameOf external (".".intercalate (base :: path)).toList = .identifier .start ⟨external, base, path⟩ := by
  rw [nameOf, splitOn_intercalate letters]
  simp [List.map_map, Function.comp_def]

theorem wordOf_intercalate (letters : ∀ part ∈ base :: path, ∀ c ∈ part.toList, isLetter c = true)
    (other : base.toList ∉ Rules.spellings) :
    wordOf (".".intercalate (base :: path)).toList = .identifier .start ⟨false, base, path⟩ := by
  have apart {truth : List Char} (whole : truth.splitOn '.' = [truth]) (spelled : truth ∈ Rules.spellings) :
      (".".intercalate (base :: path)).toList ≠ truth := by
    intro same
    have parts := splitOn_intercalate letters
    rw [same, whole, List.map_cons] at parts
    injection parts with first
    exact other (first ▸ spelled)
  rw [wordOf, if_neg, nameOf_intercalate letters]
  rintro (same | same)
  · exact apart (by decide) (by decide) same
  · exact apart (by decide) (by decide) same

theorem nameChar_intercalate {parts : List String}
    (letters : ∀ part ∈ parts, ∀ c ∈ part.toList, isLetter c = true) :
    ∀ c ∈ (".".intercalate parts).toList, nameChar c = true := by
  induction parts with
  | nil => simp
  | cons part parts ih =>
      obtain ⟨first, others⟩ := List.forall_mem_cons.mp letters
      have whole : ∀ c ∈ part.toList, nameChar c = true := fun c present => by
        simp [nameChar, first c present]
      cases parts with
      | nil => simpa using whole
      | cons second parts =>
          rw [String.intercalate_cons_cons, String.toList_append, String.toList_append,
            List.forall_mem_append, List.forall_mem_append]
          exact ⟨⟨whole, by simp [nameChar]⟩, ih others⟩

theorem beginsIn_intercalate (some : base.toList ≠ [])
    (letters : ∀ part ∈ base :: path, ∀ c ∈ part.toList, isLetter c = true) :
    beginsIn isLetter (".".intercalate (base :: path)).toList = true := by
  have first := (List.forall_mem_cons.mp letters).1
  have begins : beginsIn isLetter base.toList = true := by
    cases spelled : base.toList with
    | nil => exact absurd spelled some
    | cons c word => exact first c (by simp [spelled])
  cases path with
  | nil => simpa using begins
  | cons key path =>
      rw [String.intercalate_cons_cons, String.append_assoc, String.toList_append,
        Rules.beginsIn_append some]
      exact begins

end

end

section

variable {text run rest : List Char} {leaf : Node} {class? : Char → Bool}

theorem read_leaf (fuel : Nat) (other : text.head? ≠ some '(') (reads : readLeaf text = (leaf, rest)) :
    read (fuel + 1) text = some (.primitive .start leaf, rest) := by
  unfold read
  split
  · exact absurd rfl other
  · rw [reads]

theorem readLeaf_unmarked (begins : beginsIn class? text = true)
    (marks : ['"', '@', '('].any class? = false) :
    text.head? ≠ some '(' ∧ readLeaf text =
      if beginsIn isDigit text then readRun Rules.numeric numberOf text
      else readRun nameChar wordOf text := by
  have apart {c : Char} {rest : List Char} (listed : c ∈ ['"', '@', '(']) : text ≠ c :: rest := by
    rintro rfl
    rw [List.any_eq_false] at marks
    exact marks c listed begins
  constructor
  · intro same
    obtain ⟨rest, rfl⟩ := List.head?_eq_some_iff.mp same
    exact apart (by decide) rfl
  · unfold readLeaf
    split
    · exact absurd rfl (apart (by decide))
    · exact absurd rfl (apart (by decide))
    · rfl

theorem read_quoted (fuel : Nat) (still : Rules.Open run) (bare : Rules.escaped run = false) :
    read (fuel + 1) ('"' :: (run ++ '"' :: rest)) =
      some (.primitive .start (.literal .start .string (String.ofList run)), rest) :=
  read_leaf fuel (by simp) (readQuoted_append still bare)

theorem read_signed (fuel : Nat) (all : ∀ c ∈ run, nameChar c = true) (ends : Ends rest) :
    read (fuel + 1) ('@' :: (run ++ rest)) = some (.primitive .start (nameOf true run), rest) :=
  read_leaf fuel (by simp) (readRun_append all ends.stops_name)

theorem read_number (fuel : Nat) (digit : beginsIn isDigit run = true)
    (all : ∀ c ∈ run, Rules.numeric c = true) (ends : Ends rest) :
    read (fuel + 1) (run ++ rest) = some (.primitive .start (numberOf run), rest) := by
  have some : run ≠ [] := by
    rintro rfl
    cases digit
  have begins := (Rules.beginsIn_append some rest).trans digit
  obtain ⟨other, reads⟩ := readLeaf_unmarked begins (by decide)
  refine read_leaf fuel other ?_
  rw [reads, if_pos begins]
  exact readRun_append all (ends.stops (by decide) (by decide))

theorem read_word (fuel : Nat) (letter : beginsIn isLetter run = true)
    (all : ∀ c ∈ run, nameChar c = true) (ends : Ends rest) :
    read (fuel + 1) (run ++ rest) = some (.primitive .start (wordOf run), rest) := by
  cases run with
  | nil => cases letter
  | cons c run =>
      have letter : isLetter c = true := letter
      have digit : isDigit c = false := by
        rw [Bool.eq_false_iff]
        intro digit
        rw [not_letter_of_digit digit] at letter
        cases letter
      have begins : beginsIn isLetter (c :: run ++ rest) = true := letter
      have sign : isLetter '@' = false := Rules.not_letter_of_punctuation rfl
      have parenthesis : isLetter '(' = false := Rules.not_letter_of_punctuation rfl
      have marks : ['"', '@', '('].any isLetter = false := by simp [not_letter_quote, sign, parenthesis]
      obtain ⟨other, reads⟩ := readLeaf_unmarked begins marks
      refine read_leaf fuel other ?_
      rw [reads, if_neg (by simp [beginsIn, digit])]
      exact readRun_append all ends.stops_name

end

end PrefixForm

namespace Operator

variable {position : Position} {left right : Node}

theorem display_join (op : Operator) :
    (op.join position left right).display = Node.displayBinary op.symbol left.display right.display := by
  cases op <;> rfl

theorem bare_join (op : Operator) :
    (op.join position left right).bare = op.join .start left.bare right.bare := by
  cases op <;> rfl

theorem count_join (op : Operator) :
    (op.join position left right).count = 1 + (left.count + right.count) := by
  cases op <;> rfl

theorem no_space (op : Operator) : ' ' ∉ op.symbol.toList := by
  have all : ∀ op ∈ all, ' ' ∉ op.symbol.toList := by decide
  exact all op op.mem_all

end Operator

namespace PrefixForm

theorem operator_symbol (op : Operator) : operator? op.symbol.toList = some op := by
  have all : ∀ op ∈ Operator.all, operator? op.symbol.toList = some op := by decide
  exact all op op.mem_all

theorem read_operator {fuel : Nat} {left right : Node} {one two rest : List Char} (op : Operator)
    (first : ∀ {rest : List Char}, Ends rest → read fuel (one ++ rest) = some (left, rest))
    (second : ∀ {rest : List Char}, Ends rest → read fuel (two ++ rest) = some (right, rest)) :
    read (fuel + 1) ('(' :: (op.symbol.toList ++ ' ' :: (one ++ ' ' :: (two ++ ')' :: rest)))) =
      some (op.join .start left right, rest) := by
  have stops (behind : List Char) : beginsIn (fun c => decide (c ≠ ' ')) (' ' :: behind) = false := rfl
  have all : ∀ c ∈ op.symbol.toList, decide (c ≠ ' ') = true := by
    intro c present
    rw [decide_eq_true_eq]
    rintro rfl
    exact op.no_space present
  have before : Ends (' ' :: (two ++ ')' :: rest)) := by simp [Ends]
  have after : Ends (')' :: rest) := by simp [Ends]
  rw [read]
  simp only [takeWhile_append_of_stop all (stops _), dropWhile_append_of_stop all (stops _),
    operator_symbol, List.tail_cons, first before, second after, Option.bind_eq_bind, Option.bind_some]

theorem read_display {node : Node} (lexical : node.Lexical) {fuel : Nat} (enough : node.count ≤ fuel)
    {rest : List Char} (ends : Ends rest) :
    read (fuel + 1) (node.display.toList ++ rest) = some (node.bare, rest) := by
  induction lexical generalizing fuel rest with
  | @name position place external base path some letters other =>
      have all := nameChar_intercalate letters
      cases external with
      | true =>
          have reads := read_signed fuel all ends
          rw [nameOf_intercalate letters] at reads
          simpa [Node.display, Node.Identifier.display, Node.bare] using reads
      | false =>
          have reads := read_word fuel (beginsIn_intercalate some letters) all ends
          rw [wordOf_intercalate letters (other rfl)] at reads
          simpa [Node.display, Node.Identifier.display, Node.bare] using reads
  | @string position place raw still bare =>
      have reads := @read_quoted _ rest fuel still bare
      rw [String.ofList_toList] at reads
      simpa [Node.display, Node.displayLiteral, Node.bare] using reads
  | @number position place raw digit all =>
      have reads := read_number fuel digit all ends
      rw [numberOf, String.ofList_toList] at reads
      simpa [Node.display, Node.displayLiteral, Node.bare] using reads
  | @boolean position place raw spelled =>
      have spelled : beginsIn isLetter raw.toList = true ∧ (∀ c ∈ raw.toList, nameChar c = true) ∧
          wordOf raw.toList = .literal .start .boolean raw := by
        obtain rfl | rfl := spelled <;> exact ⟨by decide, List.all_eq_true.mp (by decide), rfl⟩
      have reads := read_word fuel spelled.1 spelled.2.1 ends
      rw [spelled.2.2] at reads
      simpa [Node.display, Node.displayLiteral, Node.bare] using reads
  | @join position op left right one two ih₁ ih₂ =>
      rw [Operator.count_join] at enough
      obtain ⟨fuel, rfl⟩ : ∃ more, fuel = more + 1 := ⟨fuel - 1, by omega⟩
      have first {rest : List Char} (ends : Ends rest) :
          read (fuel + 1) (left.display.toList ++ rest) = some (left.bare, rest) := ih₁ (by omega) ends
      have second {rest : List Char} (ends : Ends rest) :
          read (fuel + 1) (right.display.toList ++ rest) = some (right.bare, rest) := ih₂ (by omega) ends
      have reads := @read_operator _ _ _ _ _ rest op first second
      rw [op.bare_join]
      simpa [op.display_join, Node.displayBinary] using reads

end PrefixForm

namespace Node

mutual

theorem display_bare : (node : Node) → node.bare.display = node.display
  | .program _ items => by rw [bare, display, display, displayAll_bareAll items]
  | .identifier _ _ => by rw [bare, display, display]
  | .primitive _ inner => by rw [bare, display, display, display_bare inner]
  | .literal _ _ _ => by rw [bare, display, display]
  | .compare _ _ _ left right => by
      rw [bare, display, display, display_bare left, display_bare right]
  | .arith _ _ left right => by
      rw [bare, display, display, display_bare left, display_bare right]
  | .logical _ _ left right => by
      rw [bare, display, display, display_bare left, display_bare right]

theorem displayAll_bareAll : (items : List Node) → displayAll (bareAll items) = displayAll items
  | [] => rfl
  | node :: rest => by
      rw [bareAll, displayAll, displayAll, display_bare node, displayAll_bareAll rest]

end

theorem display_program (position : Position) (node : Node) :
    (Node.program position [node]).display = node.display := by
  rw [display, displayAll, displayAll, String.intercalate_singleton]

theorem Lexical.display_ne_nil {node : Node} (lexical : node.Lexical) : node.display.toList ≠ [] := by
  cases lexical with
  | @name position place external base path some letters other =>
      have begins := PrefixForm.beginsIn_intercalate some letters
      rw [display, display, Identifier.display, String.toList_append]
      intro none
      rw [(List.append_eq_nil_iff.mp none).2] at begins
      cases begins
  | string => simp [display, displayLiteral]
  | @number position place raw digit all =>
      rw [display, display, displayLiteral]
      rintro none
      rw [none] at digit
      cases digit
  | @boolean position place raw spelled => obtain rfl | rfl := spelled <;> simp [display, displayLiteral]
  | join => simp [Operator.display_join, displayBinary]

theorem Lexical.bare_of_display {node other : Node} (one : node.Lexical) (two : other.Lexical)
    (same : node.display = other.display) : node.bare = other.bare := by
  have ends : PrefixForm.Ends [] := by simp [PrefixForm.Ends]
  have first := PrefixForm.read_display one (Nat.le_max_left node.count other.count) ends
  have second := PrefixForm.read_display two (Nat.le_max_right node.count other.count) ends
  rw [same, second] at first
  exact (Prod.mk.inj (Option.some.inj first)).1.symm

end Node

/-- Two texts that parse have the same tree up to positions just if their trees are displayed alike,
whatever stands between quotes in them. -/
theorem display_tells_trees {keywordBoundary keywordBoundary' : Bool} {source source' : String}
    {root root' : Node} (parsed : parse (Scanner.ofString keywordBoundary source) = .ok root)
    (parsed' : parse (Scanner.ofString keywordBoundary' source') = .ok root') :
    root.display = root'.display ↔ root.bare = root'.bare := by
  constructor
  · intro same
    obtain rfl | ⟨node, rfl, one⟩ := lexical_of_parse parsed <;>
      obtain rfl | ⟨node', rfl, two⟩ := lexical_of_parse parsed'
    · rfl
    · rw [Node.display_program] at same
      exact absurd (congrArg String.toList same.symm) two.display_ne_nil
    · rw [Node.display_program] at same
      exact absurd (congrArg String.toList same) one.display_ne_nil
    · rw [Node.display_program, Node.display_program] at same
      rw [Node.bare, Node.bare, Node.bareAll, Node.bareAll, one.bare_of_display two same]
      rfl
  · intro same
    rw [← Node.display_bare root, ← Node.display_bare root', same]

theorem quoted_parentheses_tell_trees :
    ∃ root root' : Node,
      parse (Scanner.ofString true "\"\\\") (\" + x") = .ok root ∧
      parse (Scanner.ofString false "\"\\\") (\"+x") = .ok root' ∧
      root.display = "(+ \"\\\") (\" x)" ∧ root'.display = root.display ∧ root.bare = root'.bare := by
  let quoted : Grammar.Leaf := .string ⟨.string, .start, "\\\") ("⟩ rfl
  let name (column : UInt32) : Grammar.Leaf := .plain ⟨.identifier, ⟨1, column, column⟩, "x"⟩ [] rfl
  let spaced : Grammar.Program :=
    .expression [] (((((((quoted, none), none),
      [⟨[.space 7], ⟨.add, ⟨1, 8, 8⟩, "+"⟩, [.space 9], _, ((name 10, none), none),
        Grammar.blanks_space 7, .add rfl, Grammar.blanks_space 9⟩]), none), none), none), none) []
      ⟨.eof, ⟨1, 11, 11⟩, ""⟩ (List.forall_mem_nil _) (List.forall_mem_nil _) rfl
  let close : Grammar.Program :=
    .expression [] (((((((quoted, none), none),
      [⟨[], ⟨.add, ⟨1, 7, 7⟩, "+"⟩, [], _, ((name 8, none), none),
        List.forall_mem_nil _, .add rfl, List.forall_mem_nil _⟩]), none), none), none), none) []
      ⟨.eof, ⟨1, 9, 9⟩, ""⟩ (List.forall_mem_nil _) (List.forall_mem_nil _) rfl
  have parsed : parse (Scanner.ofString true "\"\\\") (\" + x") = .ok spaced.tree :=
    parse_of_rules 6 spaced (by decide +kernel) (by decide)
  have parsed' : parse (Scanner.ofString false "\"\\\") (\"+x") = .ok close.tree :=
    parse_of_rules 4 close (by decide +kernel) (by decide)
  have same : spaced.tree.display = close.tree.display := by decide +kernel
  exact ⟨_, _, parsed, parsed', by decide +kernel, same.symm, (display_tells_trees parsed parsed').mp same⟩

end PredicateLang
