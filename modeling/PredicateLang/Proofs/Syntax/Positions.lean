import Mathlib.Logic.Relation
import PredicateLang.Proofs.Syntax.Faults
import PredicateLang.Proofs.Syntax.Operators

set_option autoImplicit false

namespace PredicateLang

structure Sight where
  position : Position
  word : String

def Token.sight (t : Token) : Sight := ⟨t.position, t.written⟩

namespace Node

/-- The word that a node stands at: the sign or the name, the literal as it is written, or the operator. -/
def word : Node → String
  | .program _ _ => ""
  | .identifier _ name => if name.external then "@" else name.base
  | .primitive _ inner => inner.word
  | .literal _ kind raw => displayLiteral kind raw
  | .compare _ _ op _ _ => op.symbol
  | .arith _ op _ _ => op.symbol
  | .logical _ op _ _ => op.word

def sight (node : Node) : Sight := ⟨node.position, node.word⟩

mutual

/-- What is met on a walk from the left operand over the operator to the right one. -/
def sights : Node → List Sight
  | .program _ items => allSights items
  | .identifier position name => [(Node.identifier position name).sight]
  | .primitive _ inner => inner.sights
  | .literal position kind raw => [(Node.literal position kind raw).sight]
  | .compare position relation op left right =>
      left.sights ++ (Node.compare position relation op left right).sight :: right.sights
  | .arith position op left right =>
      left.sights ++ (Node.arith position op left right).sight :: right.sights
  | .logical position op left right =>
      left.sights ++ (Node.logical position op left right).sight :: right.sights

def allSights : List Node → List Sight
  | [] => []
  | node :: rest => node.sights ++ allSights rest

end

def Holds (outer inner : Node) : Prop := inner ∈ outer.children

/-- A node that stands where its content stands, if it is only there to wrap it. -/
def Wraps (node : Node) : Prop :=
  ∀ position inner, node = .primitive position inner → position = inner.position

variable {position : Position} {leaf left right node : Node}

theorem reaches_leaf (childless : leaf.children = []) (reaches : Relation.ReflTransGen Holds leaf node) :
    node = leaf := by
  obtain rfl | ⟨inner, held, -⟩ := reaches.cases_head
  · rfl
  · simp [Holds, childless] at held

theorem reaches_primitive (childless : leaf.children = [])
    (reaches : Relation.ReflTransGen Holds (.primitive position leaf) node) :
    node = .primitive position leaf ∨ node = leaf := by
  obtain rfl | ⟨inner, held, onward⟩ := reaches.cases_head
  · exact .inl rfl
  · obtain rfl := List.mem_singleton.mp held
    exact .inr (reaches_leaf childless onward)

theorem reaches_join {op : Operator}
    (reaches : Relation.ReflTransGen Holds (op.join position left right) node) :
    node = op.join position left right ∨ Relation.ReflTransGen Holds left node ∨
      Relation.ReflTransGen Holds right node := by
  have children : (op.join position left right).children = [left, right] := by cases op <;> rfl
  obtain rfl | ⟨inner, held, onward⟩ := reaches.cases_head
  · exact .inl rfl
  · rw [Holds, children, List.mem_pair] at held
    obtain rfl | rfl := held
    · exact .inr (.inl onward)
    · exact .inr (.inr onward)

end Node

namespace Operator

variable {position : Position} {left right : Node}

theorem sight_join (op : Operator) : (op.join position left right).sight = ⟨position, op.symbol⟩ := by
  cases op <;> rfl

theorem sights_join (op : Operator) :
    (op.join position left right).sights = left.sights ++ ⟨position, op.symbol⟩ :: right.sights := by
  cases op <;> rfl

theorem wraps_join (op : Operator) : (op.join position left right).Wraps := by
  cases op <;> exact fun _ _ same => by cases same

end Operator

namespace Grammar

structure Sighted (tokens : List Token) (node : Node) : Prop where
  sights : node.sights.Sublist (tokens.map Token.sight)
  met : ∀ inner, Relation.ReflTransGen Node.Holds node inner → inner.sight ∈ node.sights ∧ inner.Wraps

theorem sighted_join : Joined Sighted := by
  intro front before after behind left right t op blank blank' written one two
  constructor
  · have here : t.sight = ⟨t.position, op.symbol⟩ := congrArg (Sight.mk t.position) written
    have behind : right.sights.Sublist ((after ++ behind).map Token.sight) := by
      rw [List.map_append]
      exact two.sights.trans (List.sublist_append_right _ _)
    rw [op.sights_join, ← here, List.map_append, List.map_append, List.map_cons]
    exact one.sights.append ((behind.cons_cons _).trans (List.sublist_append_right _ _))
  · intro inner reaches
    rw [op.sights_join, List.mem_append, List.mem_cons]
    obtain rfl | left | right := Node.reaches_join reaches
    · exact ⟨.inr (.inl op.sight_join), op.wraps_join⟩
    · exact (one.met inner left).imp_left .inl
    · exact (two.met inner right).imp_left fun there => .inr (.inr there)

theorem sighted_leaf {t : Token} {others : List Token} {leaf : Node} (childless : leaf.children = [])
    (alone : leaf.sights = [leaf.sight]) (bare : leaf.Wraps) (here : leaf.sight = t.sight) :
    Sighted (t :: others) (.primitive t.position leaf) := by
  have place : t.position = leaf.position := congrArg Sight.position here.symm
  constructor
  · rw [Node.sights, alone, here, List.map_cons]
    exact List.singleton_sublist.mpr List.mem_cons_self
  · intro inner reaches
    rw [Node.sights, alone, List.mem_singleton]
    obtain rfl | rfl := Node.reaches_primitive childless reaches
    · exact ⟨congrArg (Sight.mk · leaf.word) place, by rintro position inner ⟨⟩; exact place⟩
    · exact ⟨rfl, bare⟩

theorem sighted_primitive : primitive.Relates Sighted := by
  intro leaf worded
  cases leaf with
  | plain base path isName =>
      have written : base.written = base.text := Token.written_of_text (by simp [isName])
      exact sighted_leaf rfl rfl nofun (congrArg (Sight.mk base.position) written.symm)
  | external sign base path isSign isName =>
      have written : sign.written = "@" :=
        (worded sign List.mem_cons_self).written_eq isSign (fun _ => id) (by decide)
      exact sighted_leaf rfl rfl nofun (congrArg (Sight.mk sign.position) written.symm)
  | string t isString =>
      have written : t.written = "\"" ++ t.text ++ "\"" := if_pos isString
      exact sighted_leaf rfl rfl nofun (congrArg (Sight.mk t.position) written.symm)
  | number t isNumber =>
      have written : t.written = t.text := Token.written_of_text (by simp [isNumber])
      exact sighted_leaf rfl rfl nofun (congrArg (Sight.mk t.position) written.symm)
  | boolean t isBool =>
      have written : t.written = t.text := Token.written_of_text (by simp [isBool])
      exact sighted_leaf rfl rfl nofun (congrArg (Sight.mk t.position) written.symm)

end Grammar

def ParseFault.position? : ParseFault → Option Position
  | .unexpectedToken found => some found.position
  | .missingOperand operator => some operator.position
  | .lexical fault => some fault.position
  | .misuse _ => none

theorem ParseFault.ArisesAt.position_mem {fault : ParseFault} {pulled : List (Except LexFault Token)}
    (arises : fault.ArisesAt pulled) :
    ∃ position, fault.position? = some position ∧
      ((∃ t, .ok t ∈ pulled ∧ t.position = position) ∨ ∃ cause, .error ⟨position, cause⟩ ∈ pulled) := by
  cases arises with
  | @unexpected front t passed legal => exact ⟨_, rfl, .inl ⟨t, by simp, rfl⟩⟩
  | @missing front blanks op t passed blank visible legal => exact ⟨_, rfl, .inl ⟨op, by simp, rfl⟩⟩
  | @illegal front t passed illegal => exact ⟨_, rfl, .inl ⟨t, by simp, rfl⟩⟩
  | @lexical front fault passed => exact ⟨_, rfl, .inr ⟨fault.cause, by simp⟩⟩

section

variable {keywordBoundary : Bool} {source : String} {root : Node}

theorem standsAt_of_error {fault : ParseFault}
    (failed : parse (Scanner.ofString keywordBoundary source) = .error fault) :
    ∃ position, fault.position? = some position ∧ StandsAt source.toList position [] := by
  obtain ⟨arises, begins⟩ := pulls_of_error failed
  obtain ⟨position, known, ⟨t, pulled, rfl⟩ | ⟨cause, pulled⟩⟩ := arises.position_mem
  · have lexed := Scanner.lexed_of_delivered keywordBoundary source _ (begins.subset pulled)
    exact ⟨_, known, lexed.2.nil⟩
  · exact ⟨_, known, Scanner.lexed_of_delivered keywordBoundary source _ (begins.subset pulled)⟩

theorem standsAt_of_ok (parsed : parse (Scanner.ofString keywordBoundary source) = .ok root) {node : Node}
    (below : Relation.TransGen Node.Holds root node) :
    StandsAt source.toList node.position node.word.toList ∧ node.Wraps := by
  obtain ⟨top, held, reaches⟩ := Relation.TransGen.head'_iff.mp below
  obtain rfl | ⟨tokens, expression, rfl, inside, sighted⟩ :=
    related_of_parse Grammar.sighted_join Grammar.sighted_primitive parsed
  · cases held
  · obtain rfl := List.mem_singleton.mp held
    obtain ⟨seen, wraps⟩ := sighted.met node reaches
    obtain ⟨t, present, same⟩ := List.mem_map.mp (sighted.sights.subset seen)
    obtain ⟨place, word⟩ := Sight.mk.inj same
    have lexed := Scanner.lexed_of_delivered keywordBoundary source _
      (inside.subset (List.mem_map_of_mem present))
    exact ⟨place ▸ word ▸ lexed.2, wraps⟩

theorem sights_ascend (short : source.toList.length < UInt32.size)
    (parsed : parse (Scanner.ofString keywordBoundary source) = .ok root) :
    root.sights.Pairwise fun one other => one.position.index < other.position.index := by
  obtain rfl | ⟨tokens, expression, rfl, inside, sighted⟩ :=
    related_of_parse Grammar.sighted_join Grammar.sighted_primitive parsed
  · exact .nil
  · have drained := Scanner.drained_ofFeed keywordBoundary (.ofString source)
    have countable : (Scanner.ofString keywordBoundary source).Countable := by
      show 0 + (Feed.ofString source).runes.length < UInt32.size
      rwa [Nat.zero_add, Feed.runes_ofString]
    have ascends := (Scanner.delivered_ascends drained countable).1.sublist inside.sublist
    rw [List.pairwise_map] at ascends
    have alone : (Node.program .start [expression]).sights = expression.sights := by
      rw [Node.sights, Node.allSights, Node.allSights, List.append_nil]
    have placed : (tokens.map Token.sight).Pairwise fun one other =>
        one.position.index < other.position.index := List.pairwise_map.mpr ascends
    rw [alone]
    exact placed.sublist sighted.sights

end

/-- All positions that are reported of a text with fewer characters than an index can count are places of
it. Tokens and the nodes of trees stand where the text goes on with their words. On a walk over a tree from
left to right the indices of leaves and operators increase. -/
theorem positions_are_places (keywordBoundary : Bool) (source : String)
    (short : source.toList.length < UInt32.size) :
    let s := Scanner.ofString keywordBoundary source
    (∀ t, .ok t ∈ delivered s → StandsAt source.toList t.position t.written.toList) ∧
    (∀ fault, .error fault ∈ delivered s → StandsAt source.toList fault.position []) ∧
    (∀ fault, parse s = .error fault →
      ∃ position, fault.position? = some position ∧ StandsAt source.toList position []) ∧
    ∀ root, parse s = .ok root →
      (∀ node, Relation.TransGen Node.Holds root node →
        StandsAt source.toList node.position node.word.toList ∧ node.Wraps) ∧
      root.sights.Pairwise fun one other => one.position.index < other.position.index := by
  have lexed := Scanner.lexed_of_delivered keywordBoundary source
  refine ⟨fun t present => (lexed _ present).2, fun fault present => lexed _ present,
    fun fault failed => standsAt_of_error failed, fun root parsed => ⟨fun node below => ?_, ?_⟩⟩
  · exact standsAt_of_ok parsed below
  · exact sights_ascend short parsed

theorem operator_on_second_line :
    let source := "é\n * \"ü\""
    source.toList.length < UInt32.size ∧
      ∃ root, parse (Scanner.ofString true source) = .ok root ∧
        root.sights = [⟨⟨1, 0, 0⟩, "é"⟩, ⟨⟨2, 1, 3⟩, "*"⟩, ⟨⟨2, 3, 5⟩, "\"ü\""⟩] ∧
        root.sights.Pairwise (fun one other => one.position.index < other.position.index) ∧
        ∀ node, Relation.TransGen Node.Holds root node →
          StandsAt source.toList node.position node.word.toList ∧ node.Wraps := by
  intro source
  have short : source.toList.length < UInt32.size := by decide +kernel
  let name : Grammar.Leaf := .plain ⟨.identifier, .start, "é"⟩ [] rfl
  let quoted : Grammar.Leaf := .string ⟨.string, ⟨2, 3, 5⟩, "ü"⟩ rfl
  let derivation : Grammar.Program :=
    .expression [] (((((((name, none),
      some ⟨[⟨.whitespace, ⟨1, 1, 1⟩, "\n "⟩], ⟨.mult, ⟨2, 1, 3⟩, "*"⟩, [⟨.whitespace, ⟨2, 2, 4⟩, " "⟩], _,
        (quoted, none), List.forall_mem_singleton.mpr rfl, .mul rfl, List.forall_mem_singleton.mpr rfl⟩),
          []), none), none), none), none) []
      ⟨.eof, ⟨2, 6, 8⟩, ""⟩ (List.forall_mem_nil _) (List.forall_mem_nil _) rfl
  have parsed : parse (Scanner.ofString true source) = .ok derivation.tree :=
    parse_of_rules 6 derivation (by decide +kernel) (by decide)
  obtain ⟨-, -, -, trees⟩ := positions_are_places true source short
  obtain ⟨stand, ascend⟩ := trees derivation.tree parsed
  exact ⟨short, _, parsed, rfl, ascend, stand⟩

end PredicateLang
