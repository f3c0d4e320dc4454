import PredicateLang.Compilation
import PredicateLang.Proofs.Json.Orders
import PredicateLang.Proofs.Json.Texts
import PredicateLang.Syntax.Document

set_option autoImplicit false

namespace PredicateLang

theorem LiteralKind.ofTag?_tag (kind : LiteralKind) : ofTag? kind.tag = some kind := by
  cases kind <;> decide

theorem Arithmetic.ofTag?_tag (op : Arithmetic) : ofTag? op.tag = some op := by
  cases op <;> decide

theorem Comparison.ofTag?_tag (op : Comparison) : ofTag? op.tag = some op := by
  cases op <;> decide

theorem Json.word?_ofNat (w : UInt32) : (Json.ofNat w.toNat).word? = some w := by
  have small := w.toNat_lt
  have inside : (0 : Int) ≤ w.toNat ∧ (w.toNat : Int) < UInt32.size := by
    simp only [UInt32.size]
    omega
  rw [Json.ofNat, Json.word?, if_pos inside, Int.toNat_natCast]
  simp

theorem Json.plain_ofNat (w : UInt32) : (Json.ofNat w.toNat).Plain :=
  .count (Nat.lt_trans w.toNat_lt (by decide))

namespace Position

variable {position : Position} {document : Json}

theorem ofJson?_of_parts {line column index : Json}
    (parted : document.parts? ["line", "column", "index"] = some [line, column, index])
    (first : line.word? = some position.line) (second : column.word? = some position.column)
    (third : index.word? = some position.index) : ofJson? document = some position := by
  rw [ofJson?, parted]
  simp [first, second, third]

theorem ofJson?_alike (alike : document.Alike position.toJson) : ofJson? document = some position := by
  obtain ⟨parts, parted, each⟩ := alike.parts? ["line", "column", "index"] rfl (by decide)
  obtain _ | ⟨⟨⟩, _ | ⟨⟨⟩, _ | ⟨⟨⟩, ⟨⟩⟩⟩⟩ := each
  exact ofJson?_of_parts parted (Json.word?_ofNat _) (Json.word?_ofNat _) (Json.word?_ofNat _)

theorem plain (position : Position) : position.toJson.Plain :=
  .record (by simp [Json.plain_ofNat])

end Position

namespace Identifier

theorem pathOf?_texts (path : List String) :
    pathOf? (.list (path.map .text)) = some path := by
  rw [pathOf?]
  induction path with
  | nil => rfl
  | cons segment rest ih => rw [List.map_cons, List.mapM_cons, ih]; rfl

theorem ofJson?_alike {name : Identifier} {document : Json}
    (alike : document.Alike name.toJson) : ofJson? document = some name := by
  obtain ⟨parts, parted, each⟩ := alike.parts? ["is_external", "base", "path"] rfl (by decide)
  obtain _ | ⟨⟨⟩, _ | ⟨⟨⟩, _ | ⟨segments, ⟨⟩⟩⟩⟩ := each
  obtain ⟨items, rfl, each⟩ := segments.items
  rw [each.texts] at parted
  simp [ofJson?, parted, Json.bool?, Json.text?, pathOf?_texts]

theorem plain (name : Identifier) : name.toJson.Plain := by
  have path : (Json.list (name.path.map .text)).Plain := .list (by simp [Json.Plain.text])
  exact .record (by simp [Json.Plain.bool, Json.Plain.text, path])

end Identifier

namespace Node

def Readable (node : Node) : Prop :=
  ∀ document : Json, document.Alike node.toJson → ofJson? document = some node

section

variable {position : Position} {relation : Relation} {content : Json} {left right : Node}

theorem ofJson?_recordOf {document expected : Json} {tag : String}
    (alike : document.Alike (recordOf position tag expected)) :
    ∃ content : Json, content.Alike expected ∧ ofJson? document = ofContent? position tag content := by
  obtain ⟨parts, parted, each⟩ := alike.parts? ["range", "kind"] rfl (by decide)
  obtain _ | ⟨range, _ | ⟨kind, ⟨⟩⟩⟩ := each
  obtain ⟨content, rfl, same⟩ := kind.tagged
  refine ⟨content, same, ?_⟩
  rw [ofJson?, parted]
  simp [Position.ofJson?_alike range, Json.tagged, ofKind?]

theorem literalOf?_alike {kind : LiteralKind} {raw : String}
    (alike : content.Alike (.record [("kind", .text kind.tag), ("raw", .text raw)])) :
    literalOf? position content = some (.literal position kind raw) := by
  obtain ⟨parts, parted, each⟩ := alike.parts? ["kind", "raw"] rfl (by decide)
  obtain _ | ⟨⟨⟩, _ | ⟨⟨⟩, ⟨⟩⟩⟩ := each
  simp [literalOf?, parted, Json.caseName?, Json.text?, LiteralKind.ofTag?_tag]

theorem sides_alike {one two : Json} {tag : String}
    (alike : content.Alike (.record [("left", one), ("right", two), ("op", .text tag)])) :
    ∃ left right : Json, content.parts? ["left", "right", "op"] = some [left, right, .text tag] ∧
      left.Alike one ∧ right.Alike two := by
  obtain ⟨parts, parted, each⟩ := alike.parts? ["left", "right", "op"] rfl (by decide)
  obtain _ | ⟨first, _ | ⟨second, _ | ⟨⟨⟩, ⟨⟩⟩⟩⟩ := each
  exact ⟨_, _, parted, first, second⟩

theorem compareOf?_alike {op : Comparison} (first : left.Readable) (second : right.Readable)
    (alike : content.Alike
      (.record [("left", left.toJson), ("right", right.toJson), ("op", .text op.tag)])) :
    compareOf? position relation content = some (.compare position relation op left right) := by
  obtain ⟨one, two, parted, one_alike, two_alike⟩ := sides_alike alike
  rw [compareOf?, parted]
  simp [comparisonOf?, Json.caseName?, Comparison.ofTag?_tag, first _ one_alike, second _ two_alike]

theorem logicalOf?_alike {op : Connective} (first : left.Readable) (second : right.Readable)
    (alike : content.Alike (.record [("left", left.toJson), ("right", right.toJson)])) :
    logicalOf? position op content = some (.logical position op left right) := by
  obtain ⟨parts, parted, each⟩ := alike.parts? ["left", "right"] rfl (by decide)
  obtain _ | ⟨one_alike, _ | ⟨two_alike, ⟨⟩⟩⟩ := each
  rw [logicalOf?, parted]
  simp [first _ one_alike, second _ two_alike]

theorem ofJsonList?_alike {documents : List Json} {items : List Node}
    (all : ∀ item ∈ items, item.Readable) (each : Json.AlikeItems documents (allToJson items)) :
    ofJsonList? documents = some items := by
  induction items generalizing documents with
  | nil =>
      cases each
      rw [ofJsonList?]
  | cons item rest ih =>
      obtain ⟨here, later⟩ := List.forall_mem_cons.mp all
      obtain _ | ⟨same, each⟩ := each
      rw [ofJsonList?]
      simp [here _ same, ih later each]

theorem readable_program {items : List Node} (all : ∀ item ∈ items, item.Readable) :
    Readable (.program position items) := by
  intro document alike
  obtain ⟨content, same, reads⟩ := ofJson?_recordOf alike
  obtain ⟨documents, rfl, each⟩ := same.items
  rw [reads, ofContent?.eq_def]
  simp [ofJsonList?_alike all each]

theorem readable_identifier (name : Identifier) : Readable (.identifier position name) := by
  intro document alike
  obtain ⟨content, same, reads⟩ := ofJson?_recordOf alike
  rw [reads, ofContent?.eq_def]
  simp [Identifier.ofJson?_alike same]

theorem readable_primitive {inner : Node} (inside : inner.Readable) :
    Readable (.primitive position inner) := by
  intro document alike
  obtain ⟨content, same, reads⟩ := ofJson?_recordOf alike
  rw [reads, ofContent?.eq_def]
  simp [inside _ same]

theorem readable_literal (kind : LiteralKind) (raw : String) :
    Readable (.literal position kind raw) := by
  intro document alike
  obtain ⟨content, same, reads⟩ := ofJson?_recordOf alike
  rw [reads, ofContent?.eq_def]
  simp [literalOf?_alike same]

theorem readable_compare (op : Comparison) (first : left.Readable) (second : right.Readable) :
    Readable (.compare position relation op left right) := by
  intro document alike
  -- The relation is in the tag alone; what stands behind the tag does not tell it.
  cases relation with
  | equality =>
      obtain ⟨content, same, reads⟩ := ofJson?_recordOf alike
      rw [reads, ofContent?.eq_def]
      simp [compareOf?_alike first second same]
  | ordering =>
      obtain ⟨content, same, reads⟩ := ofJson?_recordOf alike
      rw [reads, ofContent?.eq_def]
      simp [compareOf?_alike first second same]

theorem readable_arith (op : Arithmetic) (first : left.Readable) (second : right.Readable) :
    Readable (.arith position op left right) := by
  intro document alike
  obtain ⟨content, same, reads⟩ := ofJson?_recordOf alike
  obtain ⟨one, two, parted, one_alike, two_alike⟩ := sides_alike same
  rw [reads, ofContent?.eq_def, parted]
  simp [arithmeticOf?, Json.caseName?, Arithmetic.ofTag?_tag, first _ one_alike, second _ two_alike]

theorem readable_logical (op : Connective) (first : left.Readable) (second : right.Readable) :
    Readable (.logical position op left right) := by
  intro document alike
  cases op with
  | and =>
      obtain ⟨content, same, reads⟩ := ofJson?_recordOf alike
      rw [reads, ofContent?.eq_def]
      simp [logicalOf?_alike first second same]
  | or =>
      obtain ⟨content, same, reads⟩ := ofJson?_recordOf alike
      rw [reads, ofContent?.eq_def]
      simp [logicalOf?_alike first second same]

end

mutual

theorem readable (node : Node) : node.Readable := by
  match node with
  | .program _ items => exact readable_program (readableAll items)
  | .identifier _ name => exact readable_identifier name
  | .primitive _ inner => exact readable_primitive inner.readable
  | .literal _ kind raw => exact readable_literal kind raw
  | .compare _ _ op left right => exact readable_compare op left.readable right.readable
  | .arith _ op left right => exact readable_arith op left.readable right.readable
  | .logical _ op left right => exact readable_logical op left.readable right.readable

theorem readableAll (items : List Node) : ∀ item ∈ items, item.Readable := by
  match items with
  | [] => exact List.forall_mem_nil _
  | item :: rest => exact List.forall_mem_cons.mpr ⟨item.readable, readableAll rest⟩

end

theorem plain_recordOf {content : Json} (plain : content.Plain) (position : Position) (tag : String) :
    (recordOf position tag content).Plain := by
  have range := position.plain
  exact .record (by simp [range, Json.tagged, Json.Plain.record, plain])

mutual

theorem plain (node : Node) : node.toJson.Plain := by
  match node with
  | .program position items => exact plain_recordOf (.list (plainAll items)) position "Program"
  | .identifier position name => exact plain_recordOf name.plain position "Identifier"
  | .primitive position inner => exact plain_recordOf inner.plain position "Primitive"
  | .literal position kind raw =>
      exact plain_recordOf (.record (by simp [Json.Plain.text])) position "Literal"
  | .compare position relation op left right =>
      have first := left.plain
      have second := right.plain
      cases relation <;> exact plain_recordOf (.record (by simp [first, second, Json.Plain.text])) position _
  | .arith position op left right =>
      have first := left.plain
      have second := right.plain
      exact plain_recordOf (.record (by simp [first, second, Json.Plain.text])) position "Expression"
  | .logical position op left right =>
      have first := left.plain
      have second := right.plain
      cases op <;> exact plain_recordOf (.record (by simp [first, second])) position _

theorem plainAll (items : List Node) : ∀ item ∈ allToJson items, item.Plain := by
  match items with
  | [] => exact List.forall_mem_nil _
  | item :: rest => exact List.forall_mem_cons.mpr ⟨item.plain, plainAll rest⟩

end

end Node

/-- The document of a tree, with its fields in any order, is read as this tree, and it is what its text is
read as, if the reader has room for its depth. Hence all that is made of a tree can be made of its document,
and trees that differ have neither a document nor a text in common. -/
theorem documents_tell_trees (node : Node) :
    Node.ofJson? node.toJson = some node ∧
      (∀ document : Json, document.Alike node.toJson →
        Node.ofJson? document = some node ∧
          (Node.ofJson? document).map Node.count = some node.count ∧
          (Node.ofJson? document).map Node.display = some node.display ∧
          ∀ validate, (Node.ofJson? document).map (compile validate) = some (compile validate node)) ∧
      (∀ room, node.toJson.depth ≤ room →
        Json.read? room node.toJson.compact = some node.toJson ∧
          Json.read? room (node.toJson.pretty 0) = some node.toJson) ∧
      ∀ other : Node,
        other.toJson.Alike node.toJson ∨ other.toJson.compact = node.toJson.compact ∨
          other.toJson.pretty 0 = node.toJson.pretty 0 → other = node := by
  have read {document : Json} (alike : document.Alike node.toJson) :
      Node.ofJson? document = some node := node.readable document alike
  refine ⟨read (.refl _), fun document alike => ?_, fun room enough => ?_, fun other shared => ?_⟩
  · rw [read alike]
    exact ⟨rfl, rfl, rfl, fun _ => rfl⟩
  · exact ⟨node.plain.read?_compact enough, node.plain.read?_pretty enough⟩
  · have alike : other.toJson.Alike node.toJson := by
      obtain alike | texts := shared
      · exact alike
      · rw [other.plain.eq_of_texts node.plain texts]
        exact .refl _
    have itself : Node.ofJson? other.toJson = some other := other.readable _ (.refl _)
    rw [read alike] at itself
    exact (Option.some.inj itself).symm

theorem shuffled_comparison_read_back :
    let side (raw : String) (column : UInt32) : Node :=
      .primitive ⟨1, column, column⟩ (.literal ⟨1, column, column⟩ .number raw)
    let node (relation : Relation) : Node := .compare ⟨1, 2, 2⟩ relation .lt (side "1" 0) (side "2" 4)
    let document : Json := .record
      [("kind", .tagged "Comparison" (.record
        [("op", .text "Lt"), ("right", (side "2" 4).toJson), ("left", (side "1" 0).toJson)])),
        ("range", .record [("index", .ofNat 2), ("column", .ofNat 2), ("line", .ofNat 1)])]
    document.Alike (node .ordering).toJson ∧ Node.ofJson? document = some (node .ordering) ∧
      Json.read? Json.nesting (node .ordering).toJson.compact = some (node .ordering).toJson ∧
      ¬ (node .equality).toJson.Alike (node .ordering).toJson ∧
      (node .equality).toJson.compact ≠ (node .ordering).toJson.compact := by
  intro side node document
  have reversed (fields : List (String × Json)) : (Json.record fields.reverse).Alike (.record fields) :=
    .record (List.reverse_perm fields) (.refl fields)
  have content := reversed
    [("left", (side "1" 0).toJson), ("right", (side "2" 4).toJson), ("op", .text "Lt")]
  have alike : document.Alike (node .ordering).toJson :=
    .record (.swap _ _ _) (.cons "range" (reversed [_, _, _])
      (.cons "kind" (.record (.refl _) (.cons "Comparison" content .nil)) .nil))
  have fits : (node .ordering).toJson.depth ≤ Json.nesting := by decide
  obtain ⟨-, read, texts, apart⟩ := documents_tell_trees (node .ordering)
  refine ⟨alike, (read document alike).1, (texts _ fits).1, fun same => ?_, fun same => ?_⟩
  · cases apart _ (.inl same)
  · cases apart _ (.inr (.inl same))

end PredicateLang
