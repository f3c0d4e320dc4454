import PredicateLang.Bytecode.Listing
import PredicateLang.Proofs.Bytecode.Decoding
import PredicateLang.Proofs.Text.Lines

set_option autoImplicit false

namespace PredicateLang

theorem isDigit_of_mem_toDigits {n : Nat} {c : Char} (present : c ∈ Nat.toDigits 10 n) : isDigit c = true :=
  Nat.isDigit_of_mem_toDigits (by decide) (by decide) present

def decimalOf (digits : List Char) : Nat := Nat.ofDigitChars 10 digits 0

theorem decimalOf_toDigits (n : Nat) : decimalOf (Nat.toDigits 10 n) = n := Nat.ofDigitChars_ten_toDigits

namespace Program

theorem toList_placeText (pc : Nat) :
    ∃ zeros, (placeText pc).toList = List.replicate zeros '0' ++ Nat.toDigits 10 pc := by
  refine ⟨4 - (toString pc).length, ?_⟩
  rw [placeText, Columns.padZeros, String.toList_append, String.toList_ofList, Nat.toString_eq_repr,
    Nat.toList_repr]

theorem digits_placeText (pc : Nat) : ∀ c ∈ (placeText pc).toList, isDigit c = true := by
  obtain ⟨zeros, same⟩ := toList_placeText pc
  rw [same, List.forall_mem_append]
  refine ⟨fun c zero => ?_, fun c present => isDigit_of_mem_toDigits present⟩
  rw [(List.mem_replicate.mp zero).2]
  rfl

theorem decimalOf_placeText (pc : Nat) : decimalOf (placeText pc).toList = pc := by
  obtain ⟨zeros, same⟩ := toList_placeText pc
  rw [same, decimalOf, Nat.ofDigitChars_append, Nat.ofDigitChars_replicate_zero, Nat.mul_zero]
  exact decimalOf_toDigits pc

def opcode? (mnemonic : List Char) : Option Opcode :=
  Opcode.all.find? fun op => op.mnemonic.toList = mnemonic

def readOperand (text : List Char) : Option UInt32 :=
  let digits := (text.dropWhile (· = ' ')).takeWhile isDigit
  if digits = [] then none else some (.ofNat (decimalOf digits))

/-- The instruction that a line shows: its place, its mnemonic, and its operand if it has one. -/
def readLine (line : String) : Option Instruction :=
  let behind := (line.toList.dropWhile isDigit).drop 2
  (opcode? (behind.takeWhile (· ≠ ' '))).map fun op =>
    ⟨decimalOf (line.toList.takeWhile isDigit), op, readOperand (behind.dropWhile (· ≠ ' '))⟩

theorem mnemonic_apart (op : Opcode) :
    (∀ c ∈ op.mnemonic.toList, decide (c ≠ ' ') = true) ∧ opcode? op.mnemonic.toList = some op := by
  have all : ∀ op ∈ Opcode.all, ' ' ∉ op.mnemonic.toList ∧ opcode? op.mnemonic.toList = some op := by
    decide
  obtain ⟨spaceless, known⟩ := all op (List.mem_of_getElem? (Opcode.ofWord?_word op))
  refine ⟨fun c present => ?_, known⟩
  rw [decide_eq_true_eq]
  rintro rfl
  exact spaceless present

theorem readLine_of_toList {line : String} {pc : Nat} {op : Opcode} {rest : List Char}
    (spelled : line.toList = (placeText pc).toList ++ ':' :: ' ' :: (op.mnemonic.toList ++ rest))
    (ends : ∀ c, rest.head? = some c → c = ' ') : readLine line = some ⟨pc, op, readOperand rest⟩ := by
  obtain ⟨spaceless, known⟩ := mnemonic_apart op
  have colon : isDigit ':' = false := rfl
  have place := digits_placeText pc
  rw [readLine, spelled, List.takeWhile_append_of_pos place, List.dropWhile_append_of_pos place,
    List.takeWhile_cons_of_neg (by simp [colon]), List.dropWhile_cons_of_neg (by simp [colon]),
    List.append_nil, decimalOf_placeText]
  simp only [List.drop_succ_cons, List.drop_zero, List.takeWhile_append_of_pos spaceless,
    List.dropWhile_append_of_pos spaceless]
  cases rest with
  | nil => simp [known]
  | cons c rest =>
      obtain rfl := ends c rfl
      simp [known]

theorem readOperand_append (spaces : Nat) (index : UInt32) {rest : List Char}
    (ends : ∀ c, rest.head? = some c → isDigit c = false) :
    readOperand (List.replicate spaces ' ' ++ (Nat.toDigits 10 index.toNat ++ rest)) = some index := by
  have blank : ∀ c ∈ List.replicate spaces ' ', decide (c = ' ') = true := by
    intro c present
    simpa using (List.mem_replicate.mp present).2
  have digits : ∀ c ∈ Nat.toDigits 10 index.toNat, isDigit c = true := fun c => isDigit_of_mem_toDigits
  have some : Nat.toDigits 10 index.toNat ≠ [] := Nat.toDigits_ne_nil
  have starts : (Nat.toDigits 10 index.toNat ++ rest).dropWhile (· = ' ') =
      Nat.toDigits 10 index.toNat ++ rest := by
    obtain ⟨first, others, same⟩ := List.exists_cons_of_ne_nil some
    rw [same] at digits ⊢
    have digit := digits first List.mem_cons_self
    refine List.dropWhile_cons_of_neg ?_
    rw [decide_eq_true_eq]
    rintro rfl
    cases digit
  have stops : rest.takeWhile isDigit = [] := by
    cases rest with
    | nil => rfl
    | cons c rest => exact List.takeWhile_cons_of_neg (by simp [ends c rfl])
  rw [readOperand, List.dropWhile_append_of_pos blank, starts, List.takeWhile_append_of_pos digits, stops,
    List.append_nil, if_neg some, decimalOf_toDigits, UInt32.ofNat_toNat]

theorem head_spaces {spaces : Nat} {rest : List Char} {c : Char}
    (first : (List.replicate spaces ' ' ++ ' ' :: rest).head? = some c) : c = ' ' := by
  cases spaces <;> exact (Option.some.inj first).symm

theorem readLine_lineOf (p : Program) (instruction : Instruction) :
    readLine (p.lineOf (.ok instruction)) = some instruction := by
  obtain ⟨pc, op, operand⟩ := instruction
  cases operand with
  | none =>
      have spelled : (p.lineOf (.ok ⟨pc, op, none⟩)).toList =
          (placeText pc).toList ++ ':' :: ' ' :: (op.mnemonic.toList ++ []) := by
        simp [lineOf]
      exact readLine_of_toList spelled nofun
  | some index =>
      obtain ⟨wide, narrow, more, spelled⟩ : ∃ wide narrow more,
          (p.lineOf (.ok ⟨pc, op, some index⟩)).toList =
            (placeText pc).toList ++ ':' :: ' ' :: (op.mnemonic.toList ++ (List.replicate wide ' ' ++
              ' ' :: (Nat.toDigits 10 index.toNat ++ (List.replicate narrow ' ' ++ ' ' :: more)))) := by
        refine ⟨10 - op.mnemonic.length, 4 - (toString index.toNat).length,
          ';' :: ';' :: ' ' :: (p.previewAt index).toList, ?_⟩
        simp [lineOf, Columns.padRight]
      have one (rest : List Char) : List.replicate wide ' ' ++ ' ' :: rest =
          List.replicate (wide + 1) ' ' ++ rest := by
        rw [List.replicate_succ', List.append_assoc, List.singleton_append]
      rw [readLine_of_toList spelled fun _ => head_spaces, one, readOperand_append _ index]
      intro c first
      obtain rfl := head_spaces first
      rfl

theorem unbroken_placeText (pc : Nat) : Unbroken (placeText pc) := fun present =>
  absurd (digits_placeText pc '\n' present) (by decide)

theorem unbroken_mnemonic (op : Opcode) : Unbroken op.mnemonic := by
  have all : ∀ op ∈ Opcode.all, '\n' ∉ op.mnemonic.toList := by decide
  exact all op (List.mem_of_getElem? (Opcode.ofWord?_word op))

theorem unbroken_padRight {text : String} (unbroken : Unbroken text) (width : Nat) :
    Unbroken (Columns.padRight width text) := by
  simp [Columns.padRight, unbroken]

theorem unbroken_string (s : String) : Unbroken (preview (.string s)) := by
  rw [preview]
  split
  · exact unbroken_append.mpr ⟨Quoted.unbroken_ofString _, by simp [Unbroken]⟩
  · exact Quoted.unbroken_ofString s

variable {p : Program} {instructions : List Instruction}

theorem unbroken_lineOf (clean : ∀ v ∈ p.constants, Unbroken (preview v)) (instruction : Instruction) :
    Unbroken (p.lineOf (.ok instruction)) := by
  obtain ⟨pc, op, operand⟩ := instruction
  have place := unbroken_placeText pc
  have colon : Unbroken ": " := by simp [Unbroken]
  cases operand with
  | none => simp [lineOf, place, colon, unbroken_mnemonic]
  | some index =>
      have shown : Unbroken (p.previewAt index) := by
        rw [previewAt]
        split
        · rename_i v held
          exact clean v (List.mem_of_getElem? held)
        · simp [Unbroken]
      have marks : Unbroken " " ∧ Unbroken " ;; " := by simp [Unbroken]
      simp [lineOf, place, colon, marks, shown, unbroken_padRight, unbroken_mnemonic, unbroken_repr]

def wordsOf (text : String) : List UInt32 := encode ((splitLines text).1.filterMap readLine)

theorem unbroken_listing (clean : ∀ v ∈ p.constants, Unbroken (preview v))
    (decoded : p.decode = instructions.map .ok) : ∀ line ∈ p.decode.map p.lineOf, Unbroken line := by
  intro line present
  rw [decoded, List.map_map] at present
  obtain ⟨instruction, -, rfl⟩ := List.mem_map.mp present
  exact unbroken_lineOf clean instruction

theorem splitLines_listing (clean : ∀ v ∈ p.constants, Unbroken (preview v))
    (decoded : p.decode = instructions.map .ok) :
    splitLines p.listing = (instructions.map fun instruction => p.lineOf (.ok instruction), "") := by
  rw [listing, splitLines_unlines (unbroken_listing clean decoded), decoded, List.map_map]
  rfl

theorem wordsOf_listing (clean : ∀ v ∈ p.constants, Unbroken (preview v))
    (decoded : p.decode = instructions.map .ok) (words : encode instructions = p.words) :
    wordsOf p.listing = p.words := by
  have shown : (instructions.map fun instruction => p.lineOf (.ok instruction)).filterMap readLine =
      instructions := by
    have same : (readLine ∘ fun instruction => p.lineOf (.ok instruction)) = some := funext p.readLine_lineOf
    rw [List.filterMap_map, same, List.filterMap_some]
  rw [wordsOf, splitLines_listing clean decoded, shown, words]

def tableOf (constants : List Value) : List String :=
  if constants = [] then []
  else "" :: ";; constants" :: constants.mapIdx fun k v => "const[" ++ placeText k ++ "] = " ++ preview v

theorem constantLines_eq (start : Nat) (constants : List Value) :
    constantLines start constants =
      constants.mapIdx fun k v => "const[" ++ placeText (start + k) ++ "] = " ++ preview v := by
  induction constants generalizing start with
  | nil => rfl
  | cons v rest ih =>
      have shift (k : Nat) : start + 1 + k = start + (k + 1) := by omega
      simp only [constantLines, ih, List.mapIdx_cons, Nat.add_zero, shift]
      rfl

theorem constantTable_eq (p : Program) : p.constantTable = tableOf p.constants := by
  rw [constantTable, tableOf, constantLines_eq]
  simp

theorem fullListing_eq (p : Program) (title : String) :
    p.fullListing title =
      p.header title ++ "\n" ++ (Columns.unlines (tableOf p.constants ++ ["", ";; code"]) ++ p.listing) := by
  rw [fullListing, constantTable_eq, List.cons_append, unlines_cons, String.append_assoc]

theorem unbroken_header (p : Program) {title : String} (unbroken : Unbroken title) :
    Unbroken (p.header title) := by
  have marks : Unbroken "== " ∧ Unbroken " == (consts=" ∧ Unbroken ", words=" ∧ Unbroken ")" := by
    simp [Unbroken]
  have whole : p.header title = "== " ++ title ++ " == (consts=" ++ p.constants.length.repr ++
      ", words=" ++ p.words.length.repr ++ ")" := rfl
  simp [whole, unbroken, marks, unbroken_repr]

theorem unbroken_table (clean : ∀ v ∈ p.constants, Unbroken (preview v)) :
    ∀ line ∈ tableOf p.constants ++ ["", ";; code"], Unbroken line := by
  have marks : Unbroken "" ∧ Unbroken ";; code" ∧ Unbroken ";; constants" ∧ Unbroken "const[" ∧
      Unbroken "] = " := by simp [Unbroken]
  have lines : ∀ line ∈ tableOf p.constants, Unbroken line := by
    unfold tableOf
    split
    · exact List.forall_mem_nil _
    · refine List.forall_mem_cons.mpr ⟨marks.1, List.forall_mem_cons.mpr ⟨marks.2.2.1, ?_⟩⟩
      intro line present
      obtain ⟨k, inside, rfl⟩ := List.mem_mapIdx.mp present
      simp [marks, unbroken_placeText, clean _ (List.getElem_mem inside)]
  rw [List.forall_mem_append]
  exact ⟨lines, by simp [marks]⟩

theorem splitLines_behind (clean : ∀ v ∈ p.constants, Unbroken (preview v))
    (decoded : p.decode = instructions.map .ok) :
    splitLines (Columns.unlines (tableOf p.constants ++ ["", ";; code"]) ++ p.listing) =
      (tableOf p.constants ++ ["", ";; code"] ++ (splitLines p.listing).1, "") := by
  have code := unbroken_listing clean decoded
  rw [listing, splitLines_unlines code, ← unlines_append, splitLines_unlines]
  exact List.forall_mem_append.mpr ⟨unbroken_table clean, code⟩

end Program

end PredicateLang
