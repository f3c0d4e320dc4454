import Mathlib.Tactic.SplitIfs
import PredicateLang.Number.Written
import PredicateLang.Text.Columns
import PredicateLang.Text.Quoted

set_option autoImplicit false

namespace PredicateLang

def Unbroken (text : String) : Prop := '\n' ∉ text.toList

@[simp] theorem unbroken_append {one other : String} :
    Unbroken (one ++ other) ↔ Unbroken one ∧ Unbroken other := by
  simp [Unbroken]

@[simp] theorem unbroken_ofList {text : List Char} : Unbroken (String.ofList text) ↔ '\n' ∉ text := by
  simp [Unbroken]

/-- The lines of a text, each of them ended by a newline, and what stands behind the last newline. -/
def splitLines (text : String) : List String × String :=
  let parts := (text.toList.splitOn '\n').map String.ofList
  (parts.dropLast, parts.getLastD "")

theorem unlines_cons (line : String) (rest : List String) :
    Columns.unlines (line :: rest) = line ++ "\n" ++ Columns.unlines rest := by
  simp [Columns.unlines]

theorem unlines_append (front behind : List String) :
    Columns.unlines (front ++ behind) = Columns.unlines front ++ Columns.unlines behind := by
  induction front with
  | nil => simp [Columns.unlines]
  | cons line front ih =>
      rw [List.cons_append, unlines_cons, unlines_cons, ih, String.append_assoc, String.append_assoc,
        String.append_assoc]

theorem toList_unlines (lines : List String) :
    (Columns.unlines lines).toList = ['\n'].intercalate (lines.map String.toList ++ [[]]) := by
  induction lines with
  | nil => rfl
  | cons line rest ih =>
      obtain ⟨next, others, same⟩ : ∃ next others, rest.map String.toList ++ [[]] = next :: others :=
        List.exists_cons_of_ne_nil (by simp)
      rw [unlines_cons, String.toList_append, ih, List.map_cons, List.cons_append, same,
        List.intercalate_cons_cons]
      simp

theorem splitLines_unlines {lines : List String} (unbroken : ∀ line ∈ lines, Unbroken line) :
    splitLines (Columns.unlines lines) = (lines, "") := by
  have apart : ∀ part ∈ lines.map String.toList ++ [[]], '\n' ∉ part := by
    intro part present
    obtain inside | last := List.mem_append.mp present
    · obtain ⟨line, among, rfl⟩ := List.mem_map.mp inside
      exact unbroken line among
    · obtain rfl := List.mem_singleton.mp last
      exact List.not_mem_nil
  rw [splitLines, toList_unlines, List.splitOn_intercalate '\n' apart (by simp)]
  simp [Function.comp_def]

theorem no_newline_toDigits {base : Nat} (positional : 1 < base) (n : Nat) : '\n' ∉ Nat.toDigits base n := by
  induction n using Nat.strongRecOn with
  | _ n ih =>
      rw [Nat.toDigits_eq_if positional]
      split
      · simp
      · have fewer : n / base < n := Nat.div_lt_self (by omega) positional
        simpa using ih _ fewer

theorem no_newline_decimal (n : Nat) : '\n' ∉ Nat.toDigits 10 n :=
  no_newline_toDigits (by decide) n

theorem unbroken_repr (n : Nat) : Unbroken n.repr := by
  rw [Unbroken, Nat.toList_repr]
  exact no_newline_decimal n

section

variable {digits : List Char}

theorem no_newline_take (clean : '\n' ∉ digits) (n : Nat) : '\n' ∉ digits.take n :=
  fun inside => clean (List.mem_of_mem_take inside)

theorem no_newline_drop (clean : '\n' ∉ digits) (n : Nat) : '\n' ∉ digits.drop n :=
  fun inside => clean (List.mem_of_mem_drop inside)

end

namespace NumberStyle

theorem no_newline_positional {digits : List Char} (clean : '\n' ∉ digits) (exponent : Int) :
    '\n' ∉ positional digits exponent := by
  have padding (n : Nat) : '\n' ∉ zeros n := by simp [zeros]
  unfold positional
  split
  · simp [clean, padding]
  · dsimp only
    split
    · simp [no_newline_take clean, no_newline_drop clean]
    · simp [clean, padding]

theorem no_newline_scientific {plus : String} {digits : List Char} (signed : Unbroken plus)
    (clean : '\n' ∉ digits) (magnitude : Int) : '\n' ∉ scientific plus digits magnitude := by
  have exponent := no_newline_decimal magnitude.natAbs
  have sign : '\n' ∉ if magnitude < 0 then ['-'] else plus.toList := by
    split
    · decide
    · exact signed
  have fraction : '\n' ∉ if (digits.drop 1).isEmpty then [] else '.' :: digits.drop 1 := by
    split
    · exact List.not_mem_nil
    · exact List.not_mem_cons_of_ne_of_not_mem (by decide) (no_newline_drop clean 1)
  simp only [scientific, List.mem_append, List.mem_cons, not_or]
  exact ⟨⟨⟨no_newline_take clean 1, fraction⟩, by decide, sign⟩, exponent⟩

theorem no_newline_magnitudeText {style : NumberStyle} (signed : Unbroken style.plus) (d : Decimal) :
    '\n' ∉ style.magnitudeText d := by
  rw [magnitudeText]
  split
  · exact no_newline_positional (no_newline_decimal _) _
  · exact no_newline_scientific signed (no_newline_decimal _) _

theorem unbroken_write {style : NumberStyle} (signed : Unbroken style.plus) (x : Float) :
    Unbroken (style.write x) := by
  have sign (s : Float.Model.UnpackedFloat.Sign) : Unbroken (signText s) := by
    cases s <;> simp [signText, Unbroken]
  rw [write]
  cases x.toModel.unpack with
  | notANumber =>
      change Unbroken "NaN"
      simp [Unbroken]
  | infinity s => exact unbroken_append.mpr ⟨sign s, by simp [Unbroken]⟩
  | zero s => exact unbroken_append.mpr ⟨sign s, by simp [Unbroken]⟩
  | finite s m e valid =>
      exact unbroken_append.mpr ⟨sign s, unbroken_ofList.mpr (no_newline_magnitudeText signed _)⟩

end NumberStyle

namespace Quoted

theorem no_newline_escape (quote c : Char) : '\n' ∉ escape quote c := by
  have digits : '\n' ∉ Nat.toDigits 16 c.toNat := no_newline_toDigits (by decide) _
  have code : '\n' ∉ escapeCode c := by simp [escapeCode, digits]
  unfold escape
  by_cases newline : c = '\n'
  · simp [newline]
  · split_ifs <;> simp [code, Ne.symm newline]

theorem no_newline_encode {quote : Char} (visible : quote ≠ '\n') (text : List Char) :
    '\n' ∉ encode quote text := by
  simp [encode, no_newline_escape, visible.symm]

theorem unbroken_ofString (text : String) : Unbroken (ofString text) :=
  unbroken_ofList.mpr (no_newline_encode (by decide) _)

end Quoted

end PredicateLang
