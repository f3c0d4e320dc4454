import PredicateLang.Bytecode.Program
import PredicateLang.Text.Columns
import PredicateLang.Text.Quoted

set_option autoImplicit false

namespace PredicateLang.Program

open Columns

def previewLength : Nat := 64

def preview : Value → String
  | .string s =>
      if previewLength < s.length then Quoted.ofString (String.ofList (s.toList.take previewLength)) ++ "…"
      else Quoted.ofString s
  | .char c => Quoted.ofChar c
  | v => v.display

def previewAt (p : Program) (index : UInt32) : String :=
  match p.constant? index with
  | some v => preview v
  | none => "<out of range>"

def placeText (pc : Nat) : String := padZeros 4 (toString pc)

def lineOf (p : Program) : Except ProgramFault Instruction → String
  | .error fault => ";; error: " ++ fault.message
  | .ok ⟨pc, opcode, none⟩ => placeText pc ++ ": " ++ opcode.mnemonic
  | .ok ⟨pc, opcode, some index⟩ =>
      placeText pc ++ ": " ++ padRight 10 opcode.mnemonic ++ " " ++
        padRight 4 (toString index.toNat) ++ " ;; " ++ p.previewAt index

def listing (p : Program) : String := unlines (p.decode.map p.lineOf)

def header (p : Program) (title : String) : String :=
  s!"== {title} == (consts={p.constants.length}, words={p.words.length})"

def constantLines (index : Nat) : List Value → List String
  | [] => []
  | v :: rest => s!"const[{placeText index}] = {preview v}" :: constantLines (index + 1) rest

def constantTable (p : Program) : List String :=
  if p.constants.isEmpty then [] else "" :: ";; constants" :: constantLines 0 p.constants

def fullListing (p : Program) (title : String) : String :=
  unlines (p.header title :: p.constantTable ++ ["", ";; code"]) ++ p.listing

end PredicateLang.Program
