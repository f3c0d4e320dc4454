import PredicateLang.Json.Parts
import PredicateLang.Text.Position

set_option autoImplicit false

namespace PredicateLang.Position

def toJson (p : Position) : Json :=
  .record [("line", .ofNat p.line.toNat), ("column", .ofNat p.column.toNat),
    ("index", .ofNat p.index.toNat)]

def ofJson? (document : Json) : Option Position := do
  match ← document.parts? ["line", "column", "index"] with
  | [line, column, index] => some ⟨← line.word?, ← column.word?, ← index.word?⟩
  | _ => none

end PredicateLang.Position
