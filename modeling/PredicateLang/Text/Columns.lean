set_option autoImplicit false

namespace PredicateLang.Columns

def padZeros (width : Nat) (s : String) : String :=
  String.ofList (List.replicate (width - s.length) '0') ++ s

def padRight (width : Nat) (s : String) : String :=
  s ++ String.ofList (List.replicate (width - s.length) ' ')

def unlines (lines : List String) : String := String.join (lines.map (· ++ "\n"))

end PredicateLang.Columns
