import PredicateLang.Text.CharClass

set_option autoImplicit false

namespace PredicateLang

inductive BindingSource
  | json (text : String)
  | file (path : String)
  deriving DecidableEq

structure BindingArgument where
  name : String
  source : BindingSource
  deriving DecidableEq

inductive BindingFault
  | noValue (argument : String)
  | invalidName (name : String)
  | emptyPath (argument : String)
  deriving DecidableEq

def BindingFault.message : BindingFault → String
  | .noValue argument => "expected NAME=VALUE, got `" ++ argument ++ "`"
  | .invalidName name => "invalid binding name `" ++ name ++ "`"
  | .emptyPath argument => "empty path in binding `" ++ argument ++ "`"

namespace BindingArgument

def splitAtEquals? : List Char → Option (List Char × List Char)
  | [] => none
  | c :: rest =>
      if c = '=' then some ([], rest)
      else (splitAtEquals? rest).map fun parts => (c :: parts.1, parts.2)

def bareName : List Char → List Char
  | '@' :: name => name
  | name => name

def split (argument : String) : Except BindingFault (String × String) :=
  match splitAtEquals? argument.toList with
  | none => .error (.noValue argument)
  | some (front, value) =>
      let name := bareName front
      if name.isEmpty || !name.all isLetter then .error (.invalidName (String.ofList name))
      else .ok (String.ofList name, String.ofList value)

def ofInline (argument : String) : Except BindingFault BindingArgument := do
  let (name, text) ← split argument
  return ⟨name, .json text⟩

def ofFile (argument : String) : Except BindingFault BindingArgument := do
  let (name, path) ← split argument
  if path = "" then throw (.emptyPath argument)
  return ⟨name, .file path⟩

end BindingArgument

end PredicateLang
