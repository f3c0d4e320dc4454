import PredicateLang.Bytecode.Listing
import PredicateLang.CommandLine.Binding
import PredicateLang.Engine
import PredicateLang.Host.Producer
import PredicateLang.Json.Reading
import PredicateLang.Json.Written
import PredicateLang.Syntax.Document
import PredicateLang.Token.Document

set_option autoImplicit false

namespace PredicateLang

inductive Source
  | expression (text : String)
  | file (path : String)
  | input
  deriving DecidableEq

inductive Task
  -- With the exit status, a false result is told by the exit code.
  | eval (bindings : List BindingArgument) (exitStatus : Bool)
  | tokens (skipBlanks json : Bool)
  | ast (compact : Bool)
  | disasm (compact : Bool)

structure Command where
  source : Source
  options : EngineOptions
  task : Task

inductive FileContent
  | missing
  | unreadable
  | bytes (content : List UInt8)

structure Surroundings where
  file : String → FileContent
  input : List UInt8

structure Answer where
  code : Nat
  text : String
  deriving DecidableEq

inductive CommandFault
  | openSource (path : String)
  | readSource (path : String)
  | readInput
  | openBinding (name path : String)
  | invalidJson (name : String)
  | invalidJsonFile (name path : String)
  | evaluation (fault : EngineFault)
  | engine (fault : EngineFault)
  deriving DecidableEq

namespace CommandFault

def message : CommandFault → String
  | .openSource path => "open: " ++ path
  | .readSource path => "read: " ++ path
  | .readInput => "reading stdin"
  | .openBinding name path => "binding @" ++ name ++ ": open " ++ path
  | .invalidJson name => "binding @" ++ name ++ ": invalid JSON"
  | .invalidJsonFile name path => "binding @" ++ name ++ ": invalid JSON in " ++ path
  | .evaluation _ => "evaluation failed"
  | .engine fault => fault.message

def cause? : CommandFault → Option EngineFault
  | .evaluation fault => some fault
  | .engine fault => some fault
  | _ => none

end CommandFault

def Source.title : Source → String
  | .expression _ => "<expr>"
  | .file path => path
  | .input => "<stdin>"

def Source.read (surroundings : Surroundings) : Source → Except CommandFault String
  | .expression text => .ok text
  | .input =>
      match Utf8.text? surroundings.input with
      | none => .error .readInput
      | some text => .ok text
  | .file path =>
      match surroundings.file path with
      | .missing => .error (.openSource path)
      | .unreadable => .error (.readSource path)
      | .bytes content =>
          match Utf8.text? content with
          | none => .error (.readSource path)
          | some text => .ok text

def readJson? (text : String) : Option Json := Json.read? Json.nesting text

def BindingArgument.load (surroundings : Surroundings) (binding : BindingArgument) :
    Except CommandFault Json :=
  match binding.source with
  | .json text =>
      match readJson? text with
      | none => .error (.invalidJson binding.name)
      | some document => .ok document
  | .file path =>
      match surroundings.file path with
      | .missing => .error (.openBinding binding.name path)
      | .unreadable => .error (.invalidJsonFile binding.name path)
      | .bytes content =>
          match (Utf8.text? content).bind readJson? with
          | none => .error (.invalidJsonFile binding.name path)
          | some document => .ok document

def BindingArgument.paths (binding : BindingArgument) : List String :=
  match binding.source with
  | .json _ => []
  | .file path => [path]

def Source.paths : Source → List String
  | .file path => [path]
  | _ => []

def Task.paths : Task → List String
  | .eval bindings _ => bindings.flatMap BindingArgument.paths
  | _ => []

-- Every file that a command may look at.
def Command.paths (command : Command) : List String := command.source.paths ++ command.task.paths

def Command.readsInput (command : Command) : Bool := command.source = .input

def isTruthy : Value → Bool
  -- Zero and `false` are false, everything else is true.
  | .int i => i != 0
  | .bool b => b
  | .double x => x != 0
  | _ => true

def registerAll (surroundings : Surroundings) (engine : Engine Unit) :
    List BindingArgument → Except CommandFault (Engine Unit)
  | [] => .ok engine
  | binding :: rest => do
      let document ← binding.load surroundings
      registerAll surroundings
        (engine.register binding.name (.converting (.document document))) rest

def Answer.ofValue (exitStatus : Bool) : Option Value → Answer
  | none => ⟨if exitStatus then 1 else 0, ""⟩
  | some v => ⟨if exitStatus && !isTruthy v then 1 else 0, v.display ++ "\n"⟩

def Token.listed (t : Token) : String :=
  Columns.padRight 8 t.position.text ++ " " ++ Columns.padRight 14 t.kind.text ++ " " ++
    Quoted.ofString t.text

def listTokens (skipBlanks json : Bool) (tokens : List Token) : String :=
  let kept := tokens.filter fun t => !(skipBlanks && t.kind = .whitespace)
  if json then (Json.list (kept.map Token.toJson)).pretty 0 ++ "\n"
  else Columns.unlines (kept.map Token.listed)

def Command.run (surroundings : Surroundings) (command : Command) :
    Except CommandFault Answer := do
  let source ← command.source.read surroundings
  match command.task with
  | .eval bindings exitStatus =>
      let engine ← registerAll surroundings (.ofOptions command.options) bindings
      let result ← (engine.eval source ()).1.mapError .evaluation
      return .ofValue exitStatus result
  | .tokens skipBlanks json =>
      let tokens ← (command.options.tokenize source).mapError .engine
      return ⟨0, listTokens skipBlanks json tokens⟩
  | .ast compact =>
      let root ← (command.options.parse source).mapError .engine
      return ⟨0, (if compact then root.toJson.compact else root.toJson.pretty 0) ++ "\n"⟩
  | .disasm compact =>
      let program ← (command.options.compile source).mapError .engine
      return ⟨0, if compact then program.listing else program.fullListing command.source.title⟩

end PredicateLang
