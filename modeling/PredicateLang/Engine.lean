import PredicateLang.Compilation
import PredicateLang.Machine.Run
import PredicateLang.Syntax.Parser

set_option autoImplicit false

namespace PredicateLang

structure EngineOptions where
  -- Whether a keyword must not be followed by a letter.
  keywordBoundary : Bool
  -- Whether compiled programs are checked.
  validate : Bool
  maxStack : Nat
  deriving DecidableEq

namespace EngineOptions

def default : EngineOptions := ⟨true, true, 1024⟩

instance : Inhabited EngineOptions := ⟨default⟩

end EngineOptions

inductive EngineFault
  | lexing (fault : LexFault)
  | parsing (fault : ParseFault)
  | compiling (fault : CompileFault)
  | running (fault : RuntimeFault)
  deriving DecidableEq

namespace EngineFault

def ofParse : ParseFault → EngineFault
  -- Faults of tokens count as such also where the parser meets them.
  | .lexical fault => .lexing fault
  | fault => .parsing fault

def message : EngineFault → String
  | .lexing fault => "lex error: " ++ fault.message
  | .parsing fault => "parse error: " ++ fault.message
  | .compiling fault => "compile error: " ++ fault.message
  | .running fault => "runtime error: " ++ fault.message

end EngineFault

structure Engine (ω : Type) where
  options : EngineOptions
  bindings : Bindings ω

namespace EngineOptions

def tokenize (options : EngineOptions) (source : String) : Except EngineFault (List Token) :=
  (allTokens (Scanner.ofString options.keywordBoundary source)).mapError .lexing

def parse (options : EngineOptions) (source : String) : Except EngineFault Node :=
  (PredicateLang.parse (Scanner.ofString options.keywordBoundary source)).mapError .ofParse

def compile (options : EngineOptions) (source : String) : Except EngineFault Program := do
  let root ← options.parse source
  (PredicateLang.compile options.validate root).mapError .compiling

end EngineOptions

namespace Engine

variable {ω : Type}

def ofOptions (options : EngineOptions) : Engine ω := ⟨options, .empty⟩

def register (engine : Engine ω) (name : String) (producer : Producer ω) : Engine ω :=
  { engine with bindings := engine.bindings.register name producer }

def run (engine : Engine ω) (program : Program) (world : ω) :
    Except EngineFault (Option Value) × ω :=
  match program.run engine.bindings engine.options.maxStack world with
  | (result, after) => (result.mapError .running, after)

def eval (engine : Engine ω) (source : String) (world : ω) :
    Except EngineFault (Option Value) × ω :=
  match engine.options.compile source with
  | .error fault => (.error fault, world)
  | .ok program => engine.run program world

end Engine

end PredicateLang
