import PredicateLang.CommandLine.Command
import PredicateLang.Number.Count

set_option autoImplicit false

namespace PredicateLang

inductive CommandName
  | eval
  | tokens
  | ast
  | disasm
  deriving DecidableEq

def CommandName.ofText? (text : String) : Option CommandName :=
  if text = "eval" then some .eval
  else if text = "tokens" then some .tokens
  else if text = "ast" then some .ast
  else if text = "disasm" then some .disasm
  else none

inductive Setting
  | verbose
  | quiet
  | color
  | version
  | help
  | file
  | bind
  | bindFile
  | noKeywordBoundary
  | noValidate
  | maxStack
  | time
  | exitStatus
  | skipWhitespace
  | json
  | compact
  deriving DecidableEq

namespace Setting

def longName : Setting → String
  | .verbose => "verbose"
  | .quiet => "quiet"
  | .color => "color"
  | .version => "version"
  | .help => "help"
  | .file => "file"
  | .bind => "bind"
  | .bindFile => "bind-file"
  | .noKeywordBoundary => "no-keyword-boundary"
  | .noValidate => "no-validate"
  | .maxStack => "max-stack"
  | .time => "time"
  | .exitStatus => "exit-status"
  | .skipWhitespace => "skip-whitespace"
  | .json => "json"
  | .compact => "compact"

def letter? : Setting → Option Char
  | .verbose => some 'v'
  | .quiet => some 'q'
  | .version => some 'V'
  | .help => some 'h'
  | .file => some 'f'
  | .exitStatus => some 'e'
  | _ => none

def takesValue : Setting → Bool
  | .color | .file | .bind | .bindFile | .maxStack => true
  | _ => false

def repeats : Setting → Bool
  -- May be given more than once.
  | .verbose | .bind | .bindFile => true
  | _ => false

def everywhere : List Setting := [.verbose, .quiet, .color, .help]

def ofSource : List Setting := [.file, .noKeywordBoundary, .noValidate, .maxStack]

def known : Option CommandName → List Setting
  | none => .version :: everywhere
  | some .eval => [.bind, .bindFile, .time, .exitStatus] ++ ofSource ++ everywhere
  | some .tokens => [.skipWhitespace, .json] ++ ofSource ++ everywhere
  | some .ast => .compact :: ofSource ++ everywhere
  | some .disasm => .compact :: ofSource ++ everywhere

def ofLongName? (command : Option CommandName) (name : String) : Option Setting :=
  (known command).find? fun setting => setting.longName = name

def ofLetter? (command : Option CommandName) (letter : Char) : Option Setting :=
  (known command).find? fun setting => setting.letter? = some letter

end Setting

inductive Interruption
  | usage
  | version
  | help
  deriving DecidableEq

structure Given where
  -- What the arguments have given so far, and which settings were given on the present level.
  settings : List Setting
  expression : Option String
  file : Option String
  bindings : List BindingArgument
  fileBindings : List BindingArgument
  maxStack : Option Nat

namespace Given

def nothing : Given := ⟨[], none, none, [], [], none⟩

def has (given : Given) (setting : Setting) : Bool := given.settings.contains setting

def valueOf {ε α : Type} : Except ε α → Except Interruption α
  | .error _ => .error .usage
  | .ok a => .ok a

def take (given : Given) (setting : Setting) (value : String) : Except Interruption Given :=
  -- Takes in the value of a setting, which is empty for those that have none.
  match setting with
  | .version => .error .version
  | .help => .error .help
  | .color => if ["auto", "always", "never"].contains value then .ok given else .error .usage
  | .file => if value = "" then .error .usage else .ok { given with file := some value }
  | .maxStack =>
      match Count.read? value with
      | none => .error .usage
      | some count => .ok { given with maxStack := some count }
  | .bind => do
      let binding ← valueOf (BindingArgument.ofInline value)
      return { given with bindings := given.bindings ++ [binding] }
  | .bindFile => do
      let binding ← valueOf (BindingArgument.ofFile value)
      return { given with fileBindings := given.fileBindings ++ [binding] }
  | _ => .ok given

def add (given : Given) (setting : Setting) (value : String) : Except Interruption Given :=
  if given.has setting && !setting.repeats then .error .usage
  else { given with settings := setting :: given.settings }.take setting value

def addExpression (given : Given) (text : String) : Except Interruption Given :=
  if given.expression.isSome then .error .usage else .ok { given with expression := some text }

def addExpressions (given : Given) (texts : List String) : Except Interruption Given :=
  texts.foldlM addExpression given

end Given

inductive Letters
  | read (given : Given)
  | waiting (given : Given) (setting : Setting)

def attachedValue : List Char → String
  -- An equals sign in front does not belong to the value.
  | '=' :: value => String.ofList value
  | value => String.ofList value

def readLetters (command : Option CommandName) (given : Given) :
    List Char → Except Interruption Letters
  | [] => .ok (.read given)
  | letter :: rest =>
      match Setting.ofLetter? command letter with
      | none => .error .usage
      | some setting =>
          if setting.takesValue then
            if rest.isEmpty then .ok (.waiting given setting)
            else (given.add setting (attachedValue rest)).map .read
          else
            match given.add setting "" with
            | .error interruption => .error interruption
            | .ok given => readLetters command given rest

inductive Shape
  | separator
  | long (name : String) (value : Option String)
  | letters (letters : List Char)
  | plain (text : String)

def longShape (text : List Char) : Shape :=
  match BindingArgument.splitAtEquals? text with
  | none => .long (String.ofList text) none
  | some (name, value) => .long (String.ofList name) (some (String.ofList value))

def Shape.of (argument : String) : Shape :=
  match argument.toList with
  | ['-', '-'] => .separator
  | '-' :: '-' :: text => longShape text
  | ['-'] => .plain argument
  | '-' :: text => .letters text
  | _ => .plain argument

def nextValue? (argument : String) : Option String :=
  match Shape.of argument with
  | .plain text => some text
  | _ => none

def withValue (given : Given) (setting : Setting) (argument : String) :
    Except Interruption Given :=
  match nextValue? argument with
  | none => .error .usage
  | some value => given.add setting value

def helpOn : List String → Interruption
  -- Help on the program, on a command that is named, or on asking for help, and nothing else.
  | [] => .help
  | [name] => if name = "help" ∨ (CommandName.ofText? name).isSome then .help else .usage
  | _ => .usage

def readArguments (command : Option CommandName) (given : Given) :
    List String → Except Interruption (CommandName × Given)
  | [] =>
      match command with
      | none => .error .usage
      | some command => .ok (command, given)
  | argument :: rest =>
      match Shape.of argument with
      | .separator =>
          match command with
          | none => .error .usage
          | some command => (given.addExpressions rest).map fun given => (command, given)
      | .plain text =>
          match command with
          | none =>
              match CommandName.ofText? text with
              | none => .error (if text = "help" then helpOn rest else .usage)
              | some command => readArguments (some command) .nothing rest
          | some _ => do readArguments command (← given.addExpression text) rest
      | .letters letters => do
          match ← readLetters command given letters with
          | .read given => readArguments command given rest
          | .waiting given setting =>
              match rest with
              | [] => .error .usage
              | value :: rest => do readArguments command (← withValue given setting value) rest
      | .long name attached =>
          match Setting.ofLongName? command name with
          | none => .error .usage
          | some setting =>
              if setting.takesValue then
                match attached with
                | some value => do readArguments command (← given.add setting value) rest
                | none =>
                    match rest with
                    | [] => .error .usage
                    | value :: rest => do
                        readArguments command (← withValue given setting value) rest
              else if attached.isSome then .error .usage
              else do readArguments command (← given.add setting "") rest

def Given.source? (given : Given) : Option Source :=
  -- An expression and a file exclude each other; a hyphen or nothing at all stands for the input.
  match given.expression, given.file with
  | some _, some _ => none
  | none, some path => some (.file path)
  | some text, none => some (if text = "-" then .input else .expression text)
  | none, none => some .input

def Given.options (given : Given) : EngineOptions where
  keywordBoundary := !given.has .noKeywordBoundary
  validate := !given.has .noValidate
  maxStack := given.maxStack.getD EngineOptions.default.maxStack

def Given.task (given : Given) : CommandName → Task
  | .eval => .eval (given.bindings ++ given.fileBindings) (given.has .exitStatus)
  | .tokens => .tokens (given.has .skipWhitespace) (given.has .json)
  | .ast => .ast (given.has .compact)
  | .disasm => .disasm (given.has .compact)

def Command.ofArguments (arguments : List String) : Except Interruption Command := do
  let (name, given) ← readArguments none .nothing arguments
  match given.source? with
  | none => .error .usage
  | some source => return ⟨source, given.options, given.task name⟩

def versionText : String := "clause 0.1.0\n"

def helpText : String := "Usage: clause [OPTIONS] <COMMAND>\n"

def answerTo (surroundings : Surroundings) (arguments : List String) :
    Except CommandFault Answer :=
  match Command.ofArguments arguments with
  | .error .version => .ok ⟨0, versionText⟩
  | .error .help => .ok ⟨0, helpText⟩
  | .error .usage => .ok ⟨2, ""⟩
  | .ok command => command.run surroundings

end PredicateLang
