import StructureLint.CommandLine.Presentation
import StructureLint.KeyMap
/-!
# The command line

`check [options] <document>`, `list-rules [options]` and `init [options]`, with the general options
before or after the command.

An option is given by its name (`--format json`, `--format=json`) or by its letter (`-f json`,
`-fjson`, `-f=json`); letters may be joined (`-vf json`). An option may be given once; `--` ends
the options. Arguments are looked at from the first to the last, and the first that asks for
something else than a command, or is wrong, decides (`Interruption`).
-/

namespace StructureLint.CommandLine

/-- What to do. -/
inductive Command where
  /-- Lint a document. -/
  | check (document : String) (format : Format) (lang rules : Option String)
  /-- List the built-in rules. -/
  | listRules (lang : Option String)
  /-- Write a configuration to start with, also over an old one if forced. -/
  | init (force : Bool)
deriving DecidableEq, Repr

/-- A command with the general options. -/
structure Invocation where
  verbose : Bool
  /-- The path of the configuration, if it is given. -/
  config : Option String
  command : Command
deriving DecidableEq, Repr

/-- What arguments ask for if not for a command. -/
inductive Interruption where
  /-- The arguments are wrong. -/
  | misuse
  | version
  | help
deriving DecidableEq, Repr

/-- The options of all commands together. -/
inductive Opt where
  | verbose
  | config
  | version
  | help
  | format
  | lang
  | rules
  | force
deriving DecidableEq, Repr

namespace Opt

/-- The name of an option. -/
def name : Opt → String
  | .verbose => "verbose"
  | .config => "config"
  | .version => "version"
  | .help => "help"
  | .format => "format"
  | .lang => "lang"
  | .rules => "rules"
  | .force => "force"

/-- The letter of an option. -/
def letter? : Opt → Option Char
  | .verbose => some 'v'
  | .config => some 'c'
  | .version => some 'V'
  | .help => some 'h'
  | .format => some 'f'
  | .lang => some 'l'
  | .rules => none
  | .force => none

/-- Whether an option has a value. -/
def hasValue : Opt → Bool
  | .config => true
  | .format => true
  | .lang => true
  | .rules => true
  | _ => false

/-- Whether an option may have the value. -/
def admits : Opt → String → Bool
  | .config, value => !value.isEmpty
  | .format, value => (Format.ofName? value).isSome
  | _, _ => true

end Opt

/-- The part of the arguments that options and other arguments belong to. -/
inductive Scope where
  /-- Before the command. -/
  | general
  | check
  | listRules
  | init
deriving DecidableEq, Repr

namespace Scope

/-- The options that may be given. -/
def options : Scope → List Opt
  | .general => [.verbose, .config, .help, .version]
  | .check => [.verbose, .config, .help, .format, .lang, .rules]
  | .listRules => [.verbose, .config, .help, .lang]
  | .init => [.verbose, .config, .help, .force]

/-- The number of arguments that are no options. -/
def places : Scope → Nat
  | .check => 1
  | _ => 0

/-- The scope that the name of a command opens. -/
def ofCommand? (name : String) : Option Scope :=
  if name = "check" then some .check
  else if name = "list-rules" then some .listRules
  else if name = "init" then some .init
  else none

end Scope

/-- What has been given in one scope. -/
structure Given where
  /-- Options with their values; a flag has an empty one. -/
  options : List (Opt × String) := []
  /-- Other arguments. -/
  arguments : List String := []
deriving DecidableEq, Repr

namespace Given

/-- The value of an option. -/
def value? (g : Given) (o : Opt) : Option String :=
  g.options.lookup o

/-- Whether an option was given. -/
def has (g : Given) (o : Opt) : Bool :=
  (g.value? o).isSome

/-- Adds an option with its value. Asking for the version or for help ends the reading. -/
def addOption (g : Given) (o : Opt) (value : String) : Except Interruption Given :=
  match o with
  | .version => .error .version
  | .help => .error .help
  | o =>
    if g.has o || !o.admits value then .error .misuse
    else .ok { g with options := g.options ++ [(o, value)] }

/-- Adds another argument, as long as there is a place for it. It must not be empty. -/
def addArgument (scope : Scope) (g : Given) (value : String) : Except Interruption Given :=
  if g.arguments.length < scope.places && !value.isEmpty then
    .ok { g with arguments := g.arguments ++ [value] }
  else .error .misuse

end Given

/-- An argument that is an option or a group of letters: it begins with a dash and goes on. -/
def looksLikeOption (arg : String) : Bool :=
  match arg.toList with
  | '-' :: _ :: _ => true
  | _ => false

/-- What one argument adds, and the option whose value must come next. -/
abbrev Step := Except Interruption (Given × Option Opt)

/-- Reads an option by name. -/
def readNamed (scope : Scope) (g : Given) (cs : List Char) : Step :=
  let name := String.ofList (cs.takeWhile (· != '='))
  let attached := cs.dropWhile (· != '=')
  match scope.options.find? (·.name == name), attached with
  | none, _ => .error .misuse
  | some o, [] => if o.hasValue then .ok (g, some o) else (g.addOption o "").map (·, none)
  | some o, _ :: value =>
    if o.hasValue then (g.addOption o (String.ofList value)).map (·, none) else .error .misuse

/-- Reads options by letter. What follows the letter of an option with a value is the value. -/
def readLetters (scope : Scope) (g : Given) : List Char → Step
  | [] => .ok (g, none)
  | c :: cs =>
    match scope.options.find? (·.letter? == some c) with
    | none => .error .misuse
    | some o =>
      if o.hasValue then
        match cs with
        | [] => .ok (g, some o)
        | '=' :: value => (g.addOption o (String.ofList value)).map (·, none)
        | value => (g.addOption o (String.ofList value)).map (·, none)
      else
        match g.addOption o "" with
        | .error i => .error i
        | .ok g => readLetters scope g cs

/-- Adds arguments that cannot be options. -/
def readPlain (scope : Scope) (g : Given) : List String → Except Interruption Given
  | [] => .ok g
  | arg :: args =>
    match g.addArgument scope arg with
    | .error i => .error i
    | .ok g => readPlain scope g args

/-- Reads all arguments of a command; `wanted` is the option whose value comes next. -/
def read (scope : Scope) (g : Given) : Option Opt → List String → Except Interruption Given
  | none, [] => .ok g
  | some _, [] => .error .misuse
  | some o, arg :: args =>
    if looksLikeOption arg then .error .misuse
    else
      match g.addOption o arg with
      | .error i => .error i
      | .ok g => read scope g none args
  | none, arg :: args =>
    match arg.toList with
    | ['-', '-'] => readPlain scope g args
    | '-' :: '-' :: cs =>
      match readNamed scope g cs with
      | .error i => .error i
      | .ok (g, wanted) => read scope g wanted args
    | '-' :: c :: cs =>
      match readLetters scope g (c :: cs) with
      | .error i => .error i
      | .ok (g, wanted) => read scope g wanted args
    | _ =>
      match g.addArgument scope arg with
      | .error i => .error i
      | .ok g => read scope g none args

/-- What a run is told of its surroundings. -/
structure Environment where
  /-- The variables that are set. -/
  values : KeyMap String := ∅
  /-- The home directory. The system may know it also where no variable names it. -/
  home : Option String := none
deriving DecidableEq, Repr

/-- The value of a variable. -/
def Environment.get? (environment : Environment) (name : String) : Option String :=
  environment.values.get? name

/-- The variable that holds the language of messages where no option asks for one. -/
def langVariable : String := "DOCLINT_LANG"

/-- The command that has been read in a scope. -/
def commandOf (environment : Environment) (scope : Scope) (g : Given) :
    Except Interruption Command :=
  let lang := (g.value? .lang).or (environment.get? langVariable)
  match scope, g.arguments with
  | .check, document :: _ =>
    let format := ((g.value? .format).bind Format.ofName?).getD .text
    .ok (.check document format lang (g.value? .rules))
  | .check, [] => .error .misuse
  | .listRules, _ => .ok (.listRules lang)
  | .init, _ => .ok (.init (g.has .force))
  | .general, _ => .error .misuse

/-- Reads the arguments after the name of a command. What is given there counts more than what was
given before. -/
def readCommand (environment : Environment) (before : Given) (scope : Scope)
    (args : List String) : Except Interruption Invocation :=
  match read scope {} none args with
  | .error i => .error i
  | .ok g =>
    match commandOf environment scope g with
    | .error i => .error i
    | .ok command =>
      .ok { verbose := g.has .verbose || before.has .verbose
            config := (g.value? .config).or (before.value? .config)
            command }

/-- What `help` asks for: help about everything or about a command. -/
def readHelp : List String → Interruption
  | [] => .help
  | [name] => if (Scope.ofCommand? name).isSome || name == "help" then .help else .misuse
  | _ => .misuse

/-- Reads the arguments up to the name of a command, and those after it. -/
def readGeneral (environment : Environment) (g : Given) :
    Option Opt → List String → Except Interruption Invocation
  | _, [] => .error .misuse
  | some o, arg :: args =>
    if looksLikeOption arg then .error .misuse
    else
      match g.addOption o arg with
      | .error i => .error i
      | .ok g => readGeneral environment g none args
  | none, arg :: args =>
    match arg.toList with
    | ['-', '-'] => .error .misuse
    | '-' :: '-' :: cs =>
      match readNamed .general g cs with
      | .error i => .error i
      | .ok (g, wanted) => readGeneral environment g wanted args
    | '-' :: c :: cs =>
      match readLetters .general g (c :: cs) with
      | .error i => .error i
      | .ok (g, wanted) => readGeneral environment g wanted args
    | _ =>
      match Scope.ofCommand? arg with
      | some scope => readCommand environment g scope args
      | none => .error (if arg == "help" then readHelp args else .misuse)

/-- Reads the arguments of the program. -/
def parse (environment : Environment) (args : List String) : Except Interruption Invocation :=
  readGeneral environment {} none args

end StructureLint.CommandLine
