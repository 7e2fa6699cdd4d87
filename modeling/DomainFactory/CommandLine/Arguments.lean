import DomainFactory.Text.Affix

/-!
# Command line arguments

The program has one command, which generates the factories of the types declared in files. Options
have long and short names; a value stands behind its option or is attached to it. No option may be
given twice, and behind two hyphens everything is a file.
-/
namespace DomainFactory.CommandLine

open Text

/-- What is printed for a plan. -/
inductive OutputFormat where
  /-- The source text of its facade. -/
  | facade
  /-- The plan itself as JSON. -/
  | plan
deriving DecidableEq, Repr

namespace OutputFormat

/-- The format with a name. -/
def ofName? : String → Option OutputFormat
  | "rust" => some .facade
  | "json" => some .plan
  | _ => none

end OutputFormat

/-- What the command is asked to generate. -/
structure Settings where
  /-- The files with declarations, in order. -/
  files : List String
  /-- The only type to generate; without one every type with a factory. -/
  typeName : Option String
  /-- What is printed. -/
  format : OutputFormat
  /-- The file with the configuration. -/
  config : Option String
deriving DecidableEq, Repr

/-- What the program is asked to do. -/
inductive Command where
  /-- To generate factories. -/
  | generate (settings : Settings)
  /-- To tell its version. -/
  | version
  /-- To explain its use. -/
  | help
deriving DecidableEq, Repr

/-- Where an argument stands. -/
inductive Level where
  /-- In front of the command. -/
  | program
  /-- Behind the command. -/
  | generate
deriving DecidableEq, Repr

/-- An option that takes a value. -/
inductive Valued where
  /-- The only type to generate. -/
  | type
  /-- The output format. -/
  | format
  /-- The configuration file. -/
  | config
  /-- The level of the log. -/
  | logLevel
deriving DecidableEq, Repr

/-- An option by what it does. -/
inductive Switch where
  /-- Takes a value. -/
  | valued (name : Valued)
  /-- Turns the log into JSON. -/
  | logJson
  /-- Asks for the version. -/
  | version
  /-- Asks for help. -/
  | help
deriving DecidableEq, Repr

namespace Valued

/-- Whether a text can be the value of an option. -/
def accepts (value : String) : Valued → Bool
  | .format => (OutputFormat.ofName? value).isSome
  | .config => !value.isEmpty
  | .type | .logLevel => true

end Valued

namespace Switch

/-- The option with a long name. -/
def ofLong? (level : Level) : String → Option Switch
  | "help" => some .help
  | "log-level" => some (.valued .logLevel)
  | "log-json" => some .logJson
  | "version" => if level = .program then some .version else none
  | "type" => if level = .generate then some (.valued .type) else none
  | "format" => if level = .generate then some (.valued .format) else none
  | "config" => if level = .generate then some (.valued .config) else none
  | _ => none

/-- The option with a short name. -/
def ofShort? (level : Level) : Char → Option Switch
  | 'h' => some .help
  | 'V' => if level = .program then some .version else none
  | 't' => if level = .generate then some (.valued .type) else none
  | 'f' => if level = .generate then some (.valued .format) else none
  | 'c' => if level = .generate then some (.valued .config) else none
  | _ => none

end Switch

/-- An argument by its form. -/
inductive Argument where
  /-- An option, perhaps with an attached value. -/
  | option (switch : Switch) (attached : Option String)
  /-- A text that is no option. -/
  | plain (text : String)
  /-- Two hyphens, the end of the options. -/
  | endOfOptions
  /-- An option that there is not. -/
  | unknown
deriving DecidableEq, Repr

namespace Argument

/-- The argument with a text. -/
def ofText (level : Level) (text : String) : Argument :=
  match text.toList with
  | ['-', '-'] => .endOfOptions
  | '-' :: '-' :: long =>
    let name := long.takeWhile (· != '=')
    let attached := (after? ('=' :: []) (long.drop name.length)).map String.ofList
    match Switch.ofLong? level (String.ofList name) with
    | some switch => .option switch attached
    | none => .unknown
  | '-' :: short :: rest =>
    match Switch.ofShort? level short with
    | some switch =>
      let attached := (after? ['='] rest).getD rest
      .option switch (if rest.isEmpty then none else some (String.ofList attached))
    | none => .unknown
  | _ => .plain text

end Argument

/-- Whether a text has the form of an option. -/
def isOptionLike (text : String) : Bool :=
  match text.toList with
  | '-' :: _ :: _ => true
  | _ => false

/-- What was given so far. -/
structure Given where
  /-- The files. -/
  files : List String := []
  /-- The values of options. -/
  values : List (Valued × String) := []
  /-- Whether the log is to be JSON. -/
  logJson : Bool := false
deriving DecidableEq, Repr

namespace Given

/-- The value given for an option. -/
def value? (given : Given) (name : Valued) : Option String := given.values.lookup name

/-- Adds the value of an option, which must be acceptable and the first one. -/
def addValue? (given : Given) (name : Valued) (value : String) : Option Given :=
  if (given.value? name).isSome || !name.accepts value then none
  else some { given with values := given.values ++ [(name, value)] }

/-- Adds a file, which must have a name. -/
def addFile? (given : Given) (file : String) : Option Given :=
  if file.isEmpty then none else some { given with files := given.files ++ [file] }

end Given

/-- The variables of the environment by name. -/
abbrev Environment := String → Option String

/-- Whether the environment can be used: a variable that turns the log into JSON says true or
false. It is not looked at when the option is given. -/
def isUsable (environment : Environment) (given : Given) : Bool :=
  given.logJson ||
    (environment "OPFACTORY_LOG_JSON").all fun value => value == "true" || value == "false"

/-- The command for what was given behind it. -/
def settings? (environment : Environment) (given : Given) : Option Command := do
  if given.files.isEmpty || !isUsable environment given then none
  let config ← match given.value? .config with
    | some config => pure (some config)
    | none =>
      match environment "OPFACTORY_CONFIG" with
      | some config => if Valued.accepts config .config then pure (some config) else none
      | none => pure none
  return .generate {
    files := given.files
    typeName := given.value? .type
    format := ((given.value? .format).bind OutputFormat.ofName?).getD .facade
    config }

/-- Whether help can be asked for what the arguments name: everything, or one command. -/
def isTopic : List String → Bool
  | [] => true
  | [command] => command == "generate" || command == "help"
  | _ => false

/-- Reads arguments behind others; nothing when they cannot be understood. -/
def readFrom? (environment : Environment) : Level → Given → List String → Option Command
  | .program, _, [] => none
  | .generate, given, [] => settings? environment given
  | level, given, text :: rest =>
    match Argument.ofText level text with
    | .unknown => none
    | .endOfOptions =>
      match level with
      | .program => none
      | .generate => (rest.foldlM Given.addFile? given).bind (settings? environment)
    | .plain text =>
      match level with
      | .program =>
        if text == "help" then if isTopic rest then some .help else none
        else if text == "generate" && isUsable environment given then
          readFrom? environment .generate {} rest
        else none
      | .generate =>
        match given.addFile? text with
        | some given => readFrom? environment .generate given rest
        | none => none
    | .option .help none => some .help
    | .option .version none => some .version
    | .option .logJson none =>
      if given.logJson then none
      else readFrom? environment level { given with logJson := true } rest
    | .option (.valued name) (some value) =>
      match given.addValue? name value with
      | some given => readFrom? environment level given rest
      | none => none
    | .option (.valued name) none =>
      match rest with
      | [] => none
      | value :: more =>
        if isOptionLike value then none
        else
          match given.addValue? name value with
          | some given => readFrom? environment level given more
          | none => none
    | .option .help (some _) | .option .version (some _) | .option .logJson (some _) => none

/-- What the program is asked to do; nothing when the arguments cannot be understood. -/
def Command.ofArguments? (environment : Environment) (arguments : List String) :
    Option Command := readFrom? environment .program {} arguments

end DomainFactory.CommandLine
