import DomainFactory.CommandLine.Arguments
import DomainFactory.Facade
import DomainFactory.Generation
import DomainFactory.Json.Printer

/-!
# The program

The program loads the declarations of its files in order, generates factories and prints them. Its
exit status is zero when every type got a factory, and one when a type is inert or a file cannot be
used.
-/
namespace DomainFactory.CommandLine

open Json Text

/-- What the program leaves behind. -/
structure Outcome where
  /-- The exit status. -/
  exit : UInt32
  /-- The printed text. -/
  output : String
  /-- What went wrong, when the program gave up for a reason it can tell. -/
  failure : Option String := none
deriving DecidableEq, Repr

/-- The texts of files by path. -/
abbrev Files := String → Option String

/-- The exit status of a program that was not understood. -/
def misuse : Outcome := ⟨2, "", none⟩

/-- The exit status of a program that stops in the middle of its output. -/
def interrupted (output : String) : Outcome := ⟨101, output, none⟩

/-- The outcome of a program that gives up. -/
def givesUp (reason : String) : Outcome := ⟨1, "", some reason⟩

/-- The last name in a path, if it ends in one. -/
def lastName? (path : String) : Option (List Char) :=
  let names := (splitAt '/' path.toList).filter fun name => !name.isEmpty && name != ['.']
  names.getLast?.filter (· != ['.', '.'])

/-- What stands behind the last dot of the last name in a path; a dot in front of the name does not
count. -/
def extension? (path : String) : Option String := do
  let name ← lastName? path
  let pieces := splitAt '.' name
  if pieces.length < 2 || pieces.length == 2 && pieces.head? == some [] then none
  pieces.getLast?.map String.ofList

/-- Reads the configuration. -/
def loadConfig (files : Files) : Option String → Except String Config
  | none => .ok .default
  | some path =>
    match files path with
    | none => .error ("reading config " ++ path)
    | some text =>
      match (read? text).bind decode with
      | none => .error ("parsing config " ++ path)
      | some config => .ok config

/-- Adds the declarations of a file: JSON by its extension, or else source text. -/
def loadFile (files : Files) (config : Config) (catalog : Catalog) (path : String) :
    Except String Catalog :=
  match files path with
  | none => .error ("reading " ++ path)
  | some text =>
    let loaded := if extension? path == some "json" then catalog.addJson text
      else catalog.addSource config text
    match loaded with
    | .ok (catalog, _) => .ok catalog
    | .error _ => .error ("loading surfaces from " ++ path)

/-- The plans among what was generated. -/
def plansOf (generated : List Generated) : List Plan :=
  generated.filterMap fun
    | .ready plan => some plan
    | .inert .. => none

/-- Prints facades, each on a line of its own; stops at one that has no text. -/
def printFacades (exit : UInt32) : (printed : String) → List Plan → Outcome
  | printed, [] => ⟨exit, printed, none⟩
  | printed, plan :: plans =>
    match (Facade.ofPlan plan).text? with
    | some text => printFacades exit (printed ++ text ++ "\n") plans
    | none => interrupted printed

/-- Generates factories. -/
def produce (files : Files) (settings : Settings) : Except String Outcome := do
  let config ← loadConfig files settings.config
  let catalog ← settings.files.foldlM (loadFile files config) .empty
  let generated := match settings.typeName with
    | some typeName => [Generation.generate config catalog typeName]
    | none => Generation.generateAll config catalog
  let plans := plansOf generated
  let exit : UInt32 := if plans.length = generated.length then 0 else 1
  return match settings.format with
    | .plan => ⟨exit, pretty (encode plans) ++ "\n", none⟩
    | .facade => printFacades exit "" plans

/-- The version of the program. -/
def versionText : String := "opfactory 0.1.0\n"

/-- Does what the program is asked to do. -/
def Command.run (files : Files) : Command → Outcome
  | .version => ⟨0, versionText, none⟩
  | .help => ⟨0, "", none⟩
  | .generate settings =>
    match produce files settings with
    | .ok outcome => outcome
    | .error reason => givesUp reason

/-- Runs the program on its arguments. -/
def run (environment : Environment) (files : Files) (arguments : List String) : Outcome :=
  match Command.ofArguments? environment arguments with
  | some command => command.run files
  | none => misuse

end DomainFactory.CommandLine
