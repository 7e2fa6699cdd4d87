import DomainFactory.CommandLine.Program

/-!
# Entry point

Fetches the environment and the files that the arguments ask for, runs the program, and prints its
outcome.
-/
namespace DomainFactory.CommandLine

/-- The variables of the environment that the program looks at. -/
def environmentVariables : List String := ["OPFACTORY_CONFIG", "OPFACTORY_LOG_JSON"]

/-- The values of some variables of the environment. -/
def fetchEnvironment (names : List String) : IO Environment := do
  let values ← names.mapM fun name => do
    return (name, ← IO.getEnv name)
  return fun name => (values.lookup name).join

/-- The texts of some files; a file that cannot be read has none. -/
def fetchFiles (paths : List String) : IO Files := do
  let texts ← paths.mapM fun (path : String) => do
    let text ← (IO.FS.readFile path).toBaseIO
    return (path, text.toOption)
  return fun path => (texts.lookup path).join

/-- The files that a command reads. -/
def readBy : Option Command → List String
  | some (.generate settings) => settings.config.toList ++ settings.files
  | _ => []

/-- Runs the program on its arguments and prints its outcome. -/
def execute (arguments : List String) : IO UInt32 := do
  let environment ← fetchEnvironment environmentVariables
  let files ← fetchFiles (readBy (Command.ofArguments? environment arguments))
  let outcome := run environment files arguments
  IO.print outcome.output
  if let some reason := outcome.failure then
    IO.eprintln ("Error: " ++ reason)
  return outcome.exit

end DomainFactory.CommandLine

/-- The program. -/
def main (arguments : List String) : IO UInt32 := DomainFactory.CommandLine.execute arguments
