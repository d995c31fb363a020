import ComTypes.Run.CommandLine

/-!
# The program

Reads the files that the command line leads to, and writes the one that it asks for.
-/

namespace ComTypes

def ofSystemError : IO.Error → FileError
  | .noFileOrDirectory .. => .notFound
  | .inappropriateType _ code details | .permissionDenied _ code details
  | .invalidArgument _ code details | .resourceExhausted _ code details =>
    .other (details ++ " (os error " ++ toString code ++ ")")
  | error => .other (toString error)

def readFromDisk (path : String) : IO (Except FileError Bytes) :=
  try
    return .ok (← IO.FS.readBinFile path).toList
  catch error =>
    return .error (ofSystemError error)

def writeToDisk (output : OutputFile) : IO (Attempt Unit) :=
  try
    IO.FS.writeFile output.path output.contents
    return .ok ()
  catch error =>
    return .error (output.failure (ofSystemError error))

/-- The contents of the given files, as far as they can be read now. -/
def snapshot (paths : List String) : IO FileView := do
  let files ← paths.mapM fun path => return (path, ← readFromDisk path)
  return fun path => (files.lookup path).getD (.error .notFound)

def Command.execute (command : Command) : IO (Attempt Unit) := do
  let path := command.configPath
  match Config.load (← snapshot [path]) path with
  | .error failure => return .error failure
  | .ok config =>
    let view ← snapshot (config.inputs (Path.directory path))
    match command.fileOf config view with
    | .error failure => return .error failure
    | .ok output => writeToDisk output

def usage : String :=
  "Usage: tlbview [OPTIONS] [CONFIG]

Options:
  -o, --output <OUTPUT>       Output file path (overrides config)
      --dialect <DIALECT>     Output dialect: idl, cpp or generic (overrides config)
      --hide-comments         Drop documentation comments
      --interfaces-only       Render only interfaces and the records they use
      --capture-names <PATH>  Write the name overlay to PATH instead of rendering
  -h, --help                  Print help
  -V, --version               Print version
"

end ComTypes

open ComTypes in
def main (arguments : List String) : IO UInt32 := do
  match Command.parse arguments with
  | .error .help =>
    IO.print usage
    return 0
  | .error .misuse =>
    IO.eprint usage
    return 2
  | .ok command =>
    match ← command.execute with
    | .ok () => return 0
    | .error failure =>
      IO.eprint (Command.report failure)
      return 1
