import ComTypes.Run.Pipeline

/-!
# The command line

Arguments are taken from left to right; the first that is wrong, or that asks for help, decides.
-/

namespace ComTypes

structure Command where
  /-- The configuration file, if one is named. -/
  config : Option String := none
  output : Option String := none
  dialect : Option Dialect := none
  hideComments : Bool := false
  interfacesOnly : Bool := false
  /-- Where to write the names of the graph instead of rendering it. -/
  captureNames : Option String := none
deriving DecidableEq, Repr

namespace Command

inductive Refusal where
  /-- The usage or the version is to be shown. -/
  | help
  | misuse
deriving DecidableEq, Repr

inductive ValueOption where
  | output | dialect | captureNames
deriving DecidableEq, Repr

def ValueOption.ofName? (name : String) : Option ValueOption :=
  [("output", output), ("dialect", dialect), ("capture-names", captureNames)].lookup name

/-- A path, which must not be empty, for an option not given before. -/
def newPath (old : Option String) (path : String) : Except Refusal (Option String) :=
  if old.isSome ∨ path = "" then .error .misuse else .ok (some path)

/-- Set an option, which may be given only once. -/
def set (command : Command) (option : ValueOption) (value : String) : Except Refusal Command := do
  match option with
  | .output => return { command with output := ← newPath command.output value }
  | .captureNames => return { command with captureNames := ← newPath command.captureNames value }
  | .dialect =>
    match command.dialect, Dialect.ofName? value with
    | none, some dialect => return { command with dialect := some dialect }
    | _, _ => throw .misuse

/-- Take a word that is no option: the configuration file. -/
def word (command : Command) (value : String) : Except Refusal Command := do
  return { command with config := ← newPath command.config value }

/-- Set a flag, which may be given only once. -/
def flag (command : Command) (name : String) : Except Refusal Command :=
  if name = "hide-comments" ∧ !command.hideComments then
    .ok { command with hideComments := true }
  else if name = "interfaces-only" ∧ !command.interfacesOnly then
    .ok { command with interfacesOnly := true }
  else if name = "help" ∨ name = "version" then .error .help
  else .error .misuse

/-- The name of a long option and the value behind its equals sign. -/
def splitLong (text : List Char) : String × Option String :=
  let name := text.takeWhile (· ≠ '=')
  match text.drop name.length with
  | [] => (String.ofList name, none)
  | _ :: value => (String.ofList name, some (String.ofList value))

/-- The next argument as the value of an option. Another option is none, a lone dash is. -/
def nextValue? : List String → Option (String × List String)
  | [] => none
  | value :: rest =>
    match value.toList with
    | ['-'] => some (value, rest)
    | '-' :: _ => none
    | _ => some (value, rest)

/-- The command that the arguments stand for, of which there are at most `count`. -/
def parseFrom : (count : Nat) → Command → List String → Except Refusal Command
  | 0, command, _ => .ok command
  | _ + 1, command, [] => .ok command
  | count + 1, command, argument :: rest =>
    let withNext := fun option =>
      match nextValue? rest with
      | some (value, rest) => do parseFrom count (← command.set option value) rest
      | none => .error .misuse
    match argument.toList with
    | ['-', '-'] => rest.foldlM word command
    | '-' :: '-' :: long =>
      match splitLong long with
      | (name, value) =>
        match ValueOption.ofName? name, value with
        | some option, some value => do parseFrom count (← command.set option value) rest
        | some option, none => withNext option
        | none, none => do parseFrom count (← command.flag name) rest
        | none, some _ => .error .misuse
    | ['-', 'o'] => withNext .output
    | '-' :: 'o' :: '=' :: value => do
      parseFrom count (← command.set .output (String.ofList value)) rest
    | '-' :: 'o' :: value => do
      parseFrom count (← command.set .output (String.ofList value)) rest
    | '-' :: c :: _ => if c = 'h' ∨ c = 'V' then .error .help else .error .misuse
    | _ => do parseFrom count (← command.word argument) rest

def parse (arguments : List String) : Except Refusal Command :=
  parseFrom arguments.length {} arguments

/-- The configuration file where none is named. -/
def defaultConfig : String := "tlbview.toml"

def configPath (command : Command) : String := command.config.getD defaultConfig

/-- The settings for rendering, with what the command says about them. -/
def renderOptions (command : Command) (options : RenderOptions) : RenderOptions :=
  { options with
    dialect := command.dialect.getD options.dialect
    hideComments := options.hideComments || command.hideComments
    interfacesOnly := options.interfacesOnly || command.interfacesOnly }

/-- The file that a command asks for, given its configuration. -/
def fileOf (command : Command) (config : Config) (view : FileView) : Attempt OutputFile := do
  let base := Path.directory command.configPath
  match command.captureNames with
  | some path =>
    return { path, contents := ← config.captureNames view base, task := "writing name overlay" }
  | none =>
    let config := { config with render := command.renderOptions config.render }
    config.sourceFile view base command.output

def file (command : Command) (view : FileView) : Attempt OutputFile := do
  command.fileOf (← Config.load view command.configPath) view

/-- The report of a failure: what was being done and, indented below, why it failed. A document that
is not valid is reported up to the point where its own error would follow. -/
def report (failure : Failure) : String :=
  let ending :=
    match failure.cause with
    | .invalidConfig _ | .invalidOverlay => ""
    | _ => "\n"
  match failure.parts with
  | [] => "Error: " ++ ending
  | [only] => "Error: " ++ only ++ ending
  | outer :: cause :: _ =>
    let indented := cause.toList.flatMap fun c => if c = '\n' then "\n    ".toList else [c]
    "Error: " ++ outer ++ "\n\nCaused by:\n    " ++ String.ofList indented ++ ending

end Command

end ComTypes
