import IconRegistry.Command.List
import IconRegistry.Command.Remove
import IconRegistry.CommandLine.Arguments

/-!
Runs of the program: from the arguments and a store to an exit code, what is written, and the store afterwards.
-/

namespace IconRegistry.CommandLine

open Config

/-- What a run answers. -/
structure Response where
  exitCode : UInt8
  output : Text := []
  errors : Text := []

def versionLine : Text :=
  "iconsmith 0.1.0".toList

def helpText : Text :=
  ("Maintain a generated registry of SVG icon components\n\n" ++
    "Usage: iconsmith [OPTIONS] <COMMAND>\n\n" ++
    "Commands:\n" ++
    "  init     Create an empty registry\n" ++
    "  add      Add icons to the registry\n" ++
    "  replace  Regenerate icons already in the registry\n" ++
    "  remove   Remove icons from the registry\n" ++
    "  list     List registered icons\n" ++
    "  clear    Remove every icon from the registry\n" ++
    "  help     Print this message or the help of the given subcommand(s)\n\n" ++
    "Options:\n" ++
    "  -c, --config <CONFIG>  Path to iconsmith.toml config file [default: iconsmith.toml]\n" ++
    "  -v, --verbose          Enable verbose output\n" ++
    "  -h, --help             Print help\n" ++
    "  -V, --version          Print version\n").toList

def linesOf (texts : List Text) : Text :=
  texts.flatMap (· ++ ['\n'])

def report (outcomes : List Outcome) : Command Unit :=
  outcomes.forM fun outcome => Command.note outcome.severity outcome.message

/-- Does what an invocation asks for, and gives the names to print. -/
def Invocation.perform (invocation : Invocation) : Command (List Text) := do
  let settings ← Command.loadSettings invocation.config
  match invocation.action with
  | .init yes =>
    Command.init settings invocation.config yes
    return []
  | .add icons mode overrides =>
    let settings ← Command.overrideSettings settings overrides
    report (← Command.add settings.editor settings icons mode)
    return []
  | .remove icons =>
    report (← Command.remove settings.editor settings icons)
    return []
  | .list available => Command.list settings.editor settings available
  | .clear yes =>
    Command.clear settings yes
    return []

/-- How a failure is reported. -/
def errorReport (e : CommandError) : Text :=
  let cause := match e.cause? with
    | some cause => "\n\nCaused by:\n    ".toList ++ cause
    | none => []
  "Error: ".toList ++ e.headline ++ cause ++ ['\n']

def shownLines (verbose : Bool) (log : List LogLine) : Text :=
  linesOf ((log.filter fun line => verbose || line.severity != .debug).map (·.text))

def Invocation.run (invocation : Invocation) (store : Store) : Response × Store :=
  let (result, after) := (Invocation.perform invocation).run ⟨store, []⟩
  let shown := shownLines invocation.verbose after.log
  match result with
  | .ok names => (⟨0, shown ++ linesOf names, []⟩, after.store)
  | .error e => (⟨1, shown, errorReport e⟩, after.store)

/-- The answer where reading the arguments ended early. -/
def Halt.response : Halt → Response
  | usage => ⟨2, [], "error: these arguments are not understood; try '--help'\n".toList⟩
  | help => ⟨0, helpText, []⟩
  | version => ⟨0, linesOf [versionLine], []⟩

/-- Runs the program on a store. -/
def run (arguments : List Text) (store : Store) : Response × Store :=
  match Invocation.read arguments with
  | .ok invocation => invocation.run store
  | .error halt => (halt.response, store)

end IconRegistry.CommandLine
