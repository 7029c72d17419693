import IconRegistry.Command.Outcome
import IconRegistry.Config.Settings
import IconRegistry.Framework.Catalogue
import IconRegistry.Store.ComponentFile
import IconRegistry.Store.IconSource

/-!
Commands: programs that read and change a store, write a log, and may fail. What a command did before it failed stays.
-/

namespace IconRegistry

open Config Component

/-- Why a command failed. -/
inductive CommandError
  | settings (cause : SettingsError)
  | configUnreadable (path : Text) (cause : FileError)
  | configInvalid (path : Text) (cause : SettingsError)
  | file (context : Text) (cause : FileError)
  | registry (cause : Registry.RegistryError)
  | transform (cause : TransformError)
  deriving DecidableEq

/-- The wording of a failure, without its cause where that is told apart. -/
def CommandError.headline : CommandError → Text
  | settings cause => cause.message
  | configUnreadable path cause => "Failed to read ".toList ++ path ++ ": ".toList ++ cause.message
  | configInvalid path cause => "Failed to parse ".toList ++ path ++ ": ".toList ++ cause.message
  | file context _ => context
  | registry cause => cause.message
  | transform cause => cause.message

/-- The cause that a failure tells apart. -/
def CommandError.cause? : CommandError → Option Text
  | file _ cause => some cause.message
  | _ => none

def CommandError.message (e : CommandError) : Text :=
  match e.cause? with
  | some cause => e.headline ++ ": ".toList ++ cause
  | none => e.headline

/-- What commands work on: the store, and the log so far. -/
structure Workspace where
  store : Store
  log : List LogLine

/-- A command. -/
abbrev Command := ExceptT CommandError (StateM Workspace)

namespace Command

/-- The store as it is. -/
def store : Command Store := do
  return (← get).store

def note (severity : Severity) (message : Text) : Command Unit :=
  modify fun w => { w with log := w.log ++ [⟨severity, message⟩] }

/-- Adds lines that only a verbose log shows. -/
def debug (messages : List Text) : Command Unit :=
  modify fun w => { w with log := w.log ++ messages.map (⟨.debug, ·⟩) }

/-- Changes the store by an operation that succeeds or changes nothing. -/
def change (context : Text) (operation : Store → Except FileError Store) : Command Unit := do
  match operation (← store) with
  | .ok changed => modify fun w => { w with store := changed }
  | .error e => throw (.file context e)

def makeDirectories (context path : Text) : Command Unit := do
  let (made, result) := (← store).makeDirectories path
  modify fun w => { w with store := made }
  match result with
  | .ok () => return ()
  | .error e => throw (.file context e)

/-- Writes a file, after the directories above it are made. -/
def writeFile (path text : Text) : Command Unit := do
  match Path.parent? path with
  | some above => if !above.isEmpty then makeDirectories ("Failed to create ".toList ++ above) above
  | none => pure ()
  change ("Failed to write ".toList ++ path) (·.writeText path text)

def removeFile (path : Text) : Command Unit :=
  change ("Failed to remove ".toList ++ path) (·.removeFile path)

/-- A command that does nothing but fail, or give what a registry operation gave. -/
def ofRegistry {α : Type} : Except Registry.RegistryError α → Command α
  | .ok a => return a
  | .error e => throw (.registry e)

def framework (settings : Settings) : Command Framework :=
  match Framework.Catalogue.builtin.get settings.framework with
  | .ok found => return found
  | .error e => throw (.transform e)

def readRegistry (settings : Settings) : Command Text := do
  match (← store).readText settings.registryPath with
  | .ok text => return text
  | .error e =>
    throw (.file ("Failed to read ".toList ++ settings.registryPath ++ "; run `iconsmith init` first".toList) e)

/-- The path of the file of a component that has one of its own. -/
def componentPath (settings : Settings) (framework : Framework) (name : Text) : Text :=
  ComponentFile.pathOf settings.registryPath name (framework.extension settings.typescript)

/-- The paths of the files of all components that have one of their own. -/
def componentPaths (settings : Settings) (framework : Framework) : Command (List Text) := do
  return ComponentFile.all (← store) settings.registryPath (framework.extension settings.typescript)

/-- The settings in a configuration file, or the usual ones if there is no such file. -/
def loadSettings (path : Text) : Command Settings := do
  if !(← store).contains path then return {}
  match (← store).readText path with
  | .error e => throw (.configUnreadable path e)
  | .ok text =>
    match Settings.read text with
    | .error e => throw (.configInvalid path e)
    | .ok settings =>
      debug ["Loaded config from ".toList ++ path]
      return settings

def overrideSettings (settings : Settings) (overrides : Overrides) : Command Settings :=
  match settings.override overrides with
  | .ok settings => return settings
  | .error e => throw (.settings e)

end Command

end IconRegistry
