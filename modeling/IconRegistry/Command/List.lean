import IconRegistry.Command.Basic

/-!
The command that lists icons.
-/

namespace IconRegistry.Command

open Config

/-- The names of the entries of the registry file, in its order. -/
def listInline (editor : Registry.Editor) (settings : Settings) : Command (List Text) := do
  let text ← readRegistry settings
  debug (editor.notes text fun _ => [])
  let view ← ofRegistry (editor.view text)
  if view.interior?.isNone then
    note .warning ("No `".toList ++ settings.collection ++ "` collection in ".toList ++ settings.registryPath)
  return view.names

/-- The names of the components that have files of their own. -/
def listFiles (settings : Settings) : Command (List Text) := do
  let framework ← framework settings
  return (← componentPaths settings framework).filterMap Path.stem?

/-- The names of the registered components or, where `available` is on, of the icons there are to register. -/
def list (editor : Registry.Editor) (settings : Settings) (available : Bool) : Command (List Text) := do
  if available then return IconSource.available (← store) settings.iconsDirectory
  else
    match settings.placement with
    | .inline => listInline editor settings
    | .standalone => listFiles settings

end IconRegistry.Command
