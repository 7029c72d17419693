import IconRegistry.Command.Init

/-!
The commands that remove icons: some of them, or all.
-/

namespace IconRegistry.Command

open Config Component

/-- The icons of a list without those that become the same component as an earlier one. -/
def distinctIcons : (seen : List Text) → List Text → List Text
  | _, [] => []
  | seen, icon :: rest =>
    if seen.contains (nameOf icon) then distinctIcons seen rest
    else icon :: distinctIcons (nameOf icon :: seen) rest

def removeInline (editor : Registry.Editor) (settings : Settings) (names : List Text) : Command Unit := do
  let text ← readRegistry settings
  debug (editor.notes text fun _ => [])
  let changed ← ofRegistry (editor.removeMany text names)
  writeFile settings.registryPath changed

/-- Removes files of components, if all of them are there. -/
def removeFiles (settings : Settings) (names : List Text) : Command Unit := do
  let framework ← framework settings
  let files ← store
  let missing := names.filter fun name => !files.contains (componentPath settings framework name)
  if !missing.isEmpty then throw (.registry (.missingEntries missing))
  names.forM fun name => removeFile (componentPath settings framework name)

/-- Removes icons: all of them, or none if one is not registered. -/
def remove (editor : Registry.Editor) (settings : Settings) (icons : List Text) : Command (List Outcome) := do
  let icons := distinctIcons [] icons
  let names := icons.map nameOf
  match settings.placement with
  | .inline => removeInline editor settings names
  | .standalone => removeFiles settings names
  return icons.map .removed

/-- Removes every icon. Without `yes` nothing is done. -/
def clear (settings : Settings) (yes : Bool) : Command Unit := do
  if !yes then
    note .warning "This removes every registered icon. Re-run with --yes to confirm.".toList
  else
    let framework ← framework settings
    match settings.placement with
    | .inline =>
      writeFile settings.registryPath (template settings framework)
      note .info ("Cleared ".toList ++ settings.registryPath)
    | .standalone =>
      let paths ← componentPaths settings framework
      paths.forM removeFile
      note .info ("Removed ".toList ++ Text.ofNat paths.length ++ " component file(s)".toList)

end IconRegistry.Command
