import IconRegistry.Command.Basic

/-!
The command that sets up a project: a configuration file, an empty registry and a directory for icons.
-/

namespace IconRegistry.Command

open Config Component

/-- The configuration file that a new project gets. -/
def defaultConfig : Text :=
  ("# iconsmith configuration\n\n" ++
    "[registry]\n" ++
    "# Registry file (inline) or component directory (standalone)\n" ++
    "path = \"src/icons.tsx\"\n\n" ++
    "# Exported object holding the icons\n" ++
    "collection = \"Icons\"\n\n" ++
    "# Target framework: react, preact, solid or vue\n" ++
    "framework = \"react\"\n\n" ++
    "# inline: one registry file, standalone: one file per icon\n" ++
    "output = \"inline\"\n\n" ++
    "typescript = true\n\n" ++
    "[icons]\n" ++
    "# Directory containing raw <name>.svg files\n" ++
    "dir = \"icons\"\n\n" ++
    "[a11y]\n" ++
    "# hidden, img, title, presentation or none\n" ++
    "strategy = \"hidden\"\n" ++
    "track_source = false\n" ++
    "forward_ref = false\n").toList

/-- The file of an empty registry. -/
def template (settings : Settings) (framework : Framework) : Text :=
  framework.registryTemplate settings.collection settings.typescript settings.forwardRef

def noteCreated (path : Text) : Command Unit :=
  note .info ("Created ".toList ++ path)

/-- Sets up where components go, and tells whether that was done: an existing registry is kept unless `yes` is on. -/
def initOutput (settings : Settings) (framework : Framework) (yes : Bool) : Command Bool := do
  let path := settings.registryPath
  match settings.placement with
  | .inline =>
    if (← store).contains path && !yes then
      note .warning (path ++ " already exists. Use --yes to overwrite.".toList)
      return false
    else
      writeFile path (template settings framework)
      noteCreated path
      return true
  | .standalone =>
    makeDirectories ("Failed to create ".toList ++ path) path
    note .info ("Using ".toList ++ path ++ " for component files".toList)
    return true

def init (settings : Settings) (configPath : Text) (yes : Bool) : Command Unit := do
  note .info "Initializing iconsmith...".toList
  if !(← store).contains configPath then
    writeFile configPath defaultConfig
    noteCreated configPath
  let framework ← framework settings
  if ← initOutput settings framework yes then
    if !(← store).contains settings.iconsDirectory then
      makeDirectories "Failed to create icons directory".toList settings.iconsDirectory
      noteCreated settings.iconsDirectory
    note .info "Initialization complete!".toList
    note .info "Drop SVG files into the icons directory and run 'iconsmith add <name>'.".toList

end IconRegistry.Command
