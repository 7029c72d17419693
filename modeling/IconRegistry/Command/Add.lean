import IconRegistry.Command.Basic

/-!
The commands that add icons or make them anew. An icon that fails is reported and does not stop the others.
-/

namespace IconRegistry

open Config Component

/-- How icons are treated that are registered or not: new ones are added and others skipped, all are made, or only
registered ones are made anew. -/
inductive AddMode
  | add
  | upsert
  | replace
  deriving DecidableEq

/-- Why an icon is skipped, if it is. -/
def AddMode.skipReason? (mode : AddMode) (registered : Bool) : Option Text :=
  match mode, registered with
  | add, true => some "already registered (use --force to regenerate)".toList
  | replace, false => some "not registered".toList
  | _, _ => none

/-- Why an icon did not become a component. -/
inductive IconError
  | fetch (cause : FetchError)
  | transform (cause : TransformError)
  deriving DecidableEq

def IconError.message : IconError → Text
  | fetch cause => cause.message
  | transform cause => cause.message

namespace Command

/-- The component that an icon of a store becomes. -/
def componentOf (settings : Settings) (framework : Framework) (store : Store) (icon : Text) : Except IconError Text :=
  match IconSource.fetch store settings.iconsDirectory icon with
  | .error e => .error (.fetch e)
  | .ok markup =>
    match framework.transform canonicalOptimizer (settings.spec icon) settings.typescript markup with
    | .error e => .error (.transform e)
    | .ok component => .ok component

/-- What making a component has to note. -/
def componentNotes (settings : Settings) (framework : Framework) (store : Store) (icon : Text) : List Text :=
  match IconSource.path? settings.iconsDirectory icon with
  | none => []
  | some path =>
    ("reading ".toList ++ path) ::
      match IconSource.fetch store settings.iconsDirectory icon with
      | .error _ => []
      | .ok markup => framework.transformNotes canonicalOptimizer (settings.spec icon) markup

/-- Makes a component, and notes how. -/
def makeComponent (settings : Settings) (framework : Framework) (icon : Text) : Command (Except IconError Text) := do
  let files ← store
  debug (componentNotes settings framework files icon)
  return componentOf settings framework files icon

/-- Makes sure that a registry imports what its components call, if they call something. -/
def importConstructor (editor : Registry.Editor) (settings : Settings) (framework : Framework) (text : Text) :
    Command Text := do
  match framework.refModule? with
  | none => return text
  | some module =>
    if settings.forwardRef then
      debug (editor.notes text (Registry.View.importNotes Framework.refConstructor module))
      ofRegistry (editor.ensureImport text Framework.refConstructor module)
    else return text

def addEntry (editor : Registry.Editor) (settings : Settings) (framework : Framework) (mode : AddMode)
    (text icon : Text) : Command (Text × Outcome) := do
  let name := nameOf icon
  debug (editor.notes text fun _ => [])
  let registered := (← ofRegistry (editor.view text)).contains name
  match mode.skipReason? registered with
  | some reason => return (text, .skipped icon reason)
  | none =>
    match ← makeComponent settings framework icon with
    | .error e => return (text, .failed icon e.message)
    | .ok component =>
      if registered then
        let changed ← ofRegistry (editor.replace text name component)
        return (← importConstructor editor settings framework changed, .replaced icon)
      else
        debug (editor.notes text (Registry.View.insertionNotes name))
        let changed ← ofRegistry (editor.insert text name component)
        return (← importConstructor editor settings framework changed, .added icon)

def addEntries (editor : Registry.Editor) (settings : Settings) (framework : Framework) (mode : AddMode) :
    Text → List Text → Command (Text × List Outcome)
  | text, [] => return (text, [])
  | text, icon :: rest => do
    let (text, outcome) ← addEntry editor settings framework mode text icon
    let (text, outcomes) ← addEntries editor settings framework mode text rest
    return (text, outcome :: outcomes)

/-- Puts icons into the registry file, which is written once, at the end, and only if it changed. -/
def addInline (editor : Registry.Editor) (settings : Settings) (framework : Framework) (mode : AddMode)
    (icons : List Text) : Command (List Outcome) := do
  let before ← readRegistry settings
  let (text, outcomes) ← addEntries editor settings framework mode before icons
  if text != before then
    writeFile settings.registryPath text
    debug ["wrote ".toList ++ settings.registryPath]
  return outcomes

def addFile (settings : Settings) (framework : Framework) (mode : AddMode) (icon : Text) : Command Outcome := do
  let path := componentPath settings framework (nameOf icon)
  let registered := (← store).contains path
  match mode.skipReason? registered with
  | some reason => return .skipped icon reason
  | none =>
    match ← makeComponent settings framework icon with
    | .error e => return .failed icon e.message
    | .ok component =>
      writeFile path component
      return if registered then .replaced icon else .added icon

def placementWord : Placement → Text
  | .inline => "Inline".toList
  | .standalone => "Standalone".toList

/-- Adds icons or makes them anew. -/
def add (editor : Registry.Editor) (settings : Settings) (icons : List Text) (mode : AddMode) :
    Command (List Outcome) := do
  let framework ← framework settings
  debug ["processing ".toList ++ Text.ofNat icons.length ++ " icon(s) for ".toList ++ framework.name ++
    " (".toList ++ placementWord settings.placement ++ [')']]
  match settings.placement with
  | .inline => addInline editor settings framework mode icons
  | .standalone => icons.mapM (addFile settings framework mode)

end Command

end IconRegistry
