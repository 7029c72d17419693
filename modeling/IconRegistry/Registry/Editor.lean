import IconRegistry.Registry.Edit

/-!
Editors: operations on the text of a registry. Each reads the text it is given anew, and the only thing it knows of
scripts is the reader that the editor holds.
-/

namespace IconRegistry.Registry

/-- Why a registry could not be read or edited. -/
inductive RegistryError
  | unreadable
  | missingCollection (collection : Text)
  | missingEntries (names : List Text)
  deriving DecidableEq

/-- The wording of a registry error; for a text that is no script it ends before the reasons. -/
def RegistryError.message : RegistryError → Text
  | unreadable => "Failed to parse registry:".toList
  | missingCollection collection => "Collection `".toList ++ collection ++ "` not found in registry".toList
  | missingEntries names => "Icons not found in registry: ".toList ++ Text.join ", ".toList names

/-- An editor of the collection with a certain name, and how it reads a script. -/
structure Editor where
  collection : Text
  read : Text → Option Script.Outline

namespace Editor

def ofDialect (collection : Text) (dialect : Script.Dialect) : Editor :=
  ⟨collection, Script.Outline.read dialect⟩

/-- An editor for the file at a path. Where the path tells no dialect, both types and JSX are read. -/
def ofPath (collection path : Text) : Editor :=
  ofDialect collection ((Script.Dialect.ofPath? path).getD .tsx)

def view (editor : Editor) (source : Text) : Except RegistryError View :=
  match editor.read source with
  | some outline => .ok (.ofOutline editor.collection source outline)
  | none => .error .unreadable

/-- Inserts a component so that ordered entries stay in order. -/
def insert (editor : Editor) (source name component : Text) : Except RegistryError Text := do
  let view ← editor.view source
  match view.insertion? name component with
  | some edit => return edit.apply source
  | none => throw (.missingCollection editor.collection)

/-- Replaces the entry with a name. Without such an entry the text stays as it is. -/
def replace (editor : Editor) (source name component : Text) : Except RegistryError Text := do
  let view ← editor.view source
  return ((view.replacement? name component).map (·.apply source)).getD source

/-- Removes the entry with a name. Without such an entry the text stays as it is. -/
def remove (editor : Editor) (source name : Text) : Except RegistryError Text := do
  let view ← editor.view source
  return ((view.removal? name).map (·.apply source)).getD source

/-- Fails with all names that have no entry. -/
def ensurePresent (editor : Editor) (source : Text) (names : List Text) : Except RegistryError Unit := do
  let view ← editor.view source
  let missing := names.filter (!view.contains ·)
  if !missing.isEmpty then throw (.missingEntries missing)

/-- Removes several entries, or none if one of them is missing. -/
def removeMany (editor : Editor) (source : Text) (names : List Text) : Except RegistryError Text := do
  editor.ensurePresent source names
  names.foldlM editor.remove source

/-- Makes sure that a name is imported as a value from a module. -/
def ensureImport (editor : Editor) (source name module : Text) : Except RegistryError Text := do
  let view ← editor.view source
  return if view.importsValue name module then source else (view.importInsertion name module).apply source

end Editor

def View.notes (collection : Text) (view : View) : List Text :=
  if view.interior?.isNone then ["collection `".toList ++ collection ++ "` not present in registry".toList] else []

/-- What the insertion of a name has to note. -/
def View.insertionNotes (name : Text) (view : View) : List Text :=
  let note := fun (place other : Text) => ["inserting ".toList ++ name ++ place ++ other]
  if view.interior?.isNone then []
  else
    match view.entries.getLast?, view.following? name with
    | none, _ => []
    | _, some next => note " before ".toList next.name
    | some last, none => note " after ".toList last.name

/-- What making sure of an import has to note. -/
def View.importNotes (name module : Text) (view : View) : List Text :=
  if view.importsValue name module then []
  else ["adding import of ".toList ++ name ++ " from ".toList ++ module]

/-- What an operation of an editor notes: what the view of the text notes, and what the operation adds. -/
def Editor.notes (editor : Editor) (source : Text) (more : View → List Text) : List Text :=
  match editor.view source with
  | .ok view => view.notes editor.collection ++ more view
  | .error _ => []

end IconRegistry.Registry
