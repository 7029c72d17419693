import IconRegistry.Store.Basic

/-!
Icon sources: a directory whose `.svg` files are the icons. An icon is named by the path of its file below the
directory, without the extension.
-/

namespace IconRegistry

/-- Why the markup of an icon could not be fetched. -/
inductive FetchError
  | notFound (icon : Text)
  | invalidName (icon : Text)
  | unreadable (icon : Text) (cause : FileError)
  deriving DecidableEq

def FetchError.message : FetchError → Text
  | notFound icon => "Icon not found: ".toList ++ icon
  | invalidName icon => "Invalid icon name: ".toList ++ icon
  | unreadable icon cause => "Failed to fetch ".toList ++ icon ++ ": ".toList ++ cause.message

namespace IconSource

/-- The extension of icon files. -/
def extension : Text :=
  "svg".toList

/-- Whether two dots stand next to each other. -/
def hasDoubleDot : Text → Bool
  | '.' :: '.' :: _ => true
  | _ :: rest => hasDoubleDot rest
  | [] => false

/-- Whether a name may be that of an icon: it must not be empty, hidden, or lead out of the directory. -/
def isValidName (icon : Text) : Bool :=
  !icon.isEmpty && icon.head? != some '.' && !icon.contains '\\' && !hasDoubleDot icon

def path? (root icon : Text) : Option Text :=
  if isValidName icon then some (Path.join root (icon ++ '.' :: extension)) else none

def fetch (store : Store) (root icon : Text) : Except FetchError Text :=
  match path? root icon with
  | none => .error (.invalidName icon)
  | some path =>
    match store.readText path with
    | .ok markup => .ok markup
    | .error .notFound => .error (.notFound icon)
    | .error cause => .error (.unreadable icon cause)

/-- What is left of a file name without its extension, given what stands before the last dot. Two dots in front of the
extension both stay: they point upward. -/
def baseName (stem : Text) : Text :=
  if Path.isUpward (stem ++ ['.']) then stem ++ ['.'] else stem

/-- The name of the icon in a file at a location below the directory; nothing if it is no icon file. -/
def nameAt? (below : Location) : Option Text := do
  let name ← below.getLast?
  let (stem, found) ← Path.splitExtension? name
  if found == extension then
    some (Text.join ['/'] (Path.components (Text.join ['/'] (below.dropLast ++ [baseName stem]))))
  else none

/-- The names of all icons, in order. A file in the place of the directory is an icon without a name. -/
def available (store : Store) (root : Text) : List Text :=
  match store.locate root with
  | .error _ => []
  | .ok here =>
    let names : List Text := match store.node? here with
      | none => []
      | some .directory => (store.filesBelow here).filterMap nameAt?
      | some _ => if Path.extension? root == some extension then [[]] else []
    Text.sorted names

end IconSource

end IconRegistry
