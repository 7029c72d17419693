import IconRegistry.Store.Basic

/-!
Files that hold one component each, all in one directory.
-/

namespace IconRegistry.ComponentFile

/-- The path of a component's file. -/
def pathOf (directory name extension : Text) : Text :=
  Path.join directory (name ++ '.' :: extension)

/-- The paths of all component files in a directory, in the order of their names. A file in the place of the directory
counts, too. -/
def all (store : Store) (directory extension : Text) : List Text :=
  match store.locate directory with
  | .error _ => []
  | .ok here =>
    let paths : List Text := match store.node? here with
      | none => []
      | some .directory =>
        let direct := (store.filesBelow here).filter (·.length == 1)
        (Text.sorted direct.flatten).map (Path.join directory)
      | some _ => [directory]
    paths.filter fun path => Path.extension? path == some extension

end IconRegistry.ComponentFile
