import IconRegistry.Path

/-!
Dialects of the script language, and the one that a file's name implies.
-/

namespace IconRegistry.Script

/-- A dialect: whether type syntax and JSX are part of it, whether files are modules, and whether they hold
declarations only. -/
structure Dialect where
  hasTypes : Bool
  hasJsx : Bool
  isModule : Bool
  isAmbient : Bool
  deriving DecidableEq, Repr

namespace Dialect

/-- Types without JSX. -/
def ts : Dialect :=
  ⟨true, false, true, false⟩

/-- Types and JSX. -/
def tsx : Dialect :=
  ⟨true, true, true, false⟩

/-- JSX without types. -/
def jsx : Dialect :=
  ⟨false, true, true, false⟩

/-- A module with neither types nor JSX. -/
def mjs : Dialect :=
  ⟨false, false, true, false⟩

/-- A script that is no module, with neither types nor JSX. -/
def cjs : Dialect :=
  ⟨false, false, false, false⟩

end Dialect

/-- Whether a file name announces declarations only: one of the last `depth` parts in front of its extension is `d`. -/
def announcesDeclarations (depth : Nat) (name : Text) : Bool :=
  (((Text.splitAtChar '.' name).reverse.drop 1).take depth).contains ['d']

/-- The dialect of a file by its extension; nothing if the extension is unknown. -/
def Dialect.ofPath? (path : Text) : Option Dialect := do
  let name ← Path.fileName? path
  let extension ← Path.extension? path
  match String.ofList extension with
  | "ts" => some { ts with isAmbient := announcesDeclarations 2 name }
  | "mts" => some { ts with isAmbient := announcesDeclarations 1 name }
  | "cts" => some { ts with isModule := false, isAmbient := announcesDeclarations 1 name }
  | "tsx" => some tsx
  | "jsx" => some jsx
  | "js" | "mjs" => some mjs
  | "cjs" => some cjs
  | _ => none

end IconRegistry.Script
