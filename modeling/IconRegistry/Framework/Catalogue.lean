import IconRegistry.Framework
import IconRegistry.Text.Case

/-!
Catalogues of frameworks: which ones are known, looked up by name in any letter case.
-/

namespace IconRegistry.Framework

/-- The frameworks that are known, in the order of their names. -/
structure Catalogue where
  frameworks : List Framework

namespace Catalogue

def empty : Catalogue :=
  ⟨[]⟩

/-- Puts a framework into a list ordered by name, in place of one with the same name. -/
def place (framework : Framework) : List Framework → List Framework
  | [] => [framework]
  | other :: rest =>
    match Text.order framework.name other.name with
    | .lt => framework :: other :: rest
    | .eq => framework :: rest
    | .gt => other :: place framework rest

def register (catalogue : Catalogue) (framework : Framework) : Catalogue :=
  ⟨place framework catalogue.frameworks⟩

def builtin : Catalogue :=
  (((empty.register .react).register .preact).register .solid).register .vue

def names (catalogue : Catalogue) : List Text :=
  catalogue.frameworks.map name

def find? (catalogue : Catalogue) (wanted : Text) : Option Framework :=
  let lower := Text.toLower wanted
  catalogue.frameworks.find? fun framework => framework.name == lower

/-- The framework of a given name, or the error that there is none. -/
def get (catalogue : Catalogue) (wanted : Text) : Except Component.TransformError Framework :=
  match catalogue.find? wanted with
  | some framework => .ok framework
  | none => .error (.unknownFramework wanted)

end Catalogue

end IconRegistry.Framework
