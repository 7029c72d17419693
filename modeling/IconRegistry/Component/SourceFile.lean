import IconRegistry.Text.Basic

/-!
Whole source files: an empty registry, and a file that holds one component.
-/

namespace IconRegistry.Component

def lines (texts : List Text) : Text :=
  texts.flatMap (· ++ ['\n'])

/-- The file of an empty registry that exports `collection`. -/
def emptyRegistry (imports : List Text) (collection : Text) (typescript : Bool) : Text :=
  "// Generated by iconsmith. Entries are kept in alphabetical order.\n".toList ++ lines imports ++
    "\nexport const ".toList ++ collection ++ " = \x7b\x7d".toList ++
    (if typescript then " as const".toList else []) ++ ";\n".toList

/-- The file of one component: its imports, its declaration, and its default export. -/
def componentFile (imports : List Text) (name declaration : Text) : Text :=
  lines imports ++ (if imports.isEmpty then [] else ['\n']) ++ declaration ++
    "\n\nexport default ".toList ++ name ++ ";\n".toList

end IconRegistry.Component
