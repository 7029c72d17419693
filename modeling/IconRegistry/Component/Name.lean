import IconRegistry.Text.Case

/-!
Names of components: made from icon names, and turned into words for people to read.
-/

namespace IconRegistry.Component

/-- Whether a character separates the parts of an icon name. -/
def isNameSeparator (c : Char) : Bool :=
  c == '-' || c == '_' || c == ' ' || c == ':' || c == '/' || c == '.'

def capitalize : Text → Text
  | [] => []
  | c :: rest => Text.upperOf c ++ rest

/-- The parts of a separated name, each capitalized, without the separators. -/
def pascalCase (name : Text) : Text :=
  ((Text.splitWhere isNameSeparator name).map capitalize).flatten

/-- The component that an icon becomes. A name that starts with a digit gets `Icon` in front. -/
def nameOf (icon : Text) : Text :=
  match pascalCase icon with
  | [] => []
  | c :: rest => if c.isDigit then "Icon".toList ++ c :: rest else c :: rest

/-- Writes a name as words behind `previous`, the character before it. -/
def readableAfter : (previous : Option Char) → Text → Text
  | _, [] => []
  | previous, c :: rest =>
    let starts := Text.isUppercase c && previous.any fun p => Text.isLowercase p || p.isDigit
    (if starts then [' ', c] else [c]) ++ readableAfter (some c) rest

/-- A component name as words: a space before every uppercase letter that follows a lowercase letter or a digit. -/
def readableName (name : Text) : Text :=
  readableAfter none name

end IconRegistry.Component
