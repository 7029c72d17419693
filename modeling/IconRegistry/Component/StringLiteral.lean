import IconRegistry.Text.Basic

/-!
Double-quoted string literals of the script language.
-/

namespace IconRegistry.Component

def literalChar : Char → Text
  | '"' => ['\\', '"']
  | '\\' => ['\\', '\\']
  | '\n' => ['\\', 'n']
  | '\r' => ['\\', 'r']
  | '\t' => ['\\', 't']
  | c => [c]

/-- The string literal that denotes a text. -/
def stringLiteral (s : Text) : Text :=
  '"' :: s.flatMap literalChar ++ ['"']

end IconRegistry.Component
