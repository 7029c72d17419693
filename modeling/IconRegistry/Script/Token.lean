import IconRegistry.Text.Basic

/-!
Tokens of the script language.
-/

namespace IconRegistry.Script

/-- Punctuators. The compound assignments other than `/=` need not be told apart, and `>` is always read alone. -/
inductive Punct
  | leftBrace | rightBrace | leftParen | rightParen | leftBracket | rightBracket
  | semicolon | comma | colon | dot | ellipsis | question | questionDot | arrow | at
  | less | lessEq | shiftLeft | greater | greaterEq | shiftRight | shiftRightZero
  | equals | strictEquals | notEquals | strictNotEquals
  | plus | minus | star | power | slash | percent | increment | decrement
  | ampersand | bar | caret | bang | tilde | and | or | coalesce
  | assign | slashAssign | compoundAssign
  deriving DecidableEq, Repr

/-- A token. Names carry their text with escapes read, those that are not private also whether there were any; strings
carry their value; the first part of a template says whether the template ends with it and whether its escapes are
sound. -/
inductive Token
  | name (text : Text) (escaped : Bool)
  | privateName (text : Text)
  | punct (p : Punct)
  | number
  | string (value : Text)
  | template (ends valid : Bool)
  | regex
  | jsxText
  | endOfText
  | invalid
  deriving DecidableEq, Repr

/-- Words that never stand for an identifier. -/
def reservedWords : List Text :=
  ["break", "case", "catch", "class", "const", "continue", "debugger", "default", "delete", "do", "else", "enum",
    "export", "extends", "false", "finally", "for", "function", "if", "import", "in", "instanceof", "new", "null",
    "return", "super", "switch", "this", "throw", "true", "try", "typeof", "var", "void", "while", "with"].map
    String.toList

/-- Words that have a meaning of their own in some places and stand for an identifier elsewhere. -/
def contextualWords : List Text :=
  ["abstract", "accessor", "any", "as", "assert", "asserts", "async", "await", "bigint", "boolean", "constructor",
    "declare", "defer", "from", "get", "global", "implements", "infer", "interface", "intrinsic", "is", "keyof", "let",
    "meta", "module", "namespace", "never", "number", "object", "of", "out", "override", "package", "private",
    "protected", "public", "readonly", "require", "satisfies", "set", "source", "static", "string", "symbol", "target",
    "type", "undefined", "unique", "unknown", "using", "yield"].map String.toList

def isReserved (word : Text) : Bool :=
  reservedWords.contains word

end IconRegistry.Script
