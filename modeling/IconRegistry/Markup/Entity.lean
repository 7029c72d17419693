import IconRegistry.Text.Substitution

/-!
Entities: writing a text so that it can stand in an attribute value or between tags, and reading it back.
-/

namespace IconRegistry.Markup

open Text (replaceAll)

/-- A text written so that it can stand in a double-quoted attribute value. -/
def escapeAttribute (s : Text) : Text :=
  replaceAll ['"'] "&quot;".toList (replaceAll ['&'] "&amp;".toList s)

/-- A text written so that it can stand between tags. -/
def escapeText (s : Text) : Text :=
  replaceAll ['>'] "&gt;".toList (replaceAll ['<'] "&lt;".toList (replaceAll ['&'] "&amp;".toList s))

/-- The text that the six common entities denote, `&amp;` last so that its result is not read again. -/
def decodeEntities (s : Text) : Text :=
  let quotes := replaceAll "&#39;".toList ['\''] (replaceAll "&apos;".toList ['\''] (replaceAll "&quot;".toList ['"'] s))
  replaceAll "&amp;".toList ['&'] (replaceAll "&gt;".toList ['>'] (replaceAll "&lt;".toList ['<'] quotes))

end IconRegistry.Markup
