import IconRegistry.Text.WordTable

/-!
Word characters and identifier characters.
-/

namespace IconRegistry.Text

/-- Whether a character may start an identifier by its Unicode properties. -/
def isIdentifierStart (c : Char) : Bool :=
  let n := c.toNat
  if n < 128 then c.isAlpha else inRanges n identifierStartRanges

/-- Whether a character may continue an identifier by its Unicode properties. -/
def isIdentifierPart (c : Char) : Bool :=
  let n := c.toNat
  if n < 128 then c.isAlphanum || c == '_'
  else inRanges n identifierStartRanges || inRanges n identifierPartRanges

/-- Whether a character belongs to a word: letters, marks, decimal digits, connectors and joiners. -/
def isWordChar (c : Char) : Bool :=
  let n := c.toNat
  if n < 128 then c.isAlphanum || c == '_'
  else inRanges n wordOnlyRanges || (isIdentifierPart c && !inRanges n identifierOnlyRanges)

end IconRegistry.Text
