import IconRegistry.Text.Substitution
import IconRegistry.Markup.Tag

/-!
The canonical layout of markup: no prolog, doctype or comments, no blanks between tags, and tags whose values stand
in double quotes with single spaces between attributes. Every attribute is kept.
-/

namespace IconRegistry.Markup

open Text (isBlank substitute replaceAll splitAtText?)

/-- Drops what begins with `opening` and runs to the first `closing` behind it. -/
def dropEnclosed (opening closing : Text) : Text → Text :=
  substitute fun s => do
    let inside ← Text.dropFront? opening s
    let (_, after) ← splitAtText? closing inside
    return ([], s.length - after.length - 1)

/-- Drops document type declarations, whose keyword may be in any letter case, up to the next `>`. -/
def dropDoctypes : Text → Text :=
  substitute fun s => do
    let inside ← if (s.take 9).map Char.toUpper == "<!DOCTYPE".toList then some (s.drop 9) else none
    let (_, after) ← splitAtText? ['>'] inside
    return ([], s.length - after.length - 1)

/-- Drops the blanks between a `>` and a `<`. -/
def joinTags : Text → Text :=
  substitute fun s =>
    match s with
    | '>' :: rest =>
      let blanks := rest.takeWhile isBlank
      if !blanks.isEmpty && (rest.drop blanks.length).head? == some '<' then
        some (['>', '<'], blanks.length + 1)
      else none
    | _ => none

/-- Splits a text at the first `>` outside quotes of either kind, when `quote` is the quotation that is open. -/
def splitTagEndAnyQuote? : (quote : Option Char) → Text → Option (Text × Text)
  | _, [] => none
  | none, c :: rest =>
    if c == '>' then some ([], rest)
    else (splitTagEndAnyQuote? (if c == '"' || c == '\'' then some c else none) rest).map
      fun (inside, after) => (c :: inside, after)
  | some quote, c :: rest =>
    (splitTagEndAnyQuote? (if c == quote then none else some quote) rest).map
      fun (inside, after) => (c :: inside, after)

/-- Whether a character may stand in the key of an attribute whose value is to be requoted. -/
def isRequotedKeyChar (c : Char) : Bool :=
  isKeyChar c && c != '\'' && c != '>'

/-- The attribute at the front of a text (a blank, a key, an equals sign and a quoted value) with its value in double
quotes, and the number of characters it takes beyond the first. -/
def requotedAttribute? : Text → Option (Text × Nat)
  | [] => none
  | blank :: s => do
    let key := s.takeWhile isRequotedKeyChar
    if !isBlank blank || key.isEmpty then none
    let afterKey := Text.trimStart (s.drop key.length)
    let value ← Text.dropFront? ['='] afterKey
    match Text.trimStart value with
    | '\'' :: rest =>
      let (content, after) ← splitAtText? ['\''] rest
      return (blank :: key ++ "=\"".toList ++ replaceAll ['"'] "&quot;".toList content ++ ['"'],
        s.length - after.length)
    | '"' :: rest =>
      let (_, after) ← splitAtText? ['"'] rest
      let covered := s.length - after.length
      return (blank :: s.take covered, covered)
    | _ => none

def collapseBlanks : Text → Text :=
  substitute fun s =>
    match s with
    | c :: rest => if isBlank c then some ([' '], (rest.takeWhile isBlank).length) else none
    | [] => none

def canonicalTag (tag : Text) : Text :=
  replaceAll " >".toList ">".toList
    (replaceAll " />".toList "/>".toList (collapseBlanks (substitute requotedAttribute? tag)))

def canonicalTags : Text → Text :=
  substitute fun s => do
    let inside ← Text.dropFront? ['<'] s
    let (content, _) ← splitTagEndAnyQuote? none inside
    if content.isEmpty then none
    return (canonicalTag ('<' :: content ++ ['>']), content.length + 1)

/-- The canonical layout of a markup text; it may come out empty. -/
def canonical (markup : Text) : Text :=
  let bare := dropEnclosed "<!--".toList "-->".toList
    (dropDoctypes (dropEnclosed "<?".toList "?>".toList markup))
  Text.trim (canonicalTags (joinTags bare))

end IconRegistry.Markup
