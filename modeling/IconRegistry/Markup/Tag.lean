import IconRegistry.Markup.Element
import IconRegistry.Text.Word

/-!
Tags and attributes as they are written. A tag ends at the first `>` outside double quotes; attributes are the
`key="value"` pairs found in the text between the tag's name and that `>`.
-/

namespace IconRegistry.Markup

open Text (isBlank)

/-- Splits a text at the first `>` outside double quotes; `quoted` says whether it starts inside them. -/
def splitTagEndFrom : (quoted : Bool) → Text → Option (Text × Text)
  | _, [] => none
  | quoted, c :: rest =>
    if c == '>' && !quoted then some ([], rest)
    else (splitTagEndFrom (if c == '"' then !quoted else quoted) rest).map fun (inside, after) => (c :: inside, after)

/-- Splits a text at the first `>` outside double quotes, if there is one. -/
def splitTagEnd? (s : Text) : Option (Text × Text) :=
  splitTagEndFrom false s

/-- Whether a character may follow the first letter of a tag name. -/
def isTagNameChar (c : Char) : Bool :=
  Text.isWordChar c || c == ':' || c == '.' || c == '-'

/-- Whether a character may stand in an attribute key. -/
def isKeyChar (c : Char) : Bool :=
  !(isBlank c || c == '=' || c == '"' || c == '/')

/-- An opening tag at the front of a text: its name, the text of its attributes, and what follows the tag. -/
structure OpenTag where
  name : Text
  attributes : Text
  rest : Text

def OpenTag.read? : Text → Option OpenTag
  | '<' :: c :: rest =>
    if c.isAlpha then
      (splitTagEnd? (rest.dropWhile isTagNameChar)).map fun (attributes, rest') =>
        ⟨c :: rest.takeWhile isTagNameChar, attributes, rest'⟩
    else none
  | _ => none

/-- A tag of a known name: whether it is a close tag, the text of its attributes, and what follows it. -/
structure NamedTag where
  closing : Bool
  attributes : Text
  rest : Text

/-- Reads what follows the name of a tag: nothing, a slash, or a blank and attributes, and then `>`. -/
def NamedTag.afterName? (closing : Bool) : Text → Option NamedTag
  | [] => none
  | c :: rest =>
    if c == '>' then some ⟨closing, [], rest⟩
    else if c == '/' then
      match rest with
      | '>' :: rest' => some ⟨closing, ['/'], rest'⟩
      | _ => none
    else if isBlank c then
      (splitTagEnd? rest).map fun (attributes, rest') => ⟨closing, c :: attributes, rest'⟩
    else none

/-- Reads an opening or close tag called `name` at the front of a text. -/
def NamedTag.read? (name : Text) : Text → Option NamedTag
  | '<' :: '/' :: rest => (Text.dropFront? name rest).bind (NamedTag.afterName? true)
  | '<' :: rest => (Text.dropFront? name rest).bind (NamedTag.afterName? false)
  | _ => none

/-- Whether the text of a tag's attributes says that the tag closes itself: it ends in a slash. -/
def closesItself (attributes : Text) : Bool :=
  (Text.trimEnd attributes).getLast? == some '/'

/-- The text of a tag's attributes without the slashes that close the tag. -/
def withoutSlash (attributes : Text) : Text :=
  ((Text.trimEnd attributes).reverse.dropWhile (· == '/')).reverse

/-- Where a scan for attributes stands: outside, in a key, in the blanks after a key, behind the equals sign, or in
a quoted value. Keys and values are held backwards. -/
inductive AttributeScan
  | outside
  | key (key : Text)
  | afterKey (key : Text)
  | afterEquals (key : Text)
  | value (key value : Text)

/-- Scans for attributes from a given state. A key that no equals sign and quoted value follow is passed over. -/
def attributesFrom : AttributeScan → Text → Attributes
  | _, [] => []
  | .outside, c :: rest => attributesFrom (if isKeyChar c then .key [c] else .outside) rest
  | .key k, c :: rest =>
    attributesFrom
      (if isKeyChar c then .key (c :: k) else if isBlank c then .afterKey k
       else if c == '=' then .afterEquals k else .outside) rest
  | .afterKey k, c :: rest =>
    attributesFrom
      (if isKeyChar c then .key [c] else if isBlank c then .afterKey k
       else if c == '=' then .afterEquals k else .outside) rest
  | .afterEquals k, c :: rest =>
    attributesFrom
      (if isKeyChar c then .key [c] else if isBlank c then .afterEquals k
       else if c == '"' then .value k [] else .outside) rest
  | .value k v, c :: rest =>
    if c == '"' then (k.reverse, v.reverse) :: attributesFrom .outside rest
    else attributesFrom (.value k (c :: v)) rest

/-- The `key="value"` pairs in a text, in order; blanks may stand around the equals sign. -/
def attributesIn (s : Text) : Attributes :=
  attributesFrom .outside s

end IconRegistry.Markup
