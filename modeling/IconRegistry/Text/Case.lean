import IconRegistry.Text.Basic
import IconRegistry.Text.CaseTable

/-!
Letter case. Characters map to texts, because some upper cases are longer than one character; lower-casing a
whole text also gives a sigma that ends a word its final form.
-/

namespace IconRegistry.Text

def isUppercase (c : Char) : Bool :=
  let n := c.toNat
  if n < 128 then c.isUpper else inRuns n uppercaseRuns

def isLowercase (c : Char) : Bool :=
  let n := c.toNat
  if n < 128 then c.isLower else inRuns n lowercaseRuns

def isCased (c : Char) : Bool :=
  isUppercase c || isLowercase c || inRuns c.toNat titlecaseRuns

/-- Whether a character is passed over when the neighbouring cased letters are looked for. -/
def isCaseIgnorable (c : Char) : Bool :=
  inRanges c.toNat caseIgnorableRanges

def upperOf (c : Char) : Text :=
  let n := c.toNat
  if n < 128 then [c.toUpper]
  else
    match upperExpansions.find? (·.1 == n) with
    | some (_, image) => image.map Char.ofNat
    | none =>
      match imageInRuns? n upperMapRuns with
      | some m => [Char.ofNat m]
      | none => [c]

/-- The lower case of a character on its own. Only the dotted capital I has one of two characters. -/
def lowerOf (c : Char) : Text :=
  let n := c.toNat
  if n < 128 then [c.toLower]
  else if n == 0x130 then ['i', '\u0307']
  else
    match imageInRuns? n lowerMapRuns with
    | some m => [Char.ofNat m]
    | none => [c]

/-- Whether the next character that is not passed over is a cased letter. -/
def casedNext (s : Text) : Bool :=
  match s.dropWhile isCaseIgnorable with
  | [] => false
  | c :: _ => isCased c

/-- Lower-cases a text whose preceding characters, nearest first, are `before`: a capital sigma after a cased
letter and not before one takes its final form. -/
def toLowerAfter (before : Text) : Text → Text
  | [] => []
  | c :: rest =>
    (if c == 'Σ' then [if casedNext before && !casedNext rest then 'ς' else 'σ'] else lowerOf c) ++
      toLowerAfter (c :: before) rest

def toLower (s : Text) : Text :=
  toLowerAfter [] s

end IconRegistry.Text
