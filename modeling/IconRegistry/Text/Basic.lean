import IconRegistry.Text.Blank

/-!
Texts are lists of characters. Offsets into a text that leave the program count the bytes of its UTF-8 form,
and texts are ordered by that form.
-/

namespace IconRegistry

/-- A text, as the list of its characters. -/
abbrev Text := List Char

namespace Text

def byteLength : Text → Nat
  | [] => 0
  | c :: rest => c.utf8Size + byteLength rest

/-- The length in bytes adds up over texts in a row. -/
theorem byteLength_append (s t : Text) : byteLength (s ++ t) = byteLength s + byteLength t := by
  induction s with
  | nil => simp [byteLength]
  | cons c s ih => rw [List.cons_append, byteLength, byteLength, ih, Nat.add_assoc]

def byteOffset (s : Text) (position : Nat) : Nat :=
  byteLength (s.take position)

/-- The order of texts by code point, which is also the order of their UTF-8 bytes. -/
def order : Text → Text → Ordering
  | [], [] => .eq
  | [], _ :: _ => .lt
  | _ :: _, [] => .gt
  | a :: s, b :: t => (compare a.toNat b.toNat).then (order s t)

def sorted (texts : List Text) : List Text :=
  texts.mergeSort fun a b => order a b != .gt

def trimStart (s : Text) : Text :=
  s.dropWhile isBlank

def trimEnd (s : Text) : Text :=
  (s.reverse.dropWhile isBlank).reverse

def trim (s : Text) : Text :=
  trimEnd (trimStart s)

def endsWith (s suffix : Text) : Bool :=
  suffix.isSuffixOf s

/-- What follows `front` in a text that begins with it. -/
def dropFront? : (front s : Text) → Option Text
  | [], s => some s
  | _ :: _, [] => none
  | a :: front, c :: s => if a == c then dropFront? front s else none

/-- The pieces of a text between the characters that `separates` picks out: one more than there are
such characters. -/
def splitWhere (separates : Char → Bool) : Text → List Text
  | [] => [[]]
  | c :: rest =>
    if separates c then [] :: splitWhere separates rest
    else
      match splitWhere separates rest with
      | [] => [[c]]
      | piece :: pieces => (c :: piece) :: pieces

def splitAtChar (separator : Char) (s : Text) : List Text :=
  splitWhere (· == separator) s

def join (separator : Text) : List Text → Text
  | [] => []
  | [s] => s
  | s :: rest => s ++ separator ++ join separator rest

/-- The text before and after the first `separator`, if there is one. -/
def splitOnce? (separator : Char) : Text → Option (Text × Text)
  | [] => none
  | c :: rest =>
    if c == separator then some ([], rest)
    else (splitOnce? separator rest).map fun (before, after) => (c :: before, after)

def ofNat (n : Nat) : Text :=
  Nat.toDigits 10 n

def hexDigit? (c : Char) : Option Nat :=
  let n := c.toNat
  if 48 ≤ n && n ≤ 57 then some (n - 48)
  else if 97 ≤ n && n ≤ 102 then some (n - 87)
  else if 65 ≤ n && n ≤ 70 then some (n - 55)
  else none

end Text

end IconRegistry
