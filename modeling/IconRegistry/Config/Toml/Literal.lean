import IconRegistry.Config.Toml.Item

/-!
The scalar literals of TOML: strings, numbers and moments.
-/

namespace IconRegistry.Config.Toml

/-- A scanner: from a text to what it reads at the front and to the rest. -/
abbrev Scan := StateT Text Option

namespace Scan

/-- The next character, which is left. -/
def peek : Scan (Option Char) := do
  return (← get).head?

/-- Whether the rest begins with a text. -/
def sees (s : String) : Scan Bool := do
  return s.toList.isPrefixOf (← get)

def literal (s : String) : Scan Unit := do
  match Text.dropFront? s.toList (← get) with
  | some rest => set rest
  | none => failure

/-- Reads a text if it is there. -/
def eat (s : String) : Scan Bool := do
  match Text.dropFront? s.toList (← get) with
  | some rest => set rest; return true
  | none => return false

def one (allowed : Char → Bool) : Scan Char := do
  match ← get with
  | c :: rest => if allowed c then set rest; return c else failure
  | [] => failure

def run (allowed : Char → Bool) : Scan Text := do
  let s ← get
  set (s.dropWhile allowed)
  return s.takeWhile allowed

/-- Reads as often as a scanner yields something, at most `fuel` times. -/
def manyWithin {α : Type} : (fuel : Nat) → Scan (Option α) → Scan (List α)
  | 0, _ => failure
  | fuel + 1, scan => do
    match ← scan with
    | none => return []
    | some a => return a :: (← manyWithin fuel scan)

/-- Reads as often as a scanner yields something. It reads at least one character each time. -/
def many {α : Type} (scan : Scan (Option α)) : Scan (List α) := do
  manyWithin ((← get).length + 1) scan

/-- Tries a scanner; where it fails, nothing is read. -/
def attempt {α : Type} (scan : Scan α) : Scan (Option α) :=
  (do return some (← scan)) <|> pure none

end Scan

open Scan

def isBlankChar (c : Char) : Bool :=
  c == ' ' || c == '\t'

/-- Characters that may stand in comments and strings: all but control characters, apart from the tab. -/
def isPlain (c : Char) : Bool :=
  c == '\t' || (0x20 ≤ c.toNat && c.toNat != 0x7F)

def blanks : Scan Unit := do
  let _ ← run isBlankChar

def lineBreak : Scan Unit :=
  literal "\n" <|> literal "\x0d\n"

def optionalLineBreak : Scan Bool := do
  return (← attempt lineBreak).isSome

/-- Reads a number of exactly `count` hexadecimal digits. -/
def hexNumber : (count : Nat) → (value : Nat) → Scan Nat
  | 0, value => return value
  | count + 1, value => do
    let c ← one fun c => (Text.hexDigit? c).isSome
    hexNumber count (value * 16 + (Text.hexDigit? c).getD 0)

def codePoint (count : Nat) : Scan Char := do
  let n ← hexNumber count 0
  if n.isValidChar then return Char.ofNat n else failure

/-- Reads what follows the backslash of an escape. -/
def escape : Scan Char := do
  match ← one fun _ => true with
  | 'b' => return '\x08'
  | 't' => return '\t'
  | 'n' => return '\n'
  | 'f' => return '\x0c'
  | 'r' => return '\r'
  | '"' => return '"'
  | '\\' => return '\\'
  | 'u' => codePoint 4
  | 'U' => codePoint 8
  | _ => failure

/-- Reads a string of one line between `quote`s, in which escapes are known or not. -/
def lineString (quote : Char) (escapes : Bool) : Scan Text := do
  let _ ← one (· == quote)
  let s ← many do
    match ← peek with
    | some '\\' =>
      let c ← one fun _ => true
      if escapes then return some (← escape) else return some c
    | _ => attempt (one fun c => c != quote && isPlain c)
  let _ ← one (· == quote)
  return s

/-- Reads a line break that a backslash stands before, with the blanks around it and the empty lines behind it. -/
def continuation : Scan Unit := do
  literal "\\"
  blanks
  lineBreak
  let _ ← many do
    if (← run isBlankChar) != [] then return some ()
    attempt lineBreak

/-- Reads a piece of a string of several lines; nothing where its end begins. One or two quotes belong to the string,
also before the three that end it. -/
def stringPiece (quote : Char) (escapes : Bool) : Scan (Option Text) := do
  let quotes := ((← get).takeWhile (· == quote)).length
  if quotes ≥ 3 then return none
  if quotes > 0 then return some (← run (· == quote))
  if ← optionalLineBreak then return some ['\n']
  if escapes && (← sees "\\") then
    if (← attempt continuation).isSome then return some []
    literal "\\"
    return some [← escape]
  else return some [← one isPlain]

/-- Reads a string of several lines between triple `quote`s. A line break directly behind the first ones is dropped. -/
def blockString (quote : Char) (escapes : Bool) : Scan Text := do
  let triple := String.ofList [quote, quote, quote]
  literal triple
  let _ ← optionalLineBreak
  let pieces ← many (stringPiece quote escapes)
  let quotes := ((← get).takeWhile (· == quote)).length
  let kept := List.replicate (min (quotes - 3) 2) quote
  modify (·.drop kept.length)
  literal triple
  return pieces.flatten ++ kept

def string : Scan Text := do
  if ← sees "\"\"\"" then blockString '"' true
  else if ← sees "'''" then blockString '\'' false
  else if ← sees "\"" then lineString '"' true
  else lineString '\'' false

/-- The digits at the front of a text, single underscores between them left out, and the rest. -/
def digitsFrom (isDigit : Char → Bool) : Text → Text × Text
  | [] => ([], [])
  | c :: rest =>
    if isDigit c then ((c :: (digitsFrom isDigit rest).1), (digitsFrom isDigit rest).2)
    else if c == '_' && rest.head?.any isDigit then digitsFrom isDigit rest
    else ([], c :: rest)

def digits (isDigit : Char → Bool) : Scan Text := do
  let s ← get
  if !s.head?.any isDigit then failure
  let (found, rest) := digitsFrom isDigit s
  set rest
  return found

def valueIn (base : Nat) (found : Text) : Nat :=
  found.foldl (fun value c => value * base + (Text.hexDigit? c).getD 0) 0

/-- The least number that is no longer a signed integer of 64 bits. -/
def integerBound : Nat :=
  Nat.pow 2 63

/-- Reads an integer with a base prefix. -/
def basedInteger (mark : String) (base : Nat) : Scan Unit := do
  literal mark
  let found ← digits fun c => (Text.hexDigit? c).any (· < base)
  if valueIn base found ≥ integerBound then failure

/-- Whether a decimal number, its digits without a point times a power of ten, is too great for a binary fraction of 64
bits. -/
def exceedsFloat (found : Text) (exponent : Int) : Bool :=
  let significant := found.dropWhile (· == '0')
  let magnitude := significant.length + exponent
  if significant.isEmpty || magnitude < 300 then false
  else if magnitude > 310 then true
  else
    let bound := Nat.pow 2 1024 - Nat.pow 2 970
    valueIn 10 significant * Nat.pow 10 exponent.toNat ≥ bound * Nat.pow 10 (-exponent).toNat

def sign : Scan Bool := do
  if ← eat "-" then return true
  let _ ← eat "+"
  return false

def exponent : Scan (Option Int) := do
  if (← attempt (one fun c => c == 'e' || c == 'E')).isSome then
    let negative ← sign
    let value := valueIn 10 (← digits Char.isDigit)
    return some (if negative then -value else value)
  else return none

/-- Reads a decimal number. It has no needless zero in front. Integers have 64 bits. -/
def decimal : Scan Unit := do
  let negative ← sign
  let whole ← if ← eat "0" then pure ['0'] else digits Char.isDigit
  let fraction ← if ← eat "." then digits Char.isDigit else pure []
  let power ← exponent
  if fraction.isEmpty && power.isNone then
    let value := valueIn 10 whole
    if value > integerBound || (value == integerBound && !negative) then failure
  else if !negative && exceedsFloat (whole ++ fraction) (power.getD 0 - fraction.length) then failure

/-- Reads a number that is none or has no end. -/
def special : Scan Unit := do
  let _ ← sign
  literal "inf" <|> literal "nan"

def number : Scan Unit :=
  special <|> basedInteger "0x" 16 <|> basedInteger "0o" 8 <|> basedInteger "0b" 2 <|> decimal

/-- Reads a number of exactly `count` digits between two bounds. -/
def fixed (count least most : Nat) : Scan Nat := do
  let found := (← get).take count
  if found.length != count || !found.all Char.isDigit then failure
  modify (·.drop count)
  let value := valueIn 10 found
  if value < least || value > most then failure
  return value

def daysIn (year month : Nat) : Nat :=
  if month == 2 then if year % 4 == 0 && (year % 100 != 0 || year % 400 == 0) then 29 else 28
  else if [4, 6, 9, 11].contains month then 30
  else 31

def date : Scan Unit := do
  let year ← fixed 4 0 9999
  literal "-"
  let month ← fixed 2 1 12
  literal "-"
  let _ ← fixed 2 1 (daysIn year month)

def time : Scan Unit := do
  let _ ← fixed 2 0 23
  literal ":"
  let _ ← fixed 2 0 59
  literal ":"
  let _ ← fixed 2 0 60
  let fraction ← attempt do
    literal "."
    let _ ← one Char.isDigit
  if fraction.isSome then
    let _ ← run Char.isDigit

def offset : Scan Unit := do
  if (← attempt (one fun c => c == 'Z' || c == 'z')).isSome then return
  let _ ← one fun c => c == '+' || c == '-'
  let _ ← fixed 2 0 23
  literal ":"
  let _ ← fixed 2 0 59

def moment : Scan Unit := do
  if (← attempt date).isSome then
    let _ ← attempt do
      let _ ← one fun c => c == 'T' || c == 't' || c == ' '
      time
      attempt offset
  else time

end IconRegistry.Config.Toml
