import IconRegistry.Script.Token
import IconRegistry.Text.Word

/-!
Names and literals of the script language. A scanner gets the text from the literal on and answers with what it
denotes, where that matters, and the number of characters it takes.
-/

namespace IconRegistry.Script

def isLineBreak (c : Char) : Bool :=
  c == '\n' || c == '\r' || c == '\u2028' || c == '\u2029'

def isSpace (c : Char) : Bool :=
  let n := c.toNat
  if n < 128 then n == 32 || n == 9 || n == 11 || n == 12
  else n == 0x85 || n == 0xA0 || n == 0x1680 || (0x2000 ≤ n && n ≤ 0x200B) || n == 0x202F || n == 0x205F ||
    n == 0x3000 || n == 0xFEFF

def isNameStart (c : Char) : Bool :=
  c == '$' || c == '_' || Text.isIdentifierStart c

def isNamePart (c : Char) : Bool :=
  c == '$' || c == '\u200C' || c == '\u200D' || Text.isIdentifierPart c

/-- The value of exactly `count` hexadecimal digits at the front of a text. -/
def hexDigits? : (count : Nat) → Text → (value : Nat) → Option Nat
  | 0, _, value => some value
  | _ + 1, [], _ => none
  | count + 1, c :: rest, value => (Text.hexDigit? c).bind fun digit => hexDigits? count rest (value * 16 + digit)

/-- The value of hexadecimal digits up to a closing brace, and the number of characters read with it. Values beyond
the last code point are refused. -/
def bracedHex? : Text → (value read : Nat) → Option (Nat × Nat)
  | [], _, _ => none
  | c :: rest, value, read =>
    if c == '}' then if read == 0 then none else some (value, read + 1)
    else
      match Text.hexDigit? c with
      | some digit =>
        let value' := value * 16 + digit
        if value' > 0x10FFFF then none else bracedHex? rest value' (read + 1)
      | none => none

/-- What follows `\u`: a code point in braces or as four digits, and the number of characters it takes. -/
def unicodeEscape? : Text → Option (Nat × Nat)
  | '{' :: rest => (bracedHex? rest 0 0).map fun (value, read) => (value, read + 1)
  | s => (hexDigits? 4 s 0).map fun value => (value, 4)

/-- The rest of a name, with its escapes read: its characters, the number of characters it takes, and whether there
were escapes. Nothing if an escape is unsound. -/
def nameFrom? (first : Bool) : (skip : Nat) → Text → Option (Text × Nat × Bool)
  | _, [] => some ([], 0, false)
  | skip + 1, _ :: rest => (nameFrom? false skip rest).map fun (s, n, escaped) => (s, n + 1, escaped)
  | 0, c :: rest =>
    let allowed := fun c => if first then isNameStart c else isNamePart c
    if allowed c then (nameFrom? false 0 rest).map fun (s, n, escaped) => (c :: s, n + 1, escaped)
    else if c == '\\' then
      match rest with
      | 'u' :: digits =>
        match unicodeEscape? digits with
        | some (value, read) =>
          if allowed (Char.ofNat value) then
            (nameFrom? false (read + 1) rest).map fun (s, n, _) => (Char.ofNat value :: s, n + 1, true)
          else none
        | none => none
      | _ => none
    else some ([], 0, false)

/-- A text of code units whose pairs of surrogates are not yet joined, as characters. A lone surrogate becomes the
replacement character. -/
def joinSurrogates : List Nat → Text
  | [] => []
  | [a] => [if 0xD800 ≤ a && a < 0xE000 then '\uFFFD' else Char.ofNat a]
  | a :: b :: rest =>
    if 0xD800 ≤ a && a < 0xDC00 && 0xDC00 ≤ b && b < 0xE000 then
      Char.ofNat (0x10000 + (a - 0xD800) * 0x400 + (b - 0xDC00)) :: joinSurrogates rest
    else (if 0xD800 ≤ a && a < 0xE000 then '\uFFFD' else Char.ofNat a) :: joinSurrogates (b :: rest)

/-- Whether one of the surrogates among some code units stands without the other one of its pair. -/
def hasLoneSurrogate : List Nat → Bool
  | [] => false
  | [a] => 0xD800 ≤ a && a < 0xE000
  | a :: b :: rest =>
    if 0xD800 ≤ a && a < 0xDC00 && 0xDC00 ≤ b && b < 0xE000 then hasLoneSurrogate rest
    else (0xD800 ≤ a && a < 0xE000) || hasLoneSurrogate (b :: rest)

/-- The value of up to `count` octal digits, at most `255`, and the number of digits read. -/
def octalDigits : (count : Nat) → Text → (value read : Nat) → Nat × Nat
  | 0, _, value, read => (value, read)
  | _ + 1, [], value, read => (value, read)
  | count + 1, c :: rest, value, read =>
    let digit := c.toNat - 48
    if 48 ≤ c.toNat && c.toNat ≤ 55 && value * 8 + digit ≤ 255 then
      octalDigits count rest (value * 8 + digit) (read + 1)
    else (value, read)

/-- What follows a backslash in a string: the code units it denotes and the number of characters it takes. -/
def stringEscape? : Text → Option (List Nat × Nat)
  | [] => none
  | c :: rest =>
    match c with
    | 'n' => some ([10], 1)
    | 'r' => some ([13], 1)
    | 't' => some ([9], 1)
    | 'b' => some ([8], 1)
    | 'f' => some ([12], 1)
    | 'v' => some ([11], 1)
    | 'x' => (hexDigits? 2 rest 0).map fun value => ([value], 3)
    | 'u' => (unicodeEscape? rest).map fun (value, read) => ([value], read + 1)
    | '\r' => if rest.head? == some '\n' then some ([], 2) else some ([], 1)
    | _ =>
      if isLineBreak c then some ([], 1)
      else if 48 ≤ c.toNat && c.toNat ≤ 55 then
        let (value, read) := octalDigits 3 (c :: rest) 0 0
        some ([value], read)
      else some ([c.toNat], 1)

/-- The code units of a string up to its closing quote, and the number of characters read with it. -/
def stringFrom? (quote : Char) : (skip : Nat) → Text → Option (List Nat × Nat)
  | _, [] => none
  | skip + 1, _ :: rest => (stringFrom? quote skip rest).map fun (s, n) => (s, n + 1)
  | 0, c :: rest =>
    if c == quote then some ([], 1)
    else if c == '\n' || c == '\r' then none
    else if c == '\\' then
      match stringEscape? rest with
      | some (units, read) => (stringFrom? quote read rest).map fun (s, n) => (units ++ s, n + 1)
      | none => none
    else (stringFrom? quote 0 rest).map fun (s, n) => (c.toNat :: s, n + 1)

/-- Whether a backslash in a template is followed by a sound escape. -/
def isTemplateEscape : Text → Bool
  | '0' :: c :: _ => !c.isDigit
  | s => !(s.head?.any Char.isDigit && s.head? != some '0') && (stringEscape? s).isSome

/-- A part of a template up to its closing backquote or the next `${`: whether the template ends there, whether its
escapes are sound, and the number of characters read. -/
def templateFrom? : (escaped : Bool) → Text → Option (Bool × Bool × Nat)
  | _, [] => none
  | true, _ :: rest => (templateFrom? false rest).map fun (ends, valid, n) => (ends, valid, n + 1)
  | false, c :: rest =>
    if c == '`' then some (true, true, 1)
    else if c == '$' && rest.head? == some '{' then some (false, true, 2)
    else if c == '\\' then
      (templateFrom? true rest).map fun (ends, valid, n) => (ends, valid && isTemplateEscape rest, n + 1)
    else (templateFrom? false rest).map fun (ends, valid, n) => (ends, valid, n + 1)

/-- The number of characters of a run of digits with single underscores between them, read behind a digit or, when
`fresh`, where a digit has to come. Nothing if an underscore is misplaced. -/
def digitRun? (isDigit : Char → Bool) : (fresh : Bool) → Text → Option Nat
  | fresh, [] => if fresh then none else some 0
  | fresh, c :: rest =>
    if isDigit c then (digitRun? isDigit false rest).map (· + 1)
    else if fresh then none
    else if c == '_' then (digitRun? isDigit true rest).map (· + 1)
    else some 0

/-- The number of characters of an exponent; zero if there is none. -/
def exponentLength? : Text → Option Nat
  | c :: rest =>
    if c == 'e' || c == 'E' then
      match rest with
      | '+' :: digits | '-' :: digits => (digitRun? Char.isDigit true digits).map (· + 2)
      | digits => (digitRun? Char.isDigit true digits).map (· + 1)
    else some 0
  | [] => some 0

/-- The number of characters of what follows the point of a decimal number: digits and an exponent. -/
def fractionLength? (s : Text) : Option Nat := do
  let digits ← if s.head?.any Char.isDigit then digitRun? Char.isDigit true s else some 0
  let exponent ← exponentLength? (s.drop digits)
  return digits + exponent

/-- The number of characters of a number with a base prefix, the prefix included. -/
def basedLength? (isDigit : Char → Bool) (digits : Text) : Option Nat := do
  let n ← digitRun? isDigit true digits
  return n + 2 + if (digits.drop n).head? == some 'n' then 1 else 0

/-- The number of characters of a decimal number, `digits` of them before the point. -/
def decimalLength? (s : Text) (digits : Nat) : Option Nat :=
  match s.drop digits with
  | 'n' :: _ => some (digits + 1)
  | '.' :: fraction => (fractionLength? fraction).map (· + digits + 1)
  | rest => (exponentLength? rest).map (· + digits)

/-- The number of characters of the number at the front of a text, which starts with a digit or with a point and a
digit. A name or a digit must not follow it directly. -/
def numberLength? (s : Text) : Option Nat := do
  let n ←
    match s with
    | '0' :: c :: digits =>
      if c == 'x' || c == 'X' then basedLength? (fun c => (Text.hexDigit? c).isSome) digits
      else if c == 'o' || c == 'O' then basedLength? (fun c => '0' ≤ c && c ≤ '7') digits
      else if c == 'b' || c == 'B' then basedLength? (fun c => c == '0' || c == '1') digits
      else if c == '_' then none
      else if c.isDigit then
        let run := (s.takeWhile Char.isDigit)
        if run.all (fun c => c ≤ '7') || (s.drop run.length).head? == some 'n' then some run.length
        else decimalLength? s run.length
      else decimalLength? s 1
    | '.' :: fraction => (fractionLength? fraction).map (· + 1)
    | _ => do
      let digits ← digitRun? Char.isDigit true s
      decimalLength? s digits
  if (s.drop n).head?.any fun c => isNameStart c || c.isDigit || c == '\\' then none else some n

/-- The number of characters of a regular expression's body behind its opening slash, with the closing one. -/
def regexBodyLength? : (inClass escaped : Bool) → Text → Option Nat
  | _, _, [] => none
  | inClass, escaped, c :: rest =>
    if isLineBreak c then none
    else if escaped then (regexBodyLength? inClass false rest).map (· + 1)
    else if c == '/' && !inClass then some 1
    else
      (regexBodyLength? (if c == '[' then true else if c == ']' then false else inClass) (c == '\\') rest).map (· + 1)

/-- Whether the flags of a regular expression are known and not repeated. -/
def areFlags (flags : Text) : Bool :=
  flags.all ("dgimsuvy".toList.contains ·) && decide flags.Nodup

/-- The number of characters of the regular expression at the front of a text, its slashes and flags included. -/
def regexLength? (s : Text) : Option Nat := do
  let body ← regexBodyLength? false false (s.drop 1)
  let flags := (s.drop (body + 1)).takeWhile isNamePart
  if areFlags flags then some (body + 1 + flags.length) else none

end IconRegistry.Script
