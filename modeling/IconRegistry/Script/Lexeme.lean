import IconRegistry.Script.Literal
import IconRegistry.Script.Dialect

/-!
Cutting a script text into tokens. What a slash, a closing brace or an angle bracket begins depends on the grammar, so
a token keeps the text it was cut from and can be cut again.
-/

namespace IconRegistry.Script

/-- Where a scan over blanks and comments stands. -/
inductive Trivia
  | blanks
  | lineComment
  | blockComment

/-- Skips blanks and comments: the number of characters skipped, whether a line break was among them, and the text
behind them. Nothing if a block comment does not end. Where `legacy` is on, the comments of markup are skipped, too. -/
def skipTrivia? (legacy : Bool) : Trivia → (skipped : Nat) → (newline : Bool) → Text → Option (Nat × Bool × Text)
  | .blockComment, _, _, [] => none
  | _, skipped, newline, [] => some (skipped, newline, [])
  | .lineComment, skipped, newline, c :: rest =>
    if isLineBreak c then skipTrivia? legacy .blanks (skipped + 1) true rest
    else skipTrivia? legacy .lineComment (skipped + 1) newline rest
  | .blockComment, skipped, newline, '*' :: '/' :: rest => skipTrivia? legacy .blanks (skipped + 2) newline rest
  | .blockComment, skipped, newline, c :: rest =>
    skipTrivia? legacy .blockComment (skipped + 1) (newline || isLineBreak c) rest
  | .blanks, skipped, newline, '/' :: '/' :: rest => skipTrivia? legacy .lineComment (skipped + 2) newline rest
  | .blanks, skipped, newline, '/' :: '*' :: rest => skipTrivia? legacy .blockComment (skipped + 2) newline rest
  | .blanks, skipped, newline, c :: rest =>
    if isSpace c then skipTrivia? legacy .blanks (skipped + 1) newline rest
    else if isLineBreak c then skipTrivia? legacy .blanks (skipped + 1) true rest
    else if legacy && ("<!--".toList.isPrefixOf (c :: rest) || (newline && "-->".toList.isPrefixOf (c :: rest))) then
      skipTrivia? legacy .lineComment (skipped + 1) newline rest
    else some (skipped, newline, c :: rest)

/-- The punctuator at the front of a text and its length. A `>` is read alone. -/
def punct? : Text → Option (Punct × Nat)
  | [] => none
  | c :: s =>
    match c, s with
    | '{', _ => some (.leftBrace, 1)
    | '}', _ => some (.rightBrace, 1)
    | '(', _ => some (.leftParen, 1)
    | ')', _ => some (.rightParen, 1)
    | '[', _ => some (.leftBracket, 1)
    | ']', _ => some (.rightBracket, 1)
    | ';', _ => some (.semicolon, 1)
    | ',', _ => some (.comma, 1)
    | ':', _ => some (.colon, 1)
    | '@', _ => some (.at, 1)
    | '~', _ => some (.tilde, 1)
    | '>', _ => some (.greater, 1)
    | '.', '.' :: '.' :: _ => some (.ellipsis, 3)
    | '.', _ => some (.dot, 1)
    | '?', '?' :: '=' :: _ => some (.compoundAssign, 3)
    | '?', '?' :: _ => some (.coalesce, 2)
    | '?', '.' :: rest => if rest.head?.any Char.isDigit then some (.question, 1) else some (.questionDot, 2)
    | '?', _ => some (.question, 1)
    | '=', '=' :: '=' :: _ => some (.strictEquals, 3)
    | '=', '=' :: _ => some (.equals, 2)
    | '=', '>' :: _ => some (.arrow, 2)
    | '=', _ => some (.assign, 1)
    | '!', '=' :: '=' :: _ => some (.strictNotEquals, 3)
    | '!', '=' :: _ => some (.notEquals, 2)
    | '!', _ => some (.bang, 1)
    | '<', '<' :: '=' :: _ => some (.compoundAssign, 3)
    | '<', '<' :: _ => some (.shiftLeft, 2)
    | '<', '=' :: _ => some (.lessEq, 2)
    | '<', _ => some (.less, 1)
    | '+', '+' :: _ => some (.increment, 2)
    | '+', '=' :: _ => some (.compoundAssign, 2)
    | '+', _ => some (.plus, 1)
    | '-', '-' :: _ => some (.decrement, 2)
    | '-', '=' :: _ => some (.compoundAssign, 2)
    | '-', _ => some (.minus, 1)
    | '*', '*' :: '=' :: _ => some (.compoundAssign, 3)
    | '*', '*' :: _ => some (.power, 2)
    | '*', '=' :: _ => some (.compoundAssign, 2)
    | '*', _ => some (.star, 1)
    | '/', '=' :: _ => some (.slashAssign, 2)
    | '/', _ => some (.slash, 1)
    | '%', '=' :: _ => some (.compoundAssign, 2)
    | '%', _ => some (.percent, 1)
    | '&', '&' :: '=' :: _ => some (.compoundAssign, 3)
    | '&', '&' :: _ => some (.and, 2)
    | '&', '=' :: _ => some (.compoundAssign, 2)
    | '&', _ => some (.ampersand, 1)
    | '|', '|' :: '=' :: _ => some (.compoundAssign, 3)
    | '|', '|' :: _ => some (.or, 2)
    | '|', '=' :: _ => some (.compoundAssign, 2)
    | '|', _ => some (.bar, 1)
    | '^', '=' :: _ => some (.compoundAssign, 2)
    | '^', _ => some (.caret, 1)
    | _, _ => none

/-- A run of `>` and `=` as the operators of expressions take it. -/
def greaterOperator? : Text → Option (Punct × Nat)
  | '>' :: '>' :: '>' :: '=' :: _ => some (.compoundAssign, 4)
  | '>' :: '>' :: '>' :: _ => some (.shiftRightZero, 3)
  | '>' :: '>' :: '=' :: _ => some (.compoundAssign, 3)
  | '>' :: '>' :: _ => some (.shiftRight, 2)
  | '>' :: '=' :: _ => some (.greaterEq, 2)
  | '>' :: _ => some (.greater, 1)
  | _ => none

/-- The token at the front of a text, and its length. -/
def scanToken (s : Text) : Token × Nat :=
  match s with
  | [] => (.endOfText, 0)
  | c :: rest =>
    if isNameStart c || c == '\\' then
      match nameFrom? true 0 s with
      | some (text, n, escaped) => (.name text escaped, n)
      | none => (.invalid, 0)
    else if c.isDigit || (c == '.' && rest.head?.any Char.isDigit) then
      match numberLength? s with
      | some n => (.number, n)
      | none => (.invalid, 0)
    else if c == '"' || c == '\'' then
      match stringFrom? c 0 rest with
      | some (units, n) => (.string (joinSurrogates units), n + 1)
      | none => (.invalid, 0)
    else if c == '`' then
      match templateFrom? false rest with
      | some (ends, valid, n) => (.template ends valid, n + 1)
      | none => (.invalid, 0)
    else if c == '#' then
      match nameFrom? true 0 rest with
      | some (c :: text, n, _) => (.privateName (c :: text), n + 1)
      | _ => (.invalid, 0)
    else
      match punct? s with
      | some (p, n) => (.punct p, n)
      | none => (.invalid, 0)

/-- A token in a text: where it starts and stops, the text it was cut from, the text behind it, and whether a line
break stands before it. -/
structure Lexeme where
  token : Token
  start : Nat
  stop : Nat
  source : Text
  rest : Text
  newline : Bool

/-- A token of `length` characters at the front of `source`. -/
def Lexeme.cut (token : Token) (start length : Nat) (source : Text) (newline : Bool) : Lexeme :=
  ⟨token, start, start + length, source, source.drop length, newline⟩

/-- The next token of a text that stands at `position`, behind blanks and comments. -/
def Lexeme.next (legacy : Bool) (position : Nat) (newline : Bool) (s : Text) : Lexeme :=
  match skipTrivia? legacy .blanks 0 newline s with
  | none => ⟨.invalid, position, position, s, s, newline⟩
  | some (skipped, newline, source) =>
    let (token, length) := scanToken source
    Lexeme.cut token (position + skipped) length source newline

/-- The next piece between the tags of JSX: an opening angle bracket, an opening brace, or a run of text. A run must
not hold `>` or `}`. -/
def Lexeme.nextJsx (position : Nat) (s : Text) : Lexeme :=
  match s with
  | [] => ⟨.endOfText, position, position, [], [], false⟩
  | '<' :: _ => Lexeme.cut (.punct .less) position 1 s false
  | '{' :: _ => Lexeme.cut (.punct .leftBrace) position 1 s false
  | _ =>
    let run := s.takeWhile fun c => c != '<' && c != '{'
    let token := if run.any fun c => c == '>' || c == '}' then Token.invalid else .jsxText
    Lexeme.cut token position run.length s false

/-- The next token where the value of a JSX attribute may stand: a string there has no escapes and may hold line
breaks. -/
def Lexeme.nextJsxValue (legacy : Bool) (position : Nat) (s : Text) : Lexeme :=
  let lexeme := Lexeme.next legacy position false s
  match lexeme.source with
  | [] => lexeme
  | quote :: rest =>
    if quote == '"' || quote == '\'' then
      let value := rest.takeWhile (· != quote)
      if value.length < rest.length then Lexeme.cut (.string value) lexeme.start (value.length + 2) lexeme.source false
      else { lexeme with token := .invalid }
    else lexeme

end IconRegistry.Script
