import IconRegistry.Script.Lexeme

/-!
The machinery of the grammar: what a reading of a script carries along, and the steps that every rule is made of.

A rule that needs another rule again, one level deeper, names it as a goal; the goals are tied together once, by
recursion on a level that the length of the text bounds. A rule *fails* where no reading is possible; it *flaws* the
reading where the text can be read on but is not well formed. A flawed reading is refused in the end, unless the
attempt that found the flaw is given up.
-/

namespace IconRegistry.Script

/-- A property of an object literal: its span, and its name if that is a plain one. -/
structure PropertySpan where
  start : Nat
  stop : Nat
  name? : Option Text

/-- An object literal: its span and its properties. -/
structure ObjectLiteral where
  start : Nat
  stop : Nat
  properties : List PropertySpan

/-- What kind of expression an operand is, as far as what may follow depends on it. -/
inductive Form
  | identifier (name : Text)
  | string
  | conjunction
  | coalescence
  | privateMembership
  | sequence
  | unary
  | optionalChain
  | importCall
  | super
  | other
  deriving DecidableEq

/-- What the reading remembers of an expression: where it starts, its form, whether it may be assigned to, the
shorthand defaults that become sound when it is destructured into (if it may be), whether it is itself a target with a
default, and the object literal that assertions and parentheses wrap in it. -/
structure Operand where
  start : Nat
  form : Form
  assignable : Bool := false
  destructures? : Option (List Nat) := none
  hasDefault : Bool := false
  object? : Option ObjectLiteral := none

/-- The shorthand defaults that become sound when an operand is assigned to; nothing if it may not be. -/
def Operand.asTarget? (operand : Operand) : Option (List Nat) :=
  operand.destructures?.or (if operand.assignable then some [] else none)

/-- Where a statement stands. -/
inductive StatementContext
  | list
  | branch
  | loopBody
  | label
  deriving DecidableEq

/-- An import declaration: its module, the local names it binds to named values, and whether it imports types only. -/
structure Import where
  source : Text
  locals : List Text
  typeOnly : Bool
  start : Nat
  stop : Nat

/-- A declared constant or variable: its name, unless it is a pattern, and the object literal it is set to, if any. -/
structure Declarator where
  name? : Option Text
  object? : Option ObjectLiteral

/-- What the outline of a script keeps of a statement. -/
inductive Content
  | directive
  | imports (declaration : Import)
  | exportsVariables (declarators : List Declarator)
  | other

/-- A statement: where it starts, and what is kept of it. -/
structure Statement where
  start : Nat
  content : Content

/-- The rules that other rules need one level deeper. -/
inductive Goal
  | statement (context : StatementContext)
  | expression
  | assignment (returnTypes : Bool)
  | binary (precedence : Nat)
  | unary
  | leftHandSide
  | objectLiteral
  | type
  | binding
  | jsxElement (inChild : Bool)

/-- What reading a goal yields. -/
abbrev Goal.Result : Goal → Type
  | .statement _ => Statement
  | .type => Unit
  | .binding => List Text
  | .jsxElement _ => Unit
  | _ => Operand

/-- What is allowed at the current place. -/
structure Mode where
  allowsIn : Bool := true
  allowsYield : Bool := false
  allowsAwait : Bool := false
  allowsReturn : Bool := false
  inDecorator : Bool := false
  inConditional : Bool := false
  ambient : Bool := false

/-- The state of a reading: the current token, where the one before it stopped, whether a flaw was found, the
shorthand defaults that still need a destructuring around them, the places where an arrow function was tried in vain,
and the names exported so far. -/
structure State where
  lexeme : Lexeme
  previousStop : Nat
  flawed : Bool
  pending : List Nat
  notArrows : List Nat
  exported : List Text

/-- What surrounds a rule: the dialect, what is allowed, the level, and the goals one level deeper. -/
structure Env where
  dialect : Dialect
  mode : Mode
  level : Nat
  deeper : (goal : Goal) → Mode → State → Option (goal.Result × State)

/-- A rule of the grammar. -/
abbrev Rule := ReaderT Env (StateT State Option)

namespace Rule

def goal (wanted : Goal) : Rule wanted.Result := do
  let env ← read
  fun _ state => env.deeper wanted env.mode state

/-- Reads with other allowances. -/
def withMode {α : Type} (change : Mode → Mode) (rule : Rule α) : Rule α :=
  withReader (fun env => { env with mode := change env.mode }) rule

def mode : Rule Mode := do
  return (← read).mode

def dialect : Rule Dialect := do
  return (← read).dialect

def lexeme : Rule Lexeme := do
  return (← get).lexeme

def token : Rule Token := do
  return (← lexeme).token

def position : Rule Nat := do
  return (← lexeme).start

def previousStop : Rule Nat := do
  return (← get).previousStop

def onNewLine : Rule Bool := do
  return (← lexeme).newline

def flaw : Rule Unit :=
  modify fun state => { state with flawed := true }

def flawIf (condition : Bool) : Rule Unit :=
  if condition then flaw else pure ()

/-- Steps behind the current token, and cuts the next one with `cut`, which gets the position and the text there. -/
def stepWith (cut : Nat → Text → Lexeme) : Rule Unit :=
  modify fun state =>
    { state with lexeme := cut state.lexeme.stop state.lexeme.rest, previousStop := state.lexeme.stop }

def step : Rule Unit := do
  let d ← dialect
  stepWith fun position rest => Lexeme.next (!d.isModule) position false rest

/-- Cuts the current token again, as `token` of another length. -/
def recut (token : Token) (length : Nat) : Rule Unit :=
  modify fun state =>
    { state with
      lexeme := Lexeme.cut token state.lexeme.start length state.lexeme.source state.lexeme.newline }

def atPunct (p : Punct) : Rule Bool := do
  return (← token) == .punct p

def atAnyPunct (ps : List Punct) : Rule Bool := do
  match ← token with
  | .punct p => return ps.contains p
  | _ => return false

/-- Whether the current token is a word, written without escapes. -/
def atWord (word : String) : Rule Bool := do
  return (← token) == .name word.toList false

/-- Whether the current token is one of several words, written without escapes. -/
def atAnyWord (words : List String) : Rule Bool := do
  match ← token with
  | .name word false => return words.any (·.toList == word)
  | _ => return false

def eat (p : Punct) : Rule Bool := do
  if ← atPunct p then step; return true else return false

def eatWord (word : String) : Rule Bool := do
  if ← atWord word then step; return true else return false

def expect (p : Punct) : Rule Unit := do
  if !(← eat p) then failure

def expectWord (word : String) : Rule Unit := do
  if !(← eatWord word) then failure

/-- Tries a rule; where it fails, nothing has been read. -/
def attempt {α : Type} (rule : Rule α) : Rule (Option α) := fun env state =>
  match rule env state with
  | some (a, state') => some (some a, state')
  | none => some (none, state)

/-- Looks ahead: whether a rule holds here. Nothing is read. -/
def ahead (rule : Rule Bool) : Rule Bool := fun env state =>
  match rule env state with
  | some (answer, _) => some (answer, state)
  | none => some (false, state)

/-- Looks ahead from behind the current token. -/
def afterToken (rule : Rule Bool) : Rule Bool :=
  ahead do step; rule

/-- Reads as often as a rule yields something, at most `fuel` times. -/
def manyWithin {α : Type} : (fuel : Nat) → Rule (Option α) → Rule (List α)
  | 0, _ => failure
  | fuel + 1, rule => do
    match ← rule with
    | none => return []
    | some a => return a :: (← manyWithin fuel rule)

/-- Reads as often as a rule yields something. -/
def many {α : Type} (rule : Rule (Option α)) : Rule (List α) := do
  manyWithin (← read).level rule

/-- Extends a reading as long as a rule finds more of it, at most `fuel` times. -/
def extendWithin {α : Type} : (fuel : Nat) → α → (α → Rule (Option α)) → Rule α
  | 0, _, _ => failure
  | fuel + 1, a, rule => do
    match ← rule a with
    | none => return a
    | some b => extendWithin fuel b rule

/-- Extends a reading as long as a rule finds more of it. -/
def extend {α : Type} (a : α) (rule : α → Rule (Option α)) : Rule α := do
  extendWithin (← read).level a rule

/-- Reads items separated by commas up to a closing punctuator, which is left; a comma may stand behind the last item,
and whether one does is told. -/
def commaList {α : Type} (close : Punct) (item : Rule α) : Rule (List α × Bool) := do
  let items ← many do
    if ← atPunct close then return none
    let a ← item
    let comma ← eat .comma
    if !comma && !(← atPunct close) then failure
    return some (a, comma)
  return (items.map (·.1), items.getLast?.any (·.2))

/-- Reads items separated by commas, at least one. -/
def separated {α : Type} (item : Rule α) : Rule (List α) := do
  let first ← item
  let more ← many do
    if ← eat .comma then return some (← item) else return none
  return first :: more

def atName : Rule Bool := do
  match ← token with
  | .name _ _ => return true
  | _ => return false

/-- Whether the current token may stand for an identifier. -/
def atIdentifier : Rule Bool := do
  match ← token with
  | .name word _ => return !isReserved word
  | _ => return false

def name : Rule Text := do
  match ← token with
  | .name word _ => step; return word
  | _ => failure

/-- Reads an identifier. Where `await` or `yield` is an operator, it is no identifier. -/
def identifier : Rule Text := do
  match ← token with
  | .name word _ =>
    if isReserved word then failure
    let m ← mode
    flawIf (m.allowsAwait && word == "await".toList)
    flawIf (m.allowsYield && word == "yield".toList)
    step
    return word
  | _ => failure

def atString : Rule Bool := do
  match ← token with
  | .string _ => return true
  | _ => return false

def string : Rule Text := do
  match ← token with
  | .string value => step; return value
  | _ => failure

/-- Whether a statement may end here without a semicolon. -/
def canEndStatement : Rule Bool := do
  match ← token with
  | .punct .semicolon | .punct .rightBrace | .endOfText => return true
  | _ => onNewLine

/-- Ends a statement, by a semicolon or where one may be left out. -/
def endStatement : Rule Unit := do
  if !(← eat .semicolon) && !(← canEndStatement) then failure

/-- Whether the current token may start the name of a property. -/
def atPropertyName : Rule Bool := do
  match ← token with
  | .name _ _ | .string _ | .number | .privateName _ | .punct .leftBracket => return true
  | _ => return false

/-- Cuts a run of `>` and `=` as the operators of expressions take it. -/
def joinGreater : Rule Unit := do
  let l ← lexeme
  match greaterOperator? l.source with
  | some (p, length) => if ← atPunct .greater then recut (.punct p) length
  | none => pure ()

/-- Cuts a token that begins with `<` so that the bracket stands alone, and tells whether there is one. -/
def splitLess : Rule Bool := do
  match (← lexeme).source with
  | '<' :: _ => recut (.punct .less) 1; return true
  | _ => return false

/-- Cuts a token that begins with `>` so that the bracket stands alone, and steps over it. -/
def expectGreater : Rule Unit := do
  match (← lexeme).source with
  | '>' :: _ => recut (.punct .greater) 1; step
  | _ => failure

/-- Assigns to an operand: its shorthand defaults become sound. -/
def assignTo (target? : Option (List Nat)) : Rule Unit := do
  match target? with
  | none => failure
  | some settled => modify fun state => { state with pending := state.pending.filter (!settled.contains ·) }

/-- Reads an expression where `in` is an operator. -/
def expressionWithIn : Rule Operand :=
  withMode (fun m => { m with allowsIn := true }) (goal .expression)

/-- Reads an expression without commas where `in` is an operator. -/
def assignmentWithIn : Rule Operand :=
  withMode (fun m => { m with allowsIn := true }) (goal (.assignment true))

end Rule

end IconRegistry.Script
