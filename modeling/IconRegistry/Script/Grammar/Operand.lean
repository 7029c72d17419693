import IconRegistry.Script.Grammar.Class

/-!
Operands: literals, names, what stands in parentheses, and the accesses, calls and assertions behind them.
-/

namespace IconRegistry.Script

/-- An operand that cannot be assigned to. -/
def Operand.plain (start : Nat) (form : Form) : Operand :=
  { start, form }

/-- The shorthand defaults that become sound where an operand is an item of a pattern; nothing if it cannot be one. -/
def Operand.asItem? (operand : Operand) : Option (List Nat) :=
  if operand.hasDefault then some [] else operand.asTarget?

/-- An operand inside type assertions or parentheses: what it is apart from its form stays visible. -/
def Operand.wrapped (operand : Operand) (start : Nat) (form : Form) : Operand :=
  { start, form, assignable := operand.assignable, object? := operand.object? }

/-- The shorthand defaults of a pattern, given those of its items; nothing if one of them cannot be an item. -/
def patternDefaults? (items : List (Option (List Nat))) : Option (List Nat) :=
  (items.mapM id).map List.flatten

namespace Rule

/-- Reads inside brackets, where `in` is an operator and a decorator's restrictions do not reach. -/
def inBrackets {α : Type} (rule : Rule α) : Rule α :=
  withMode (fun m => { m with allowsIn := true, inDecorator := false }) rule

def bracketedExpression : Rule Operand :=
  inBrackets (goal .expression)

/-- Reads an expression without commas inside brackets. -/
def bracketedAssignment : Rule Operand :=
  inBrackets (goal (.assignment true))

def templateHole : Rule Unit := do
  let _ ← bracketedExpression

/-- Reads one item of an array literal, which may be a hole, and gives what it would be in a pattern. -/
def arrayItem : Rule (Option (List Nat)) := do
  if ← atPunct .comma then return some []
  if ← eat .ellipsis then
    let operand ← bracketedAssignment
    return if ← atPunct .comma then none else operand.asTarget?
  else return (← bracketedAssignment).asItem?

def arrayLiteral : Rule Operand := do
  let start ← position
  expect .leftBracket
  let (items, _) ← commaList .rightBracket arrayItem
  expect .rightBracket
  return { Operand.plain start .other with destructures? := patternDefaults? items }

/-- Reads the name of a property of an object literal. It is not private. -/
def literalKey : Rule (Option Text) := do
  let key ← propertyName
  if key.isPrivate then failure
  return key.name?

/-- Reads a property that is a method, behind its modifiers, and gives its name. -/
def literalMethod (kind : FunctionKind) : Rule (Option Text) := do
  let name? ← literalKey
  let _ ← functionRest kind
  return name?

/-- Whether the current token is a property without a value of its own. -/
def atShorthand : Rule Bool := do
  if ← atIdentifier then
    afterToken do return !(← atAnyPunct [.leftParen, .colon, .less, .shiftLeft, .dot, .bang])
  else return false

/-- Reads one property of an object literal: its name, and what it would be in a pattern. There, a spread comes last. -/
def literalProperty (start : Nat) : Rule (Option Text × Option (List Nat)) := do
  if ← eat .ellipsis then
    let operand ← bracketedAssignment
    let more ← if ← atPunct .comma then afterToken (do return !(← atPunct .rightBrace)) else pure false
    return (none, if more then none else operand.asTarget?)
  else if (← atAccessor "get") || (← atAccessor "set") then
    step
    return (← literalMethod {}, none)
  else if ← atAsyncMethod then
    step
    let isGenerator ← eat .star
    return (← literalMethod { isAsync := true, isGenerator }, none)
  else if ← eat .star then
    return (← literalMethod { isGenerator := true }, none)
  else if ← atShorthand then
    let name ← identifier
    if ← eat .assign then
      let _ ← bracketedAssignment
      modify fun state => { state with pending := start :: state.pending }
      return (some name, some [start])
    else return (some name, some [])
  else
    let name? ← literalKey
    if ← eat .colon then
      return (name?, (← bracketedAssignment).asItem?)
    else
      let _ ← functionRest {}
      return (name?, none)

def objectLiteral : Rule Operand := do
  let start ← position
  expect .leftBrace
  let (found, _) ← commaList .rightBrace do
    let first ← position
    let (name?, target?) ← literalProperty first
    return (PropertySpan.mk first (← previousStop) name?, target?)
  expect .rightBrace
  return { Operand.plain start .other with
    destructures? := patternDefaults? (found.map (·.2))
    object? := some ⟨start, ← previousStop, found.map (·.1)⟩ }

def parenthesized : Rule Operand := do
  let start ← position
  expect .leftParen
  let operand ← bracketedExpression
  expect .rightParen
  return operand.wrapped start .other

/-- Reads a regular expression, whose opening slash is the current token. -/
def regularExpression : Rule Unit := do
  match regexLength? (← lexeme).source with
  | some length =>
    recut .regex length
    step
  | none => failure

def arguments : Rule Unit := do
  expect .leftParen
  let _ ← commaList .rightParen do
    let _ ← eat .ellipsis
    let _ ← bracketedAssignment
  expect .rightParen

/-- Reads the arguments of an import expression: a specifier, and options that may be left out. -/
def importArguments : Rule Unit := do
  expect .leftParen
  let _ ← bracketedAssignment
  if ← eat .comma then
    if !(← atPunct .rightParen) then
      let _ ← bracketedAssignment
      let _ ← eat .comma
  expect .rightParen

/-- Reads an expression that begins with the word `import`. -/
def importExpression : Rule Form := do
  expectWord "import"
  if ← eat .dot then
    if ← eatWord "meta" then return .other
    if !(← atAnyWord ["source", "defer"]) then failure
    step
  importArguments
  return .importCall

/-- Whether an asynchronous function begins here. -/
def atAsyncFunction : Rule Bool := do
  if ← atWord "async" then afterToken (do return (← atWord "function") && !(← onNewLine)) else return false

/-- Reads an operand that begins with a name, and gives its form. -/
def namedOperand (word : Text) (escaped : Bool) : Rule Form := do
  match if escaped then "" else String.ofList word with
  | "this" | "null" | "true" | "false" => step; return .other
  | "function" => functionExpression false; return .other
  | "class" =>
    let _ ← classRest
    return .other
  | "super" =>
    step
    flawIf !(← atAnyPunct [.dot, .leftBracket, .leftParen])
    return .super
  | "import" => importExpression
  | "new" =>
    step
    expect .dot
    expectWord "target"
    return .other
  | _ =>
    if ← atAsyncFunction then
      step
      functionExpression true
      return .other
    else return .identifier (← identifier)

/-- Reads an operand that no access, call or operator is part of. -/
def primary : Rule Operand := do
  let start ← position
  match ← token with
  | .punct .leftBrace => objectLiteral
  | .punct .leftBracket => arrayLiteral
  | .punct .leftParen => parenthesized
  | .name word escaped =>
    let form ← namedOperand word escaped
    return { Operand.plain start form with assignable := form == .identifier word }
  | .number => step; return .plain start .other
  | .string _ => step; return .plain start .string
  | .template _ _ => template false templateHole; return .plain start .other
  | .punct .slash | .punct .slashAssign => regularExpression; return .plain start .other
  | .punct .at =>
    let _ ← decorators
    let _ ← classRest
    return .plain start .other
  | _ => failure

/-- Reads the name of a member behind a dot. -/
def memberName : Rule Unit := do
  match ← token with
  | .privateName _ => step
  | _ => let _ ← name

/-- Reads an access or call behind the operator `?.`. -/
def optionalAccess : Rule Unit := do
  match ← token with
  | .punct .leftBracket =>
    if (← mode).inDecorator then failure
    step
    let _ ← bracketedExpression
    expect .rightBracket
  | .punct .leftParen => arguments
  | .punct .less | .punct .shiftLeft =>
    if !(← dialect).hasTypes then failure
    typeArguments
    arguments
  | _ => memberName

/-- Extends an operand by one access, assertion or, where `calls` is on, call behind it. -/
def access (calls : Bool) (operand : Operand) : Rule (Option Operand) := do
  let inChain := operand.form == .optionalChain
  let form := if inChain then Form.optionalChain else .other
  let value := Operand.plain operand.start form
  match ← token with
  | .punct .dot =>
    step
    memberName
    return some { value with assignable := !inChain }
  | .punct .leftBracket =>
    if (← mode).inDecorator then return none
    step
    let _ ← bracketedExpression
    expect .rightBracket
    return some { value with assignable := !inChain }
  | .punct .leftParen =>
    if calls then
      arguments
      return some value
    else return none
  | .punct .questionDot =>
    if !calls then failure
    step
    optionalAccess
    return some (.plain operand.start .optionalChain)
  | .template _ _ =>
    flawIf inChain
    template true templateHole
    return some value
  | .punct .bang =>
    if !(← dialect).hasTypes || (← onNewLine) then return none
    step
    return some (operand.wrapped operand.start form)
  | .punct .less | .punct .shiftLeft =>
    if (← dialect).hasTypes then
      match ← attempt expressionTypeArguments with
      | some () => return some value
      | none => return none
    else return none
  | _ => return none

/-- Reads the arguments of as many constructions as `count` tells, each of which is the callee of the next one, with the
accesses behind all but the last. -/
def construction (start : Nat) : (count : Nat) → Rule Operand
  | 0 => return .plain start .other
  | count + 1 => do
    if ← atPunct .leftParen then arguments
    if count != 0 then
      let _ ← extend (Operand.plain start .other) (access false)
    construction start count

/-- Reads an operand with all accesses and calls behind it. -/
def leftHandSide : Rule Operand := do
  let start ← position
  let news ← many do
    if (← atWord "new") && !(← afterToken (atPunct .dot)) then
      step
      return some ()
    else return none
  let base ← primary
  if news.isEmpty then extend base (access true)
  else
    let callee ← extend base (access false)
    flawIf (callee.form == .importCall)
    extend (← construction start news.length) (access true)

end Rule

end IconRegistry.Script
