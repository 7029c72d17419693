import IconRegistry.Script.Grammar.Declaration

/-!
Statements, apart from imports and exports.
-/

namespace IconRegistry.Script.Rule

/-- Reads an expression in parentheses that a statement needs. -/
def condition : Rule Unit := do
  expect .leftParen
  let _ ← expressionWithIn
  expect .rightParen

/-- Reads an expression statement or a labelled statement. -/
def expressionStatement : Rule Content := do
  let operand ← expressionWithIn
  match operand.form, ← token with
  | .identifier _, .punct .colon =>
    step
    let _ ← goal (.statement .label)
    return .other
  | form, _ =>
    endStatement
    return if form == .string then .directive else .other

def ifRest : Rule Unit := do
  condition
  let _ ← goal (.statement .branch)
  if ← eatWord "else" then
    let _ ← goal (.statement .branch)

def loopBody : Rule Unit := do
  let _ ← goal (.statement .loopBody)

def doRest : Rule Unit := do
  loopBody
  expectWord "while"
  condition
  let _ ← eat .semicolon

/-- Whether the current token is an operator between two operands, or one that assigns. -/
def atOperator : Rule Bool := do
  match ← token with
  | .punct .assign | .punct .compoundAssign | .punct .slashAssign => return true
  | .punct .and | .punct .or | .punct .coalesce => return false
  | other => return (precedence? other).isSome && !(← atAnyWord ["as", "satisfies"])

/-- Whether the word `let` here begins a declaration, and not an expression. In a single statement only a bracket behind
it makes it one. -/
def atLetDeclaration (single : Bool) : Rule Bool := do
  if ← atWord "let" then
    afterToken do
      if (← atOperator) || (← atAnyPunct [.dot, .leftParen, .semicolon]) then return false
      if single then atPunct .leftBracket else return true
  else return false

/-- Reads an expression statement that begins with the word `let`. Behind an access or a call no end of the statement
is needed. -/
def letExpression : Rule Unit := do
  if ← afterToken (atAnyPunct [.dot, .leftParen]) then
    let _ ← expressionWithIn
  else
    if ← afterToken atOperator then
      let _ ← assignmentWithIn
    else step
    endStatement

/-- Whether the word `using` here begins a declaration. -/
def atUsing : Rule Bool := do
  if ← atWord "using" then
    afterToken do return (← atIdentifier) && !(← onNewLine) && !(← atAnyWord ["of"])
  else return false

/-- Whether the words `await using` here begin a declaration. -/
def atAwaitUsing : Rule Bool := do
  if ← atWord "await" then
    afterToken do if ← onNewLine then return false else atUsing
  else return false

/-- Whether the word `let` in the head of a loop begins a declaration: a pattern stands behind it, or a name that is no
operator of the loop. -/
def atLoopVariable : Rule Bool := do
  if ← atWord "let" then
    afterToken do return ((← atName) && !(← atWord "in")) || (← atAnyPunct [.leftBrace, .leftBracket])
  else return false

/-- Whether the word `using` in the head of a loop begins a declaration: a name stands behind it that has no other
meaning. -/
def atLoopResource : Rule Bool := do
  if ← atWord "using" then
    afterToken do
      match ← token with
      | .name word _ => return !isReserved word && !contextualWords.contains word
      | _ => return false
  else return false

/-- Steps over the words that begin a declaration in the head of a loop, and tells what is declared. Nothing if there is
no declaration. -/
def loopDeclaration : Rule (Option VariableKind) := do
  if ← eatWord "var" then return some .variable
  if ← atLoopVariable then
    step
    return some .variable
  if ← eatWord "const" then return some .constant
  if ← atLoopResource then
    step
    return some .resource
  if (← atWord "await") && (← afterToken (atWord "using")) then
    step
    step
    return some .resource
  return none

/-- Reads the rest of a loop over the properties or items of something, if its head is one of that kind. What stands
before is checked, given whether the loop is over properties. -/
def enumeratingRest (isAwait : Bool) (check : Bool → Rule Unit) : Rule Bool := do
  let overKeys ← atWord "in"
  let overItems ← atWord "of"
  if overKeys || overItems then
    check overKeys
    flawIf (isAwait && overKeys)
    step
    let _ ← if overKeys then expressionWithIn else assignmentWithIn
    expect .rightParen
    loopBody
    return true
  else return false

/-- Reads the rest of a loop with a test and a step. -/
def countingRest (isAwait : Bool) : Rule Unit := do
  flawIf isAwait
  expect .semicolon
  if !(← atPunct .semicolon) then
    let _ ← expressionWithIn
  expect .semicolon
  if !(← atPunct .rightParen) then
    let _ ← expressionWithIn
  expect .rightParen
  loopBody

def forRest : Rule Unit := do
  let isAwait ← eatWord "await"
  flawIf (isAwait && !(← mode).allowsAwait)
  expect .leftParen
  if ← atPunct .semicolon then countingRest isAwait
  else
    match ← loopDeclaration with
    | some kind =>
      let found ← withMode (fun m => { m with allowsIn := false }) (variableList kind)
      if !(← enumeratingRest isAwait fun overKeys => flawIf (overKeys && kind == .resource)) then
        if kind != .resource then checkValues kind found
        countingRest isAwait
    | none =>
      let asyncOf ← if ← atWord "async" then afterToken (atWord "of") else pure false
      let isLet ← atWord "let"
      let operand ← withMode (fun m => { m with allowsIn := false }) (goal .expression)
      let check := fun overKeys => do
        flawIf (asyncOf && !isAwait && operand.form == .identifier "async".toList)
        flawIf (isLet && !overKeys)
        assignTo operand.asTarget?
      if !(← enumeratingRest isAwait check) then countingRest isAwait

def switchRest : Rule Unit := do
  condition
  expect .leftBrace
  let _ ← many do
    if ← eatWord "case" then
      let _ ← expressionWithIn
    else if !(← eatWord "default") then return none
    expect .colon
    let _ ← many do
      if (← atPunct .rightBrace) || (← atAnyWord ["case", "default"]) then return none
      let _ ← goal (.statement .list)
      return some ()
    return some ()
  expect .rightBrace

def tryRest : Rule Unit := do
  block .list
  let catches ← eatWord "catch"
  if catches then
    if ← eat .leftParen then
      let _ ← goal .binding
      let _ ← typeAnnotation
      expect .rightParen
    block .list
  let finishes ← eatWord "finally"
  if finishes then block .list
  flawIf (!catches && !finishes)

def returnRest : Rule Unit := do
  flawIf !(← mode).allowsReturn
  if !(← canEndStatement) then
    let _ ← expressionWithIn
  endStatement

def throwRest : Rule Unit := do
  flawIf (← onNewLine)
  let _ ← expressionWithIn
  endStatement

def jumpRest : Rule Unit := do
  if !(← canEndStatement) then
    let _ ← identifier
  endStatement

def withRest : Rule Unit := do
  condition
  let _ ← goal (.statement .branch)

/-- The rest of a statement that its first word decides. -/
def wordRest? (word : String) : Option (Rule Unit) :=
  match word with
  | "if" => some ifRest
  | "do" => some doRest
  | "while" => some do condition; loopBody
  | "for" => some forRest
  | "break" | "continue" => some jumpRest
  | "with" => some withRest
  | "switch" => some switchRest
  | "throw" => some throwRest
  | "try" => some tryRest
  | "debugger" => some endStatement
  | "return" => some returnRest
  | _ => none

/-- Reads a declaration statement, if one begins here. In the place of a single statement some are flaws. -/
def declarationStatement (context : StatementContext) : Rule Bool := do
  let single := context != .list
  if ← atTypeDeclaration then
    let _ ← withMode (fun m => { m with allowsAwait := false }) declaration
    return true
  if ← atAnyWord ["const", "class"] then
    flawIf single
    let _ ← declaration
    return true
  if ← atAsyncFunction then
    flawIf single
    let _ ← declaration
    return true
  if ← atWord "function" then
    flawIf (single && (← afterToken (atPunct .star)))
    let _ ← declaration
    return true
  if ← atLetDeclaration single then
    flawIf single
    let _ ← declaration
    return true
  if ← atWord "var" then
    let _ ← declaration
    return true
  if (← atUsing) || (← atAwaitUsing) then
    let _ ← eatWord "await"
    step
    let _ ← variableDeclaration .resource
    return true
  return false

/-- Reads a statement that is neither an import nor an export. -/
def plainStatement (context : StatementContext) : Rule Content := do
  match ← token with
  | .punct .leftBrace => block .list; return .other
  | .punct .semicolon => step; return .other
  | .name word false =>
    match wordRest? (String.ofList word) with
    | some rest =>
      step
      rest
      return .other
    | none =>
      if ← declarationStatement context then return .other
      if ← atWord "let" then
        letExpression
        return .other
      expressionStatement
  | _ => expressionStatement

end IconRegistry.Script.Rule
