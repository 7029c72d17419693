import IconRegistry.Script.Grammar.Operator

/-!
Arrow functions. Whether a parenthesis opens the parameters of one is decided by looking ahead where a few tokens
settle it, and by trying otherwise.
-/

namespace IconRegistry.Script.Rule

/-- What a look at the next tokens says about an arrow function. -/
inductive Prospect
  | yes
  | no
  | maybe

/-- Looks ahead without reading anything; where the rule fails, there is no arrow function. -/
def prospect (rule : Rule Prospect) : Rule Prospect := fun env state =>
  match rule env state with
  | some (answer, _) => some (answer, state)
  | none => some (.no, state)

/-- Whether the current token may modify a parameter that it begins. -/
def atParameterModifier : Rule Bool := do
  match ← currentModifier with
  | none | some .async | some .default => return false
  | some _ => return true

/-- The prospect behind an opening parenthesis and a first name. -/
def prospectAfterName (modifies : Bool) (isBindable : Bool) : Rule Prospect := do
  if modifies && (← atIdentifier) then
    return if ← atWord "as" then .no else .yes
  if !isBindable then return .no
  match ← token with
  | .punct .colon => return .yes
  | .punct .question =>
    step
    return if ← atAnyPunct [.colon, .comma, .assign, .rightParen] then .yes else .no
  | .punct .comma | .punct .assign | .punct .rightParen => return .maybe
  | _ => return .no

/-- The prospect behind an opening parenthesis. -/
def prospectAfterParen : Rule Prospect := do
  match ← token with
  | .punct .rightParen =>
    step
    match ← token with
    | .punct .colon => return if (← dialect).hasTypes then .maybe else .no
    | .punct .arrow | .punct .leftBrace => return .yes
    | _ => return .no
  | .punct .leftBracket | .punct .leftBrace => return .maybe
  | .punct .ellipsis =>
    step
    match ← token with
    | .number | .string _ => return .no
    | _ => return .maybe
  | _ =>
    let modifies ← atParameterModifier
    let bindable ← atIdentifier
    let bindable := bindable || (← atWord "this")
    step
    prospectAfterName modifies bindable

/-- The prospect behind an opening angle bracket. Where that may also open a tag, only what no tag begins with
settles it. -/
def prospectAfterAngle : Rule Prospect := do
  let isConst ← atWord "const"
  if !(← atIdentifier) && !isConst then return .no
  if (← dialect).hasJsx then
    if isConst then step
    step
    if ← eatWord "extends" then
      return if ← atAnyPunct [.assign, .greater, .slash] then .no else .yes
    return if ← atAnyPunct [.comma, .assign] then .yes else .no
  else return .maybe

/-- The prospect of an arrow function with a parameter list at the current token. -/
def arrowProspect : Rule Prospect :=
  prospect do
    if ← atWord "async" then
      step
      if ← onNewLine then return .no
    match ← token with
    | .punct .leftParen => step; prospectAfterParen
    | .punct .less => step; prospectAfterAngle
    | _ => return .no

def arrowBody (isAsync returnTypes : Bool) : Rule Unit :=
  withMode (fun m => { m with allowsAwait := isAsync, allowsYield := false, inConditional := false }) do
    if ← atPunct .leftBrace then functionBody
    else
      let _ ← goal (.assignment returnTypes)

/-- Reads the arrow of an arrow function, which stands on the line where its parameters end. -/
def arrow : Rule Unit := do
  flawIf (← onNewLine)
  expect .arrow

/-- Reads the parameters of an arrow function: whether it is asynchronous, and whether it has a return type. It has no
receiver of its own. -/
def arrowParameters : Rule (Bool × Bool) := do
  let isAsync ← eatWord "async"
  withMode (fun m => { m with allowsAwait := m.allowsAwait || isAsync, allowsIn := true, inDecorator := false }) do
    let _ ← typeParameters
    flawIf (← parameters)
  return (isAsync, ← returnAnnotation)

/-- Tries to read an arrow function with a parameter list, and remembers the place if there is none. In the middle of
a conditional expression, what looks like a return type is one only if another colon follows the body. -/
def possibleArrow (returnTypes : Bool) : Rule Bool := do
  let before ← get
  let place ← position
  if before.notArrows.contains place then return false
  let found ← attempt do
    let (isAsync, typed) ← arrowParameters
    if !(← atPunct .arrow) then return false
    arrow
    arrowBody isAsync returnTypes
    return returnTypes || !typed || (← atPunct .colon)
  if found == some true then return true
  set { before with notArrows := place :: (← get).notArrows }
  return false

/-- Reads an arrow function with a parameter list, if there is one. -/
def parenthesizedArrow (returnTypes : Bool) : Rule Bool := do
  match ← arrowProspect with
  | .no => return false
  | .maybe => possibleArrow returnTypes
  | .yes =>
    let (isAsync, _) ← arrowParameters
    arrow
    arrowBody isAsync returnTypes
    return true

/-- Reads an asynchronous arrow function with a single name as its parameter, if there is one. -/
def asyncNameArrow (returnTypes : Bool) : Rule Bool := do
  if ← atWord "async" then
    let found ← afterToken do
      if (← onNewLine) || !(← atIdentifier) then return false
      step
      return (← atPunct .arrow) && !(← onNewLine)
    if found then
      step
      let _ ← identifier
      arrow
      arrowBody true returnTypes
    return found
  else return false

/-- Reads what stands behind the word `yield`. -/
def yieldOperand : Rule Unit := do
  if !(← onNewLine) then
    let delegates ← eat .star
    let ends ← match ← token with
      | .endOfText => pure true
      | .punct p => pure ([.semicolon, .rightBrace, .rightParen, .rightBracket, .colon, .comma].contains p)
      | _ => atWord "in"
    if delegates || !ends then
      let _ ← goal (.assignment true)

/-- Reads the branches of a conditional expression, if there are some. -/
def conditionalRest (returnTypes : Bool) (condition : Operand) : Rule Operand := do
  if ← eat .question then
    let _ ← withMode (fun m => { m with allowsIn := true }) (goal (.assignment false))
    expect .colon
    let _ ← goal (.assignment returnTypes)
    return .plain condition.start .other
  else return condition

/-- Reads an expression without commas. -/
def assignment (returnTypes : Bool) : Rule Operand := do
  let start ← position
  if (← mode).allowsYield && (← atWord "yield") then
    step
    yieldOperand
    return .plain start .other
  if ← parenthesizedArrow returnTypes then return .plain start .other
  if ← asyncNameArrow returnTypes then return .plain start .other
  let left ← binary 0
  match left.form, ← token with
  | .identifier _, .punct .arrow =>
    arrow
    arrowBody false returnTypes
    return .plain start .other
  | _, .punct .assign | _, .punct .compoundAssign | _, .punct .slashAssign =>
    assignTo left.asTarget?
    step
    let _ ← goal (.assignment returnTypes)
    return { Operand.plain start .other with hasDefault := true }
  | _, _ => conditionalRest returnTypes left

def expression : Rule Operand := do
  let first ← withMode (fun m => { m with inDecorator := false }) (goal (.assignment true))
  let more ← many do
    if ← eat .comma then
      let _ ← goal (.assignment true)
      return some ()
    else return none
  return if more.isEmpty then first else .plain first.start .sequence

end IconRegistry.Script.Rule
