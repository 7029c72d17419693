import IconRegistry.Script.Grammar.Modifier

/-!
Bindings: the names and patterns that declarations and parameters introduce.
-/

namespace IconRegistry.Script.Rule

/-- The name of a property: the name itself if it is written as one, the text it denotes where no expression gives it,
and whether it is private. -/
structure PropertyName where
  name? : Option Text
  text? : Option Text := name?
  isPrivate : Bool := false

/-- Whether a property has a certain name, written as a name or as a string. -/
def PropertyName.denotes (key : PropertyName) (word : String) : Bool :=
  key.text? == some word.toList && !key.isPrivate

/-- Reads the name of a property: a name, a string, a number, or an expression in brackets. -/
def propertyName : Rule PropertyName := do
  match ← token with
  | .name word _ => step; return { name? := some word }
  | .string value => step; return { name? := none, text? := some value }
  | .number => step; return { name? := none }
  | .privateName word => step; return { name? := none, text? := some word, isPrivate := true }
  | .punct .leftBracket =>
    step
    let _ ← assignmentWithIn
    expect .rightBracket
    return { name? := none }
  | _ => failure

/-- Whether an accessor begins here: the word, and the name of a property behind it. -/
def atAccessor (word : String) : Rule Bool := do
  if ← atWord word then afterToken atPropertyName else return false

/-- Reads a type behind a colon, if there is one and types are part of the dialect. Tells whether there is one. -/
def typeAnnotation : Rule Bool := do
  let typed ← if (← dialect).hasTypes then eat .colon else pure false
  if typed then goal .type
  return typed

def optionalDefault : Rule Unit := do
  if ← eat .assign then
    let _ ← assignmentWithIn

/-- Reads a binding with what may stand behind it in a list: with types a question mark and an annotation, and a
default. -/
def bindingElement : Rule (List Text) := do
  let names ← goal .binding
  if (← dialect).hasTypes then
    let _ ← eat .question
  let _ ← typeAnnotation
  optionalDefault
  return names

/-- Reads the rest element of a list behind its dots. It is the last one, without a comma behind it. -/
def restBinding (close : Punct) : Rule (List Text) := do
  let names ← goal .binding
  let _ ← typeAnnotation
  if !(← atPunct close) then failure
  return names

def bindingProperty : Rule (List Text) := do
  if ← eat .ellipsis then
    if !(← atIdentifier) then failure
    restBinding .rightBrace
  else
    let shorthand ← if ← atIdentifier then afterToken (do return !(← atPunct .colon)) else pure false
    if shorthand then
      let bound ← name
      optionalDefault
      return [bound]
    else
      let key ← propertyName
      if key.isPrivate then failure
      expect .colon
      bindingElement

/-- Reads one element of an array pattern, which may be a hole. -/
def bindingItem : Rule (List Text) := do
  if ← atPunct .comma then return []
  if ← eat .ellipsis then restBinding .rightBracket else bindingElement

/-- Reads a binding: an identifier, an object pattern or an array pattern. Gives the names it binds. -/
def binding : Rule (List Text) := do
  if ← eat .leftBrace then
    let (names, _) ← commaList .rightBrace bindingProperty
    expect .rightBrace
    return names.flatten
  else if ← eat .leftBracket then
    let (names, _) ← commaList .rightBracket bindingItem
    expect .rightBracket
    return names.flatten
  else return [← identifier]

def decorators : Rule Bool := do
  let found ← many do
    if ← eat .at then
      let _ ← withMode (fun m => { m with inDecorator := true }) (goal .leftHandSide)
      return some ()
    else return none
  return !found.isEmpty

/-- Reads one parameter. The one that takes the rest is not optional. -/
def parameter : Rule Unit := do
  if ← eat .ellipsis then
    let _ ← goal .binding
    if (← dialect).hasTypes then flawIf (← eat .question)
    let _ ← typeAnnotation
    if !(← atPunct .rightParen) then failure
  else
    let _ ← decorators
    let _ ← modifiers .parameter
    let _ ← bindingElement

/-- Reads a parameter list in parentheses, and tells whether it types the receiver `this` at its front. -/
def parameters : Rule Bool := do
  expect .leftParen
  let hasThis ← if (← dialect).hasTypes then eatWord "this" else pure false
  if hasThis then
    let _ ← typeAnnotation
    if !(← atPunct .rightParen) then expect .comma
  let _ ← commaList .rightParen parameter
  expect .rightParen
  return hasThis

end IconRegistry.Script.Rule
