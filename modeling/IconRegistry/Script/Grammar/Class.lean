import IconRegistry.Script.Grammar.Function

/-!
Classes: their heritage and their members.
-/

namespace IconRegistry.Script.Rule

/-- Reads one base that a class or an interface extends: an expression and type arguments. -/
def base : Rule Unit := do
  let _ ← goal .leftHandSide
  if ← atPunct .less then typeArguments

/-- Reads what a class or an interface extends and implements. Each of the two clauses stands at most once, in this
order. -/
def heritage : Rule Unit := do
  let _ ← extend (false, false) fun (extended, implemented) => do
    if ← eatWord "extends" then
      flawIf (extended || implemented)
      let _ ← separated base
      return some (true, implemented)
    else if ← eatWord "implements" then
      flawIf implemented
      let _ ← separated typeReference
      return some (extended, true)
    else return none

/-- Reads the static block of a class behind the word `static`. -/
def staticBlock : Rule Unit :=
  withMode (fun m => { m with allowsYield := false, allowsAwait := true, allowsReturn := false, allowsIn := true })
    (block .list)

/-- No private member is named `constructor`, nor is its access told in types. No static member is named `prototype`,
except in ambient declarations. -/
def checkMemberName (found : List Modifier) (key : PropertyName) : Rule Unit := do
  flawIf (key.isPrivate && key.text? == some "constructor".toList)
  flawIf (key.isPrivate && (← dialect).hasTypes && found.any (·.isAccess))
  let ambient := (← mode).ambient || found.contains .declare
  flawIf (found.contains .static && key.denotes "prototype" && !ambient)

/-- Reads an accessor behind its word. It is neither asynchronous nor the constructor. -/
def classAccessor (found : List Modifier) : Rule Unit := do
  flawIf (found.contains .async)
  let key ← propertyName
  checkMemberName found key
  flawIf (key.denotes "constructor" && !found.contains .static)
  let _ ← functionRest {}

/-- Reads an index signature of a class. Only `readonly` and `static` modify it. -/
def classIndexSignature (decorated : Bool) (found : List Modifier) : Rule Unit := do
  flawIf decorated
  allowModifiers [.readonly, .static] found
  indexSignature
  endTypeMember

/-- Reads a method behind its name. The constructor is an ordinary function with neither type parameters nor a receiver
of its own. -/
def classMethod (found : List Modifier) (key : PropertyName) (isGenerator optional : Bool) : Rule Unit := do
  let isAsync := found.contains .async
  let constructs := key.denotes "constructor" && !found.contains .static
  let shape ← functionRest { isAsync, isGenerator }
  flawIf (constructs && (isAsync || isGenerator || optional || shape.hasTypeParameters || shape.hasThis))

/-- Reads a field behind its name. Marks say that it may be absent or that it is set elsewhere, but not both. -/
def classField (found : List Modifier) (key : PropertyName) (optional : Bool) : Rule Unit := do
  flawIf (key.denotes "constructor")
  let definite ← eat .bang
  flawIf (optional && (definite || found.contains .accessor))
  let _ ← typeAnnotation
  if ← eat .assign then
    let _ ← withMode
      (fun m => { m with allowsIn := true, allowsYield := false, allowsAwait := false }) (goal (.assignment true))
  endStatement

def namedMember (found : List Modifier) : Rule Unit := do
  let isGenerator ← eat .star
  let key ← propertyName
  checkMemberName found key
  let optional ← eat .question
  if isGenerator || (← atAnyPunct [.leftParen, .less]) then classMethod found key isGenerator optional
  else classField found key optional

def classMember : Rule Unit := do
  let decorated ← decorators
  let found ← modifiers .member
  flawIf (found.contains .const)
  if (← atWord "static") && (← afterToken (atPunct .leftBrace)) then
    flawIf (decorated || !found.isEmpty)
    step
    staticBlock
  else if (← atAccessor "get") || (← atAccessor "set") then
    step
    classAccessor found
  else if (← dialect).hasTypes && (← atPunct .leftBracket) && (← opensIndexSignature) then
    classIndexSignature decorated found
  else namedMember found

/-- Reads a class from the word `class` on, and gives its name, if it has one. -/
def classRest : Rule (Option Text) := do
  expectWord "class"
  let name? ← if (← atIdentifier) && !(← atWord "implements") then
      let name ← identifier
      pure (some name)
    else pure none
  let _ ← typeParameters
  heritage
  expect .leftBrace
  let _ ← many do
    let _ ← many do
      if ← eat .semicolon then return some () else return none
    if ← atPunct .rightBrace then return none
    withMode (fun m => { m with inDecorator := false }) classMember
    return some ()
  expect .rightBrace
  return name?

end IconRegistry.Script.Rule
