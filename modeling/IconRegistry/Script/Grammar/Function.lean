import IconRegistry.Script.Grammar.Types

/-!
Functions: their bodies, and the parameters and results in front of them.
-/

namespace IconRegistry.Script.Rule

def block (context : StatementContext) : Rule Unit := do
  expect .leftBrace
  let _ ← many do
    if ← atPunct .rightBrace then return none
    let _ ← goal (.statement context)
    return some ()
  expect .rightBrace

def functionBody : Rule Unit :=
  withMode (fun m => { m with allowsIn := true, allowsReturn := true }) (block .list)

/-- What a function is, as far as what is allowed in it depends on it. -/
structure FunctionKind where
  isAsync : Bool := false
  isGenerator : Bool := false

/-- What a function has: type parameters, a typed receiver, a body. -/
structure FunctionShape where
  hasTypeParameters : Bool
  hasThis : Bool
  hasBody : Bool

/-- Reads the type parameters, parameters and result of a function, and its body, which types allow to be left out. -/
def functionRest (kind : FunctionKind) : Rule FunctionShape := do
  let shape ← withMode
    (fun m => { m with
      allowsIn := true, allowsYield := kind.isGenerator, allowsAwait := kind.isAsync, inDecorator := false,
      inConditional := false })
    do
      let hasTypeParameters ← typeParameters
      let hasThis ← parameters
      let _ ← returnAnnotation
      let hasBody ← atPunct .leftBrace
      if hasBody then functionBody
      return { hasTypeParameters, hasThis, hasBody }
  if !shape.hasBody then
    if !(← dialect).hasTypes then failure
    endStatement
  return shape

/-- Reads a function expression from the word `function` on. -/
def functionExpression (isAsync : Bool) : Rule Unit := do
  expectWord "function"
  let isGenerator ← eat .star
  if ← atIdentifier then
    let _ ← withMode (fun m => { m with allowsYield := isGenerator, allowsAwait := isAsync }) identifier
  let _ ← functionRest { isAsync, isGenerator }

/-- Reads a function declaration from the word `function` on, and gives its name. -/
def functionDeclaration (isAsync needsName : Bool) : Rule (Option Text) := do
  expectWord "function"
  let isGenerator ← eat .star
  let name? ← if ← atIdentifier then
      let name ← identifier
      pure (some name)
    else
      if needsName then failure
      pure none
  let _ ← functionRest { isAsync, isGenerator }
  return name?

/-- Reads a function that is declared to exist elsewhere, from the word `function` on, and gives its name. It has no
body. -/
def declaredFunction (isAsync : Bool) : Rule Text := do
  expectWord "function"
  let name ← identifier
  flawIf (← functionRest { isAsync }).hasBody
  return name

/-- Whether the word `async` here makes a method asynchronous. -/
def atAsyncMethod : Rule Bool := do
  if ← atWord "async" then
    afterToken do
      if ← onNewLine then return false
      if ← atPropertyName then return true
      atPunct .star
  else return false

end IconRegistry.Script.Rule
