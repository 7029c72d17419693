import IconRegistry.Script.Grammar.Arrow

/-!
Declarations: variables, functions and classes, and those that only types know.
-/

namespace IconRegistry.Script

/-- A declaration: the names of values that it binds, and the variables among them. -/
structure Declaration where
  names : List Text := []
  variables? : Option (List Declarator) := none

/-- What is kept of a declaration that is exported. -/
def Declaration.exportedContent (declaration : Declaration) : Content :=
  match declaration.variables? with
  | some declarators => .exportsVariables declarators
  | none => .other

/-- A variable of a declaration: the names it binds, whether they stand in a pattern, and whether it has a value. -/
structure Variable where
  declarator : Declarator
  names : List Text
  isPattern : Bool
  hasValue : Bool

/-- What is declared: variables, constants, or resources that are released at the end of their block. -/
inductive VariableKind
  | variable
  | constant
  | resource
  deriving DecidableEq

namespace Rule

def variableBinding : Rule Variable := do
  let isPattern := !(← atName)
  let names ← goal .binding
  if (← dialect).hasTypes then
    if (← atPunct .bang) && !isPattern && !(← onNewLine) then step
    let _ ← eat .question
  let _ ← typeAnnotation
  let name? := if isPattern then none else names.head?
  if ← eat .assign then
    let operand ← goal (.assignment true)
    return ⟨⟨name?, operand.object?⟩, names, isPattern, true⟩
  else return ⟨⟨name?, none⟩, names, isPattern, false⟩

/-- Reads the variables of a declaration. No resource stands in a pattern. -/
def variableList (kind : VariableKind) : Rule (List Variable) := do
  let found ← separated variableBinding
  flawIf (kind == .resource && found.any (·.isPattern))
  return found

/-- All but plain variables need values, and so do patterns. In ambient declarations only resources do. -/
def checkValues (kind : VariableKind) (found : List Variable) : Rule Unit := do
  let lacking := found.any fun v => !v.hasValue && (kind != .variable || v.isPattern)
  flawIf (lacking && (kind == .resource || !(← mode).ambient))

/-- Reads a declaration of variables behind its first word. -/
def variableDeclaration (kind : VariableKind) : Rule Declaration := do
  let found ← variableList kind
  checkValues kind found
  endStatement
  return { names := found.flatMap (·.names), variables? := some (found.map (·.declarator)) }

def classDeclaration (found : List Modifier) : Rule Declaration := do
  allowModifiers [.abstract, .declare] found
  return { names := (← classRest).toList }

/-- Reads a declaration of a function, given the modifiers before it. -/
def modifiedFunction (found : List Modifier) : Rule Declaration := do
  allowModifiers [.async, .declare] found
  let isAsync ← if found.contains .async then pure true else eatWord "async"
  if found.contains .declare then return { names := [← declaredFunction isAsync] }
  return { names := (← functionDeclaration isAsync true).toList }

/-- Reads a block of statements with its braces, where no function surrounds them. -/
def namespaceBlock : Rule Unit :=
  withMode (fun m => { m with allowsReturn := false, allowsIn := true }) (block .list)

def typeAlias : Rule Unit := do
  expectWord "type"
  let _ ← identifier
  let _ ← typeParameters
  expect .assign
  if (← atWord "intrinsic") && !(← afterToken (atPunct .dot)) then step else enclosedType
  endStatement

def interface : Rule Unit := do
  expectWord "interface"
  let _ ← identifier
  let _ ← typeParameters
  heritage
  typeMembers

def enumMember : Rule Unit := do
  match ← token with
  | .name _ _ | .string _ => step
  | .punct .leftBracket =>
    step
    match ← token with
    | .string _ | .template true true => step
    | _ => failure
    expect .rightBracket
  | _ => failure
  if ← eat .assign then
    let _ ← bracketedAssignment

def enumeration : Rule Unit := do
  expectWord "enum"
  let _ ← identifier
  expect .leftBrace
  let _ ← commaList .rightBrace enumMember
  expect .rightBrace

/-- Reads one of the names by which a namespace or module is declared. -/
def namespaceName : Rule Unit := do
  if ← atString then step
  else
    let _ ← identifier

/-- Reads a namespace or module declaration behind its first word. Its body may be left out. -/
def namespaceRest : Rule Unit := do
  namespaceName
  let _ ← many do
    if ← eat .dot then return some (← namespaceName) else return none
  if ← atPunct .leftBrace then namespaceBlock else endStatement

/-- Reads an import that names another name or a module, behind its equals sign. -/
def importAlias : Rule Unit := do
  if ← eatWord "require" then
    expect .leftParen
    let _ ← string
    expect .rightParen
  else
    let _ ← name
    dottedNames
  endStatement

/-- Reads the declaration of a name for another one, or for a module, behind the word `import`. -/
def importedName : Rule Unit := do
  if (← atWord "type") && (← afterToken atIdentifier) then step
  let _ ← identifier
  expect .assign
  importAlias

/-- Whether the current token is a modifier that may begin a declaration. -/
def atDeclarationModifier : Rule Bool := do
  return (← currentModifier).any Modifier.beginsDeclaration

/-- Whether a declaration with a word of its own begins here, at most `fuel` words ahead. -/
def startsDeclaration : (fuel : Nat) → Rule Bool
  | 0 => return false
  | fuel + 1 => do
    if ← atAnyWord ["var", "let", "const", "function", "class", "enum"] then return true
    if ← atAnyWord ["interface", "type"] then
      step
      return (← atIdentifier) && !(← onNewLine)
    if ← atAnyWord ["module", "namespace"] then
      step
      if ← onNewLine then return false
      if ← atString then return true
      return ← atIdentifier
    if ← eatWord "global" then
      if ← atAnyPunct [.leftBrace] then return true
      if ← atWord "export" then return true
      return ← atIdentifier
    if ← eatWord "import" then
      if ← atAnyPunct [.star, .leftBrace] then return true
      if ← atString then return true
      return ← atName
    if ← atDeclarationModifier then
      let ambient ← atWord "declare"
      let anywhere ← atWord "static"
      step
      if !anywhere && (← onNewLine) then return false
      if ambient && (← atWord "type") then return true
      startsDeclaration fuel
    else return false

/-- Whether a declaration that only types know begins here. -/
def atTypeDeclaration : Rule Bool := do
  if !(← dialect).hasTypes || (← atWord "async") then return false
  let words := ["interface", "type", "module", "namespace", "enum", "global"]
  if (← atAnyWord words) || (← atDeclarationModifier) then ahead (startsDeclaration 16) else return false

/-- Reads a declaration that binds no values, given the modifiers before it. -/
def typeDeclaration (found : List Modifier) : Rule Unit := do
  if ← eatWord "import" then importedName
  else if ← atWord "enum" then
    allowModifiers [.const, .declare] found
    enumeration
  else
    allowModifiers [.declare] found
    if ← atWord "type" then typeAlias
    else if ← atWord "interface" then interface
    else if ← atAnyWord ["namespace", "module"] then
      step
      namespaceRest
    else if ← eatWord "global" then namespaceBlock
    else failure

/-- Reads a declaration behind its modifiers. -/
def modifiedDeclaration (found : List Modifier) : Rule Declaration := do
  if ← atAnyWord ["var", "let", "const"] then
    let isConstant ← atWord "const"
    step
    allowModifiers [.declare] found
    variableDeclaration (if isConstant then .constant else .variable)
  else if (← atWord "function") || (← atAsyncFunction) then modifiedFunction found
  else if ← atWord "class" then classDeclaration found
  else
    typeDeclaration found
    return {}

/-- Reads a declaration with its modifiers: `declare` makes it ambient. -/
def declaration : Rule Declaration := do
  let found ← if (← dialect).hasTypes then modifiers .declaration else pure []
  withMode (fun m => { m with ambient := m.ambient || found.contains .declare }) (modifiedDeclaration found)

end Rule

end IconRegistry.Script
