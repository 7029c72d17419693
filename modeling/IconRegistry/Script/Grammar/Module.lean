import IconRegistry.Script.Grammar.Statement

/-!
Imports and exports, and statements as a whole.
-/

namespace IconRegistry.Script

/-- A name in a list of imports or exports: its text, and whether it may stand for an identifier. -/
structure SpecifierName where
  text : Text
  isIdentifier : Bool

/-- An item of such a list: its name at the module, its name at the other end, and whether it is marked as a type. -/
structure Specifier where
  outer : SpecifierName
  inner : SpecifierName
  isType : Bool

/-- An item with one name. -/
def Specifier.single (item : SpecifierName) (isType : Bool) : Specifier :=
  ⟨item, item, isType⟩

namespace Rule

/-- Reads one attribute of an import or export, and gives its key. -/
def sourceAttribute : Rule Text := do
  let key ← match ← token with
    | .name word _ => pure word
    | .string word => pure word
    | _ => failure
  step
  expect .colon
  let _ ← string
  return key

/-- Reads attributes behind the source of an import or export, if there are some. No key stands twice. -/
def sourceAttributes : Rule Unit := do
  if (← atWord "with") || ((← atWord "assert") && !(← onNewLine)) then
    step
    expect .leftBrace
    let (keys, _) ← commaList .rightBrace sourceAttribute
    expect .rightBrace
    flawIf !(decide keys.Nodup)

/-- Reads the source of an import or export with its attributes, and ends the statement. -/
def sourceClause : Rule Text := do
  let source ← string
  sourceAttributes
  endStatement
  return source

/-- Whether a name of an item stands here. -/
def atSpecifierName : Rule Bool := do
  return (← atName) || (← atString)

/-- Whether the string that is the current token holds a lone surrogate. -/
def atLoneSurrogate : Rule Bool := do
  match (← lexeme).source with
  | quote :: rest => return (stringFrom? quote 0 rest).any fun (units, _) => hasLoneSurrogate units
  | [] => return false

/-- Reads a name of an item, which may be a string without lone surrogates. -/
def specifierName : Rule SpecifierName := do
  match ← token with
  | .string value =>
    flawIf (← atLoneSurrogate)
    step
    return ⟨value, false⟩
  | .name word _ => step; return ⟨word, !isReserved word⟩
  | _ => failure

/-- Reads the other name of an item behind the word `as`, if there is one. -/
def specifierFrom (outer : SpecifierName) (isType : Bool) : Rule Specifier := do
  if ← eatWord "as" then return ⟨outer, ← specifierName, isType⟩ else return .single outer isType

/-- Reads an item that begins with the word `type`. The word marks a type, unless it is itself a name of the item. -/
def markedSpecifier : Rule Specifier := do
  let typeName ← specifierName
  if ← atWord "as" then
    let asName ← specifierName
    if ← eatWord "as" then
      if ← atSpecifierName then return ⟨asName, ← specifierName, true⟩ else return ⟨typeName, asName, false⟩
    else if ← atSpecifierName then return ⟨typeName, ← specifierName, false⟩
    else return .single asName true
  else if ← atSpecifierName then specifierFrom (← specifierName) true
  else return .single typeName false

def specifier : Rule Specifier := do
  if (← dialect).hasTypes && (← atWord "type") then markedSpecifier
  else specifierFrom (← specifierName) false

/-- Reads the items of a list of imports or exports in braces. Where all of them are types, none is marked as one. -/
def specifiers (typeOnly : Bool) : Rule (List Specifier) := do
  expect .leftBrace
  let (items, _) ← commaList .rightBrace specifier
  expect .rightBrace
  flawIf (typeOnly && items.any (·.isType))
  return items

/-- Reads the items of an import in braces. Each binds an identifier. -/
def importedItems (typeOnly : Bool) : Rule (List Specifier) := do
  let items ← specifiers typeOnly
  if items.any fun item => !item.inner.isIdentifier then failure
  let awaits := (← mode).allowsAwait
  flawIf (items.any fun item => awaits && item.inner.text == "await".toList)
  return items

/-- Reads what an import binds behind its default name: everything under one name, or single items. -/
def importBindings (typeOnly : Bool) : Rule (List Specifier) := do
  if ← eat .star then
    expectWord "as"
    let _ ← identifier
    return []
  else importedItems typeOnly

/-- Whether a name behind the first word of an import leaves that word to be a modifier of it. -/
def modifiesImport : Rule Bool := do
  if ← atAnyPunct [.star, .leftBrace] then return true
  if !(← atIdentifier) then return false
  if ← atWord "from" then afterToken do return (← atWord "from") || (← atPunct .assign)
  else return true

/-- Reads the first name of an import and the modifier before it: whether only types are imported, and whether there is
a default name. -/
def importHead : Rule (Bool × Bool) := do
  if !(← atIdentifier) then return (false, false)
  let marksTypes ← if (← dialect).hasTypes then atWord "type" else pure false
  let defers ← atWord "defer"
  let isSource ← atWord "source"
  let _ ← identifier
  let modifies ← if marksTypes then modifiesImport
    else if defers then atPunct .star
    else if isSource then (do return (← atIdentifier) && (← modifiesImport))
    else pure false
  if !modifies then return (false, true)
  if ← atIdentifier then
    let _ ← identifier
    return (marksTypes, true)
  else return (marksTypes, false)

/-- Reads an import from the word `import` on. Between a default name and the source, `from` may be left out. -/
def importStatement : Rule Content := do
  let start ← position
  expectWord "import"
  let finish := fun (typeOnly : Bool) (items : List Specifier) => do
    let source ← sourceClause
    let locals := (items.filter (!·.isType)).map (·.inner.text)
    return Content.imports ⟨source, locals, typeOnly, start, ← previousStop⟩
  let (typeOnly, hasDefault) ← importHead
  if ← atString then finish typeOnly []
  else if hasDefault && !(← atPunct .comma) && !(← atWord "from") then
    if !(← dialect).hasTypes then failure
    expect .assign
    importAlias
    return .other
  else
    let more ← if hasDefault then eat .comma else pure true
    let items ← if more then importBindings typeOnly else pure []
    expectWord "from"
    finish typeOnly items

/-- Records an exported name. Without types, no name is exported twice. -/
def exportName (name : Text) : Rule Unit := do
  flawIf (!(← dialect).hasTypes && (← get).exported.contains name)
  modify fun state => { state with exported := name :: state.exported }

/-- Identifiers that name no value of a file. -/
def unexportedWords : List Text :=
  ["await", "yield", "implements", "interface", "package", "private", "protected", "public", "static"].map String.toList

def atLiteral : Rule Bool := do
  match ← token with
  | .string _ | .number => return true
  | _ => atAnyWord ["null", "true", "false"]

/-- Reads the items of an export in braces, and the module that they come from, if there is one. Items of the file
itself have identifiers as their names. -/
def exportedItems (typeOnly : Bool) : Rule Unit := do
  let items ← specifiers typeOnly
  let sourced ← if ← eatWord "from" then atLiteral else pure false
  if sourced then
    let _ ← sourceClause
  else
    flawIf (items.any fun item => !item.outer.isIdentifier || unexportedWords.contains item.outer.text)
    endStatement
  items.forM fun item => exportName item.inner.text

def exportAll : Rule Unit := do
  expect .star
  if ← eatWord "as" then exportName (← specifierName).text
  expectWord "from"
  let _ ← sourceClause

/-- Reads a default export behind the word `default`. -/
def exportDefault : Rule Unit := do
  exportName "default".toList
  let hasTypes := (← dialect).hasTypes
  let isAbstract ← if hasTypes && (← atWord "abstract") then afterToken (atWord "class") else pure false
  if isAbstract then step
  if ← atWord "class" then
    let _ ← classRest
  else if hasTypes && (← atWord "interface") && (← afterToken (do return (← atIdentifier) && !(← onNewLine))) then
    interface
  else if ← atWord "function" then
    let _ ← functionDeclaration false false
  else if ← atAsyncFunction then
    step
    let _ ← functionDeclaration true false
  else
    let _ ← assignmentWithIn
    endStatement

/-- Reads an export that is neither a default nor a declaration behind the word `export`, if there is one. -/
def exportList : Rule Bool := do
  let hasTypes := (← dialect).hasTypes
  if ← atPunct .star then
    exportAll
    return true
  else if ← atPunct .leftBrace then
    exportedItems false
    return true
  else if hasTypes && (← atPunct .assign) then
    step
    let _ ← assignmentWithIn
    endStatement
    return true
  else if hasTypes && (← atWord "as") then
    step
    expectWord "namespace"
    let _ ← name
    endStatement
    return true
  else if hasTypes && (← atWord "type") && (← afterToken (atAnyPunct [.leftBrace, .star])) then
    step
    if ← atPunct .star then exportAll else exportedItems true
    return true
  else return false

/-- Reads an export from the word `export` on. Decorators stand before that word or behind it, but not both. -/
def exportStatement (decorated : Bool) : Rule Content := do
  expectWord "export"
  let isDefault ← eatWord "default"
  let isList ← if isDefault then pure false else exportList
  if isList then return .other
  let again ← decorators
  flawIf (decorated && again)
  if isDefault then
    exportDefault
    return .other
  else
    let found ← declaration
    found.names.forM exportName
    return found.exportedContent

/-- Whether an import statement begins here, and not an expression with the word `import`. -/
def atImportStatement : Rule Bool := do
  if ← atWord "import" then afterToken do return !(← atAnyPunct [.leftParen, .dot]) else return false

/-- Whether a class with its modifiers begins here, and no export. -/
def atModifiedClass : Rule Bool := do
  if ← atWord "export" then return false
  ahead do
    let _ ← modifiers .declaration
    atWord "class"

/-- Reads a statement. A class starts with its decorators, all else behind them. -/
def statement (context : StatementContext) : Rule Statement := do
  let start ← position
  let decorated ← decorators
  let inner ← position
  let isClass ← if decorated then atModifiedClass else pure false
  if isClass then
    let found ← modifiers .declaration
    flawIf (context != .list)
    let _ ← classDeclaration found
    return ⟨start, .other⟩
  else if ← atImportStatement then return ⟨inner, ← importStatement⟩
  else if ← atWord "export" then return ⟨inner, ← exportStatement decorated⟩
  else return ⟨inner, ← plainStatement context⟩

/-- The rule of a goal. -/
def ofGoal : (wanted : Goal) → Rule wanted.Result
  | .statement context => statement context
  | .expression => expression
  | .assignment returnTypes => assignment returnTypes
  | .binary least => binary least
  | .unary => unary
  | .leftHandSide => leftHandSide
  | .objectLiteral => objectLiteral
  | .type => type
  | .binding => binding
  | .jsxElement inChild => jsxElement inChild

def statements : Rule (List Statement) :=
  many do
    if (← token) == .endOfText then return none
    return some (← statement .list)

end Rule

end IconRegistry.Script
