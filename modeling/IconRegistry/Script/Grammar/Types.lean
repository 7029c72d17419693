import IconRegistry.Script.Grammar.Binding

/-!
Types: annotations, type parameters and arguments, and the types themselves.
-/

namespace IconRegistry.Script.Rule

/-- Reads a type in brackets of some kind, where conditional types are allowed again. -/
def enclosedType : Rule Unit :=
  withMode (fun m => { m with inConditional := false }) (goal .type)

/-- Reads a list of types behind an opening angle bracket, without the closing one. -/
def typeList : Rule Unit := do
  if !(← splitLess) then failure
  step
  let _ ← commaList .greater enclosedType

def typeArguments : Rule Unit := do
  typeList
  expectGreater

/-- Reads type arguments if an angle bracket stands on the same line. -/
def optionalTypeArguments : Rule Unit := do
  if !(← onNewLine) && (← atAnyPunct [.less, .shiftLeft]) then typeArguments

def typeParameter : Rule Unit := do
  allowModifiers [.const, .contravariant, .covariant] (← modifiers .typeParameter)
  let _ ← identifier
  if ← eatWord "extends" then enclosedType
  if ← eat .assign then enclosedType

/-- Reads type parameters between angle brackets, if types are part of the dialect, and tells whether there are such
brackets. -/
def typeParameters : Rule Bool := do
  let opened ← if (← dialect).hasTypes then eat .less else pure false
  if opened then
    let _ ← commaList .greater typeParameter
    expectGreater
  return opened

/-- Reads what a function returns: a type, or a test of one of its parameters. -/
def returnType : Rule Unit := do
  let tests ← if ← atIdentifier then afterToken (do return (← atWord "is") && !(← onNewLine)) else pure false
  if tests then
    step
    step
  goal .type

/-- Reads the annotation of a return type, if there is one and types are part of the dialect. Tells whether there is
one. -/
def returnAnnotation : Rule Bool := do
  let typed ← if (← dialect).hasTypes then eat .colon else pure false
  if typed then returnType
  return typed

/-- Reads a function type behind its modifiers, and tells whether it types its receiver. One token stands between the
parameters and the result. -/
def functionType : Rule Bool := do
  let _ ← typeParameters
  let hasThis ← parameters
  step
  returnType
  return hasThis

/-- Whether a parenthesis here opens the parameters of a function type. -/
def opensFunctionType : Rule Bool :=
  afterToken do
    if ← atAnyPunct [.rightParen, .ellipsis] then return true
    let _ ← modifiers .parameter
    if (← atIdentifier) || (← atWord "this") then step
    else
      if !(← atAnyPunct [.leftBrace, .leftBracket]) then return false
      let _ ← goal .binding
    if ← atAnyPunct [.colon, .comma, .question, .assign] then return true
    if ← eat .rightParen then atPunct .arrow else return false

/-- Reads the parts of a template behind its first one. Between two parts stands at least one `hole`. -/
def templateRest (tagged : Bool) (hole : Rule Unit) : Rule Unit := do
  let _ ← many do
    hole
    let l ← lexeme
    match l.token, l.source with
    | .punct .rightBrace, _ :: text =>
      match templateFrom? false text with
      | some (ends, valid, n) =>
        flawIf (!valid && !tagged)
        recut (.template ends valid) (n + 1)
        step
        if ends then return none else return some ()
      | none => failure
    | .endOfText, _ => failure
    | _, _ => return some ()

/-- Reads a template with `hole` between its parts. -/
def template (tagged : Bool) (hole : Rule Unit) : Rule Unit := do
  match ← token with
  | .template ends valid =>
    flawIf (!valid && !tagged)
    step
    if !ends then templateRest tagged hole
  | _ => failure

def dottedNames : Rule Unit := do
  let _ ← many do
    if ← eat .dot then return some (← name) else return none

def typeReference : Rule Unit := do
  let _ ← name
  dottedNames
  optionalTypeArguments

/-- Reads the import of a module as a type behind the word `import`. -/
def importType : Rule Unit := do
  expect .leftParen
  goal .type
  if ← eat .comma then
    let _ ← goal .objectLiteral
  expect .rightParen
  dottedNames
  optionalTypeArguments

/-- Steps over what may separate the members of an object type. -/
def endTypeMember : Rule Unit := do
  if !(← eat .comma) then
    let _ ← eat .semicolon

/-- Whether a bracket here opens an index signature. -/
def opensIndexSignature : Rule Bool :=
  afterToken do
    if ← atIdentifier then
      step
      atPunct .colon
    else return false

/-- Reads an index signature, without what ends it. -/
def indexSignature : Rule Unit := do
  expect .leftBracket
  let _ ← identifier
  expect .colon
  goal .type
  expect .rightBracket
  if !(← typeAnnotation) then failure

/-- Reads the type parameters, parameters and return type of a signature, and tells whether it types its receiver. -/
def signature : Rule Bool := do
  let _ ← typeParameters
  let hasThis ← parameters
  let _ ← returnAnnotation
  return hasThis

/-- Reads the signature of an accessor behind its word. That of a setter has no return type. -/
def accessorSignature (isSetter : Bool) : Rule Unit := do
  let _ ← propertyName
  let _ ← parameters
  let typed ← returnAnnotation
  flawIf (isSetter && typed)

/-- Reads a property or a method of an object type. -/
def namedTypeMember : Rule Unit := do
  let key ← propertyName
  if key.isPrivate then failure
  let _ ← eat .question
  if ← atAnyPunct [.leftParen, .less] then
    let _ ← signature
  else
    let _ ← typeAnnotation

def typeMember : Rule Unit := do
  let isSetter ← atAccessor "set"
  if ← atAnyPunct [.leftParen, .less] then
    let _ ← signature
  else if (← atWord "new") && (← afterToken (atAnyPunct [.leftParen, .less])) then
    step
    flawIf (← signature)
  else if isSetter || (← atAccessor "get") then
    step
    accessorSignature isSetter
  else
    if ← atAccessor "readonly" then step
    if (← atPunct .leftBracket) && (← opensIndexSignature) then indexSignature else namedTypeMember
  endTypeMember

def typeMembers : Rule Unit := do
  expect .leftBrace
  let _ ← many do
    if ← atPunct .rightBrace then return none
    typeMember
    return some ()
  expect .rightBrace

/-- Whether a brace here opens a mapped type. -/
def opensMappedType : Rule Bool :=
  afterToken do
    if ← atAnyPunct [.plus, .minus] then
      step
      atWord "readonly"
    else
      let _ ← eatWord "readonly"
      if ← eat .leftBracket then
        if ← atIdentifier then
          step
          atWord "in"
        else return false
      else return false

def mappedType : Rule Unit := do
  expect .leftBrace
  if ← atAnyPunct [.plus, .minus] then step
  let _ ← eatWord "readonly"
  expect .leftBracket
  let _ ← identifier
  expectWord "in"
  enclosedType
  if ← eatWord "as" then enclosedType
  expect .rightBracket
  if ← atAnyPunct [.plus, .minus] then
    step
    expect .question
  else
    let _ ← eat .question
  let _ ← withMode (fun m => { m with inConditional := false }) typeAnnotation
  let _ ← eat .semicolon
  expect .rightBrace

/-- Reads one element of a tuple type. A named one that takes the rest is not optional. -/
def tupleElement : Rule Unit := do
  let named ← ahead do
    let _ ← eat .ellipsis
    if ← atName then
      step
      let _ ← eat .question
      atPunct .colon
    else return false
  let takesRest ← eat .ellipsis
  if named then
    step
    let optional ← eat .question
    flawIf (optional && takesRest)
    expect .colon
    let _ ← eat .ellipsis
  enclosedType

/-- Words that begin a type and are no identifiers. -/
def reservedTypeWords : List String :=
  ["void", "null", "this", "typeof", "new", "true", "false", "import", "function"]

/-- Whether the current token, on no parenthesis, begins a type. -/
def startsPlainType : Rule Bool := do
  match ← token with
  | .number | .string _ | .template _ _ => return true
  | .punct .minus => afterToken do return (← token) == .number
  | .punct p =>
    return [.leftBrace, .leftBracket, .less, .bar, .ampersand, .star, .question, .bang, .ellipsis].contains p
  | _ =>
    if ← atAnyWord reservedTypeWords then return true
    return (← atIdentifier) && !(← atAnyWord ["await", "yield"])

/-- Whether a type begins here. Behind opening parentheses a parameter may also begin. -/
def startsType : Rule Bool :=
  ahead do
    let opened ← many do
      if ← eat .leftParen then return some () else return none
    if ← startsPlainType then return true
    if opened.isEmpty then return false
    if (← currentModifier).isSome || (← atIdentifier) then return true
    match ← token with
    | .privateName _ | .punct .rightParen | .punct .at => return true
    | _ => return false

/-- Names of types that take arguments only as parts of dotted names. -/
def simpleTypeWords : List String :=
  ["any", "bigint", "boolean", "never", "number", "object", "string", "symbol", "undefined", "unknown"]

def namedType : Rule Unit := do
  if ← eatWord "typeof" then
    if ← eatWord "import" then importType else typeReference
  else if ← eatWord "import" then importType
  else if (← atWord "asserts") && (← afterToken (do return (← atName) && !(← onNewLine))) then
    step
    step
    if ← eatWord "is" then goal .type
  else if ← eatWord "this" then
    if (← atWord "is") && !(← onNewLine) then
      step
      goal .type
  else if ← atAnyWord ["true", "false", "null", "void"] then step
  else if (← atAnyWord simpleTypeWords) && !(← afterToken (atPunct .dot)) then step
  else typeReference

/-- Reads a type that no operator applies to, and tells whether it is a tuple. A question mark in front of a type admits
the absence of a value; alone it is a type of its own. -/
def primaryType : Rule Bool := do
  let _ ← many do
    if ← eat .bang then return some () else return none
  match ← token with
  | .string _ | .number => step; return false
  | .template _ _ => template false enclosedType; return false
  | .punct .minus =>
    step
    match ← token with
    | .number => step; return false
    | _ => failure
  | .punct .question =>
    step
    if !(← atAnyPunct [.comma, .rightBrace, .rightParen, .greater, .assign, .bar]) then goal .type
    return false
  | .punct .leftBrace =>
    if ← opensMappedType then mappedType else typeMembers
    return false
  | .punct .leftBracket =>
    step
    let _ ← commaList .rightBracket tupleElement
    expect .rightBracket
    return true
  | .punct .leftParen =>
    step
    enclosedType
    expect .rightParen
    return false
  | .name _ _ => namedType; return false
  | _ => failure

/-- Reads a type with what may stand behind it on the same line: the brackets of array and element types, and marks
that tell whether a value may be absent. Tells whether the type is one of arrays or tuples. -/
def postfixType : Rule Bool := do
  extend (← primaryType) fun _ => do
    if ← onNewLine then return none
    match ← token with
    | .punct .bang => step; return some false
    | .punct .question =>
      if ← afterToken startsType then return none
      step
      return some false
    | .punct .leftBracket =>
      step
      let isElement ← startsType
      if isElement then enclosedType
      expect .rightBracket
      return some !isElement
    | _ => return none

/-- Reads the name that a conditional type infers, and a constraint on it. -/
def inferredName : Rule Unit := do
  let _ ← identifier
  if ← atWord "extends" then
    let _ ← attempt do
      step
      withMode (fun m => { m with inConditional := true }) (goal .type)
      if !(← mode).inConditional && (← atPunct .question) then failure

/-- Reads a type with the operators in front of it. The operator `readonly` applies to types of arrays and tuples. -/
def operatorType : Rule Unit := do
  let operators ← many do
    if ← eatWord "readonly" then return some true
    else if ← atAnyWord ["keyof", "unique"] then
      step
      return some false
    else return none
  let isList ← if ← eatWord "infer" then do
      inferredName
      pure false
    else withMode (fun m => { m with inConditional := false }) postfixType
  flawIf (operators.dropLast.contains true || (operators.getLast? == some true && !isList))

/-- Reads types joined by an operator, which may also stand before the first one. -/
def joinedTypes (operator : Punct) (operand : Rule Unit) : Rule Unit := do
  let _ ← eat operator
  operand
  let _ ← many do
    if ← eat operator then
      operand
      return some ()
    else return none

/-- Whether a function or constructor type begins here. -/
def startsFunctionType : Rule Bool := do
  if (← atPunct .less) || (← atWord "new") then return true
  if ← atPunct .leftParen then opensFunctionType
  else if ← atWord "abstract" then afterToken (atWord "new")
  else return false

/-- Reads a function or constructor type. A constructor has no receiver. -/
def callableType : Rule Unit := do
  let _ ← eatWord "abstract"
  let constructs ← eatWord "new"
  let hasThis ← functionType
  flawIf (constructs && hasThis)

/-- Reads a type: a function type, or a union with what makes it a conditional type behind it. -/
def type : Rule Unit := do
  if ← startsFunctionType then callableType
  else
    joinedTypes .bar (joinedTypes .ampersand operatorType)
    if !(← mode).inConditional && !(← onNewLine) && (← atWord "extends") then
      step
      withMode (fun m => { m with inConditional := true }) (goal .type)
      expect .question
      enclosedType
      expect .colon
      enclosedType

/-- Whether the current token may follow type arguments in an expression that goes on with it, so that the angle
brackets are no comparisons. -/
def followsTypeArguments : Rule Bool := do
  match ← token with
  | .template _ _ | .punct .leftParen => return true
  | .punct .less | .punct .greater | .punct .plus | .punct .minus => return false
  | other =>
    if ← onNewLine then return true
    match other with
    | .punct p =>
      let starts := [.leftBrace, .leftBracket, .bang, .tilde, .increment, .decrement, .at, .slashAssign]
      return !starts.contains p
    | .name word _ =>
      let operators := ["in", "instanceof", "as", "satisfies"]
      let starts := ["this", "super", "null", "true", "false", "function", "class", "new", "import", "typeof", "void",
        "delete"]
      return operators.any (·.toList == word) || (isReserved word && !starts.any (·.toList == word))
    | .number | .string _ | .regex | .privateName _ | .invalid => return false
    | _ => return true

/-- Reads type arguments in an expression, if they are some. Before an equals sign the bracket is a comparison. -/
def expressionTypeArguments : Rule Unit := do
  typeList
  match greaterOperator? (← lexeme).source with
  | some (.greaterEq, _) => failure
  | _ => expectGreater
  if !(← followsTypeArguments) then failure

end IconRegistry.Script.Rule
