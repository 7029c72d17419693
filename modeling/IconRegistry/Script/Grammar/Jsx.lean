import IconRegistry.Script.Grammar.Types

/-!
JSX: elements and fragments with their attributes and children.
-/

namespace IconRegistry.Script.Rule

/-- Reads a name of JSX, in which hyphens may stand, and gives it as it is written. -/
def jsxName : Rule Text := do
  let l ← lexeme
  match l.token with
  | .name word escaped =>
    let more := if l.rest.head? == some '-' then l.rest.takeWhile fun c => c == '-' || isNamePart c else []
    let length := l.stop - l.start + more.length
    recut (.name (word ++ more) escaped) length
    step
    return l.source.take length
  | _ => failure

/-- Reads what names an element: a name, a name in a namespace, or names joined by dots. Behind a dot no hyphen
stands. -/
def jsxElementName : Rule Text := do
  let first ← jsxName
  if ← eat .colon then
    return first ++ ':' :: (← jsxName)
  else
    let more ← many do
      if ← eat .dot then
        let next ← jsxName
        if next.contains '-' then failure
        return some ('.' :: next)
      else return none
    return first ++ more.flatten

/-- Reads an expression inside braces, where the surroundings put no restriction on it. It has no commas of its own. -/
def jsxExpression : Rule Unit := do
  let operand ← withMode (fun m => { m with allowsIn := true, allowsYield := false, inDecorator := false })
    (goal .expression)
  flawIf (operand.form == .sequence)

/-- Steps over the closing angle bracket of a tag. Between other tags, what follows is a child. -/
def endTag (inChild : Bool) : Rule Unit := do
  if !(← atPunct .greater) then failure
  if inChild then stepWith Lexeme.nextJsx else step

/-- Reads the value of an attribute behind its equals sign: a string, an expression in braces, or an element. -/
def jsxAttributeValue : Rule Unit := do
  match ← token with
  | .string _ => step
  | .punct .leftBrace =>
    step
    if !(← atPunct .rightBrace) then jsxExpression
    expect .rightBrace
  | .punct .less => goal (.jsxElement false)
  | _ => failure

def jsxAttribute : Rule Unit := do
  if ← eat .leftBrace then
    expect .ellipsis
    jsxExpression
    expect .rightBrace
  else
    let _ ← jsxName
    if ← eat .colon then
      let _ ← jsxName
    if ← atPunct .assign then
      let d ← dialect
      stepWith (Lexeme.nextJsxValue !d.isModule)
      jsxAttributeValue

/-- Reads the expression of a child behind its opening brace, and the closing one. -/
def jsxChildExpression : Rule Unit := do
  if ← eat .ellipsis then jsxExpression
  else if !(← atPunct .rightBrace) then jsxExpression
  if !(← atPunct .rightBrace) then failure
  stepWith Lexeme.nextJsx

/-- Reads one child of an element; nothing where its closing tag begins. -/
def jsxChild : Rule (Option Unit) := do
  match ← token with
  | .jsxText => stepWith Lexeme.nextJsx; return some ()
  | .punct .leftBrace => step; jsxChildExpression; return some ()
  | .punct .less =>
    if ← afterToken (atPunct .slash) then return none
    goal (.jsxElement true)
    return some ()
  | _ => failure

/-- Reads the children of an element behind its opening tag, and the beginning of its closing tag. -/
def jsxChildren : Rule Unit := do
  if !(← atPunct .greater) then failure
  stepWith Lexeme.nextJsx
  let _ ← many jsxChild
  expect .less
  expect .slash

/-- Reads an element or a fragment. The names of an element's two tags agree. -/
def jsxElement (inChild : Bool) : Rule Unit := do
  expect .less
  if ← atPunct .greater then
    jsxChildren
    endTag inChild
  else
    let opening ← jsxElementName
    if (← dialect).hasTypes && (← atAnyPunct [.less, .shiftLeft]) then typeArguments
    let _ ← many do
      if ← atAnyPunct [.less, .greater, .slash] then return none
      jsxAttribute
      return some ()
    if ← eat .slash then endTag inChild
    else
      jsxChildren
      let closing ← jsxElementName
      flawIf (opening != closing)
      endTag inChild

end IconRegistry.Script.Rule
