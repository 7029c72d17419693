import IconRegistry.Script.Grammar.Jsx
import IconRegistry.Script.Grammar.Operand

/-!
Operators: updates, unary and binary operators, and what begins with an angle bracket.
-/

namespace IconRegistry.Script.Rule

/-- Reads an operand with an increment or decrement before or behind it. -/
def update : Rule Operand := do
  let start ← position
  if ← atAnyPunct [.increment, .decrement] then
    step
    let operand ← goal .unary
    if !operand.assignable then failure
    return .plain start .other
  else
    let operand ← leftHandSide
    if (← atAnyPunct [.increment, .decrement]) && !(← onNewLine) then
      if !operand.assignable then failure
      step
      return .plain start .other
    else return operand

/-- Reads a type assertion in angle brackets, and what it is about. -/
def typeAssertion : Rule Operand := do
  let start ← position
  expect .less
  enclosedType
  expectGreater
  let operand ← goal .unary
  return operand.wrapped start .other

/-- Reads an operand that begins with an angle bracket: an element, or a type assertion. -/
def bracketedUnary : Rule Operand := do
  let start ← position
  if (← dialect).hasJsx then
    goal (.jsxElement false)
    return .plain start .other
  else
    if !(← dialect).hasTypes then failure
    typeAssertion

/-- Whether the word `await` here is an operator. Where it waits for nothing, it is a flaw to use it as one. -/
def atAwait : Rule Bool := do
  if ← atWord "await" then
    if (← mode).allowsAwait then return true
    let waits ← afterToken do return ((← atName) || (← atString) || (← token) == .number) && !(← onNewLine)
    flawIf waits
    return waits
  else return false

/-- Reads an operand with the unary operators before it. -/
def unary : Rule Operand := do
  let start ← position
  let awaits ← atAwait
  if awaits || (← atAnyPunct [.plus, .minus, .tilde, .bang]) || (← atAnyWord ["delete", "typeof", "void"]) then
    step
    let _ ← withMode (fun m => { m with allowsAwait := m.allowsAwait || awaits }) (goal .unary)
    return .plain start .unary
  else if ← atPunct .less then bracketedUnary
  else update

/-- How tightly the binary operators bind. -/
inductive Precedence
  | coalesce | or | and | bar | caret | ampersand | equality | relation | shift | sum | product | power

/-- A binary operator's rank: the higher, the tighter it binds. -/
def Precedence.rank : Precedence → Nat
  | .coalesce => 1
  | .or => 2
  | .and => 3
  | .bar => 4
  | .caret => 5
  | .ampersand => 6
  | .equality => 7
  | .relation => 8
  | .shift => 9
  | .sum => 10
  | .product => 11
  | .power => 12

/-- The precedence of a token as a binary operator. -/
def precedence? : Token → Option Precedence
  | .punct p =>
    match p with
    | .coalesce => some .coalesce
    | .or => some .or
    | .and => some .and
    | .bar => some .bar
    | .caret => some .caret
    | .ampersand => some .ampersand
    | .equals | .strictEquals | .notEquals | .strictNotEquals => some .equality
    | .less | .lessEq | .greater | .greaterEq => some .relation
    | .shiftLeft | .shiftRight | .shiftRightZero => some .shift
    | .plus | .minus => some .sum
    | .star | .slash | .percent => some .product
    | .power => some .power
    | _ => none
  | .name word false =>
    if ["in", "instanceof", "as", "satisfies"].any (·.toList == word) then some .relation else none
  | _ => none

/-- Whether an operator is left to what stands around an operand: it binds no tighter than `least`. Only powers group
to the right. -/
def Precedence.yieldsTo (least : Nat) : Precedence → Bool
  | .power => Precedence.power.rank < least
  | operator => operator.rank ≤ least

/-- The form of a binary expression. -/
def Precedence.form : Precedence → Form
  | .or | .and => .conjunction
  | .coalesce => .coalescence
  | _ => .other

/-- Reads a type assertion behind its word. Where types are no part of the dialect, the assertion is passed over like an
operand, and no operator is looked for behind it. Gives what is asserted, and whether operators may follow. -/
def assertionRest (operand : Operand) : Rule (Operand × Bool) := do
  if (← dialect).hasTypes then
    enclosedType
    return (operand.wrapped operand.start .other, true)
  else
    let _ ← goal (.binary Precedence.relation.rank)
    return (operand, false)

/-- Extends an operand by a binary operator that binds tighter than `least`, and by what it applies to, and tells whether
further operators may follow. The operator `??` does not stand beside `&&` or `||`, nor a unary operator before the base
of a power. -/
def binaryStep (least : Nat) (operand : Operand) : Rule (Option (Operand × Bool)) := do
  joinGreater
  match precedence? (← token) with
  | none => return none
  | some operator =>
    if operator.yieldsTo least then return none
    if (← atWord "in") && !(← mode).allowsIn then return none
    if ← atAnyWord ["as", "satisfies"] then
      if (← dialect).hasTypes && (← onNewLine) then return none
      step
      return some (← assertionRest operand)
    else
      step
      let right ← goal (.binary operator.rank)
      match operator with
      | .coalesce => flawIf (operand.form == .conjunction || right.form == .conjunction)
      | .power => flawIf (operand.form == .unary)
      | _ => pure ()
      return some (.plain operand.start operator.form, true)

/-- Reads the test whether an object has a private member. What is tested is no such test itself. -/
def privateMembership : Rule Operand := do
  let start ← position
  step
  if !(← mode).allowsIn then failure
  expectWord "in"
  let object ← goal (.binary Precedence.relation.rank)
  flawIf (object.form == .privateMembership)
  return .plain start .privateMembership

/-- Reads operands joined by binary operators that bind tighter than `least`. -/
def binary (least : Nat) : Rule Operand := do
  let first ← match ← token with
    | .privateName _ => privateMembership
    | _ => unary
  let (found, _) ← extend (first, true) fun (operand, more) =>
    if more then binaryStep least operand else return none
  return found

end IconRegistry.Script.Rule
