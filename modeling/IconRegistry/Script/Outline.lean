import IconRegistry.Script.Grammar.Module

/-!
The outline of a script: whether a text is one, and of its statements what an editor of registries needs to know.
-/

namespace IconRegistry.Script

/-- What is kept of a script: its imports, the variables that each of its exports declares, and where its first
statement starts (behind the directives, or at the end of the text). -/
structure Outline where
  imports : List Import
  exports : List (List Declarator)
  bodyStart : Nat

/-- The reading of goals, each one level below the one that needs it. -/
def readGoal (dialect : Dialect) : (level : Nat) → (wanted : Goal) → Mode → State → Option (wanted.Result × State)
  | 0, _ => fun _ _ => none
  | level + 1, wanted => fun mode state =>
    Rule.ofGoal wanted { dialect, mode, level := level + 1, deeper := readGoal dialect level } state

/-- A level that no reading of a text uses up. -/
def levelFor (source : Text) : Nat :=
  20 * (source.length + 1)

/-- The number of characters of the line that tells which program runs a script. -/
def interpreterLine (source : Text) : Nat :=
  match source with
  | '#' :: '!' :: rest => 2 + (rest.takeWhile (!isLineBreak ·)).length
  | _ => 0

def topMode (dialect : Dialect) : Mode :=
  { allowsAwait := dialect.isModule, ambient := dialect.isAmbient }

/-- The statements of a script; nothing if the text is not well formed. -/
def statements? (dialect : Dialect) (source : Text) : Option (List Statement) :=
  let level := levelFor source
  let skipped := interpreterLine source
  let state : State :=
    { lexeme := Lexeme.next (!dialect.isModule) skipped true (source.drop skipped), previousStop := 0, flawed := false,
      pending := [], notArrows := [], exported := [] }
  match Rule.statements { dialect, mode := topMode dialect, level, deeper := readGoal dialect level } state with
  | some (found, state) => if state.flawed || !state.pending.isEmpty then none else some found
  | none => none

/-- Whether a statement is a directive. -/
def Statement.isDirective (statement : Statement) : Bool :=
  match statement.content with
  | .directive => true
  | _ => false

def Statement.import? (statement : Statement) : Option Import :=
  match statement.content with
  | .imports declaration => some declaration
  | _ => none

def Statement.exported? (statement : Statement) : Option (List Declarator) :=
  match statement.content with
  | .exportsVariables declarators => some declarators
  | _ => none

/-- The outline of a script; nothing if the text is not well formed. -/
def Outline.read (dialect : Dialect) (source : Text) : Option Outline := do
  let found ← statements? dialect source
  let body := found.dropWhile (·.isDirective)
  return {
    imports := body.filterMap (·.import?)
    exports := body.filterMap (·.exported?)
    bodyStart := (body.head?.map (·.start)).getD source.length }

end IconRegistry.Script
