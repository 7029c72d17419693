import IconRegistry.Script.Grammar.Core

/-!
Modifiers: the words that may stand before members, parameters, type parameters and declarations. Each of them may also
be a name; what follows it decides.
-/

namespace IconRegistry.Script

/-- Who may use a member. -/
inductive Access
  | anyone
  | heirs
  | owner
  deriving DecidableEq

inductive Modifier
  | abstract
  | accessor
  | async
  | const
  | declare
  | default
  | exported
  | contravariant
  | covariant
  | override
  | access (level : Access)
  | readonly
  | static
  deriving DecidableEq

namespace Modifier

def ofWord? (word : String) : Option Modifier :=
  match word with
  | "abstract" => some .abstract
  | "accessor" => some .accessor
  | "async" => some .async
  | "const" => some .const
  | "declare" => some .declare
  | "default" => some .default
  | "export" => some .exported
  | "in" => some .contravariant
  | "out" => some .covariant
  | "override" => some .override
  | "public" => some (.access .anyone)
  | "protected" => some (.access .heirs)
  | "private" => some (.access .owner)
  | "readonly" => some .readonly
  | "static" => some .static
  | _ => none

def isAccess : Modifier → Bool
  | .access _ => true
  | _ => false

/-- Whether two modifiers do not stand beside each other: they are the same, or both say who has access. -/
def clashesWith (m n : Modifier) : Bool :=
  m == n || (m.isAccess && n.isAccess)

/-- Whether a modifier may begin a declaration, apart from exports and constants. -/
def beginsDeclaration : Modifier → Bool
  | .const | .default | .exported | .contravariant | .covariant => false
  | _ => true

end Modifier

/-- What modifiers stand before. -/
inductive ModifierPlace
  | member
  | parameter
  | typeParameter
  | declaration
  deriving DecidableEq

namespace Rule

def currentModifier : Rule (Option Modifier) := do
  match ← token with
  | .name word false => return Modifier.ofWord? (String.ofList word)
  | _ => return none

/-- Whether the current token may follow a modifier. -/
def followsModifier : Rule Bool := do
  return (← atPropertyName) || (← atAnyPunct [.leftBrace, .star, .ellipsis])

/-- Whether the current token may follow the word `export` where that is a modifier. -/
def followsExport : Rule Bool := do
  if (← atAnyPunct [.star, .leftBrace]) || (← atWord "as") then return false
  followsModifier

/-- Whether what may be exported by default begins here. -/
def startsDefault : Rule Bool := do
  let leads := fun word next => do
    if ← atWord word then afterToken (do return (← atWord next) && !(← onNewLine)) else return false
  if (← atAnyWord ["class", "function", "interface"]) || (← atPunct .at) then return true
  return (← leads "abstract" "class") || (← leads "async" "function")

/-- Whether the current token, which stands behind the word of a modifier, lets it be one. -/
def letsModify (place : ModifierPlace) : Modifier → Rule Bool
  | .const => do
    if place == .member || place == .typeParameter then return (← followsModifier) && !(← onNewLine)
    atWord "enum"
  | .exported => do
    if ← eatWord "default" then startsDefault
    else
      let _ ← eatWord "type"
      followsExport
  | .default => startsDefault
  | .static => followsModifier
  | _ => do return (← followsModifier) && !(← onNewLine)

/-- Reads one more modifier behind some others, if there is one. The word `static` modifies once, and not where it opens
the static block of a class. -/
def modifier (place : ModifierPlace) (before : List Modifier) : Rule (Option Modifier) := do
  match ← currentModifier with
  | none => return none
  | some m =>
    if m == .static then
      if before.contains .static then return none
      if place == .member && (← afterToken (atPunct .leftBrace)) then return none
    if ← afterToken (letsModify place m) then
      step
      flawIf (before.any m.clashesWith)
      return some m
    else return none

def modifiers (place : ModifierPlace) : Rule (List Modifier) :=
  extend [] fun before => do return (← modifier place before).map (before ++ [·])

/-- Modifiers other than the allowed ones are flaws. -/
def allowModifiers (allowed found : List Modifier) : Rule Unit :=
  flawIf (found.any (!allowed.contains ·))

end Rule

end IconRegistry.Script
