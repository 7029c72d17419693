import IconRegistry.Config.Toml.Literal

/-!
TOML documents: keys, values and the lines of a document.
-/

namespace IconRegistry.Config.Toml

open Scan

/-- The number of levels that values nest at most. -/
def deepest : Nat :=
  79

/-- Whether a character may stand in a key without quotes. -/
def isBareKey (c : Char) : Bool :=
  c.isAlphanum || c == '_' || c == '-'

def keyPart : Scan Text := do
  match ← peek with
  | some '"' => lineString '"' true
  | some '\'' => lineString '\'' false
  | _ =>
    let part ← run isBareKey
    if part.isEmpty then failure
    return part

def key : Scan (List Text) := do
  blanks
  let first ← keyPart
  blanks
  let more ← many do
    if ← eat "." then
      blanks
      let part ← keyPart
      blanks
      return some part
    else return none
  if more.length ≥ deepest then failure
  return first :: more

def comment : Scan Unit := do
  if ← eat "#" then
    let _ ← run isPlain

/-- Skips blanks, comments and line breaks. -/
def emptyLines : Scan Unit := do
  let _ ← many do
    let before := (← get).length
    blanks
    comment
    let _ ← optionalLineBreak
    return if (← get).length < before then some () else none

/-- Reads the items of an array behind its opening bracket, and the closing one. -/
def arrayRest (value : Scan Item) : Scan (List Item) := do
  let items ← many do
    emptyLines
    if ← sees "]" then return none
    let item ← value
    emptyLines
    if !(← eat ",") && !(← sees "]") then failure
    return some item
  literal "]"
  return items

def pair (value : Scan Item) : Scan (List Text × Item) := do
  let path ← key
  literal "="
  blanks
  let item ← value
  return (path, item)

/-- Reads the pairs of a table in braces behind its opening brace, and the closing one. -/
def inlineRest (value : Scan Item) : Scan Fields := do
  blanks
  if ← eat "\x7d" then return []
  let first ← pair value
  let more ← many do
    blanks
    if ← eat "," then return some (← pair value) else return none
  literal "\x7d"
  let filled := (first :: more).foldlM (fun fields (path, item) => setPath path item .inline fields) []
  match filled with
  | some fields => return fields
  | none => failure

/-- Reads a value that holds no other values. -/
def scalar : Scan Item := do
  match ← peek with
  | some '"' | some '\'' => return .text (← string)
  | some 't' => literal "true"; return .boolean true
  | some 'f' => literal "false"; return .boolean false
  | _ =>
    if (← attempt moment).isSome then return .moment
    number
    return .number

/-- Reads a value. What nests deeper than `depth` levels is refused. -/
def value : (depth : Nat) → Scan Item
  | 0 => scalar
  | depth + 1 => do
    match ← peek with
    | some '[' =>
      literal "["
      return .array (← arrayRest (value depth))
    | some '{' =>
      literal "\x7b"
      return .table .inline (← inlineRest (value depth))
    | _ => scalar

def endLine : Scan Unit := do
  blanks
  comment
  if !(← get).isEmpty then lineBreak

/-- A document while it is read: its fields, and the path of the table that lines belong to. -/
structure Draft where
  fields : Fields
  path : List Text

def Draft.change (draft : Draft) (path : List Text) (change : Change) : Scan Draft :=
  match change .header draft.fields with
  | some fields => return ⟨fields, path⟩
  | none => failure

def line (draft : Draft) : Scan Draft := do
  blanks
  if ← eat "[[" then
    let path ← key
    literal "]]"
    endLine
    draft.change path (openHeader true path)
  else if ← eat "[" then
    let path ← key
    literal "]"
    endLine
    draft.change path (openHeader false path)
  else if (← sees "#") || (← sees "\n") || (← sees "\x0d") || (← get).isEmpty then
    endLine
    return draft
  else
    let (path, item) ← pair (value deepest)
    endLine
    draft.change draft.path (changeAt .implied draft.path (setPath path item))

/-- Reads lines up to the end of the text, at most `fuel`. -/
def linesWithin : (fuel : Nat) → Draft → Scan Draft
  | 0, draft => return draft
  | fuel + 1, draft => do
    if (← get).isEmpty then return draft else linesWithin fuel (← line draft)

/-- The fields of a document; nothing if the text is none. A byte order mark in front is passed over. -/
def read? (s : Text) : Option Fields :=
  let body := (Text.dropFront? ['\uFEFF'] s).getD s
  match linesWithin (body.length + 1) ⟨[], []⟩ body with
  | some (draft, []) => some draft.fields
  | _ => none

end IconRegistry.Config.Toml
