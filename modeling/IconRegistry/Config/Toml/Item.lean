import IconRegistry.Text.Basic

/-!
The items of a TOML document, and how headers and dotted keys build its tables. A table may be named again only as
long as it was not defined: the origin of each table tells.
-/

namespace IconRegistry.Config.Toml

/-- How a table came about: in braces, by a header of its own, by the header of a table inside it, or by a dotted
key. -/
inductive Origin
  | inline
  | header
  | implied
  | dotted
  deriving DecidableEq

/-- An item. Numbers and moments are told apart from the rest, their values are not kept. An array that was built by
headers holds tables and grows. -/
inductive Item
  | text (s : Text)
  | boolean (b : Bool)
  | number
  | moment
  | array (items : List Item)
  | table (origin : Origin) (fields : List (Text × Item))
  | tables (items : List Item)

/-- The fields of a table in the order of their definition. -/
abbrev Fields := List (Text × Item)

/-- Puts an item under a key, in the place of the former one if there was one. -/
def Fields.set (fields : Fields) (key : Text) (item : Item) : Fields :=
  if (fields.lookup key).isSome then fields.map fun field => if field.1 == key then (key, item) else field
  else fields ++ [(key, item)]

/-- A change of a table that is given by its origin and fields; nothing where the table must not be changed so. -/
abbrev Change := Origin → Fields → Option Fields

/-- Changes the table at a path below a table, and makes the tables on the way that are not there. By a dotted key,
tables with a header of their own are not entered. -/
def changeAt (origin : Origin) : List Text → Change → Change
  | [], change => change
  | key :: path, change => fun _ fields =>
    let enter := fun (at' : Origin) (inner : Fields) => changeAt origin path change at' inner
    match fields.lookup key with
    | none => (enter origin []).map fun inner => fields.set key (.table origin inner)
    | some (.table at' inner) =>
      if at' == .inline || (origin == .dotted && at' == .header) then none
      else (enter at' inner).map fun inner => fields.set key (.table at' inner)
    | some (.tables items) =>
      match items.getLast? with
      | some (.table at' inner) =>
        (enter at' inner).map fun inner => fields.set key (.tables (items.dropLast ++ [.table at' inner]))
      | _ => none
    | some _ => none

/-- Sets a key that is not there yet. What a dotted key leads to has to be a table of dotted keys. -/
def setNew (isDotted : Bool) (key : Text) (item : Item) : Change := fun origin fields =>
  if (origin == .dotted) != isDotted || (fields.lookup key).isSome then none else some (fields.set key item)

/-- Sets what a possibly dotted key leads to. -/
def setPath (path : List Text) (item : Item) : Change := fun origin fields =>
  match path.getLast? with
  | some key => changeAt .dotted path.dropLast (setNew (path.length != 1) key item) origin fields
  | none => none

/-- Opens the table of a header, which must not be defined before. -/
def openTable (key : Text) : Change := fun _ fields =>
  match fields.lookup key with
  | none => some (fields.set key (.table .header []))
  | some (.table .implied inner) => some (fields.set key (.table .header inner))
  | some _ => none

/-- Opens a further table of an array of tables. -/
def openElement (key : Text) : Change := fun _ fields =>
  match fields.lookup key with
  | none => some (fields.set key (.tables [.table .header []]))
  | some (.tables items) => some (fields.set key (.tables (items ++ [.table .header []])))
  | some _ => none

/-- Opens what a header names. -/
def openHeader (isElement : Bool) (path : List Text) : Change := fun origin fields =>
  match path.getLast? with
  | some key => changeAt .implied path.dropLast (if isElement then openElement key else openTable key) origin fields
  | none => none

end IconRegistry.Config.Toml
