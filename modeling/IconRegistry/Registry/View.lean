import IconRegistry.Script.Outline

/-!
Views of a registry: a script that exports an object literal, the *collection*, with a component in each property.
A view names the places of a text that edits refer to. It belongs to one text; after an edit, the new text has to be
viewed again.
-/

namespace IconRegistry.Registry

/-- A piece of a text, from the position `start` up to `stop`. -/
structure Span where
  start : Nat
  stop : Nat
  deriving DecidableEq, Repr

def Span.textIn (span : Span) (source : Text) : Text :=
  (source.take span.stop).drop span.start

/-- A property of the collection that has a plain name: the name, where it stands, and its index among all
properties. -/
structure Entry where
  name : Text
  span : Span
  property : Nat
  deriving DecidableEq, Repr

/-- What is known of a registry: all properties of the collection, the entries among them, the imports, where the first
statement starts, and what is between the braces of the collection, if there is one. -/
structure View where
  source : Text
  properties : List Span
  entries : List Entry
  imports : List Script.Import
  bodyStart : Nat
  interior? : Option Span

namespace View

def names (view : View) : List Text :=
  view.entries.map (·.name)

def find? (view : View) (name : Text) : Option Entry :=
  view.entries.find? (·.name == name)

def contains (view : View) (name : Text) : Bool :=
  (view.find? name).isSome

/-- Whether a name is imported as a value from a module. -/
def importsValue (view : View) (name module : Text) : Bool :=
  view.imports.any fun i => i.source == module && !i.typeOnly && i.locals.contains name

end View

/-- The entries among the properties of an object literal, the first of which has the index `index`. -/
def entriesFrom : (index : Nat) → List Script.PropertySpan → List Entry
  | _, [] => []
  | index, p :: rest =>
    match p.name? with
    | some name => ⟨name, ⟨p.start, p.stop⟩, index⟩ :: entriesFrom (index + 1) rest
    | none => entriesFrom (index + 1) rest

/-- The object literal that a variable called `collection` is set to. -/
def collectionIn? (collection : Text) (declarators : List Script.Declarator) : Option Script.ObjectLiteral :=
  declarators.findSome? fun d => if d.name? == some collection then d.object? else none

def View.ofOutline (collection source : Text) (outline : Script.Outline) : View :=
  match outline.exports.findSome? (collectionIn? collection) with
  | none => ⟨source, [], [], outline.imports, outline.bodyStart, none⟩
  | some object =>
    { source
      properties := object.properties.map fun p => ⟨p.start, p.stop⟩
      entries := entriesFrom 0 object.properties
      imports := outline.imports
      bodyStart := outline.bodyStart
      interior? := some ⟨object.start + 1, object.stop - 1⟩ }

end IconRegistry.Registry
