import IconRegistry.Text.Basic

/-!
Element trees of markup: elements with ordered attributes, and text.
-/

namespace IconRegistry.Markup

/-- Attributes in source order; a key may occur more than once. -/
abbrev Attributes := List (Text × Text)

/-- A node of an element tree. -/
inductive Node
  | text (content : Text)
  | element (tag : Text) (attributes : Attributes) (children : List Node) (selfClosing : Bool)
  deriving Inhabited

/-- An element: its tag, its attributes, its child nodes, and whether it was written without a body. -/
structure Element where
  tag : Text
  attributes : Attributes
  children : List Node
  selfClosing : Bool

namespace Attributes

/-- The value of the first attribute called `key`. -/
def value? (attributes : Attributes) (key : Text) : Option Text :=
  (attributes.find? fun pair => pair.1 == key).map (·.2)

/-- Overwrites the first attribute called `key` in place, or appends one if there is none. -/
def set (key value : Text) : Attributes → Attributes
  | [] => [(key, value)]
  | (k, v) :: rest => if k == key then (k, value) :: rest else (k, v) :: set key value rest

def merge (attributes extras : Attributes) : Attributes :=
  extras.foldl (fun merged extra => merged.set extra.1 extra.2) attributes

end Attributes

namespace Element

/-- An element without attributes, children or body. -/
def leaf (tag : Text) : Element :=
  ⟨tag, [], [], true⟩

def toNode (e : Element) : Node :=
  .element e.tag e.attributes e.children e.selfClosing

def setAttribute (e : Element) (key value : Text) : Element :=
  { e with attributes := e.attributes.set key value }

/-- The element with a child before all others; it has a body from then on. -/
def prependChild (e : Element) (child : Node) : Element :=
  { e with children := child :: e.children, selfClosing := false }

def elements (e : Element) : List Element :=
  e.children.filterMap fun
    | .element tag attributes children selfClosing => some ⟨tag, attributes, children, selfClosing⟩
    | .text _ => none

end Element

end IconRegistry.Markup
