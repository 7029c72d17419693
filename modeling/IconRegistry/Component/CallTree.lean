import IconRegistry.Component.Jsx
import IconRegistry.Markup.Entity
import IconRegistry.Markup.Reader

/-!
Element trees written as nested calls of a constructor, such as `h("svg", {}, [h("path", { d: "M1" })])`.
-/

namespace IconRegistry.Component

open Markup

/-- A key of an object literal; keys with a hyphen or a colon are quoted. -/
def objectKey (key : Text) : Text :=
  if key.any fun c => c == '-' || c == ':' then stringLiteral key else key

/-- Attributes as properties of an object literal, their values decoded. -/
def attributeProperties (attributes : Attributes) : List Text :=
  attributes.map fun (key, value) => objectKey key ++ ": ".toList ++ stringLiteral (decodeEntities value)

/-- A constructor call, given its properties and its children as they are written. -/
def constructorCall (ctor tag : Text) (properties children : List Text) : Text :=
  ctor ++ ['('] ++ stringLiteral tag ++ ", ".toList ++ objectLiteral properties ++
    (if children.isEmpty then [] else ", [".toList ++ Text.join ", ".toList children ++ [']']) ++ [')']

mutual

def callNode (ctor : Text) : Node → Text
  | .text content => stringLiteral (decodeEntities content)
  | .element tag attributes children _ =>
    constructorCall ctor tag (attributeProperties attributes) (callNodes ctor children)

def callNodes (ctor : Text) : List Node → List Text
  | [] => []
  | node :: rest => callNode ctor node :: callNodes ctor rest

end

/-- An element tree to be written as calls, and the identifier spread behind the root's attributes, if any. -/
structure CallTree where
  root : Element
  spread? : Option Text

namespace CallTree

/-- The call tree of a markup text. -/
def ofMarkup (markup : Text) : Except ReadError CallTree := do
  return ⟨← readRoot markup, none⟩

/-- Sets further attributes on the root. -/
def mergeAttributes (tree : CallTree) (extras : Attributes) : CallTree :=
  { tree with root := extras.foldl (fun root extra => root.setAttribute extra.1 extra.2) tree.root }

/-- Makes a title with the given text the root's first child. -/
def prependTitle (tree : CallTree) (title : Text) : CallTree :=
  let element : Element := { Element.leaf "title".toList with children := [.text title], selfClosing := false }
  { tree with root := tree.root.prependChild element.toNode }

/-- The tree as nested calls of `ctor`. -/
def emit (tree : CallTree) (ctor : Text) : Text :=
  constructorCall ctor tree.root.tag
    (attributeProperties tree.root.attributes ++ (tree.spread?.map ("...".toList ++ ·)).toList)
    (callNodes ctor tree.root.children)

end CallTree

/-- A markup text as nested calls of `ctor`. -/
def markupToCalls (ctor markup : Text) : Except ReadError Text := do
  return (← CallTree.ofMarkup markup).emit ctor

end IconRegistry.Component
