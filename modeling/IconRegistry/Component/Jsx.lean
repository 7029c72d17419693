import IconRegistry.Component.StringLiteral
import IconRegistry.Markup.Element
import IconRegistry.Text.Case

/-!
Element trees written as JSX.
-/

namespace IconRegistry.Component

open Markup

/-- How attribute names are written: as property names (`strokeWidth`) or as they are (`stroke-width`). -/
inductive AttributeCase
  | camel
  | kebab
  deriving DecidableEq

/-- What the root gets behind its own attributes: an identifier bound to `ref` and one that is spread. -/
structure RootProps where
  ref? : Option Text := none
  spread? : Option Text := none

/-- Drops every `-` and `:` and puts the next character in upper case; `raise` says whether one was just dropped. -/
def camelFrom : (raise : Bool) → Text → Text
  | _, [] => []
  | raise, c :: rest =>
    if c == '-' || c == ':' then camelFrom true rest
    else (if raise then Text.upperOf c else [c]) ++ camelFrom false rest

/-- The property name of a markup attribute. Names beginning `aria-` or `data-` stay as they are. -/
def camelAttribute (key : Text) : Text :=
  if "aria-".toList.isPrefixOf key || "data-".toList.isPrefixOf key then key
  else if key == "class".toList then "className".toList
  else camelFrom false key

/-- One declaration of a style attribute as a property of an object literal; nothing if it has no colon or no name. -/
def styleProperty? (declaration : Text) : Option Text := do
  let (property, value) ← Text.splitOnce? ':' declaration
  let property := Text.trim property
  if property.isEmpty then none
  let key := if "--".toList.isPrefixOf property then stringLiteral property else camelAttribute property
  return key ++ ": ".toList ++ stringLiteral (Text.trim value)

def objectLiteral (properties : List Text) : Text :=
  if properties.isEmpty then "\x7b\x7d".toList
  else "\x7b ".toList ++ Text.join ", ".toList properties ++ " \x7d".toList

def styleObject (style : Text) : Text :=
  objectLiteral ((Text.splitAtChar ';' style).filterMap styleProperty?)

def inBraces (s : Text) : Text :=
  '{' :: s ++ ['}']

def jsxAttribute (attributeCase : AttributeCase) (key value : Text) : Text :=
  let quoted := "=\"".toList ++ value ++ ['"']
  match attributeCase with
  | .kebab => key ++ quoted
  | .camel =>
    if key == "style".toList then "style=".toList ++ inBraces (styleObject value) else camelAttribute key ++ quoted

/-- A text child as JSX: as it is, or as a string literal in braces when it holds characters of JSX syntax. -/
def jsxText (content : Text) : Text :=
  if content.any fun c => c == '{' || c == '}' || c == '<' || c == '>' then inBraces (stringLiteral content)
  else content

def jsxAttributes (attributeCase : AttributeCase) (attributes : Attributes) : Text :=
  attributes.flatMap fun (key, value) => ' ' :: jsxAttribute attributeCase key value

def RootProps.written (props : RootProps) : Text :=
  (match props.ref? with
    | some ident => " ref=".toList ++ inBraces ident
    | none => []) ++
  match props.spread? with
  | some ident => ' ' :: inBraces ("...".toList ++ ident)
  | none => []

/-- An element as JSX, given its attributes and its children as they are written. -/
def jsxElement (tag attributes : Text) (children : List Text) : Text :=
  '<' :: tag ++ attributes ++
    if children.isEmpty then " />".toList else ['>'] ++ children.flatten ++ "</".toList ++ tag ++ ['>']

mutual

def jsxNode (attributeCase : AttributeCase) : Node → Text
  | .text content => jsxText content
  | .element tag attributes children _ =>
    jsxElement tag (jsxAttributes attributeCase attributes) (jsxNodes attributeCase children)

def jsxNodes (attributeCase : AttributeCase) : List Node → List Text
  | [] => []
  | node :: rest => jsxNode attributeCase node :: jsxNodes attributeCase rest

end

/-- A root element as JSX, with extra properties behind its own attributes. -/
def renderJsx (attributeCase : AttributeCase) (props : RootProps) (root : Element) : Text :=
  jsxElement root.tag (jsxAttributes attributeCase root.attributes ++ props.written)
    (jsxNodes attributeCase root.children)

end IconRegistry.Component
