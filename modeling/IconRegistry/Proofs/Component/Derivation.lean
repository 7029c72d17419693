import IconRegistry.Framework
import IconRegistry.Proofs.Markup.Every
import IconRegistry.Proofs.Registry.Grammar

/-! Components as the script grammar derives them. The grammar is a parameter; what is assumed of it is how it puts
the pieces together that components are written with. Strings and texts need no assumption on what is in them, so
only the names in an element tree decide whether its component is derived. -/
namespace IconRegistry.Component

open Markup

/-- Which texts are pieces of scripts: expressions, keys of object literals, names of tags and of attributes, and
elements. -/
structure Pieces where
  expression : Text → Prop
  key : Text → Prop
  tagName : Text → Prop
  attributeName : Text → Prop
  element : Text → Prop

namespace Pieces

variable {pieces : Pieces}

inductive Member (pieces : Pieces) : Text → Prop
  | value {key value : Text} : pieces.key key → pieces.expression value →
      Member pieces (key ++ ": ".toList ++ value)
  | spread {value : Text} : pieces.expression value → Member pieces ("...".toList ++ value)

inductive Attribute (pieces : Pieces) : Text → Prop
  | quoted {name value : Text} : pieces.attributeName name → '"' ∉ value →
      Attribute pieces (name ++ ("=\"".toList ++ value ++ ['"']))
  | braced {name value : Text} : pieces.attributeName name → pieces.expression value →
      Attribute pieces (name ++ '=' :: inBraces value)
  | spread {value : Text} : pieces.expression value → Attribute pieces (inBraces ("...".toList ++ value))

inductive Child (pieces : Pieces) : Text → Prop
  | element {text : Text} : pieces.element text → Child pieces text
  | text {content : Text} : (∀ c ∈ content, c ≠ '{' ∧ c ≠ '}' ∧ c ≠ '<' ∧ c ≠ '>') → Child pieces content
  | braced {value : Text} : pieces.expression value → Child pieces (inBraces value)

inductive Call (pieces : Pieces) : Text → Prop
  | call {tag : Text} {members children : List Text} : (∀ m ∈ members, pieces.Member m) →
      (∀ c ∈ children, pieces.expression c) →
      Call pieces (constructorCall Framework.callConstructor tag members children)

inductive Body (pieces : Pieces) : Framework → Text → Prop
  | element {framework : Framework} {text : Text} : framework ≠ .vue → pieces.element text →
      Body pieces framework (['('] ++ text ++ [')'])
  | call {text : Text} : pieces.Call text → Body pieces .vue text

/-- How a grammar puts pieces together. -/
structure Composes (pieces : Pieces) (grammar : Registry.Grammar) : Prop where
  identifier : pieces.expression "props".toList ∧ pieces.expression "ref".toList
  attributeName : pieces.attributeName "style".toList ∧ pieces.attributeName "ref".toList
  string : ∀ s, pieces.expression (stringLiteral s)
  stringKey : ∀ s, pieces.key (stringLiteral s)
  object : ∀ {members}, (∀ m ∈ members, pieces.Member m) → pieces.expression (objectLiteral members)
  call : ∀ {text}, pieces.Call text → pieces.expression text
  element : ∀ {tag : Text} {attributes children : List Text},
    pieces.tagName tag → (∀ a ∈ attributes, pieces.Attribute a) → (∀ c ∈ children, pieces.Child c) →
    pieces.element (jsxElement tag (attributes.flatMap (' ' :: ·)) children)
  component : ∀ {framework spec typescript name body}, Script.IsIdentifier name → pieces.Body framework body →
    grammar.property (some name) (name ++ ": ".toList ++ framework.arrow spec typescript body)

/-- The key that a declaration of a style attribute is written with, if that is not a string. -/
def styleKey? (declaration : Text) : Option Text := do
  let (property, _) ← Text.splitOnce? ':' declaration
  let property := Text.trim property
  if property.isEmpty || "--".toList.isPrefixOf property then none else return camelAttribute property

/-- What an attribute is written with are names, be it as an attribute or as the members of a style object. -/
def NamesAttribute (pieces : Pieces) (attributeCase : AttributeCase) (key value : Text) : Prop :=
  match attributeCase with
  | .kebab => pieces.attributeName key
  | .camel =>
    if key = "style".toList then
      ∀ declaration ∈ Text.splitAtChar ';' value, ∀ k ∈ styleKey? declaration, pieces.key k
    else pieces.attributeName (camelAttribute key)

section

variable {grammar : Registry.Grammar} (composes : pieces.Composes grammar)

include composes in
/-- A declaration is written as a member, if its key is one that a member may have. -/
theorem member_of_styleProperty? {declaration member : Text} (h : styleProperty? declaration = some member)
    (hNames : ∀ k ∈ styleKey? declaration, pieces.key k) : pieces.Member member := by
  simp only [styleProperty?, Option.bind_eq_bind, Option.bind_eq_some_iff] at h
  obtain ⟨⟨property, value⟩, hSplit, h⟩ := h
  dsimp only at h
  split at h
  · cases h
  · rename_i hNonempty
    cases h
    refine .value ?_ (composes.string _)
    split
    · exact composes.stringKey _
    · rename_i hOther
      have hKey : styleKey? declaration = some (camelAttribute (Text.trim property)) := by
        simp only [styleKey?, hSplit, Option.bind_eq_bind, Option.bind_some]
        rw [if_neg (by simpa using ⟨by simpa using hNonempty, by simpa using hOther⟩)]
        rfl
      exact hNames _ hKey

include composes in
/-- An attribute whose name and value can stand in a component is one of its attributes. -/
theorem attribute_of_names {attributeCase : AttributeCase} {key value : Text}
    (hNames : pieces.NamesAttribute attributeCase key value) (hValue : '"' ∉ value) :
    pieces.Attribute (jsxAttribute attributeCase key value) := by
  cases attributeCase with
  | kebab => exact .quoted hNames hValue
  | camel =>
      simp only [NamesAttribute] at hNames
      simp only [jsxAttribute, beq_iff_eq]
      split at hNames
      · rename_i hStyle
        rw [if_pos hStyle]
        refine .braced composes.attributeName.1 (composes.object ?_)
        intro member hMember
        obtain ⟨declaration, hDeclaration, hMember⟩ := List.mem_filterMap.mp hMember
        exact member_of_styleProperty? composes hMember (hNames declaration hDeclaration)
      · rename_i hOther
        rw [if_neg hOther]
        exact .quoted hNames hValue

theorem jsxAttributes_eq (attributeCase : AttributeCase) (attributes : Attributes) :
    jsxAttributes attributeCase attributes =
      (attributes.map fun pair => jsxAttribute attributeCase pair.1 pair.2).flatMap (' ' :: ·) := by
  rw [jsxAttributes, List.flatMap_map]

/-- The attributes that a root gets behind its own. -/
def rootAttributes (props : RootProps) : List Text :=
  (props.ref?.map fun ident => "ref".toList ++ '=' :: inBraces ident).toList ++
    (props.spread?.map fun ident => inBraces ("...".toList ++ ident)).toList

theorem rootAttributes_written (props : RootProps) :
    props.written = (rootAttributes props).flatMap (' ' :: ·) := by
  obtain ⟨ref?, spread?⟩ := props
  cases ref? <;> cases spread? <;> simp [RootProps.written, rootAttributes]

/-- The tag and the attributes of an element are written with names. -/
def NamesElement (pieces : Pieces) (attributeCase : AttributeCase) (tag : Text) (attributes : Attributes) : Prop :=
  pieces.tagName tag ∧ ∀ pair ∈ attributes, pieces.NamesAttribute attributeCase pair.1 pair.2

/-- An element is written with names, and no value ends its quotation. -/
def WrittenAsJsx (pieces : Pieces) (attributeCase : AttributeCase) (tag : Text) (attributes : Attributes) : Prop :=
  pieces.NamesElement attributeCase tag attributes ∧ attributes.Unquoted

variable {attributeCase : AttributeCase}

include composes in
theorem attributes_of_written {tag : Text} {attributes : Attributes}
    (h : pieces.WrittenAsJsx attributeCase tag attributes) :
    ∀ a ∈ attributes.map fun pair => jsxAttribute attributeCase pair.1 pair.2, pieces.Attribute a := by
  intro a ha
  obtain ⟨pair, hPair, rfl⟩ := List.mem_map.mp ha
  exact attribute_of_names composes (h.1.2 pair hPair) (h.2 pair hPair)

include composes in
theorem child_of_text (content : Text) : pieces.Child (jsxText content) := by
  rw [jsxText]
  split
  · exact .braced (composes.string content)
  · rename_i hPlain
    refine .text ?_
    intro c hc
    simp only [List.any_eq_true, not_exists, not_and] at hPlain
    simpa [not_or, and_assoc] using hPlain c hc

mutual

/-- A node whose elements can be written as components is a child. -/
theorem child_of_node (composes : pieces.Composes grammar) {node : Node}
    (h : node.Every (pieces.WrittenAsJsx attributeCase)) : pieces.Child (jsxNode attributeCase node) := by
  cases node with
  | text content => exact child_of_text composes content
  | element tag attributes children selfClosing =>
      rw [jsxNode, jsxAttributes_eq]
      exact .element (composes.element h.1.1.1 (attributes_of_written composes h.1) (children_of_nodes composes h.2))

theorem children_of_nodes (composes : pieces.Composes grammar) {nodes : List Node}
    (h : Node.EveryIn (pieces.WrittenAsJsx attributeCase) nodes) :
    ∀ c ∈ jsxNodes attributeCase nodes, pieces.Child c := by
  cases nodes with
  | nil => simp [jsxNodes]
  | cons node rest =>
      rw [jsxNodes]
      exact List.forall_mem_cons.mpr ⟨child_of_node composes h.1, children_of_nodes composes h.2⟩

end

include composes in
/-- A tree whose names are names is an element once it is rendered. -/
theorem element_of_root {root : Element} {props : RootProps}
    (h : root.Every (pieces.WrittenAsJsx attributeCase))
    (hRef : ∀ ident ∈ props.ref?, pieces.expression ident)
    (hSpread : ∀ ident ∈ props.spread?, pieces.expression ident) :
    pieces.element (renderJsx attributeCase props root) := by
  rw [renderJsx, jsxAttributes_eq, rootAttributes_written, ← List.flatMap_append]
  refine composes.element h.1.1.1 ?_ (children_of_nodes composes h.2)
  refine List.forall_mem_append.mpr ⟨attributes_of_written composes h.1, ?_⟩
  refine List.forall_mem_append.mpr ⟨?_, ?_⟩
  · intro a ha
    obtain ⟨ident, hIdent, rfl⟩ := Option.map_eq_some_iff.mp (Option.mem_toList.mp ha)
    exact .braced composes.attributeName.2 (hRef ident hIdent)
  · intro a ha
    obtain ⟨ident, hIdent, rfl⟩ := Option.map_eq_some_iff.mp (Option.mem_toList.mp ha)
    exact .spread (hSpread ident hIdent)

/-- The keys of an element's attributes are written as keys of object literals. -/
def NamesKeys (pieces : Pieces) (_ : Text) (attributes : Attributes) : Prop :=
  ∀ pair ∈ attributes, pieces.key (objectKey pair.1)

include composes in
/-- Attributes with fitting keys are members of an object. -/
theorem members_of_written {tag : Text} {attributes : Attributes} (h : pieces.NamesKeys tag attributes) :
    ∀ m ∈ attributeProperties attributes, pieces.Member m := by
  intro m hm
  obtain ⟨pair, hPair, rfl⟩ := List.mem_map.mp hm
  exact .value (h pair hPair) (composes.string _)

mutual

/-- A node whose keys fit is written as an expression. -/
theorem expression_of_node (composes : pieces.Composes grammar) {node : Node} (h : node.Every pieces.NamesKeys) :
    pieces.expression (callNode Framework.callConstructor node) := by
  cases node with
  | text content => exact composes.string _
  | element tag attributes children selfClosing =>
      rw [callNode]
      exact composes.call (.call (members_of_written composes h.1) (expressions_of_nodes composes h.2))

theorem expressions_of_nodes (composes : pieces.Composes grammar) {nodes : List Node}
    (h : Node.EveryIn pieces.NamesKeys nodes) :
    ∀ c ∈ callNodes Framework.callConstructor nodes, pieces.expression c := by
  cases nodes with
  | nil => simp [callNodes]
  | cons node rest =>
      rw [callNodes]
      exact List.forall_mem_cons.mpr ⟨expression_of_node composes h.1, expressions_of_nodes composes h.2⟩

end

include composes in
/-- A tree whose keys are keys is a call once it is emitted. -/
theorem call_of_tree {tree : CallTree} (h : tree.root.Every pieces.NamesKeys)
    (hSpread : ∀ ident ∈ tree.spread?, pieces.expression ident) :
    pieces.Call (tree.emit Framework.callConstructor) := by
  refine .call (List.forall_mem_append.mpr ⟨members_of_written composes h.1, ?_⟩)
    (expressions_of_nodes composes h.2)
  intro m hm
  obtain ⟨ident, hIdent, rfl⟩ := Option.map_eq_some_iff.mp (Option.mem_toList.mp hm)
  exact .spread (hSpread ident hIdent)

end

def treeOf (framework : Framework) (optimize : Optimizer) (spec : Spec) (markup : Text) :
    Except TransformError Element :=
  match framework with
  | .vue => do return (← Framework.annotatedCallTree optimize spec markup).root
  | _ => Framework.annotatedRoot optimize spec markup

/-- A tag and its attributes are written with names for a framework. -/
def Names (pieces : Pieces) (framework : Framework) (tag : Text) (attributes : Attributes) : Prop :=
  match framework with
  | .vue => pieces.NamesKeys tag attributes
  | _ => pieces.NamesElement framework.attributeCase tag attributes

/-- The tree of an icon, if it has one, is written with names only. -/
def NamesIcon (pieces : Pieces) (framework : Framework) (optimize : Optimizer) (spec : Spec) (markup : Text) :
    Prop :=
  ∀ root, treeOf framework optimize spec markup = .ok root → root.Every (pieces.Names framework)

section

variable {grammar : Registry.Grammar} (composes : pieces.Composes grammar) {framework : Framework}
  {optimize : Optimizer} {spec : Spec} {markup : Text}

/-- No value of an annotated root holds a double quote. -/
theorem unquoted_of_annotatedRoot {root : Element} (h : Framework.annotatedRoot optimize spec markup = .ok root) :
    root.Every fun _ attributes => attributes.Unquoted := by
  obtain ⟨text, -, h⟩ := bind_eq_ok.mp h
  split at h
  · cases h
  · rename_i read hRead
    split at h
    · cases h
      exact every_of_readRoot (fun _ => unquoted_attributesIn _) hRead
    · cases h

include composes in
/-- The body of a component is derived from the names in its root. -/
theorem body_of_root (hOther : framework ≠ .vue) {root : Element}
    (hRoot : Framework.annotatedRoot optimize spec markup = .ok root) (hNames : root.Every (pieces.Names framework)) :
    pieces.Body framework (['('] ++ renderJsx framework.attributeCase
      ⟨if framework.wrapsRef spec then some "ref".toList else none, some Framework.propsName⟩ root ++ [')']) := by
  have hWritten : root.Every (pieces.WrittenAsJsx framework.attributeCase) := by
    cases framework with
    | vue => exact absurd rfl hOther
    | react | preact | solid => exact hNames.and (unquoted_of_annotatedRoot hRoot)
  refine .element hOther (element_of_root composes hWritten ?_ ?_)
  · intro ident hIdent
    dsimp only at hIdent
    split at hIdent
    · cases hIdent
      exact composes.identifier.2
    · cases hIdent
  · intro ident hIdent
    cases hIdent
    exact composes.identifier.1

theorem spread_of_annotatedCallTree {tree : CallTree}
    (h : Framework.annotatedCallTree optimize spec markup = .ok tree) : tree.spread? = some Framework.propsName := by
  obtain ⟨optimized, -, h⟩ := bind_eq_ok.mp h
  split at h
  · cases h
  · split at h
    · cases hTitle : spec.titleText? <;> simp only [hTitle] at h <;> cases h <;> rfl
    · cases h

include composes in
/-- What a component returns is derived if the tree of its icon is written with names only. -/
theorem body_of_names (hNames : pieces.NamesIcon framework optimize spec markup) {body : Text}
    (h : framework.body optimize spec markup = .ok body) : pieces.Body framework body := by
  cases framework with
  | vue =>
      obtain ⟨tree, hTree, h⟩ := bind_eq_ok.mp h
      cases h
      have hRoot : treeOf .vue optimize spec markup = .ok tree.root := by
        rw [treeOf, hTree]
        rfl
      refine .call (call_of_tree composes (hNames _ hRoot) ?_)
      rw [spread_of_annotatedCallTree hTree]
      rintro _ ⟨rfl⟩
      exact composes.identifier.1
  | react | preact | solid =>
      obtain ⟨root, hRoot, h⟩ := bind_eq_ok.mp h
      cases h
      exact body_of_root composes (by decide) hRoot (hNames root hRoot)

include composes in
/-- A component whose name is one of scripts is a property of that name if the tree of its icon is written with names
only. -/
theorem property_of_transform (hPlacement : spec.placement = .inline) (hName : Script.IsIdentifier spec.componentName)
    (hNames : pieces.NamesIcon framework optimize spec markup) {typescript : Bool} {component : Text}
    (h : framework.transform optimize spec typescript markup = .ok component) :
    grammar.property (some spec.componentName) component := by
  obtain ⟨body, hBody, h⟩ := bind_eq_ok.mp h
  rw [hPlacement] at h
  cases h
  exact composes.component hName (body_of_names composes hNames hBody)

end

end Pieces

end IconRegistry.Component
