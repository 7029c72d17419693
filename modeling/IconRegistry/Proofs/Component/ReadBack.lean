import IconRegistry.Proofs.Component.Derivation
import IconRegistry.Proofs.Registry.ModuleTaking
import IconRegistry.Proofs.Script.ArrowFunction

/-! Components are read back by the reader of scripts. What it reads as expressions, keys, names and elements is put
together the way that components are written, so a component whose element tree has only names is one property of the
object that it is written into, and it stands where it was written. -/
namespace IconRegistry

open Script

namespace Framework

/-- The type of a component's properties is a type. -/
theorem isType_propsType (framework : Framework) : IsType framework.propsType := by
  have hSvg : IsType "SVGSVGElement".toList := isType_name (.plain (by decide) (by decide))
  have hApplied : ∀ name, IsTypeName name → IsType (name ++ '<' :: "SVGSVGElement".toList ++ ['>']) :=
    fun _ hName => isType_applied hName (List.forall_mem_singleton.mpr hSvg)
  have hJsx : ∀ word, IsIdentifier word → IsTypeName ("JSX".toList ++ '.' :: word) :=
    fun _ hWord => .member (by decide) (by decide) hWord
  cases framework with
  | react => exact hApplied "SVGProps".toList (.plain (by decide) (by decide))
  | preact => exact hApplied _ (hJsx "SVGAttributes".toList (by decide))
  | solid => exact hApplied _ (hJsx "SvgSVGAttributes".toList (by decide))
  | vue => exact isType_name (.plain (by decide) (by decide))

/-- A component is an expression if what it returns is one that is no block. -/
theorem isExpression_arrow (framework : Framework) (spec : Component.Spec) (typescript : Bool) {body : Text}
    (hBody : IsExpression body)
    (hBrace : ∀ (position : Nat) {rest : Text}, Closes rest →
      (Lexeme.next false position false (body ++ rest)).token ≠ .punct .leftBrace) :
    IsExpression (framework.arrow spec typescript body) := by
  have hWord : "props".toList ∈ parameterWords := by decide
  have hProps : IsParameter "props".toList := isParameter_word hWord
  have hRef : IsParameter "ref".toList := isParameter_word (by decide)
  have hInner := Script.isExpression_arrow
    (List.forall_mem_cons.mpr ⟨hProps, List.forall_mem_singleton.mpr hRef⟩) hBody hBrace
  have hCtor : refConstructor ∈ componentWords := by decide
  rw [arrow]
  split
  · cases typescript with
    | true =>
        have hSvg : IsType "SVGSVGElement".toList := isType_name (.plain (by decide) (by decide))
        have hCall := isExpression_typedCall hCtor
          (List.forall_mem_cons.mpr ⟨hSvg, List.forall_mem_singleton.mpr framework.isType_propsType⟩) hInner
        simpa [Text.join] using hCall
    | false =>
        have hCall := isExpression_call hCtor (List.forall_mem_singleton.mpr hInner)
        simpa [Text.join] using hCall
  · cases typescript with
    | true =>
        have hTyped := Script.isExpression_arrow
          (List.forall_mem_singleton.mpr (isParameter_typed hWord framework.isType_propsType))
          hBody hBrace
        simpa [Text.join, params] using hTyped
    | false =>
        have hPlain := Script.isExpression_arrow (List.forall_mem_singleton.mpr hProps) hBody hBrace
        simpa [Text.join, params] using hPlain

end Framework

namespace Component

/-- The pieces of scripts as they are read. A tag whose first name is `const` and attributes that only begin with the
name `extends` are left out: behind an angle bracket they may begin an arrow function. -/
def readPieces : Pieces where
  expression := IsExpression
  key := Script.IsKey
  tagName tag := IsElementName tag ∧ tag.takeWhile isNamePart ≠ "const".toList
  attributeName := IsAttributeName
  element := IsElement

theorem exists_isMember_of_member {text : Text} (h : readPieces.Member text) : ∃ name?, IsMember name? text := by
  cases h with
  | value hKey hValue => exact exists_isMember_value hKey hValue
  | spread hValue => exact ⟨none, isMember_spread hValue⟩

theorem isAttribute_of_attribute {text : Text} (h : readPieces.Attribute text) : IsAttribute text := by
  cases h with
  | quoted hName hValue => exact isAttribute_quoted hName hValue
  | braced hName hValue => exact isAttribute_braced hName hValue
  | spread hValue => exact isAttribute_spread hValue

theorem isChild_of_child {text : Text} (h : readPieces.Child text) : IsChild text := by
  cases h with
  | element hElement => exact .element hElement
  | text hContent => exact .text fun c hc => by simpa [isRunChar, and_assoc] using hContent c hc
  | braced hValue => exact .braced hValue

theorem isExpression_of_call {text : Text} (h : readPieces.Call text) : IsExpression text := by
  obtain ⟨hMembers, hChildren⟩ := h
  exact isExpression_constructorCall (by decide) (fun m hm => exists_isMember_of_member (hMembers m hm)) hChildren

/-- What the reader of scripts reads is put together as components are written. -/
theorem readPieces_composes : readPieces.Composes Registry.Grammar.members where
  identifier := ⟨isExpression_word (by decide), isExpression_word (by decide)⟩
  attributeName := ⟨⟨.inl (by decide), fun h => absurd h (by decide)⟩, ⟨.inl (by decide), fun h => absurd h (by decide)⟩⟩
  string := isExpression_stringLiteral
  stringKey s := .inr ⟨s, rfl⟩
  object h := isExpression_object fun m hm => exists_isMember_of_member (h m hm)
  call := isExpression_of_call
  element hTag hAttributes hChildren :=
    isElement_jsxElement hTag.1 hTag.2 (fun a ha => isAttribute_of_attribute (hAttributes a ha))
      fun c hc => isChild_of_child (hChildren c hc)
  component {framework spec typescript name body} hName hBody := by
    refine isMember_word hName ?_
    cases hBody with
    | element _ hElement =>
        refine framework.isExpression_arrow spec typescript (isExpression_element hElement) ?_
        intro position rest _
        rintro ⟨⟩
    | call hCall =>
        refine Framework.isExpression_arrow .vue spec typescript (isExpression_of_call hCall) ?_
        obtain ⟨hMembers, hChildren⟩ := hCall
        intro position rest _
        rintro ⟨⟩

/-- Attributes of an icon without children: its size, and what hides it from readers of screens. -/
def frameAttributes : List Text :=
  ["viewBox", "aria-hidden"].map String.toList

/-- Markup is written for a framework as one element with such attributes, or not at all. -/
def isFrame (framework : Framework) (optimize : Optimizer) (spec : Spec) (markup : Text) : Bool :=
  match Pieces.treeOf framework optimize spec markup with
  | .ok root => root.tag == "svg".toList && root.children.isEmpty && root.attributes.all (frameAttributes.contains ·.1)
  | .error _ => true

/-- What is written as one such element is written with names only. -/
theorem namesIcon_of_isFrame {framework : Framework} {optimize : Optimizer} {spec : Spec} {markup : Text}
    (h : isFrame framework optimize spec markup = true) : readPieces.NamesIcon framework optimize spec markup := by
  intro root hRoot
  rw [isFrame, hRoot] at h
  simp only [Bool.and_eq_true, beq_iff_eq, List.isEmpty_iff, List.all_eq_true, List.contains_iff_mem] at h
  obtain ⟨⟨hTag, hChildren⟩, hAttributes⟩ := h
  have hKeys : ∀ key ∈ frameAttributes, objectKey key = stringLiteral key ∨ IsIdentifier (objectKey key) := by decide
  have hWords : ∀ key ∈ frameAttributes, key ≠ "style".toList ∧ IsJsxWord key ∧ IsJsxWord (camelAttribute key) ∧
      key.takeWhile isNamePart ≠ "extends".toList ∧ (camelAttribute key).takeWhile isNamePart ≠ "extends".toList := by
    decide
  have hSvg : IsJsxWord "svg".toList := by decide
  have hElement : readPieces.tagName root.tag := by
    rw [hTag]
    exact ⟨.dotted hSvg (List.forall_mem_nil _), by decide⟩
  refine ⟨?_, by rw [hChildren]; trivial⟩
  have hNames : ∀ attributeCase, ∀ pair ∈ root.attributes,
      Pieces.NamesAttribute readPieces attributeCase pair.1 pair.2 := by
    intro attributeCase pair hPair
    obtain ⟨hStyle, hWord, hCamel, hExtends, hCamelExtends⟩ := hWords pair.1 (hAttributes pair hPair)
    cases attributeCase with
    | kebab => exact ⟨.inl hWord, fun hSame => absurd hSame hExtends⟩
    | camel =>
        rw [Pieces.NamesAttribute, if_neg hStyle]
        exact ⟨.inl hCamel, fun hSame => absurd hSame hCamelExtends⟩
  cases framework with
  | vue =>
      intro pair hPair
      rcases hKeys pair.1 (hAttributes pair hPair) with hString | hName
      · exact .inr ⟨pair.1, hString⟩
      · exact .inl hName
  | react | preact | solid => exact ⟨hElement, hNames _⟩

end Component

namespace Script

def linedObject (property : Text) : Text :=
  "\x7b\n  ".toList ++ property ++ ",\n\x7d".toList

/-- A script that exports an object literal with one property on a line of its own. -/
def exportedObject (property : Text) : Text :=
  "export const Icons = ".toList ++ (linedObject property ++ [';'])

end Script

namespace Framework

open Registry

variable {framework : Framework} {optimize : Component.Optimizer} {spec : Component.Spec} {markup : Text}

/-- The layout of an object literal with one property on a line of its own. -/
def linedLayout (name property : Text) : Layout :=
  ⟨['\n', ' ', ' '], [⟨some name, property, [], some ['\n']⟩]⟩

/-- A property on a line of its own is laid out well. -/
theorem linedLayout_wellFormed {name property : Text} (h : IsMember (some name) property) :
    (linedLayout name property).WellFormed .members := by
  have hGap : isGap ['\n', ' ', ' '] = true ∧ isGap ['\n'] = true := by decide
  refine ⟨hGap.1, List.forall_mem_singleton.mpr ⟨h, isGap_nil, ?_⟩, separated_singleton _⟩
  rintro after ⟨rfl⟩
  exact hGap.2

theorem between_linedLayout (name property : Text) :
    (linedLayout name property).between (frontOf [] [] "Icons".toList) (backOf false []) = exportedObject property := by
  have hFront : frontOf [] [] "Icons".toList = "export const Icons = ".toList := by decide
  have hLined : linedObject property = '\x7b' :: '\n' :: ' ' :: ' ' :: (property ++ [',', '\n', '\x7d']) := by
    simp [linedObject]
  have hBetween : ∀ front, (linedLayout name property).between front (backOf false []) =
      front ++ ('\x7b' :: '\n' :: ' ' :: ' ' :: (property ++ [',', '\n', '\x7d']) ++ [';']) := by
    simp [linedLayout, Layout.between, Layout.text, Property.tail, tailText, backOf, assertion]
  rw [hBetween, hFront, ← hLined]
  rfl

/-- The property that a script exports an object literal with is all that an editor finds in it. -/
theorem view_exportedObject {name property : Text} (h : IsMember (some name) property) :
    ∃ view, (Editor.ofDialect "Icons".toList .tsx).view (exportedObject property) = .ok view ∧
      view.properties = [⟨25, 25 + property.length⟩] ∧ view.entries = [⟨name, ⟨25, 25 + property.length⟩, 0⟩] := by
  have hModule : IsModule [] [] "Icons".toList [] :=
    ⟨isGap_nil, List.forall_mem_nil _, ⟨by decide, by decide, fun _ => by decide⟩, isGap_nil⟩
  obtain ⟨view, hView, hShows, -⟩ := (hModule.takes false).exists_view (linedLayout_wellFormed h)
  rw [between_linedLayout] at hView
  have hStart : (frontOf [] [] "Icons".toList).length + 1 + (linedLayout name property).front.length = 25 := by
    have hFront : (frontOf [] [] "Icons".toList).length = 21 := by decide
    rw [hFront]
    rfl
  exact ⟨view, hView, by rw [hShows.properties, hStart]; rfl, by rw [hShows.entries, hStart]; rfl⟩

theorem textIn_exportedObject (property : Text) :
    Span.textIn ⟨25, 25 + property.length⟩ (exportedObject property) = property := by
  have hWithin : ∀ {front back : Text} {n : Nat}, front.length = n →
      ((front ++ (property ++ back)).take (n + property.length)).drop n = property := by
    rintro front back n rfl
    rw [List.take_length_add_append, List.take_left, List.drop_left]
  have hParts : ∀ front first last : Text, front ++ (first ++ property ++ last ++ [';']) =
      (front ++ first) ++ (property ++ (last ++ [';'])) := fun front first last => by simp
  have hFront : ("export const Icons = ".toList ++ "\x7b\n  ".toList).length = 25 := by decide
  exact (congrArg (fun s => (s.take (25 + property.length)).drop 25) (hParts _ _ _)).trans (hWithin hFront)

/-- A component is one property of the object that it is written into, and it stands where it was written, if its name
is a name of scripts and the tree of its icon is written with names of scripts. -/
theorem transform_read_back (hPlacement : spec.placement = .inline) (hName : IsIdentifier spec.componentName)
    (hNames : Component.readPieces.NamesIcon framework optimize spec markup) {typescript : Bool} {component : Text}
    (hMade : framework.transform optimize spec typescript markup = .ok component) :
    ∃ view span, (Editor.ofDialect "Icons".toList .tsx).view (exportedObject component) = .ok view ∧
      view.properties = [span] ∧ view.entries = [⟨spec.componentName, span, 0⟩] ∧
      span.start = 25 ∧ span.textIn (exportedObject component) = component := by
  obtain ⟨view, hView, hProperties, hEntries⟩ := view_exportedObject
    (Component.Pieces.property_of_transform Component.readPieces_composes hPlacement hName hNames hMade)
  exact ⟨view, _, hView, hProperties, hEntries, rfl, textIn_exportedObject _⟩

/-- Styles are read back as the object literals that they are written as. -/
theorem styled_component_read_back :
    let component := "A: (props) => (<svg style=\x7b\x7b strokeWidth: \"2\" \x7d\x7d \x7b...props\x7d />)".toList
    ∃ view span, (Editor.ofDialect "Icons".toList .tsx).view (exportedObject component) = .ok view ∧
      view.properties = [span] ∧ view.entries = [⟨"A".toList, span, 0⟩] ∧
      span.start = 25 ∧ span.textIn (exportedObject component) = component := by
  have hMade : react.transform Component.canonicalOptimizer ⟨"A".toList, [], .none, false, false, .inline⟩ false
      "<svg style='stroke-width: 2'/>".toList =
        .ok "A: (props) => (<svg style=\x7b\x7b strokeWidth: \"2\" \x7d\x7d \x7b...props\x7d />)".toList :=
    eq_ok_of_toOption (by decide +kernel)
  refine transform_read_back rfl (by decide) ?_ hMade
  have hTree : Component.Pieces.treeOf .react Component.canonicalOptimizer
      ⟨"A".toList, [], .none, false, false, .inline⟩ "<svg style='stroke-width: 2'/>".toList =
        .ok ⟨"svg".toList, [("style".toList, "stroke-width: 2".toList)], [], true⟩ := rfl
  intro root hRoot
  cases hTree.symm.trans hRoot
  have hWord : IsJsxWord "svg".toList := by decide
  have hTag : IsElementName "svg".toList := .dotted hWord (List.forall_mem_nil _)
  refine ⟨⟨⟨hTag, by decide⟩, List.forall_mem_singleton.mpr ?_⟩, trivial⟩
  have hKeys : ∀ declaration ∈ Text.splitAtChar ';' "stroke-width: 2".toList,
      Component.Pieces.styleKey? declaration = some "strokeWidth".toList := by decide
  intro declaration hDeclaration key hKey
  rw [hKeys declaration hDeclaration] at hKey
  cases hKey
  exact .inl (by decide)

/-- A key that is no name is written without quotation marks, and the script with it is not read. -/
theorem dotted_key_unreadable :
    vue.transform Component.canonicalOptimizer ⟨"A".toList, [], .none, false, false, .inline⟩ false
        "<svg a.b=\"1\"/>".toList = .ok "A: (props) => h(\"svg\", \x7b a.b: \"1\", ...props \x7d)".toList ∧
      ((Editor.ofDialect "Icons".toList .tsx).view (exportedObject
        "A: (props) => h(\"svg\", \x7b a.b: \"1\", ...props \x7d)".toList)).toOption.isNone = true :=
  ⟨eq_ok_of_toOption (by decide +kernel), by decide +kernel⟩

end Framework

end IconRegistry
