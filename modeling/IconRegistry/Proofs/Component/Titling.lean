import IconRegistry.Proofs.Component.Annotating
import IconRegistry.Proofs.Component.Derivation
import IconRegistry.Proofs.Markup.Failing

/-! Where the title of an icon goes. It is written into markup behind the root's opening tag and found there by the
reader, or it is put into a tree at once; roots that the reader takes for bodiless lose what is written behind their
tag. -/
namespace IconRegistry

open Markup
open Text (isBlank Blanks Trimmed PassesOver)

namespace Component

def writtenTitle (title : Text) : Text :=
  (Opening.plain "title".toList [] false).text ++ (escapeText title ++ closingTag "title".toList [])

theorem writtenTitle_eq (title : Text) :
    writtenTitle title = "<title>".toList ++ (escapeText title ++ "</title>".toList) := by
  have hFront : (Opening.plain "title".toList [] false).text = "<title>".toList := by decide
  have hBack : closingTag "title".toList [] = "</title>".toList := by decide
  rw [writtenTitle, hFront, hBack]

section Texts

variable {inside title : Text} {nodes : List Node}

/-- A title gets behind the root's opening tag, and a root that closes itself is opened for it. -/
theorem withTitle_svg (h : EndsName inside) (title rest : Text) :
    withTitle title ("<svg".toList ++ (inside ++ '>' :: rest)) =
      if inside.getLast? = some '/' then
        "<svg".toList ++ (Text.trimEnd inside.dropLast ++ '>' :: (writtenTitle title ++ ("</svg>".toList ++ rest)))
      else "<svg".toList ++ (inside ++ '>' :: (writtenTitle title ++ rest)) := by
  have hFront : ∀ front back : Text, (front ++ back).take ((front ++ back).length - back.length) = front := by simp
  have hOpening := hFront ("<svg".toList ++ inside ++ ['>']) rest
  have hEnd : Text.endsWith ("<svg".toList ++ inside ++ ['>']) "/>".toList = decide (inside.getLast? = some '/') := by
    have hSuffix : "/>".toList = ['/'] ++ ['>'] := rfl
    have hName : "<svg".toList.getLast? = some 'g' := rfl
    rw [Bool.eq_iff_iff, decide_eq_true_iff, Text.endsWith, List.isSuffixOf_iff_suffix, hSuffix,
      List.suffix_append_inj_of_length_eq rfl, List.singleton_suffix_iff_getLast?_eq_some, List.getLast?_append,
      hName]
    cases inside.getLast? with
    | none => simp
    | some c => simp
  rw [List.append_assoc, List.append_assoc, List.singleton_append] at hOpening
  rw [withTitle, rootTag?_append h]
  dsimp only
  rw [hOpening, ← List.append_assoc, hEnd]
  simp only [decide_eq_true_eq]
  by_cases hSlash : inside.getLast? = some '/'
  · obtain ⟨front, rfl⟩ := List.getLast?_eq_some_iff.mp hSlash
    have hSvg : "<svg".toList ++ (front ++ ['/']) ++ ['>'] = "<sv".toList ++ 'g' :: front ++ ['/'] ++ ['>'] := by simp
    have hName : "<svg".toList ++ Text.trimEnd front = "<sv".toList ++ 'g' :: Text.trimEnd front := rfl
    have hAngle : ">".toList = ['>'] := rfl
    rw [if_pos hSlash, if_pos hSlash, hSvg, List.dropLast_concat, List.dropLast_concat,
      Text.trimEnd_append_cons _ _ (by decide), List.dropLast_concat, ← hName, hAngle, writtenTitle_eq]
    simp only [List.append_assoc, List.cons_append, List.nil_append]
  · rw [if_neg hSlash, if_neg hSlash, writtenTitle_eq]
    simp only [List.append_assoc, List.cons_append, List.nil_append]

/-- A title is written as an element around its escaped text. -/
theorem encloses_writtenTitle (h : IsContent (escapeText title)) :
    Encloses .plain (.plain "title".toList [] false) [.text (escapeText title)] (writtenTitle title) := by
  have hNil : Style.plain.gap [] := List.forall_mem_nil _
  have hInner : Writes .plain [.text (escapeText title)] (escapeText title) := by
    simpa using Writes.text hNil h (by simp) (.nil hNil)
  exact .body rfl hInner rfl

/-- Whatever a title says, it is written as an element. -/
theorem exists_encloses_writtenTitle (title : Text) :
    ∃ children, Encloses .plain (.plain "title".toList [] false) children (writtenTitle title) := by
  obtain ⟨children, hInner⟩ := exists_writes (angle_not_mem_escapeText title)
  exact ⟨children, .body rfl hInner rfl⟩

theorem readable_title : (Opening.plain "title".toList [] false).Readable :=
  (Style.plain_readable.opening
    (Style.plain_opening (by decide : IsTagName "title".toList) (List.forall_mem_nil _) false)).1

/-- A title does not hide the closing tag of its root. -/
theorem splitAtClose?_writtenTitle (title rest : Text) :
    splitAtClose? "svg".toList 0 0 (writtenTitle title ++ rest) =
      (splitAtClose? "svg".toList 0 0 rest).map fun parts => (writtenTitle title ++ parts.1, parts.2) := by
  have hNil : Style.plain.gap [] := List.forall_mem_nil _
  have hOpening := Style.plain_opening (by decide : IsTagName "title".toList) (List.forall_mem_nil _) false
  obtain ⟨children, hEncloses⟩ := exists_encloses_writtenTitle title
  have hWrites := hEncloses.writes hNil hOpening (.nil hNil)
  rw [List.nil_append, List.append_nil] at hWrites
  exact hWrites.passesOver Style.plain_readable isTagName_svg 0 rest

/-- A title is the first node that is read of what it was written in front of. -/
theorem readNodes_writtenTitle (h : IsContent (escapeText title)) {s : Text}
    (hNodes : readNodes (writtenTitle title ++ s) = .ok nodes) :
    ∃ rest, nodes = titleNode (escapeText title) :: rest := by
  rw [(encloses_writtenTitle h).readNodes_append Style.plain_readable readable_title] at hNodes
  cases hRest : readNodes s with
  | error cause =>
      rw [hRest] at hNodes
      cases hNodes
  | ok rest =>
      rw [hRest] at hNodes
      cases hNodes
      exact ⟨rest, rfl⟩

end Texts

/-- The first child of an element is a title that says a certain text. -/
def HasTitle (title : Text) (e : Element) : Prop :=
  ∃ attributes content selfClosing rest,
    e.children = .element "title".toList attributes [.text content] selfClosing :: rest ∧
      decodeEntities content = title

/-- What is written behind the opening tag of a root becomes its first child: the tag has a single slash right in front
of its end, or no slash there at all but a closing tag. -/
def TakesTitle (markup : Text) : Prop :=
  ∃ tag, rootTag? markup = some tag ∧
    if tag.attributes.getLast? = some '/' then closesItself tag.attributes.dropLast = false
    else closesItself tag.attributes = false ∧
      (splitAtClose? "svg".toList 0 0 (Text.trimEnd tag.rest)).isSome = true

section Reading

variable {title markup inside body : Text} {e root : Element}

theorem not_hasTitle_of_bodiless (h : e.children = []) : ¬HasTitle title e := by
  rintro ⟨attributes, content, selfClosing, rest, hChildren, -⟩
  rw [h] at hChildren
  cases hChildren

/-- An element begins with a title, or it is empty. -/
structure BeginsWithTitle (title : Text) (taken : Prop) (e : Element) : Prop where
  title : taken → ∃ rest, e.children = titleNode (escapeText title) :: rest
  empty : ¬taken → e.children = []

/-- An element that begins with a title has one if it was taken. -/
theorem BeginsWithTitle.hasTitle_iff {taken : Prop} (h : BeginsWithTitle title taken e) : HasTitle title e ↔ taken := by
  constructor
  · exact fun hHas => Classical.byContradiction fun hNot => not_hasTitle_of_bodiless (h.empty hNot) hHas
  · intro hTaken
    obtain ⟨rest, hFirst⟩ := h.title hTaken
    exact ⟨[], escapeText title, false, rest, hFirst, decodeEntities_escapeText title⟩

/-- A document takes a title unless its root closes itself or is never closed. -/
theorem takesTitle_iff {tag : NamedTag} (hTag : rootTag? markup = some tag) :
    TakesTitle markup ↔
      if tag.attributes.getLast? = some '/' then closesItself tag.attributes.dropLast = false
      else closesItself tag.attributes = false ∧
        (splitAtClose? "svg".toList 0 0 (Text.trimEnd tag.rest)).isSome = true := by
  constructor
  · rintro ⟨found, hFound, hTakes⟩
    cases hFound.symm.trans hTag
    exact hTakes
  · exact fun hTakes => ⟨tag, hTag, hTakes⟩

theorem writtenTitle_last (title : Text) : (writtenTitle title).getLast? = some '>' := by
  simp [writtenTitle, closingTag, List.getLast?_append]

/-- A root with a title in its body is read with the title if it has a body. -/
theorem beginsWithTitle_of_written (hEnds : EndsName inside) (hTitle : IsContent (escapeText title)) {rest : Text}
    (hRoot : readRoot ("<svg".toList ++ (inside ++ '>' :: (writtenTitle title ++ rest))) = .ok root) :
    root.tag = "svg".toList ∧ root.attributes = attributesIn inside ∧ BeginsWithTitle title
      (closesItself inside = false ∧ (splitAtClose? "svg".toList 0 0 (Text.trimEnd rest)).isSome = true) root := by
  have hTrim := Text.trimEnd_append_of_last (writtenTitle_last title) (by decide) rest
  rw [readRoot_svg hEnds, hTrim, splitAtClose?_writtenTitle] at hRoot
  cases hCloses : closesItself inside with
  | true =>
      rw [hCloses, if_pos rfl] at hRoot
      cases hRoot
      exact ⟨rfl, rfl, by simp, fun _ => rfl⟩
  | false =>
      rw [hCloses, if_neg Bool.false_ne_true] at hRoot
      cases hSplit : splitAtClose? "svg".toList 0 0 (Text.trimEnd rest) with
      | none =>
          rw [hSplit] at hRoot
          cases hRoot
          exact ⟨rfl, rfl, by simp, fun _ => rfl⟩
      | some parts =>
          rw [hSplit] at hRoot
          dsimp only [Option.map] at hRoot
          cases hNodes : readNodes (writtenTitle title ++ parts.1) with
          | error cause =>
              rw [hNodes] at hRoot
              cases hRoot
          | ok nodes =>
              rw [hNodes] at hRoot
              cases hRoot
              exact ⟨rfl, rfl, fun _ => readNodes_writtenTitle hTitle hNodes, by simp⟩

/-- A title that is written into markup is in the tree that is read from it just where the root takes it. -/
theorem beginsWithTitle_withTitle {tag : NamedTag} (hTag : rootTag? markup = some tag)
    (hTitle : IsContent (escapeText title)) (hRoot : readRoot (withTitle title markup) = .ok root) :
    root.tag = "svg".toList ∧ root.attributes = attributesIn tag.attributes ∧
      BeginsWithTitle title (TakesTitle markup) root := by
  obtain ⟨hText, hEnds⟩ := rootTag?_eq_some hTag
  rw [hText, withTitle_svg hEnds] at hRoot
  rw [takesTitle_iff hTag]
  split at hRoot
  · rename_i hSlash
    have hBehind : splitAtClose? "svg".toList 0 0 (Text.trimEnd ("</svg>".toList ++ tag.rest)) =
        some ([], Text.trimEnd tag.rest) := by
      rw [Text.trimEnd_append_of_last (c := '>') rfl (by decide)]
      exact splitAtClose?_body isTagName_svg (List.forall_mem_nil _) .nil (Text.trimEnd tag.rest)
    obtain ⟨hName, hAttributes, hBegins⟩ := beginsWithTitle_of_written (hEnds.trimEnd_dropLast hSlash) hTitle hRoot
    rw [attributesIn_trimEnd, attributesIn_dropLast hSlash] at hAttributes
    rw [closesItself_trimEnd, hBehind] at hBegins
    exact ⟨hName, hAttributes, by simpa [hSlash] using hBegins⟩
  · rename_i hSlash
    rw [if_neg hSlash]
    exact beginsWithTitle_of_written hEnds hTitle hRoot

end Reading

section Specs

variable {optimize : Optimizer} {spec : Spec} {markup optimized : Text} {tag : NamedTag}

/-- Optimized markup with the attributes that a spec asks for. -/
def attributed (spec : Spec) (optimized : Text) : Text :=
  if spec.extraAttributes.isEmpty then optimized else withAttributes spec.extraAttributes optimized

/-- The attributes of a root tag with those that a spec asks for. -/
def attributedPairs (spec : Spec) (pairs : Attributes) : Attributes :=
  if spec.extraAttributes.isEmpty then pairs
  else (pairs.merge (spec.extraAttributes.mapValues escapeAttribute)).inTag

/-- A root has its attributes and those that were set. -/
theorem exists_rootTag_attributed (spec : Spec) (hTag : rootTag? optimized = some tag) :
    ∃ tag', rootTag? (attributed spec optimized) = some tag' ∧
      attributesIn tag'.attributes = attributedPairs spec (attributesIn tag.attributes) := by
  rw [attributed, attributedPairs]
  split
  · exact ⟨tag, hTag, rfl⟩
  · rename_i hSome
    have hKeyed : spec.extraAttributes.Keyed := fun pair hPair =>
      ⟨(isKey_of_mem_extraAttributes hPair).nonempty, (isKey_of_mem_extraAttributes hPair).chars⟩
    exact exists_rootTag_withAttributes hTag (by simpa using hSome) hKeyed

/-- What was done to get the root that JSX is made of. -/
theorem annotatedRoot_eq_ok {root : Element} (h : Framework.annotatedRoot optimize spec markup = .ok root) :
    ∃ optimized tag, optimize markup = .ok optimized ∧ rootTag? optimized = some tag ∧
      readRoot (match spec.titleText? with
        | some title => withTitle title (attributed spec optimized)
        | none => attributed spec optimized) = .ok root := by
  obtain ⟨text, hText, h⟩ := bind_eq_ok.mp h
  obtain ⟨optimized, hOptimized, hText'⟩ := bind_eq_ok.mp hText
  cases hTag : rootTag? optimized with
  | none =>
      rw [hTag] at hText'
      cases hText'
  | some tag =>
      rw [annotated_eq hOptimized (by rw [hTag]; rfl)] at hText
      cases hText
      refine ⟨optimized, tag, hOptimized, hTag, ?_⟩
      split at h
      · cases h
      · rename_i read hRead
        split at h
        · cases h
          exact hRead
        · cases h

/-- What was done to get the tree that calls are made of. -/
theorem annotatedCallTree_eq_ok {tree : CallTree} (h : Framework.annotatedCallTree optimize spec markup = .ok tree) :
    ∃ optimized e, optimize markup = .ok optimized ∧ readRoot optimized = .ok e ∧ e.tag = "svg".toList ∧
      tree.root = ⟨e.tag, e.attributes.merge spec.extraAttributes,
        (spec.titleText?.map titleNode).toList ++ e.children, e.selfClosing && spec.titleText?.isNone⟩ := by
  obtain ⟨optimized, hOptimized, hRest⟩ := bind_eq_ok.mp h
  split at hRest
  · cases hRest
  · rename_i read hRead
    split at hRest
    · rename_i hSvg
      obtain ⟨e, hRoot, hTree⟩ := bind_eq_ok.mp hRead
      cases hTree
      have hTag : e.tag = "svg".toList := by simpa using hSvg
      obtain ⟨tree', hTree', hTreeRoot⟩ := Framework.annotatedCallTree_eq hOptimized hRoot hTag spec
      cases h.symm.trans hTree'
      exact ⟨optimized, e, hOptimized, hRoot, hTag, hTreeRoot⟩
    · cases hRest

end Specs

end Component

namespace Framework

open Component

variable {framework : Framework} {optimize : Optimizer} {spec : Spec} {typescript : Bool} {markup component : Text}

/-- The title that a spec asks for comes through: into markup where the root takes it, and into a tree where no entity
occurs in it, for what is in a tree counts as spelled with entities. -/
def KeepsTitle (framework : Framework) (spec : Spec) (optimized : Text) : Prop :=
  match framework with
  | .vue => ∀ entity ∈ entities, ¬entity.1 <:+: readableName spec.componentName
  | .react | .preact | .solid => TakesTitle (attributed spec optimized)

def rendered (framework : Framework) (spec : Spec) (root : Element) : Text :=
  match framework with
  | .vue => CallTree.emit ⟨root, some propsName⟩ callConstructor
  | _ =>
    let props : RootProps := ⟨if framework.wrapsRef spec then some "ref".toList else none, some propsName⟩
    ['('] ++ renderJsx framework.attributeCase props root ++ [')']

/-- A component is rendered from the tree of its image. -/
theorem exists_treeOf (h : framework.transform optimize spec typescript markup = .ok component) :
    ∃ root, Pieces.treeOf framework optimize spec markup = .ok root ∧
      framework.body optimize spec markup = .ok (framework.rendered spec root) := by
  obtain ⟨body, hBody, -⟩ := bind_eq_ok.mp h
  cases framework with
  | vue =>
      obtain ⟨tree, hTree, hEmit⟩ := bind_eq_ok.mp hBody
      have hSpread := Pieces.spread_of_annotatedCallTree hTree
      obtain ⟨root, spread?⟩ := tree
      obtain rfl : spread? = some propsName := hSpread
      cases hEmit
      exact ⟨root, by rw [Pieces.treeOf, hTree]; rfl, hBody⟩
  | react | preact | solid =>
      obtain ⟨root, hRoot, hRender⟩ := bind_eq_ok.mp hBody
      cases hRender
      exact ⟨root, hRoot, hBody⟩

/-- An annotated root begins with its title where it takes one. -/
theorem beginsWithTitle_annotatedRoot {root : Element} (hRoot : annotatedRoot optimize spec markup = .ok root)
    (hKind : spec.accessibility = .title) (hSome : spec.componentName ≠ []) (hTrimmed : Trimmed spec.componentName) :
    ∃ optimized, optimize markup = .ok optimized ∧ root.tag = "svg".toList ∧
      BeginsWithTitle (readableName spec.componentName) (TakesTitle (attributed spec optimized)) root := by
  obtain ⟨optimized, tag, hOptimized, hTag, hRead⟩ := annotatedRoot_eq_ok hRoot
  have hTitle : spec.titleText? = some (readableName spec.componentName) := if_pos hKind
  obtain ⟨tag', hTag', -⟩ := exists_rootTag_attributed spec hTag
  rw [hTitle] at hRead
  obtain ⟨hSvg, -, hBegins⟩ := beginsWithTitle_withTitle hTag' (isContent_titleText hTitle hSome hTrimmed) hRead
  exact ⟨optimized, hOptimized, hSvg, hBegins⟩

/-- A tree of calls has its title exactly if no entity occurs in it. -/
theorem hasTitle_annotatedCallTree {tree : CallTree} (hTree : annotatedCallTree optimize spec markup = .ok tree)
    (hKind : spec.accessibility = .title) :
    ∃ optimized, optimize markup = .ok optimized ∧ tree.root.tag = "svg".toList ∧
      (HasTitle (readableName spec.componentName) tree.root ↔
        ∀ entity ∈ entities, ¬entity.1 <:+: readableName spec.componentName) := by
  obtain ⟨optimized, e, hOptimized, -, hSvg, hRoot⟩ := annotatedCallTree_eq_ok hTree
  have hTitle : spec.titleText? = some (readableName spec.componentName) := if_pos hKind
  refine ⟨optimized, hOptimized, by rw [hRoot]; exact hSvg, ?_⟩
  rw [← decodeEntities_eq_self_iff, hRoot, hTitle]
  constructor
  · rintro ⟨attributes, content, selfClosing, rest, hChildren, hSays⟩
    cases hChildren
    exact hSays
  · exact fun hSame => ⟨[], _, false, e.children, rfl, hSame⟩

/-- Where a title is asked for, the root that is rendered has it as its first child just where it comes through. -/
theorem hasTitle_iff_keepsTitle (h : framework.transform optimize spec typescript markup = .ok component)
    (hKind : spec.accessibility = .title) (hSome : spec.componentName ≠ []) (hTrimmed : Trimmed spec.componentName) :
    ∃ optimized root, optimize markup = .ok optimized ∧ Pieces.treeOf framework optimize spec markup = .ok root ∧
      framework.body optimize spec markup = .ok (framework.rendered spec root) ∧ root.tag = "svg".toList ∧
      (HasTitle (readableName spec.componentName) root ↔ framework.KeepsTitle spec optimized) := by
  obtain ⟨root, hRoot, hBody⟩ := exists_treeOf h
  cases framework with
  | vue =>
      obtain ⟨tree, hTree, hSame⟩ := bind_eq_ok.mp hRoot
      cases hSame
      obtain ⟨optimized, hOptimized, hSvg, hHas⟩ := hasTitle_annotatedCallTree hTree hKind
      exact ⟨optimized, tree.root, hOptimized, hRoot, hBody, hSvg, hHas⟩
  | react | preact | solid =>
      obtain ⟨optimized, hOptimized, hSvg, hBegins⟩ := beginsWithTitle_annotatedRoot hRoot hKind hSome hTrimmed
      exact ⟨optimized, root, hOptimized, hRoot, hBody, hSvg, hBegins.hasTitle_iff⟩

/-- A root that closes itself takes a title, whose ampersand is read as one again. -/
theorem hasTitle_selfClosing :
    ∃ root, Pieces.treeOf .react canonicalOptimizer ⟨"A&B".toList, [], .title, true, false, .inline⟩
        "<svg fill='none' />".toList = .ok root ∧ HasTitle "A&B".toList root := by
  have hOk : Framework.react.transform canonicalOptimizer ⟨"A&B".toList, [], .title, true, false, .inline⟩ true
      "<svg fill='none' />".toList = .ok
        "A&B: (props: SVGProps<SVGSVGElement>) => (<svg fill=\"none\" \x7b...props\x7d><title>A&amp;B</title></svg>)".toList :=
    eq_ok_of_toOption (by decide +kernel)
  obtain ⟨optimized, root, hOptimized, hRoot, -, -, hHas⟩ := hasTitle_iff_keepsTitle hOk rfl (by decide) (by decide)
  cases hOptimized
  exact ⟨root, hRoot, hHas.mpr ⟨_, rfl, by decide⟩⟩

/-- A bare opening tag is no place for a title. -/
theorem bare_root_has_no_title :
    Framework.react.transform canonicalOptimizer ⟨"A".toList, [], .title, false, false, .inline⟩ false
        "<svg>".toList = .ok "A: (props) => (<svg \x7b...props\x7d />)".toList ∧
      ∃ root, Pieces.treeOf .react canonicalOptimizer ⟨"A".toList, [], .title, false, false, .inline⟩ "<svg>".toList =
        .ok root ∧ ¬HasTitle "A".toList root :=
  ⟨eq_ok_of_toOption (by decide +kernel), ⟨"svg".toList, [], [], true⟩, rfl, not_hasTitle_of_bodiless rfl⟩

end Framework

end IconRegistry
