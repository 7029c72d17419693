import IconRegistry.Framework
import IconRegistry.Proofs.Markup.Entity
import IconRegistry.Proofs.Markup.Mapping
import IconRegistry.Proofs.Markup.RootTag

/-! The two ways to annotate an icon come to the same tree. One writes attributes and a title into the text of the
root's opening tag and reads the result; the other one reads first and changes the tree. -/
namespace IconRegistry

open Markup
open Text (isBlank Blanks Trimmed)

namespace Component

section ReadableName

variable {name : Text} {previous : Option Char}

theorem readableAfter_last (previous : Option Char) (name : Text) :
    (readableAfter previous name).getLast? = name.getLast? := by
  induction name generalizing previous with
  | nil => rfl
  | cons c rest ih =>
      rw [readableAfter, List.getLast?_append, ih]
      cases hLast : rest.getLast? with
      | some d => simp [List.getLast?_cons, hLast]
      | none =>
          obtain rfl := List.getLast?_eq_none_iff.mp hLast
          split <;> rfl

theorem readableName_head (name : Text) : (readableName name).head? = name.head? := by
  cases name with
  | nil => rfl
  | cons c rest => simp [readableName, readableAfter]

theorem mem_readableAfter {d : Char} (h : d ∈ readableAfter previous name) : d ∈ name ∨ d = ' ' := by
  induction name generalizing previous with
  | nil => cases h
  | cons c rest ih =>
      rw [readableAfter, List.mem_append] at h
      rcases h with h | h
      · split at h
        · rcases List.mem_cons.mp h with h | h
          · exact .inr h
          · exact .inl (List.mem_cons.mpr (.inl (List.mem_singleton.mp h)))
        · exact .inl (List.mem_cons.mpr (.inl (List.mem_singleton.mp h)))
      · rcases ih h with h | h
        · exact .inl (List.mem_cons_of_mem _ h)
        · exact .inr h

theorem amp_not_mem_readableName (h : '&' ∉ name) : '&' ∉ readableName name := by
  intro hMember
  rcases mem_readableAfter hMember with hMember | hSpace
  · exact h hMember
  · exact absurd hSpace (by decide)

/-- The words of a name are no less a text than the name. -/
theorem trimmed_readableName (h : Trimmed name) : Trimmed (readableName name) where
  head c hc := h.head c (by rwa [readableName_head] at hc)
  last c hc := h.last c (by rwa [readableName, readableAfter_last] at hc)

end ReadableName

section Texts

variable {opening : Opening} {children : List Node} {s rest : Text}

theorem writtenAttributes_eq (pairs : Attributes) :
    writtenAttributes pairs = (pairs.map WrittenAttribute.plain).flatMap WrittenAttribute.text := by
  rw [writtenAttributes, List.flatMap_def, List.map_map]
  congr 2
  funext pair
  simp [WrittenAttribute.text, WrittenAttribute.plain]

/-- A readable tag of an image is the tag of the root. -/
theorem rootTag?_opening (h : opening.Readable) (hTag : opening.tag = "svg".toList) (rest : Text) :
    rootTag? (opening.text ++ rest) = some ⟨false, opening.inside, rest⟩ := by
  rw [rootTag?, NamedTag.read?_opening isTagName_svg h, if_pos hTag.symm]
  rfl

def merged (extras : Attributes) (opening : Opening) : Opening :=
  .plain opening.tag (opening.pairs.merge (extras.mapValues escapeAttribute)) opening.selfClosing

/-- Attributes are set in the tag of the root, and what follows it stays. -/
theorem withAttributes_opening (h : opening.Readable) (hTag : opening.tag = "svg".toList) (extras : Attributes)
    (rest : Text) : withAttributes extras (opening.text ++ rest) = (merged extras opening).text ++ rest := by
  have hAttributes : attributesIn (withoutSlash opening.inside) = opening.pairs := h.attributesIn_inside
  rw [withAttributes, rootTag?_opening h hTag]
  simp only [hAttributes, h.closesItself_inside, writtenAttributes_eq]
  rw [merged, Opening.plain, Opening.text, Opening.inside, Opening.attributesText, Opening.ending, hTag]
  cases opening.selfClosing <;> simp [Attributes.mapValues]

/-- An element stays one when attributes are set in its tag. -/
theorem withAttributes_encloses (hEncloses : Encloses .plain opening children s) (h : opening.Readable)
    (hTag : opening.tag = "svg".toList) (extras : Attributes) :
    Encloses .plain (merged extras opening) children (withAttributes extras s) := by
  cases hEncloses with
  | bodiless hClosing =>
      have hText := withAttributes_opening h hTag extras []
      rw [List.append_nil, List.append_nil] at hText
      rw [hText]
      exact .bodiless hClosing
  | body hOpen hInner hBlanks =>
      rw [withAttributes_opening h hTag]
      exact .body hOpen hInner hBlanks

/-- A readable tag ends in a slash exactly if it closes itself. -/
theorem inside_last (h : opening.Readable) : opening.inside.getLast? = some '/' ↔ opening.selfClosing = true := by
  constructor
  · intro hLast
    have hKept : Text.trimEnd opening.inside = opening.inside := by
      refine Text.trimEnd_eq_self fun c hc => ?_
      obtain rfl : '/' = c := Option.some.inj (hLast.symm.trans hc)
      decide
    have hClosing := h.closesItself_inside
    rw [closesItself, hKept, hLast] at hClosing
    exact hClosing.symm
  · intro hClosing
    simp [Opening.inside, Opening.ending, hClosing]

/-- The name of a tag does not end with a slash. -/
theorem endsWith_opening (h : opening.Readable) : Text.endsWith opening.text "/>".toList = opening.selfClosing := by
  have hText : opening.text = '<' :: opening.tag ++ opening.inside ++ ['>'] := by simp [Opening.text]
  have hSuffix : "/>".toList = ['/'] ++ ['>'] := rfl
  have hName : ('<' :: opening.tag).getLast? ≠ some '/' := by
    intro hLast
    have hFree := h.tag.not_mem (c := '/') (by decide)
    have hMember := List.mem_of_getLast? hLast
    simp [hFree] at hMember
  rw [Bool.eq_iff_iff, Text.endsWith, List.isSuffixOf_iff_suffix, hText, hSuffix,
    List.suffix_append_inj_of_length_eq rfl, List.singleton_suffix_iff_getLast?_eq_some, List.getLast?_append,
    ← inside_last h]
  cases opening.inside.getLast? with
  | none => simp [hName]
  | some c => simp

theorem trimEnd_front (h : opening.Readable) :
    Text.trimEnd ('<' :: (opening.tag ++ opening.attributesText)) = '<' :: (opening.tag ++ opening.attributesText) := by
  apply Text.trimEnd_eq_self
  intro c hc
  rcases h.attributesText_last with hText | ⟨t, hText⟩
  · rw [hText, List.append_nil] at hc
    rcases List.mem_cons.mp (List.mem_of_getLast? hc) with rfl | hMember
    · decide
    · cases hBlank : isBlank c with
      | false => rfl
      | true =>
          have hName := h.tag.isTagNameChar c hMember
          rw [isTagNameChar_of_isBlank hBlank] at hName
          cases hName
  · rw [hText, ← List.cons_append, ← List.append_assoc, List.getLast?_concat] at hc
    obtain rfl : '"' = c := Option.some.inj hc
    decide

/-- A title as it is read from what is written for it. -/
def titleNode (title : Text) : Node :=
  .element "title".toList [] [.text title] false

/-- A title is written in front of the other nodes. -/
theorem writes_title {title inner : Text} (hTitle : IsContent title) (h : Writes .plain children inner) :
    Writes .plain (titleNode title :: children)
      ("<title>".toList ++ title ++ "</title>".toList ++ inner) := by
  have hName : IsTagName "title".toList := by decide
  have hNil : Style.plain.gap [] := List.forall_mem_nil _
  have hOpening := Style.plain_opening hName (List.forall_mem_nil _) false
  have hText : Writes .plain [.text title] title := by
    simpa using Writes.text hNil hTitle (by simp) (.nil hNil)
  rw [List.append_assoc, List.append_assoc]
  exact Writes.body hNil hOpening rfl hText rfl h

def opened (opening : Opening) : Opening :=
  if opening.selfClosing then { opening with back := [], selfClosing := false } else opening

/-- An element with a title encloses it as its first node, in a tag that is open. -/
theorem withTitle_encloses (hEncloses : Encloses .plain opening children s) (h : opening.Readable)
    (hTag : opening.tag = "svg".toList) {title : Text} (hTitle : IsContent (escapeText title)) :
    Encloses .plain (opened opening) (titleNode (escapeText title) :: children) (withTitle title s) := by
  have hTake : ∀ rest : Text, (opening.text ++ rest).take ((opening.text ++ rest).length - rest.length) =
      opening.text := by simp
  cases hEncloses with
  | bodiless hClosing =>
      have hRoot := rootTag?_opening h hTag []
      have hText := hTake []
      rw [List.append_nil] at hRoot hText
      have hParts : opening.text =
          '<' :: (opening.tag ++ opening.attributesText) ++ opening.back ++ ['/'] ++ ['>'] := by
        simp [Opening.text, Opening.inside, Opening.ending, hClosing]
      have hFront : opening.text.dropLast.dropLast =
          '<' :: (opening.tag ++ opening.attributesText) ++ opening.back := by
        rw [hParts, List.dropLast_concat, List.dropLast_concat]
      have hOpened : opened opening = { opening with back := [], selfClosing := false } := if_pos hClosing
      rw [withTitle, hRoot]
      simp only [hText, endsWith_opening h, hClosing, hFront, Text.trimEnd_append_blanks h.back, trimEnd_front h]
      rw [hOpened]
      have hInner := writes_title hTitle (.nil (List.forall_mem_nil _))
      have hAll : Encloses .plain { opening with back := [], selfClosing := false } _ _ := .body rfl hInner rfl
      simpa [Opening.text, Opening.inside, Opening.ending, Opening.attributesText, closingTag, hTag] using hAll
  | body hOpen hInner hBlanks =>
      have hOpened : opened opening = opening := if_neg (by simp [hOpen])
      rw [withTitle, rootTag?_opening h hTag]
      simp only [hTake, endsWith_opening h, hOpen]
      rw [hOpened]
      have hAll := Encloses.body hOpen (writes_title hTitle hInner) hBlanks
      simpa using hAll

/-- A tag can still be read when attributes are set in it. -/
theorem merged_readable (h : opening.Readable) {extras : Attributes} (hKeys : ∀ pair ∈ extras, IsKey pair.1) :
    (merged extras opening).Readable := by
  refine Opening.plain_readable h.tag (Attributes.forall_merge (fun pair hPair => ?_) fun pair hPair => ?_) _
  · obtain ⟨a, ha, rfl⟩ := List.mem_map.mp hPair
    have hValue := (h.attributes a ha).value
    rw [h.quotes a ha] at hValue
    exact ⟨(h.attributes a ha).key, hValue⟩
  · obtain ⟨extra, hExtra, rfl⟩ := List.mem_map.mp hPair
    exact ⟨hKeys extra hExtra, quote_not_mem_escapeAttribute _⟩

theorem opened_readable (h : opening.Readable) : (opened opening).Readable := by
  rw [opened]
  split
  · exact ⟨⟨h.tag, h.attributes, List.forall_mem_nil _⟩, h.quotes⟩
  · exact h

end Texts

section Specs

variable {spec : Spec} {pair : Text × Text}

/-- The attributes that are set are of these five kinds. -/
theorem mem_extraAttributes (h : pair ∈ spec.extraAttributes) :
    pair = ("aria-hidden".toList, "true".toList) ∨ pair = ("role".toList, "img".toList) ∨
      pair = ("aria-label".toList, readableName spec.componentName) ∨ pair = ("role".toList, "presentation".toList) ∨
      pair = ("data-icon".toList, spec.iconName) := by
  rw [Spec.extraAttributes, List.mem_append] at h
  rcases h with h | h
  · cases hKind : spec.accessibility <;> simp only [hKind, List.mem_cons, List.not_mem_nil, or_false] at h <;> grind
  · split at h
    · exact .inr (.inr (.inr (.inr (List.mem_singleton.mp h))))
    · cases h

theorem isKey_of_mem_extraAttributes (h : pair ∈ spec.extraAttributes) : IsKey pair.1 := by
  rcases mem_extraAttributes h with rfl | rfl | rfl | rfl | rfl <;> dsimp only <;> decide

/-- Names without ampersands give values without them. -/
theorem amp_not_mem_extraAttributes (hIcon : '&' ∉ spec.iconName) (hName : '&' ∉ spec.componentName)
    (h : pair ∈ spec.extraAttributes) : '&' ∉ pair.2 := by
  rcases mem_extraAttributes h with rfl | rfl | rfl | rfl | rfl
  · decide
  · decide
  · exact amp_not_mem_readableName hName
  · decide
  · exact hIcon

/-- Read back, what was escaped for an attribute is what it was. -/
theorem decoded_extraAttributes (hIcon : '&' ∉ spec.iconName) (hName : '&' ∉ spec.componentName) :
    (spec.extraAttributes.mapValues escapeAttribute).mapValues decodeEntities =
      spec.extraAttributes.mapValues decodeEntities := by
  rw [Attributes.mapValues, Attributes.mapValues, List.map_map]
  refine List.map_congr_left fun pair hPair => ?_
  show (pair.1, decodeEntities (escapeAttribute pair.2)) = (pair.1, decodeEntities pair.2)
  rw [decodeEntities_escapeAttribute, decodeEntities_of_not_mem (amp_not_mem_extraAttributes hIcon hName hPair)]

end Specs

section Annotated

variable {optimize : Optimizer} {spec : Spec} {markup s : Text} {opening : Opening} {children : List Node}

/-- Attributes are written in the root's opening tag. -/
theorem exists_attributed (hEncloses : Encloses .plain opening children s) (h : opening.Readable)
    (hTag : opening.tag = "svg".toList) (spec : Spec) :
    ∃ attributed, Encloses .plain attributed children
        (if spec.extraAttributes.isEmpty then s else withAttributes spec.extraAttributes s) ∧
      attributed.Readable ∧ attributed.tag = "svg".toList ∧ attributed.selfClosing = opening.selfClosing ∧
      attributed.pairs = opening.pairs.merge (spec.extraAttributes.mapValues escapeAttribute) := by
  split
  · rename_i hNone
    rw [List.isEmpty_iff.mp hNone]
    exact ⟨opening, hEncloses, h, hTag, rfl, rfl⟩
  · exact ⟨merged spec.extraAttributes opening, withAttributes_encloses hEncloses h hTag _,
      merged_readable h fun _ => isKey_of_mem_extraAttributes, hTag, rfl, Opening.plain_pairs _ _ _⟩

/-- What stands in the root before all else. -/
def titled (spec : Spec) (children : List Node) : List Node :=
  match spec.titleText? with
  | some title => titleNode (escapeText title) :: children
  | none => children

/-- The text of a title can stand between tags. -/
theorem isContent_titleText {title : Text} (h : spec.titleText? = some title) (hSome : spec.componentName ≠ [])
    (hTrimmed : Trimmed spec.componentName) : IsContent (escapeText title) := by
  rw [Spec.titleText?] at h
  split at h
  · obtain rfl := Option.some.inj h
    refine isContent_escapeText (fun hNone => hSome ?_) (trimmed_readableName hTrimmed)
    have hHead := readableName_head spec.componentName
    rw [hNone] at hHead
    exact List.head?_eq_none_iff.mp hHead.symm
  · cases h

/-- A document with a root is annotated in its tag first and then with a title. -/
theorem annotated_eq (hOptimized : optimize markup = .ok s) (hRoot : (rootTag? s).isNone = false) :
    annotated optimize spec markup =
      .ok (match spec.titleText? with
        | some title =>
          withTitle title (if spec.extraAttributes.isEmpty then s else withAttributes spec.extraAttributes s)
        | none => if spec.extraAttributes.isEmpty then s else withAttributes spec.extraAttributes s) := by
  simp only [annotated, hOptimized, bind, Except.bind, hRoot]
  rfl

/-- An image in the plain style is annotated to one, with the attributes and the title that are asked for. -/
theorem exists_annotated (hOptimized : optimize markup = .ok s) (hEncloses : Encloses .plain opening children s)
    (h : opening.Readable) (hTag : opening.tag = "svg".toList) (hSome : spec.componentName ≠ [])
    (hTrimmed : Trimmed spec.componentName) :
    ∃ text root, annotated optimize spec markup = .ok text ∧ Encloses .plain root (titled spec children) text ∧
      root.Readable ∧ root.tag = "svg".toList ∧
      root.selfClosing = (opening.selfClosing && spec.titleText?.isNone) ∧
      root.pairs = opening.pairs.merge (spec.extraAttributes.mapValues escapeAttribute) := by
  have hRoot : (rootTag? s).isNone = false := by
    cases hEncloses with
    | bodiless =>
        have hRead := rootTag?_opening h hTag []
        rw [List.append_nil] at hRead
        rw [hRead]
        rfl
    | body =>
        rw [rootTag?_opening h hTag]
        rfl
  obtain ⟨attributed, hAttributed, hReadable, hSvg, hClosing, hPairs⟩ := exists_attributed hEncloses h hTag spec
  rw [annotated_eq hOptimized hRoot, titled]
  cases hTitle : spec.titleText? with
  | none => exact ⟨_, attributed, rfl, hAttributed, hReadable, hSvg, by simp [hClosing], hPairs⟩
  | some title =>
      have hWithTitle := withTitle_encloses hAttributed hReadable hSvg (isContent_titleText hTitle hSome hTrimmed)
      have hSame : (opened attributed).tag = attributed.tag ∧ (opened attributed).pairs = attributed.pairs ∧
          (opened attributed).selfClosing = false := by
        rw [opened]
        split
        · exact ⟨rfl, rfl, rfl⟩
        · rename_i hOpen
          exact ⟨rfl, rfl, by simpa using hOpen⟩
      exact ⟨_, opened attributed, rfl, hWithTitle, opened_readable hReadable, hSame.1.trans hSvg, by simp [hSame.2.2],
        hSame.2.1.trans hPairs⟩

end Annotated

/-- Setting further attributes changes nothing else of the root. -/
theorem CallTree.root_mergeAttributes (tree : CallTree) (extras : Attributes) :
    (tree.mergeAttributes extras).root = { tree.root with attributes := tree.root.attributes.merge extras } := by
  rw [mergeAttributes]
  generalize tree.root = root
  induction extras generalizing root with
  | nil => rfl
  | cons extra rest ih => exact ih (root.setAttribute extra.1 extra.2)

end Component

namespace Framework

open Component

variable {optimize : Optimizer} {spec : Spec} {markup s : Text} {e : Element}

/-- The root that is annotated is the one that is read from the annotated text. -/
theorem annotatedRoot_eq {text : Text} {root : Element} (hText : annotated optimize spec markup = .ok text)
    (hRoot : readRoot text = .ok root) (hTag : root.tag = "svg".toList) :
    annotatedRoot optimize spec markup = .ok root := by
  simp only [annotatedRoot, hText, hRoot, bind, Except.bind, hTag]
  rfl

/-- The tree that calls are made of. -/
theorem annotatedCallTree_eq (hOptimized : optimize markup = .ok s) (hRoot : readRoot s = .ok e)
    (hTag : e.tag = "svg".toList) (spec : Spec) :
    ∃ tree, annotatedCallTree optimize spec markup = .ok tree ∧
      tree.root = ⟨e.tag, e.attributes.merge spec.extraAttributes,
        (spec.titleText?.map titleNode).toList ++ e.children, e.selfClosing && spec.titleText?.isNone⟩ := by
  simp only [annotatedCallTree, hOptimized, CallTree.ofMarkup, hRoot, bind, Except.bind, pure, Except.pure, hTag]
  cases hTitle : spec.titleText? with
  | none => exact ⟨_, rfl, by simp [CallTree.root_mergeAttributes, hTag]⟩
  | some title =>
      refine ⟨_, rfl, ?_⟩
      simp [CallTree.root_mergeAttributes, CallTree.prependTitle, Element.prependChild, Element.leaf, Element.toNode,
        titleNode, hTag]

/-- Decoded, a title has the words that were asked for. -/
theorem mapAll_titled (hName : '&' ∉ spec.componentName) (children : List Node) :
    Node.mapAll decodeEntities decodeEntities (titled spec children) =
      Node.mapAll decodeEntities decodeEntities ((spec.titleText?.map titleNode).toList ++ children) := by
  rw [titled]
  cases hTitle : spec.titleText? with
  | none => rfl
  | some title =>
      have hAmp : '&' ∉ title := by
        rw [Spec.titleText?] at hTitle
        split at hTitle
        · obtain rfl := Option.some.inj hTitle
          exact amp_not_mem_readableName hName
        · cases hTitle
      show _ :: _ = _ :: _
      simp [titleNode, Node.map, Node.mapAll, decodeEntities_escapeText, decodeEntities_of_not_mem hAmp]

/-- Whether a framework takes annotated markup or an annotated tree, an icon has the same elements in it. -/
theorem annotatedRoot_decoded (hOptimized : optimize markup = .ok s) (hWritten : WritesElement .plain e s)
    (hTag : e.tag = "svg".toList) (hIcon : '&' ∉ spec.iconName) (hName : '&' ∉ spec.componentName)
    (hSome : spec.componentName ≠ []) (hTrimmed : Trimmed spec.componentName) :
    ∃ text root tree, annotated optimize spec markup = .ok text ∧ readRoot text = .ok root ∧
      annotatedRoot optimize spec markup = .ok root ∧ annotatedCallTree optimize spec markup = .ok tree ∧
      root.decoded = tree.root.decoded := by
  have hRead := readRoot_writesElement hWritten []
  rw [List.append_nil] at hRead
  obtain ⟨tree, hTree, hRoot⟩ := annotatedCallTree_eq hOptimized hRead hTag spec
  obtain ⟨hOpening, hEncloses⟩ := hWritten
  rename_i opening children
  have hTag' : opening.tag = "svg".toList := hTag
  have hReadable := (Style.plain_readable.opening hOpening).1
  obtain ⟨text, root, hText, hWhole, hRootReadable, hRootTag, hClosing, hPairs⟩ :=
    exists_annotated hOptimized hEncloses hReadable hTag hSome hTrimmed
  have hAnnotated := hWhole.readRoot Style.plain_readable hRootReadable (List.forall_mem_nil _) []
  rw [List.nil_append, List.append_nil] at hAnnotated
  refine ⟨text, root.element (titled spec children), tree, hText, hAnnotated,
    annotatedRoot_eq hText hAnnotated hRootTag, hTree, ?_⟩
  have hAttributes : root.pairs.mapValues decodeEntities =
      (opening.pairs.merge spec.extraAttributes).mapValues decodeEntities := by
    rw [hPairs, Attributes.mapValues_merge, Attributes.mapValues_merge, decoded_extraAttributes hIcon hName]
  have hChildren := mapAll_titled hName children
  rw [hRoot]
  simp only [Element.decoded, Element.map, Opening.element, hRootTag, hTag', hAttributes, hClosing, hChildren]

/-- A quotation mark in the name of the icon and a `<` in the title, in a root that had no body. -/
theorem annotatedRoot_decoded_titled :
    ∃ text root tree,
      annotated canonicalOptimizer ⟨"A<Up".toList, "a\"b".toList, .title, true, false, .inline⟩
        "<svg data-icon='x'  fill=\"none\" />".toList = .ok text ∧
      readRoot text = .ok root ∧
      annotatedRoot canonicalOptimizer ⟨"A<Up".toList, "a\"b".toList, .title, true, false, .inline⟩
        "<svg data-icon='x'  fill=\"none\" />".toList = .ok root ∧
      annotatedCallTree canonicalOptimizer ⟨"A<Up".toList, "a\"b".toList, .title, true, false, .inline⟩
        "<svg data-icon='x'  fill=\"none\" />".toList = .ok tree ∧
      root.decoded = tree.root.decoded := by
  have hPairs : Attributes.Plain [("data-icon".toList, "x".toList), ("fill".toList, "none".toList)] := by decide
  have hWritten := WritesElement.mk (Style.plain_opening isTagName_svg hPairs true) (.bodiless rfl)
  have hOptimized : canonicalOptimizer "<svg data-icon='x'  fill=\"none\" />".toList =
      .ok (Opening.plain "svg".toList
        [("data-icon".toList, "x".toList), ("fill".toList, "none".toList)] true).text := rfl
  exact annotatedRoot_decoded hOptimized hWritten rfl (by decide) (by decide) (by decide) (by decide)

end Framework

end IconRegistry
