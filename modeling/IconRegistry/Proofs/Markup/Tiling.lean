import IconRegistry.Proofs.Markup.Matching

/-! Where the nodes that are read of a text come from. Apart from blanks, each character of a region belongs to one node,
in order: to a text, which stands for itself, or to an element, which goes up to its matching close tag. -/
namespace IconRegistry.Markup

open Text (isBlank Blanks byteLength byteOffset)

def OpenTag.source (tag : OpenTag) : Text :=
  '<' :: (tag.name ++ (tag.attributes ++ ['>']))

def OpenTag.pairs (tag : OpenTag) : Attributes :=
  attributesIn (withoutSlash tag.attributes)

/-- What the element of an opening tag takes of a text, and what is left: the tag alone, if it closes itself or is never
closed, or else everything up to its matching close tag. What is inside then is a region of its own. -/
inductive Extent (tag : OpenTag) : (inside? : Option Text) → (span after : Text) → Prop
  | bodiless : OpenTag.read? (tag.source ++ tag.rest) = some tag →
      closesItself tag.attributes = true ∨ Unclosed tag.name 0 tag.rest → Extent tag none tag.source tag.rest
  | body {inside : Text} {closing : NamedTag} : OpenTag.read? (tag.source ++ tag.rest) = some tag →
      closesItself tag.attributes = false → ClosedBy tag.name 0 tag.rest inside closing →
      Extent tag (some inside) (tag.source ++ (inside ++ closing.source tag.name)) closing.rest

/-- Sibling nodes and the region that they are the nodes of. Blanks stand between them, no two texts are neighbours, and
what is inside of an element is a region in the same way. -/
inductive Tiles : List Node → Text → Prop
  | nil {gap : Text} : Blanks gap → Tiles [] gap
  | text {gap content s : Text} {nodes : List Node} : Blanks gap → IsContent content →
      (∀ other, nodes.head? ≠ some (.text other)) → Tiles nodes s →
      Tiles (.text content :: nodes) (gap ++ (content ++ s))
  | bodiless {gap span s : Text} {tag : OpenTag} {nodes : List Node} : Blanks gap → Extent tag none span s →
      Tiles nodes s → Tiles (.element tag.name tag.pairs [] true :: nodes) (gap ++ (span ++ s))
  | body {gap inside span s : Text} {tag : OpenTag} {children nodes : List Node} : Blanks gap →
      Extent tag (some inside) span s → Tiles children inside → Tiles nodes s →
      Tiles (.element tag.name tag.pairs children false :: nodes) (gap ++ (span ++ s))

section Elements

variable {s span after : Text} {tag : OpenTag} {inside? : Option Text}

/-- An opening tag that is read stands at the front, and its name is one of tags. -/
theorem OpenTag.read?_eq_some (h : read? s = some tag) : s = tag.source ++ tag.rest ∧ IsTagName tag.name := by
  rw [read?.eq_def] at h
  split at h
  · rename_i c rest
    split at h
    · rename_i hLetter
      obtain ⟨⟨attributes, behind⟩, hSplit, rfl⟩ := Option.map_eq_some_iff.mp h
      have hName := List.takeWhile_append_dropWhile (p := isTagNameChar) (l := rest)
      rw [(splitTagEnd?_eq_some hSplit).1] at hName
      refine ⟨?_, ⟨c, _, rfl, hLetter⟩, fun d hd => List.all_eq_true.mp List.all_takeWhile d hd⟩
      exact (congrArg (fun t => '<' :: c :: t) hName).symm.trans (by simp [source])
    · cases h
  · cases h

/-- Every opening tag begins an element. -/
theorem exists_extent (h : OpenTag.read? s = some tag) :
    ∃ inside? span after, s = span ++ after ∧ Extent tag inside? span after := by
  have hText := (OpenTag.read?_eq_some h).1
  rw [hText] at h
  cases hClosing : closesItself tag.attributes with
  | true => exact ⟨none, tag.source, tag.rest, hText, .bodiless h (.inl hClosing)⟩
  | false =>
      obtain ⟨hFound, hNone⟩ := splitAtClose?_sound tag.name tag.rest 0
      cases hSplit : splitAtClose? tag.name 0 0 tag.rest with
      | none => exact ⟨none, tag.source, tag.rest, hText, .bodiless h (.inr (hNone hSplit))⟩
      | some parts =>
          obtain ⟨closing, hClosed, -⟩ := hFound parts hSplit
          refine ⟨some parts.1, _, closing.rest, ?_, .body h hClosing hClosed⟩
          rw [List.append_assoc, List.append_assoc, ← hClosed.level.eq_append]
          exact hText

/-- An element is read over its extent, and nothing but what is inside of it is left to `read`. -/
theorem Extent.readElement?_eq (h : Extent tag inside? span after) (read : Text → Except ReadError (List Node)) :
    readElement? read (span ++ after) = (inside?.elim (.ok []) read).map fun children =>
      some (⟨tag.name, tag.pairs, children, inside?.isNone⟩, after) := by
  cases h with
  | bodiless hRead hNone =>
      have hBody : (if closesItself tag.attributes || tag.rest.isEmpty then none
          else splitAtClose? tag.name 0 0 tag.rest) = none := by
        rcases hNone with hClosing | hUnclosed
        · rw [hClosing, Bool.true_or, if_pos rfl]
        · rw [splitAtClose?_eq_none_iff.mpr hUnclosed, ite_self]
      rw [readElement?, hRead]
      dsimp only
      rw [hBody]
      rfl
  | @body inside closing hRead hOpen hClosed =>
      have hSome : tag.rest.isEmpty = false := by
        rw [hClosed.level.eq_append]
        simp [NamedTag.source]
      have hText : tag.source ++ (inside ++ closing.source tag.name) ++ closing.rest = tag.source ++ tag.rest := by
        rw [List.append_assoc, List.append_assoc, ← hClosed.level.eq_append]
      rw [hText, readElement?, hRead]
      dsimp only
      rw [hOpen, hSome, Bool.false_or, if_neg (by decide), hClosed.splitAtClose?_eq, Option.elim_some]
      dsimp only
      cases read inside with
      | error | ok => rfl

/-- An opening tag takes some bytes. -/
theorem OpenTag.byteLength_source_pos (tag : OpenTag) : 0 < byteLength tag.source := by
  rw [source, byteLength]
  exact Nat.add_pos_left (Char.utf8Size_pos _) _

/-- What is inside of an element is shorter than the element, by the two tags at least. -/
theorem Extent.byteLength_lt {inside : Text} (h : Extent tag (some inside) span after) :
    byteLength inside < byteLength span := by
  cases h with
  | body =>
      have hTag := tag.byteLength_source_pos
      simp only [Text.byteLength_append]
      omega

theorem Extent.byteLength_pos (h : Extent tag inside? span after) : 0 < byteLength span := by
  cases h with
  | bodiless => exact tag.byteLength_source_pos
  | body =>
      rw [Text.byteLength_append]
      exact Nat.add_pos_left tag.byteLength_source_pos _

/-- What is inside of an element is shorter than the element. -/
theorem Extent.length_lt {inside : Text} (h : Extent tag (some inside) span after) : inside.length < span.length := by
  cases h with
  | body =>
      simp only [OpenTag.source, List.length_append, List.length_cons]
      omega

theorem Extent.exists_cons (h : Extent tag inside? span after) : ∃ rest, span = '<' :: rest := by
  cases h with
  | bodiless | body => exact ⟨_, rfl⟩

theorem Extent.length_pos (h : Extent tag inside? span after) : 0 < span.length := by
  obtain ⟨rest, rfl⟩ := h.exists_cons
  exact Nat.succ_pos _

end Elements

section Regions

variable {s gap span after content : Text} {tag : OpenTag} {inside? : Option Text} {nodes children : List Node}

theorem Tiles.blanks_append (hGap : Blanks gap) (h : Tiles nodes s) : Tiles nodes (gap ++ s) := by
  cases h with
  | nil hBlanks => exact .nil (List.forall_mem_append.mpr ⟨hGap, hBlanks⟩)
  | text hBlanks hContent hApart hRest =>
      rw [← List.append_assoc]
      exact .text (List.forall_mem_append.mpr ⟨hGap, hBlanks⟩) hContent hApart hRest
  | bodiless hBlanks hExtent hRest =>
      rw [← List.append_assoc]
      exact .bodiless (List.forall_mem_append.mpr ⟨hGap, hBlanks⟩) hExtent hRest
  | body hBlanks hExtent hInside hRest =>
      rw [← List.append_assoc]
      exact .body (List.forall_mem_append.mpr ⟨hGap, hBlanks⟩) hExtent hInside hRest

/-- A region whose nodes do not begin with a text begins with a tag behind its blanks, if it has any nodes. -/
theorem Tiles.tag_or_end (h : Tiles nodes s) (hNoText : ∀ other, nodes.head? ≠ some (.text other)) :
    ∃ gap t, s = gap ++ t ∧ Blanks gap ∧ ∀ c, t.head? = some c → c = '<' := by
  cases h with
  | nil hGap => exact ⟨s, [], by simp, hGap, by simp⟩
  | text => simp at hNoText
  | bodiless hGap hExtent | body hGap hExtent =>
      obtain ⟨rest, rfl⟩ := hExtent.exists_cons
      exact ⟨_, _, rfl, hGap, by simp⟩

/-- A region that begins with a tag has no text for its first node. -/
theorem Tiles.head?_ne_text (h : Tiles nodes s) (hTag : ∀ c, s.head? = some c → c = '<') (other : Text) :
    nodes.head? ≠ some (.text other) := by
  cases h with
  | nil => simp
  | bodiless | body => simp
  | @text gap content s nodes hGap hContent =>
      exfalso
      obtain ⟨c, rest, rfl⟩ := List.exists_cons_of_ne_nil hContent.nonempty
      cases gap with
      | nil => exact hContent.angle (by simp [hTag c rfl])
      | cons b gap =>
          have hBlank := hGap b List.mem_cons_self
          rw [hTag b rfl] at hBlank
          exact absurd hBlank (by decide)

theorem readNodes_blanks_append (hGap : Blanks gap) (s : Text) : readNodes (gap ++ s) = readNodes s := by
  rw [readNodes_eq, nextNodes, Text.trimStart_blanks_append hGap, readNodes_eq s, nextNodes]

/-- An element with readable nodes inside is read in front of what follows it. -/
theorem Extent.readNodes_eq_ok (h : Extent tag inside? span s) (hInside : inside?.elim (.ok []) readNodes = .ok children)
    (hRest : readNodes s = .ok nodes) :
    readNodes (span ++ s) = .ok (.element tag.name tag.pairs children inside?.isNone :: nodes) := by
  have hRead := h.readElement?_eq readNodes
  obtain ⟨rest, rfl⟩ := h.exists_cons
  rw [hInside, List.cons_append] at hRead
  rw [List.cons_append, readNodes_eq, nextNodes, Text.trimStart_eq_self (by rintro c ⟨rfl⟩; decide)]
  dsimp only
  rw [if_pos (by decide), hRead]
  simp only [Except.map, bind, Except.bind, hRest]
  rfl

/-- The nodes of a region are read. -/
theorem Tiles.readNodes_eq_ok (h : Tiles nodes s) : readNodes s = .ok nodes := by
  induction h with
  | nil hGap => rw [readNodes_eq, nextNodes, Text.trimStart_eq_nil hGap]
  | @text gap content s nodes hGap hContent hApart hTiles ih =>
      obtain ⟨between, t, rfl, hBetween, hTag⟩ := hTiles.tag_or_end hApart
      rw [readNodes_blanks_append hGap, ← readNodesWithin_of_lt (Nat.lt_succ_self _)]
      refine readNodesWithin_content hContent hBetween hTag ?_
      have hSome := List.length_pos_iff.mpr hContent.nonempty
      rw [readNodesWithin_of_lt (by simp only [List.length_append]; omega), ih]
  | bodiless hGap hExtent _ ih =>
      rw [readNodes_blanks_append hGap]
      exact hExtent.readNodes_eq_ok rfl ih
  | body hGap hExtent _ _ ihInside ih =>
      rw [readNodes_blanks_append hGap]
      exact hExtent.readNodes_eq_ok ihInside ih

/-- The first element of a region, and what is left behind it. -/
theorem exists_extent_of_readElement? {read : Text → Except ReadError (List Node)} {e : Element}
    (h : readElement? read s = .ok (some (e, after))) :
    ∃ tag inside? span children, s = span ++ after ∧ Extent tag inside? span after ∧
      inside?.elim (.ok []) read = .ok children ∧ e = ⟨tag.name, tag.pairs, children, inside?.isNone⟩ := by
  cases hTag : OpenTag.read? s with
  | none =>
      rw [readElement?, hTag] at h
      cases h
  | some tag =>
      obtain ⟨inside?, span, behind, rfl, hExtent⟩ := exists_extent hTag
      rw [hExtent.readElement?_eq] at h
      cases hInside : inside?.elim (.ok []) read with
      | error cause =>
          rw [hInside] at h
          cases h
      | ok children =>
          rw [hInside] at h
          cases h
          exact ⟨tag, inside?, span, children, rfl, hExtent, hInside, rfl⟩

/-- The blanks at the end of a run of text do not belong to it. -/
theorem isContent_run {c : Char} (hBlank : isBlank c = false) (hOther : c ≠ '<') (rest : Text) :
    IsContent (Text.trimEnd ((c :: rest).takeWhile (· != '<'))) := by
  have hRun : (c :: rest).takeWhile (· != '<') = c :: rest.takeWhile (· != '<') :=
    List.takeWhile_cons_of_pos (by simpa using hOther)
  have hTrim : Text.trimEnd (c :: rest.takeWhile (· != '<')) = Text.trim (c :: rest.takeWhile (· != '<')) := by
    rw [Text.trim, Text.trimStart_eq_self (by rintro d ⟨rfl⟩; exact hBlank)]
  refine ⟨?_, ?_, fun hMember => ?_⟩
  · rw [hRun, ← List.nil_append (c :: _), Text.trimEnd_append_cons _ _ hBlank]
    simp
  · rw [hRun, hTrim]
    exact Text.trimmed_trim _
  · have hRunning := List.all_eq_true.mp List.all_takeWhile _ ((Text.trimEnd_prefix _).subset hMember)
    exact absurd hRunning (by decide)

/-- A run of text up to a tag is the first node of a region. -/
theorem Tiles.run {c : Char} {rest : Text} (hGap : Blanks gap) (hBlank : isBlank c = false) (hOther : c ≠ '<')
    (h : Tiles nodes ((c :: rest).dropWhile (· != '<'))) :
    Tiles (.text (Text.trimEnd ((c :: rest).takeWhile (· != '<'))) :: nodes) (gap ++ c :: rest) := by
  have hTag : ∀ d, ((c :: rest).dropWhile (· != '<')).head? = some d → d = '<' := by
    intro d hd
    have hStop := List.head?_dropWhile_not (· != '<') (c :: rest)
    rw [hd] at hStop
    simpa using hStop
  obtain ⟨blanks, hRun, hBlanks⟩ := Text.exists_trimEnd ((c :: rest).takeWhile (· != '<'))
  have hText : c :: rest = Text.trimEnd ((c :: rest).takeWhile (· != '<')) ++
      (blanks ++ (c :: rest).dropWhile (· != '<')) := by
    rw [← List.append_assoc, ← hRun, List.takeWhile_append_dropWhile]
  have hAll := Tiles.text hGap (isContent_run hBlank hOther rest) (h.head?_ne_text hTag) (h.blanks_append hBlanks)
  rwa [← hText] at hAll

/-- An element is the first node of a region. -/
theorem Extent.tiles (hGap : Blanks gap) (h : Extent tag inside? span s)
    (hInside : inside?.elim (children = []) (Tiles children)) (hRest : Tiles nodes s) :
    Tiles (.element tag.name tag.pairs children inside?.isNone :: nodes) (gap ++ (span ++ s)) := by
  cases inside? with
  | none =>
      obtain rfl : children = [] := hInside
      exact .bodiless hGap h hRest
  | some inside => exact .body hGap h hInside hRest

/-- One step of reading: what it finds is the first node of a region, if all shorter regions are read as they are. -/
theorem tiles_of_nextNodes {read : Text → Except ReadError (List Node)}
    (hRead : ∀ t nodes, t.length < s.length → read t = .ok nodes → Tiles nodes t)
    (h : nextNodes read s = .ok nodes) : Tiles nodes s := by
  obtain ⟨gap, hParts, hGap⟩ := Text.exists_trimStart s
  rw [nextNodes] at h
  split at h
  · rename_i hStart
    cases h
    rw [hParts, hStart, List.append_nil]
    exact .nil hGap
  · rename_i c rest hStart
    rw [hStart] at hParts
    have hShorter : ∀ t nodes, t.length ≤ rest.length → read t = .ok nodes → Tiles nodes t := by
      refine fun t nodes hShort => hRead t nodes ?_
      rw [hParts, List.length_append, List.length_cons]
      omega
    rw [hParts]
    split at h
    · obtain ⟨found, hFound, h⟩ := bind_eq_ok.mp h
      split at h
      · cases h
      · rename_i e after
        obtain ⟨others, hOthers, h⟩ := bind_eq_ok.mp h
        cases h
        obtain ⟨tag, inside?, span, children, hSpan, hExtent, hInside, rfl⟩ := exists_extent_of_readElement? hFound
        have hLength := congrArg List.length hSpan
        rw [List.length_cons, List.length_append] at hLength
        have hSome := hExtent.length_pos
        rw [hSpan]
        refine hExtent.tiles hGap ?_ (hShorter after others (by omega) hOthers)
        cases inside? with
        | none => exact (Except.ok.inj hInside).symm
        | some inside =>
            have hWithin := hExtent.length_lt
            exact hShorter inside children (by omega) hInside
    · rename_i hOther
      obtain ⟨others, hOthers, h⟩ := bind_eq_ok.mp h
      cases h
      have hBehind : (c :: rest).dropWhile (· != '<') = rest.dropWhile (· != '<') :=
        List.dropWhile_cons_of_pos (by simpa using hOther)
      have hDrop := (List.dropWhile_sublist (· != '<') (l := rest)).length_le
      have hRest := hShorter _ others (by rwa [hBehind]) hOthers
      exact hRest.run hGap (Text.isBlank_of_trimStart hStart) (by simpa using hOther)

/-- What is read of a region are its nodes. -/
theorem tiles_of_readNodes (h : readNodes s = .ok nodes) : Tiles nodes s := by
  induction hLength : s.length using Nat.strongRecOn generalizing s nodes with
  | ind n ih =>
      subst hLength
      rw [readNodes_eq] at h
      exact tiles_of_nextNodes (fun t nodes hShort hInside => ih t.length hShort hInside rfl) h

/-- Nodes are read from a text exactly if they tile it. -/
theorem readNodes_eq_ok_iff : readNodes s = .ok nodes ↔ Tiles nodes s :=
  ⟨tiles_of_readNodes, Tiles.readNodes_eq_ok⟩

end Regions

/-- What is found of an element at the front of a text: it takes a number of bytes of the text that ends at a character,
and what is inside of it, which alone is left to read, is shorter than the text. -/
structure FindsElement (source : Text) (tag : OpenTag) (inside? : Option Text) (span after : Text) : Prop where
  parts : source = span ++ after
  extent : Extent tag inside? span after
  read : ∀ read, readElement? read source = (inside?.elim (.ok []) read).map fun children =>
    some (⟨tag.name, tag.pairs, children, inside?.isNone⟩, after)
  positive : 0 < byteLength span
  fits : byteLength span ≤ byteLength source
  boundary : byteLength span = byteOffset source span.length
  shorter : ∀ inside ∈ inside?, byteLength inside < byteLength source

/-- The element at the front of a text is found with its extent. -/
theorem Extent.findsElement {tag : OpenTag} {inside? : Option Text} {span after : Text}
    (h : Extent tag inside? span after) : FindsElement (span ++ after) tag inside? span after where
  parts := rfl
  extent := h
  read := h.readElement?_eq
  positive := h.byteLength_pos
  fits := by
    rw [Text.byteLength_append]
    exact Nat.le_add_right _ _
  boundary := by rw [byteOffset, List.take_left]
  shorter := by
    rintro inside ⟨⟩
    rw [Text.byteLength_append]
    exact Nat.lt_add_right _ h.byteLength_lt

/-- The nodes that are read of a region are those that it consists of, each with its own part of the text. An element
takes some of the text it begins and leaves a shorter text to read inside of it, so reading, one node after another,
always comes to an end: there is just one way to do it. -/
theorem reading_takes_all :
    (∀ region nodes, readNodes region = .ok nodes ↔ Tiles nodes region) ∧
      (∀ source, (∀ read, readElement? read source = .ok none) ∨
        ∃ tag inside? span after, FindsElement source tag inside? span after) ∧
      ∀ read, (∀ region, read region = nextNodes read region) ↔ read = readNodes := by
  refine ⟨fun region nodes => readNodes_eq_ok_iff, fun source => ?_, fun read => ⟨eq_readNodes, ?_⟩⟩
  · cases hTag : OpenTag.read? source with
    | none => exact .inl fun read => by rw [readElement?, hTag]
    | some tag =>
        obtain ⟨inside?, span, after, rfl, hExtent⟩ := exists_extent hTag
        exact .inr ⟨tag, inside?, span, after, hExtent.findsElement⟩
  · rintro rfl
    exact readNodes_eq

/-- Tags of one name within each other, a quoted `>`, and a tag that is neither closed nor closes itself. -/
theorem reading_takes_all_malformed :
    let region := " é <g a=\"ü>\"> x<g/></g > y <p/ b='>".toList
    let nodes : List Node := [.text "é".toList,
      .element "g".toList [("a".toList, "ü>".toList)] [.text "x".toList, .element "g".toList [] [] true] false,
      .text "y".toList, .element "p".toList [] [] true]
    readNodes region = .ok nodes ∧ Tiles nodes region := by
  intro region nodes
  have hRead : readNodes region = .ok nodes := by rfl
  exact ⟨hRead, (reading_takes_all.1 region nodes).mp hRead⟩

end IconRegistry.Markup
