import IconRegistry.Markup.Reader
import IconRegistry.Proofs.Markup.TagReading
import IconRegistry.Proofs.Result

/-! The reader of markup undoes writing. Its search for a closing tag counts tags of one name only; over the written
forms of whole nodes the count comes out even, at every depth and for every name. -/
namespace IconRegistry.Markup

open Text (isBlank Blanks PassesOver)

section Closing

variable {name u attributes rest s : Text} {depth : Nat}

/-- Characters that a tag covers are passed over. -/
theorem splitAtClose?_skip (s rest : Text) :
    splitAtClose? name s.length depth (s ++ rest) =
      (splitAtClose? name 0 depth rest).map fun parts => (s ++ parts.1, parts.2) := by
  induction s with
  | nil => simp
  | cons c s ih =>
      rw [List.cons_append, List.length_cons, splitAtClose?, ih, Option.map_map]
      rfl

/-- A character that begins no tag of the name is passed over. -/
theorem splitAtClose?_cons_of_none {c : Char} (h : NamedTag.read? name (c :: rest) = none) :
    splitAtClose? name 0 depth (c :: rest) =
      (splitAtClose? name 0 depth rest).map fun parts => (c :: parts.1, parts.2) := by
  rw [splitAtClose?, h]

/-- The search for a closing tag passes over a text without tags. -/
theorem passesOver_free (h : '<' ∉ s) : PassesOver (splitAtClose? name 0 depth) s := by
  refine .of_forall fun c hc rest => ?_
  have hOther : c ≠ '<' := fun hSame => h (hSame ▸ hc)
  exact splitAtClose?_cons_of_none (by simp [NamedTag.read?, hOther])

theorem passesOver_tag (hRead : ∀ rest, NamedTag.read? name ('<' :: (u ++ rest)) = none) (hu : '<' ∉ u) :
    PassesOver (splitAtClose? name 0 depth) ('<' :: u) := by
  intro rest
  rw [List.cons_append, splitAtClose?_cons_of_none (hRead rest), passesOver_free hu, Option.map_map]
  rfl

/-- An opening tag of the name deepens the search, unless it closes itself. -/
theorem splitAtClose?_opening (h : NamedTag.read? name ('<' :: (u ++ rest)) = some ⟨false, attributes, rest⟩) :
    splitAtClose? name 0 depth ('<' :: (u ++ rest)) =
      (splitAtClose? name 0 (if closesItself attributes then depth else depth + 1) rest).map
        fun parts => ('<' :: (u ++ parts.1), parts.2) := by
  have hCovered : (u ++ rest).length - rest.length = u.length := by simp
  rw [splitAtClose?, h]
  dsimp only
  rw [hCovered, splitAtClose?_skip, Option.map_map]
  rfl

/-- A closing tag of the name makes the search shallower. -/
theorem splitAtClose?_closing (h : NamedTag.read? name ('<' :: (u ++ rest)) = some ⟨true, attributes, rest⟩) :
    splitAtClose? name 0 (depth + 1) ('<' :: (u ++ rest)) =
      (splitAtClose? name 0 depth rest).map fun parts => ('<' :: (u ++ parts.1), parts.2) := by
  have hCovered : (u ++ rest).length - rest.length = u.length := by simp
  rw [splitAtClose?, h]
  dsimp only
  rw [hCovered, splitAtClose?_skip, Option.map_map]
  rfl

theorem splitAtClose?_zero (h : NamedTag.read? name ('<' :: (u ++ rest)) = some ⟨true, attributes, rest⟩) :
    splitAtClose? name 0 0 ('<' :: (u ++ rest)) = some ([], rest) := by
  rw [splitAtClose?, h]

end Closing

section Angles

variable {opening : Opening} {tag blanks key : Text}

theorem WrittenAttribute.WellFormed.angle_not_mem {a : WrittenAttribute} (h : a.WellFormed) (hValue : '<' ∉ a.value) :
    '<' ∉ a.text := by
  have hFront := not_mem_of_blanks (c := '<') h.front (by decide)
  have hBefore := not_mem_of_blanks (c := '<') h.beforeEquals (by decide)
  have hAfter := not_mem_of_blanks (c := '<') h.afterEquals (by decide)
  have hQuote : a.quote ≠ '<' := by
    rcases h.quote with h | h <;> rw [h] <;> decide
  simp [WrittenAttribute.text, hFront, h.key.angles.1, hBefore, hAfter, hValue, hQuote.symm]

/-- A tag whose values are free of `<` begins with the only one. -/
theorem Opening.WellFormed.angle_not_mem (h : opening.WellFormed) (hValues : ∀ a ∈ opening.attributes, '<' ∉ a.value) :
    '<' ∉ opening.tag ++ (opening.inside ++ ['>']) := by
  have hTag := h.tag.not_mem (c := '<') (by decide)
  have hAttributes : '<' ∉ opening.attributesText := by
    rw [Opening.attributesText, List.mem_flatMap]
    rintro ⟨a, ha, hMember⟩
    exact (h.attributes a ha).angle_not_mem (hValues a ha) hMember
  have hBack := not_mem_of_blanks (c := '<') h.back (by decide)
  have hSlash : '<' ∉ if opening.selfClosing then ['/'] else [] := by
    split <;> decide
  simp [Opening.inside, Opening.ending, hTag, hAttributes, hBack, hSlash]

theorem closingTag_angle_not_mem (hTag : IsTagName tag) (hBlanks : Blanks blanks) :
    '<' ∉ '/' :: (tag ++ (blanks ++ ['>'])) := by
  have hName := hTag.not_mem (c := '<') (by decide)
  have hBehind := not_mem_of_blanks (c := '<') hBlanks (by decide)
  simp [hName, hBehind]

end Angles

section Search

variable {name : Text} {opening : Opening} {inner blanks : Text}

/-- A search for another name passes over an opening tag. -/
theorem passesOver_otherOpening (hName : IsTagName name) (h : opening.Readable)
    (hValues : ∀ a ∈ opening.attributes, '<' ∉ a.value) (hOther : name ≠ opening.tag) (depth : Nat) :
    PassesOver (splitAtClose? name 0 depth) opening.text := by
  refine passesOver_tag (fun rest => ?_) (h.angle_not_mem hValues)
  have hRead := NamedTag.read?_opening hName h rest
  rw [if_neg hOther] at hRead
  simpa [Opening.text] using hRead

/-- Closing tags of other names are passed over. -/
theorem passesOver_otherClosing (hName : IsTagName name) (hTag : IsTagName opening.tag) (hBlanks : Blanks blanks)
    (hOther : name ≠ opening.tag) (depth : Nat) :
    PassesOver (splitAtClose? name 0 depth) (closingTag opening.tag blanks) := by
  refine passesOver_tag (fun rest => ?_) (closingTag_angle_not_mem hTag hBlanks)
  have hRead := NamedTag.read?_closing hName hTag hBlanks rest
  rw [if_neg hOther] at hRead
  simpa [closingTag] using hRead

/-- A readable opening tag deepens the search for the tag that closes it. -/
theorem splitAtClose?_ownOpening (h : opening.Readable) (depth : Nat) (rest : Text) :
    splitAtClose? opening.tag 0 depth (opening.text ++ rest) =
      (splitAtClose? opening.tag 0 (if opening.selfClosing then depth else depth + 1) rest).map
        fun parts => (opening.text ++ parts.1, parts.2) := by
  have hRead := NamedTag.read?_opening h.tag h rest
  rw [if_pos rfl, Opening.text, List.cons_append] at hRead
  rw [Opening.text, List.cons_append, splitAtClose?_opening hRead, h.closesItself_inside]
  rfl

/-- A closing tag as it is written makes the search shallower. -/
theorem splitAtClose?_ownClosing (hTag : IsTagName name) (hBlanks : Blanks blanks) (depth : Nat) (rest : Text) :
    splitAtClose? name 0 (depth + 1) (closingTag name blanks ++ rest) =
      (splitAtClose? name 0 depth rest).map fun parts => (closingTag name blanks ++ parts.1, parts.2) := by
  have hRead := NamedTag.read?_closing hTag hTag hBlanks rest
  rw [if_pos rfl, closingTag, List.cons_append] at hRead
  rw [closingTag, List.cons_append, splitAtClose?_closing hRead]
  rfl

/-- A tag that closes itself leaves the depth as it is, whatever its name. -/
theorem passesOver_bodiless (hName : IsTagName name) (h : opening.Readable)
    (hValues : ∀ a ∈ opening.attributes, '<' ∉ a.value) (hClosing : opening.selfClosing = true) (depth : Nat) :
    PassesOver (splitAtClose? name 0 depth) opening.text := by
  by_cases hSame : name = opening.tag
  · subst hSame
    intro rest
    rw [splitAtClose?_ownOpening h, if_pos hClosing]
  · exact passesOver_otherOpening hName h hValues hSame depth

/-- The two tags around a body cancel out. -/
theorem passesOver_body (hName : IsTagName name) (h : opening.Readable)
    (hValues : ∀ a ∈ opening.attributes, '<' ∉ a.value) (hOpen : opening.selfClosing = false)
    (hInner : ∀ depth, PassesOver (splitAtClose? name 0 depth) inner) (hBlanks : Blanks blanks) (depth : Nat) :
    PassesOver (splitAtClose? name 0 depth) (opening.text ++ (inner ++ closingTag opening.tag blanks)) := by
  by_cases hSame : name = opening.tag
  · subst hSame
    intro rest
    rw [List.append_assoc, List.append_assoc, splitAtClose?_ownOpening h, if_neg (by simp [hOpen]),
      hInner (depth + 1), splitAtClose?_ownClosing h.tag hBlanks, Option.map_map, Option.map_map]
    congr 1
    funext parts
    simp
  · exact (passesOver_otherOpening hName h hValues hSame depth).append
      ((hInner depth).append (passesOver_otherClosing hName h.tag hBlanks hSame depth))

/-- The body of an element ends where its closing tag stands. -/
theorem splitAtClose?_body (hTag : IsTagName name) (hBlanks : Blanks blanks)
    (hInner : PassesOver (splitAtClose? name 0 0) inner) (rest : Text) :
    splitAtClose? name 0 0 (inner ++ (closingTag name blanks ++ rest)) = some (inner, rest) := by
  have hRead := NamedTag.read?_closing hTag hTag hBlanks rest
  rw [if_pos rfl, closingTag, List.cons_append] at hRead
  have hClose := splitAtClose?_zero hRead
  rw [closingTag, List.cons_append]
  simpa using hInner.split_eq hClose

end Search

section Nodes

variable {style : Style} {nodes : List Node} {s : Text}

/-- A search for a closing tag passes over whole nodes, at every depth. -/
theorem Writes.passesOver (h : Writes style nodes s) (hStyle : style.Readable) {name : Text} (hName : IsTagName name)
    (depth : Nat) : PassesOver (splitAtClose? name 0 depth) s := by
  have hGap : ∀ {gap depth}, style.gap gap → PassesOver (splitAtClose? name 0 depth) gap :=
    fun hGap => passesOver_free (not_mem_of_blanks (hStyle.gap hGap) (by decide))
  induction h generalizing depth with
  | nil hBlanks => exact hGap hBlanks
  | text hBlanks hContent _ _ ih =>
      exact (hGap hBlanks).append ((passesOver_free hContent.angle).append (ih depth))
  | bodiless hBlanks hOpening hClosing _ ih =>
      obtain ⟨hReadable, hValues⟩ := hStyle.opening hOpening
      exact (hGap hBlanks).append ((passesOver_bodiless hName hReadable hValues hClosing depth).append (ih depth))
  | body hBlanks hOpening hOpen _ hClosing _ ihInner ih =>
      obtain ⟨hReadable, hValues⟩ := hStyle.opening hOpening
      have hBody := passesOver_body hName hReadable hValues hOpen ihInner (hStyle.closing hClosing) depth
      have hAll := (hGap hBlanks).append (hBody.append (ih depth))
      simpa using hAll

theorem readNodesWithin_blanks_append {gap : Text} (h : Blanks gap) (fuel : Nat) (s : Text) :
    readNodesWithin fuel (gap ++ s) = readNodesWithin fuel s := by
  cases fuel with
  | zero => rfl
  | succ fuel => rw [readNodesWithin, readNodesWithin, Text.trimStart_blanks_append h]

/-- Written nodes that do not begin with a text begin with a tag, if there are any. -/
theorem Writes.tag_or_end (h : Writes style nodes s) (hStyle : style.Readable)
    (hNoText : ∀ other, nodes.head? ≠ some (.text other)) :
    ∃ gap t, s = gap ++ t ∧ Blanks gap ∧ ∀ c, t.head? = some c → c = '<' := by
  cases h with
  | nil hGap => exact ⟨s, [], by simp, hStyle.gap hGap, by simp⟩
  | text => simp at hNoText
  | bodiless hGap | body hGap => exact ⟨_, _, rfl, hStyle.gap hGap, by simp [Opening.text]⟩

/-- A text runs up to the next tag, and the blanks in front of that tag do not belong to it. -/
theorem readNodesWithin_content {content : Text} (hContent : IsContent content) {gap t : Text} (hGap : Blanks gap)
    (hTag : ∀ c, t.head? = some c → c = '<') {fuel : Nat} {rest : List Node}
    (hRest : readNodesWithin fuel (gap ++ t) = .ok rest) :
    readNodesWithin (fuel + 1) (content ++ (gap ++ t)) = .ok (.text content :: rest) := by
  rw [readNodesWithin_blanks_append hGap] at hRest
  obtain ⟨c, tail, hHead⟩ := List.exists_cons_of_ne_nil hContent.nonempty
  have hBlank : isBlank c = false := hContent.trimmed.head c (by simp [hHead])
  have hOther : c ≠ '<' := fun h => hContent.angle (by simp [hHead, h])
  have hFree : ∀ d ∈ content ++ gap, (d != '<') = true := by
    intro d hd
    have hMember : d ≠ '<' := by
      rintro rfl
      rcases List.mem_append.mp hd with hd | hd
      · exact hContent.angle hd
      · exact absurd (hGap _ hd) (by decide)
    simpa using hMember
  have hStop : t.takeWhile (· != '<') = [] ∧ t.dropWhile (· != '<') = t := by
    cases t with
    | nil => exact ⟨rfl, rfl⟩
    | cons d t =>
        obtain rfl := hTag d rfl
        exact ⟨rfl, rfl⟩
  have hTrim : Text.trimStart (content ++ (gap ++ t)) = c :: (tail ++ (gap ++ t)) := by
    rw [hHead, List.cons_append]
    exact Text.trimStart_append_cons (List.forall_mem_nil _) hBlank
  rw [readNodesWithin, hTrim]
  dsimp only
  rw [if_neg (by simpa using hOther), ← List.cons_append, ← hHead, ← List.append_assoc,
    List.takeWhile_append_of_pos hFree, List.dropWhile_append_of_pos hFree, hStop.1, hStop.2, List.append_nil,
    Text.trimEnd_append_blanks hGap, Text.trimEnd_eq_self hContent.trimmed.last, hRest]
  rfl

variable {opening : Opening} {children : List Node}

/-- An element is read up to its end, if the nodes in it are read. -/
theorem Encloses.readElement? (h : Encloses style opening children s) (hStyle : style.Readable)
    (hOpening : opening.Readable) {readInside : Text → Except ReadError (List Node)}
    (hInside : ∀ inner, Writes style children inner → inner.length < s.length → readInside inner = .ok children)
    (rest : Text) : readElement? readInside (s ++ rest) = .ok (some (opening.element children, rest)) := by
  cases h with
  | bodiless hClosing =>
      rw [Markup.readElement?, OpenTag.read?_opening hOpening]
      dsimp only
      rw [hOpening.closesItself_inside, hClosing, hOpening.attributesIn_inside]
      simp [Opening.element, hClosing]
  | body hOpen hInner hClosing =>
      rename_i inner blanks
      have hBlanks := hStyle.closing hClosing
      have hSplit := splitAtClose?_body hOpening.tag hBlanks (hInner.passesOver hStyle hOpening.tag 0) rest
      have hSome : (inner ++ (closingTag opening.tag blanks ++ rest)).isEmpty = false := by simp [closingTag]
      have hRead : readInside inner = .ok children := by
        refine hInside inner hInner ?_
        simp only [Opening.text, closingTag, List.length_append, List.length_cons]
        omega
      rw [List.append_assoc, List.append_assoc, Markup.readElement?, OpenTag.read?_opening hOpening]
      dsimp only
      rw [hOpening.closesItself_inside, hOpen, hSome, hOpening.attributesIn_inside]
      simp [hSplit, hRead, Opening.element, hOpen, Functor.map, Except.map]

theorem Encloses.text_append (h : Encloses style opening children s) (rest : Text) :
    ∃ t, s ++ rest = '<' :: t := by
  cases h with
  | bodiless | body => exact ⟨_, rfl⟩

/-- An element is read as a node, and what follows it is read as further ones. -/
theorem readNodesWithin_element (h : Encloses style opening children s) (hStyle : style.Readable)
    (hOpening : opening.Readable) {fuel : Nat}
    (hInside : ∀ inner, Writes style children inner → inner.length < s.length →
      readNodesWithin fuel inner = .ok children)
    {gap t : Text} (hGap : Blanks gap) {rest : List Node} (hRest : readNodesWithin fuel t = .ok rest) :
    readNodesWithin (fuel + 1) (gap ++ (s ++ t)) = .ok ((opening.element children).toNode :: rest) := by
  have hRead := h.readElement? hStyle hOpening hInside t
  obtain ⟨u, hText⟩ := h.text_append t
  rw [hText] at hRead ⊢
  rw [readNodesWithin, Text.trimStart_append_cons hGap (by decide)]
  dsimp only
  rw [if_pos (by decide), hRead]
  simp only [bind, Except.bind, hRest]
  rfl

/-- An element that is written takes some characters. -/
theorem Encloses.length_pos (h : Encloses style opening children s) : 0 < s.length := by
  cases h with
  | bodiless | body => exact Nat.succ_pos _

/-- With a step for each of its characters, all nodes of a text are read. -/
theorem Writes.readNodesWithin (h : Writes style nodes s) (hStyle : style.Readable) {fuel : Nat}
    (hFuel : s.length < fuel) : readNodesWithin fuel s = .ok nodes := by
  induction fuel generalizing nodes s with
  | zero => omega
  | succ fuel ih =>
      have hElement : ∀ {opening children gap t rest u}, Encloses style opening children u → style.opening opening →
          style.gap gap → Writes style rest t → (gap ++ (u ++ t)).length < fuel + 1 →
          Markup.readNodesWithin (fuel + 1) (gap ++ (u ++ t)) = .ok ((opening.element children).toNode :: rest) := by
        intro opening children gap t rest u hEncloses hOpening hGap hRest hLength
        have hSome := hEncloses.length_pos
        simp only [List.length_append] at hLength
        exact readNodesWithin_element hEncloses hStyle (hStyle.opening hOpening).1
          (fun inner hInner hShort => ih hInner (by omega)) (hStyle.gap hGap) (ih hRest (by omega))
      cases h with
      | nil hGap => rw [Markup.readNodesWithin, Text.trimStart_eq_nil (hStyle.gap hGap)]
      | text hGap hContent hApart hRest =>
          have hSome := List.length_pos_iff.mpr hContent.nonempty
          simp only [List.length_append] at hFuel
          have hRead := ih hRest (by omega)
          obtain ⟨between, t, rfl, hBetween, hTag⟩ := hRest.tag_or_end hStyle hApart
          rw [readNodesWithin_blanks_append (hStyle.gap hGap)]
          exact readNodesWithin_content hContent hBetween hTag hRead
      | bodiless hGap hOpening hClosing hRest => exact hElement (.bodiless hClosing) hOpening hGap hRest hFuel
      | body hGap hOpening hOpen hInner hClosing hRest =>
          have hAll := hElement (.body hOpen hInner hClosing) hOpening hGap hRest
          simp only [List.append_assoc] at hAll
          exact hAll hFuel

/-- What is written in a readable style is read back. -/
theorem Writes.readNodes (h : Writes style nodes s) (hStyle : style.Readable) : readNodes s = .ok nodes :=
  h.readNodesWithin hStyle (Nat.lt_succ_self _)

/-- The text of an element ends with `>`, so that trimming stays behind it. -/
theorem Encloses.trim_append (h : Encloses style opening children s) {gap : Text} (hGap : Blanks gap) (after : Text) :
    Text.trim (gap ++ (s ++ after)) = s ++ Text.trimEnd after := by
  have hLast : ∃ t, s = t ++ ['>'] := by
    cases h with
    | bodiless => exact ⟨'<' :: (opening.tag ++ opening.inside), by simp [Opening.text]⟩
    | @body children inner blanks =>
        exact ⟨opening.text ++ (inner ++ '<' :: '/' :: (opening.tag ++ blanks)), by simp [closingTag]⟩
  obtain ⟨t, hLast⟩ := hLast
  obtain ⟨u, hFirst⟩ := h.text_append after
  rw [Text.trim, hFirst, Text.trimStart_append_cons hGap (by decide), ← hFirst, hLast, List.append_assoc,
    List.singleton_append, Text.trimEnd_append_cons _ _ (by decide)]
  simp

/-- Of the opening tag of the root, the values may have any characters in them but quotation marks. -/
theorem Encloses.readRoot (h : Encloses style opening children s) (hStyle : style.Readable)
    (hOpening : opening.Readable) {gap : Text} (hGap : Blanks gap) (after : Text) :
    readRoot (gap ++ (s ++ after)) = .ok (opening.element children) := by
  have hRead := h.readElement? hStyle hOpening (fun inner hInner _ => hInner.readNodes hStyle) (Text.trimEnd after)
  rw [Markup.readRoot, h.trim_append hGap, hRead]
  rfl

/-- An element is read as it is written, whatever stands behind it. -/
theorem readRoot_writesElement {e : Element} (h : WritesElement .plain e s) (after : Text) :
    readRoot (s ++ after) = .ok e := by
  obtain ⟨hOpening, hEncloses⟩ := h
  have hReadable := (Style.plain_readable.opening hOpening).1
  exact hEncloses.readRoot Style.plain_readable hReadable (List.forall_mem_nil _) after

/-- Tags of the root's own name inside of it, one of which closes itself, another one of which has a longer name. -/
theorem readRoot_nested :
    readRoot ("<g a=\"x > y\" a=\"/\"><g /> one <g><g.h b=\"c=d\"/></g>\n</g>".toList ++ "</g> more".toList) =
      .ok ⟨"g".toList, [("a".toList, "x > y".toList), ("a".toList, "/".toList)],
        [.element "g".toList [] [] true, .text "one".toList,
          .element "g".toList [] [.element "g.h".toList [("b".toList, "c=d".toList)] [] true] false], false⟩ := by
  have hName : IsTagName "g".toList := by decide
  have hNil : Style.plain.gap [] := List.forall_mem_nil _
  have hSpace : Style.plain.gap [' '] := (by decide : Blanks [' '])
  have hLine : Style.plain.gap ['\n'] := (by decide : Blanks ['\n'])
  have hLonger := Style.plain_opening (by decide : IsTagName "g.h".toList)
    (by decide : Attributes.Plain [("b".toList, "c=d".toList)]) true
  have hSpaced : Style.plain.opening ⟨"g".toList, [], [' '], true⟩ := ⟨hName, by decide, rfl, .inr ⟨rfl, rfl⟩⟩
  have hInner := Style.plain_opening hName (by decide : Attributes.Plain []) false
  have hOuter := Style.plain_opening hName
    (by decide : Attributes.Plain [("a".toList, "x > y".toList), ("a".toList, "/".toList)]) false
  have hBody := Writes.body hSpace hInner rfl (.bodiless hNil hLonger rfl (.nil hNil)) rfl (.nil hLine)
  have hText : IsContent "one".toList := by decide
  have hNodes := Writes.bodiless hNil hSpaced rfl (.text hSpace hText (by simp [Element.toNode]) hBody)
  exact readRoot_writesElement (.mk hOuter (.body rfl hNodes rfl)) "</g> more".toList

end Nodes

end IconRegistry.Markup
