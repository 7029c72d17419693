import IconRegistry.Component.Annotated
import IconRegistry.Proofs.Markup.Layout

/-! Canonicalization followed by reading does not depend on layout. What stands between tags is joined first, each tag
gets its canonical form, and the reader finds the tree that was laid out, its values tidied. -/
namespace IconRegistry.Markup

open Text (isBlank Becomes Blanks singleSpaced substitute)

section Joining

variable {s t : Text} {c : Char}

def joining : Text → Option (Text × Nat)
  | '>' :: rest =>
    if !(rest.takeWhile isBlank).isEmpty && (rest.drop (rest.takeWhile isBlank).length).head? == some '<' then
      some (['>', '<'], (rest.takeWhile isBlank).length + 1)
    else none
  | _ => none

theorem joinTags_eq : joinTags = substitute joining := by
  rw [joinTags]
  congr 1

theorem joining_of_ne (hc : c ≠ '>') (rest : Text) : joining (c :: rest) = none := by
  simp [joining, hc]

/-- Behind a tag, blanks are joined exactly if another tag follows them. -/
theorem joining_blanks (hs : Blanks s) (ht : ∀ d, t.head? = some d → isBlank d = false) :
    joining ('>' :: (s ++ t)) = if s ≠ [] ∧ t.head? = some '<' then some (['>', '<'], s.length + 1) else none := by
  have hTake : (s ++ t).takeWhile isBlank = s := by
    rw [List.takeWhile_append_of_pos hs]
    cases t with
    | nil => simp
    | cons d t => rw [List.takeWhile_cons_of_neg (by simp [ht d rfl]), List.append_nil]
  rw [joining, hTake, List.drop_left]
  simp

/-- Tags are joined from the first one that ends. -/
theorem joinTags_free (h : '>' ∉ s) (t : Text) : joinTags (s ++ t) = s ++ joinTags t := by
  rw [joinTags_eq]
  refine Text.substitute_append_of_none fun u hu hSuffix => ?_
  obtain ⟨d, u, rfl⟩ := List.exists_cons_of_ne_nil hu
  exact joining_of_ne (fun hSame => h (hSame ▸ hSuffix.subset List.mem_cons_self)) _

/-- A gap goes if it stands between two tags, and stays otherwise. -/
theorem joinTags_gap (hs : Blanks s) (ht : ∀ d, t.head? = some d → isBlank d = false) (c : Char) :
    ∃ gap, Blanks gap ∧ joinTags (c :: (s ++ t)) = c :: (gap ++ joinTags t) := by
  by_cases hJoined : c = '>' ∧ s ≠ [] ∧ t.head? = some '<'
  · obtain ⟨rfl, hSome, hTag⟩ := hJoined
    obtain ⟨t, rfl⟩ := List.head?_eq_some_iff.mp hTag
    have hMatch := joining_blanks hs ht
    rw [if_pos ⟨hSome, rfl⟩, List.append_cons] at hMatch
    refine ⟨[], List.forall_mem_nil _, ?_⟩
    rw [joinTags_eq, List.append_cons, Text.substitute_of_match (by simpa using hMatch), ← joinTags_eq]
    exact congrArg ('>' :: ·) (joinTags_free (s := ['<']) (by decide) t).symm
  · have hNone : joining (c :: (s ++ t)) = none := by
      by_cases hc : c = '>'
      · rw [hc, joining_blanks hs ht, if_neg fun h => hJoined ⟨hc, h⟩]
      · exact joining_of_ne hc _
    refine ⟨s, hs, ?_⟩
    rw [joinTags_eq, Text.substitute_cons_of_none hNone, ← joinTags_eq,
      joinTags_free (not_mem_of_blanks hs (by decide))]

/-- Within a text there are no two tags. -/
theorem joinTags_content {content : Text} (h : IsContent content) :
    ∃ front c, content = front ++ [c] ∧ ∀ t, joinTags (content ++ t) = front ++ joinTags (c :: t) := by
  obtain ⟨front, c, hContent⟩ := (List.eq_nil_or_concat content).resolve_left h.nonempty
  rw [List.concat_eq_append] at hContent
  have hc : isBlank c = false := h.trimmed.last c (by simp [hContent])
  refine ⟨front, c, hContent, fun t => ?_⟩
  rw [hContent, List.append_assoc, joinTags_eq]
  refine Text.substitute_append_of_none fun u hu hSuffix => ?_
  obtain ⟨d, u, rfl⟩ := List.exists_cons_of_ne_nil hu
  by_cases hd : d = '>'
  · -- the first character behind the blanks, if there are any, belongs to the text
    have hNext : ∀ e, (u.dropWhile isBlank ++ c :: t).head? = some e → isBlank e = false ∧ e ≠ '<' := by
      intro e he
      cases hRest : u.dropWhile isBlank with
      | nil =>
          obtain rfl : c = e := by simpa [hRest] using he
          exact ⟨hc, fun hSame => h.angle (by simp [hContent, hSame])⟩
      | cons f w =>
          obtain rfl : f = e := by simpa [hRest] using he
          have hBlank := List.head?_dropWhile_not isBlank u
          rw [hRest] at hBlank
          have hWithin : f ∈ u := (List.dropWhile_suffix isBlank).subset (by rw [hRest]; exact List.mem_cons_self)
          have hMember : f ∈ front := hSuffix.subset (List.mem_cons_of_mem d hWithin)
          exact ⟨by simpa using hBlank, fun hSame => h.angle (by simp [hContent, hSame ▸ hMember])⟩
    have hBlanks : Blanks (u.takeWhile isBlank) := List.all_eq_true.mp List.all_takeWhile
    have hStep := joining_blanks hBlanks fun e he => (hNext e he).1
    rw [← List.append_assoc, List.takeWhile_append_dropWhile, if_neg] at hStep
    · rw [hd]
      exact hStep
    · exact fun h => (hNext '<' h.2).2 rfl
  · exact joining_of_ne hd _

/-- A tag ends with the only `>` in it. -/
theorem joinTags_tag {opening : Opening} (h : opening.Regular) :
    ∃ front, opening.text = front ++ ['>'] ∧ ∀ t, joinTags (opening.text ++ t) = front ++ joinTags ('>' :: t) := by
  have hBack := not_mem_of_blanks (c := '>') h.back (by decide)
  have hFree : '>' ∉ '<' :: opening.tag ++ opening.attributes.flatMap WrittenAttribute.text ++
      (opening.back ++ if opening.selfClosing then ['/'] else []) := by
    have hSlash : '>' ∉ if opening.selfClosing then ['/'] else [] := by split <;> decide
    intro hMember
    rcases List.mem_append.mp hMember with hMember | hMember
    · exact h.front.1 hMember
    · simp [hBack, hSlash] at hMember
  have hText : opening.text = '<' :: opening.tag ++ opening.attributes.flatMap WrittenAttribute.text ++
      (opening.back ++ if opening.selfClosing then ['/'] else []) ++ ['>'] := by
    simp [Opening.text_eq]
  refine ⟨_, hText, fun t => ?_⟩
  rw [hText, List.append_assoc, joinTags_free hFree]
  rfl

/-- A closing tag stays, and what follows it is joined to its end. -/
theorem joinTags_closingTag {tag blanks : Text} (hTag : IsTagName tag) (hBlanks : Blanks blanks) :
    ∃ front, closingTag tag blanks = front ++ ['>'] ∧
      ∀ t, joinTags (closingTag tag blanks ++ t) = front ++ joinTags ('>' :: t) := by
  rw [closingTag_eq]
  exact joinTags_tag (closingTag_regular hTag hBlanks)

variable {nodes : List Node} {rest : Text}

/-- Joined, a layout with blanks for gaps is another such layout. -/
theorem Writes.joined (h : Writes (.loose Blanks) nodes s) (hRest : ∀ d, rest.head? = some d → d = '<') (c : Char) :
    ∃ s', Writes (.loose Blanks) nodes s' ∧ joinTags (c :: (s ++ rest)) = c :: (s' ++ joinTags rest) := by
  have hRegular : ∀ {opening}, (Style.loose Blanks).opening opening → opening.Regular :=
    fun hOpening => hOpening.1.regular hOpening.2
  have hTag : ∀ (opening : Opening) (t : Text) (d : Char), (opening.text ++ t).head? = some d → isBlank d = false := by
    intro opening t d hd
    obtain rfl : '<' = d := Option.some.inj hd
    decide
  induction h generalizing c rest with
  | nil hGap =>
      obtain ⟨gap, hGap, hJoin⟩ := joinTags_gap hGap (fun d hd => by rw [hRest d hd]; decide) c
      exact ⟨gap, .nil hGap, hJoin⟩
  | @text _ content _ _ hGap hContent hApart _ ih =>
      obtain ⟨front, d, hLast, hWithin⟩ := joinTags_content hContent
      obtain ⟨s, hWrites, hBehind⟩ := ih hRest d
      have hFirst : ∀ t e, (content ++ t).head? = some e → isBlank e = false := by
        intro t e he
        obtain ⟨f, tail, hParts⟩ := List.exists_cons_of_ne_nil hContent.nonempty
        rw [hParts] at he
        exact hContent.trimmed.head e (by rw [hParts]; exact he)
      obtain ⟨gap, hGap, hJoin⟩ := joinTags_gap hGap (hFirst _) c
      refine ⟨_, .text hGap hContent hApart hWrites, ?_⟩
      rw [List.append_assoc, List.append_assoc, hJoin, hWithin, hBehind, hLast]
      simp
  | @bodiless _ _ opening _ hGap hOpening hClosing _ ih =>
      obtain ⟨front, hLast, hWithin⟩ := joinTags_tag (hRegular hOpening)
      obtain ⟨s, hWrites, hBehind⟩ := ih hRest '>'
      obtain ⟨gap, hGap, hJoin⟩ := joinTags_gap hGap (hTag opening _) c
      refine ⟨_, .bodiless hGap hOpening hClosing hWrites, ?_⟩
      rw [List.append_assoc, List.append_assoc, hJoin, hWithin, hBehind, hLast]
      simp
  | @body _ _ blanks _ opening _ _ hGap hOpening hOpen _ hBlanks _ ihInner ih =>
      obtain ⟨front, hLast, hWithin⟩ := joinTags_tag (hRegular hOpening)
      obtain ⟨frontEnd, hLastEnd, hWithinEnd⟩ := joinTags_closingTag hOpening.1.tag hBlanks
      obtain ⟨s, hWrites, hBehind⟩ := ih hRest '>'
      have hClose : ∀ t d, (closingTag opening.tag blanks ++ t).head? = some d → d = '<' :=
        fun t d hd => (Option.some.inj hd).symm
      obtain ⟨inner, hInner, hInside⟩ := ihInner (hClose _) '>'
      obtain ⟨gap, hGap, hJoin⟩ := joinTags_gap hGap (hTag opening _) c
      refine ⟨_, .body hGap hOpening hOpen hInner hBlanks hWrites, ?_⟩
      rw [List.append_assoc, List.append_assoc, List.append_assoc, List.append_assoc, hJoin, hWithin, hInside,
        hWithinEnd, hBehind, hLast, hLastEnd]
      simp

theorem Writes.joinTags (h : Writes (.loose Blanks) nodes s) : Writes (.loose Blanks) nodes (joinTags s) := by
  have hNone : ∀ d, ([] : Text).head? = some d → d = '<' := by simp
  obtain ⟨s', hWrites, hJoin⟩ := h.joined hNone ' '
  have hFirst : Markup.joinTags (' ' :: s) = ' ' :: Markup.joinTags s := joinTags_free (s := [' ']) (by decide) s
  rw [List.append_nil, hFirst] at hJoin
  have hSame : Markup.joinTags s = s' := by simpa [joinTags_eq] using hJoin
  rw [hSame]
  exact hWrites

end Joining

/-- The style of canonical tags. -/
def Style.tidy : Style where
  gap := Blanks
  opening opening := opening.Readable ∧ ∀ a ∈ opening.attributes, '<' ∉ a.value
  closing blanks := blanks = []

/-- What canonical tags leave of a text can be read back. -/
theorem Style.tidy_readable : Style.tidy.Readable where
  gap h := h
  opening h := h
  closing := by
    rintro _ rfl
    decide

section Tidying

variable {nodes : List Node} {s : Text} {e : Element}

theorem canonicalizing_free {c : Char} (hc : c ≠ '<') (rest : Text) : canonicalizing (c :: rest) = none := by
  have hFront : Text.dropFront? ['<'] (c :: rest) = none := by simp [Text.dropFront?, hc.symm]
  simp [canonicalizing, hFront]

/-- Canonical tags turn a text with gaps of blanks into a tidy one. -/
theorem turns_canonicalizing : (Style.loose Blanks).Turns canonicalizing tidied Style.tidy where
  gap {gap} hGap := by
    refine ⟨gap, hGap, .self fun c hc => canonicalizing_free ?_⟩
    rintro rfl
    exact not_mem_of_blanks hGap (by decide) hc
  content hContent := .self fun c hc => canonicalizing_free fun hSame => hContent.angle (hSame ▸ hc)
  tag hOpening := hOpening.1.tag
  opening {opening} hOpening := by
    have hRegular := hOpening.1.regular hOpening.2
    exact ⟨opening.canonical, hRegular.canonical_readable hOpening.1.tag, rfl, rfl, hRegular.canonical_pairs,
      hRegular.becomes_canonical⟩
  closing hTag hBlanks := ⟨[], rfl, becomes_canonical_closingTag hTag hBlanks⟩

/-- A tree with its values in canonical form. -/
def Element.tidied (e : Element) : Element :=
  e.map Markup.tidied id

/-- As a node, an element keeps all that it has. -/
theorem Element.toNode_injective {e e' : Element} (h : e.toNode = e'.toNode) : e = e' := by
  cases e
  cases e'
  simpa [Element.toNode] using h

/-- Around a root there are only gaps. -/
theorem Writes.exists_encloses_root {style : Style} (h : Writes style [e.toNode] s) :
    ∃ gap opening children text after, s = gap ++ (text ++ after) ∧ style.gap gap ∧ style.gap after ∧
      style.opening opening ∧ Encloses style opening children text ∧ e = opening.element children := by
  generalize hNodes : [e.toNode] = nodes at h
  have hAfter : ∀ {rest t}, rest = [] → Writes style rest t → style.gap t := by
    rintro _ t rfl hWrites
    cases hWrites with
    | nil hGap => exact hGap
  cases h with
  | nil => cases hNodes
  | text => cases hNodes
  | bodiless hGap hOpening hClosing hRest =>
      obtain ⟨hNode, hNone⟩ := List.cons_eq_cons.mp hNodes
      exact ⟨_, _, _, _, _, rfl, hGap, hAfter hNone.symm hRest, hOpening, .bodiless hClosing,
        Element.toNode_injective hNode⟩
  | body hGap hOpening hOpen hInner hBlanks hRest =>
      obtain ⟨hNode, hNone⟩ := List.cons_eq_cons.mp hNodes
      refine ⟨_, _, _, _, _, ?_, hGap, hAfter hNone.symm hRest, hOpening, .body hOpen hInner hBlanks,
        Element.toNode_injective hNode⟩
      simp

/-- An element that is written in a readable style is the root that is read. -/
theorem Writes.readRoot {style : Style} (h : Writes style [e.toNode] s) (hStyle : style.Readable) :
    Text.trim s ≠ [] ∧ Markup.readRoot (Text.trim s) = .ok e := by
  obtain ⟨gap, opening, children, text, after, rfl, hGap, hAfter, hOpening, hEncloses, rfl⟩ := h.exists_encloses_root
  have hTrim := hEncloses.trim_append (hStyle.gap hGap) after
  rw [Text.trimEnd_eq_nil (hStyle.gap hAfter), List.append_nil] at hTrim
  have hRead := hEncloses.readRoot hStyle (hStyle.opening hOpening).1 (List.forall_mem_nil _) []
  rw [List.nil_append, List.append_nil] at hRead
  rw [hTrim]
  exact ⟨List.ne_nil_of_length_pos hEncloses.length_pos, hRead⟩

/-- A document that is laid out can be made canonical, and it is then read as its tidied element. -/
theorem LaidOut.canonical (h : LaidOut e s) :
    ∃ text, Component.canonicalOptimizer s = .ok text ∧ Markup.readRoot text = .ok e.tidied := by
  obtain ⟨text, hTidy, hStep⟩ := h.bare.joinTags.turns turns_canonicalizing
  have hWrites : Writes .tidy [e.tidied.toNode] text := hTidy
  obtain ⟨hSome, hRead⟩ := hWrites.readRoot Style.tidy_readable
  have hCanonical : Markup.canonical s = Text.trim text := by
    rw [Markup.canonical, canonicalTags_eq, hStep.substitute_eq]
  refine ⟨Text.trim text, ?_, hRead⟩
  rw [Component.canonicalOptimizer, hCanonical, if_neg (by simpa using hSome)]

/-- Layout does not matter: the tree is read from each of its layouts, and from all of them alike. -/
theorem readRoot_laidOut (h : LaidOut e s) :
    (∃ text, Component.canonicalOptimizer s = .ok text ∧ Markup.readRoot text = .ok e.tidied) ∧
      ∀ other, LaidOut e other → ∃ text text', Component.canonicalOptimizer s = .ok text ∧
        Component.canonicalOptimizer other = .ok text' ∧ Markup.readRoot text = Markup.readRoot text' := by
  obtain ⟨text, hText, hRead⟩ := h.canonical
  refine ⟨⟨text, hText, hRead⟩, fun other hOther => ?_⟩
  obtain ⟨text', hText', hRead'⟩ := hOther.canonical
  exact ⟨text, text', hText, hText', hRead.trans hRead'.symm⟩

/-- A document with prolog, document type and comment, both quotation marks, and blanks around an equals sign, in a
value and in front of the ends of tags. -/
theorem readRoot_laidOut_document :
    (∃ text, Component.canonicalOptimizer
        "<?xml?>\n<!doctype svg><!-- > --><svg a =\n'x  \"y\"' b=\"1\" ><t>hi</t ><p /></svg>".toList = .ok text ∧
      Markup.readRoot text = .ok ⟨"svg".toList, [("a".toList, "x &quot;y&quot;".toList), ("b".toList, "1".toList)],
        [.element "t".toList [] [.text "hi".toList] false, .element "p".toList [] [] true], false⟩) := by
  have hNone : Blanks [] := List.forall_mem_nil _
  have hSpace : Blanks [' '] := by decide
  have hLine : Blanks ['\n'] := by decide
  have hNil : (Style.loose Filler).gap [] := Filler.nil
  have hFirst : (WrittenAttribute.mk [' '] "a".toList [' '] ['\n'] '\'' "x  \"y\"".toList).WellFormed :=
    ⟨by decide, hSpace, by decide, hSpace, hLine, .inr rfl, by decide⟩
  have hSecond : (WrittenAttribute.mk [' '] "b".toList [] [] '"' "1".toList).WellFormed :=
    ⟨by decide, hSpace, by decide, hNone, hNone, .inl rfl, by decide⟩
  have hRoot : (Style.loose Filler).opening ⟨"svg".toList, [⟨[' '], "a".toList, [' '], ['\n'], '\'', "x  \"y\"".toList⟩,
      ⟨[' '], "b".toList, [], [], '"', "1".toList⟩], [' '], false⟩ :=
    ⟨⟨by decide, List.forall_mem_cons.mpr ⟨hFirst, List.forall_mem_singleton.mpr hSecond⟩, hSpace⟩, by decide⟩
  have hText : (Style.loose Filler).opening ⟨"t".toList, [], [], false⟩ := ⟨⟨by decide, by simp, hNone⟩, by simp⟩
  have hEmpty : (Style.loose Filler).opening ⟨"p".toList, [], [' '], true⟩ := ⟨⟨by decide, by simp, hSpace⟩, by simp⟩
  have hContent := Writes.text hNil (by decide : IsContent "hi".toList) (by simp) (.nil hNil)
  have hInner := Writes.body hNil hText rfl hContent hSpace (.bodiless hNil hEmpty rfl (.nil hNil))
  have hComment : IsComment " > ".toList := ⟨by decide, by decide, by decide⟩
  have hGap : Filler "<!-- > -->".toList := .comment hComment .nil
  have hWrites := Writes.body hGap hRoot rfl hInner hNone (.nil hNil)
  have hProlog : IsProlog ("<?".toList ++ ("xml".toList ++ "?>".toList)) := .some (by decide)
  have hDoctype : IsDoctype ("<!".toList ++ "doctype".toList ++ (" svg".toList ++ ">".toList)) :=
    .some (by decide) (by decide) (by decide)
  have hBetween : Filler ['\n'] := .blank (by decide) .nil
  exact (readRoot_laidOut (.mk .nil hProlog hBetween hDoctype hWrites)).1

/-- What is no layout: a tag that begins with an underscore, a document type with the mark of a processing instruction
in it, no blank between two attributes, and a blank in a key. -/
theorem readRoot_not_laidOut :
    (Component.canonicalOptimizer "<svg><_a/></svg>".toList = .ok "<svg><_a/></svg>".toList ∧
      Markup.readRoot "<svg><_a/></svg>".toList = .error (.unexpected "<_a/>".toList)) ∧
    Component.canonicalOptimizer "<!DOCTYPE svg SYSTEM \"<?\"><svg>a?></svg>".toList = .error .emptyMarkup ∧
    (Component.canonicalOptimizer "<svg a=\"1\"b='2'/>".toList = .ok "<svg a=\"1\"b='2'/>".toList ∧
      Markup.readRoot "<svg a=\"1\"b='2'/>".toList = .ok ⟨"svg".toList, [("a".toList, "1".toList)], [], true⟩) ∧
    (Component.canonicalOptimizer "<svg a\u1680b=\"1\"/>".toList = .ok "<svg a b=\"1\"/>".toList ∧
      Markup.readRoot "<svg a b=\"1\"/>".toList = .ok ⟨"svg".toList, [("b".toList, "1".toList)], [], true⟩) :=
  ⟨⟨rfl, rfl⟩, rfl, ⟨rfl, rfl⟩, rfl, rfl⟩

end Tidying

end IconRegistry.Markup
