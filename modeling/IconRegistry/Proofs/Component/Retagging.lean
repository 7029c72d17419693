import IconRegistry.Proofs.Component.Agreeing

/-! What annotating a text changes in it: the root's opening tag and what is put right behind that tag. What stands
further behind is kept, be it markup or not. So an annotated text begins with a root tag, and the reader finds it. -/
namespace IconRegistry

open Markup
open Text (Blanks)

namespace Markup

/-- Behind a key that goes without a value, the next attribute is found as if it were the first one. -/
theorem attributesFrom_key_apart {front key : Text} (hFront : Blanks front) (hApart : front ≠ []) (hSome : key ≠ [])
    (hKey : ∀ c ∈ key, isKeyChar c = true) (scanned rest : Text) :
    attributesFrom (.key scanned) (front ++ (key ++ rest)) = attributesFrom .outside (front ++ (key ++ rest)) := by
  obtain ⟨c, blanks, rfl⟩ := List.exists_cons_of_ne_nil hApart
  obtain ⟨hc, hBlanks⟩ := List.forall_mem_cons.mp hFront
  obtain ⟨d, chars, rfl⟩ := List.exists_cons_of_ne_nil hSome
  have hd : isKeyChar d = true := hKey d (by simp)
  have hNoKey : isKeyChar c = false := by simp [isKeyChar, hc]
  have hLeft : attributesFrom (.key scanned) (c :: blanks ++ (d :: chars ++ rest)) =
      attributesFrom (.key [d]) (chars ++ rest) := by
    rw [List.cons_append, attributesFrom, if_neg (by simp [hNoKey]), if_pos hc,
      attributesFrom_blanks (.inr (.inl ⟨_, rfl⟩)) hBlanks, List.cons_append, attributesFrom, if_pos hd]
  rw [hLeft, attributesFrom_blanks (.inl rfl) hFront, List.cons_append, attributesFrom, if_pos hd]

theorem isKeyChar_of_isTagNameChar {c : Char} (h : isTagNameChar c = true) : isKeyChar c = true := by
  cases hKey : isKeyChar c with
  | true => rfl
  | false =>
      simp only [isKeyChar, Bool.not_eq_false', Bool.or_eq_true, beq_iff_eq] at hKey
      rcases hKey with ((hBlank | rfl) | rfl) | rfl
      · rw [isTagNameChar_of_isBlank hBlank] at h
        cases h
      all_goals exact absurd h (by decide)

variable {opening : Opening}

/-- The attributes of a tag are also found from the beginning of the tag: its name is none. -/
theorem Opening.Readable.attributesIn_text (h : opening.Readable) : attributesIn opening.text = opening.pairs := by
  have hTagChars : ∀ c ∈ opening.tag, isKeyChar c = true := fun c hc =>
    isKeyChar_of_isTagNameChar (h.tag.isTagNameChar c hc)
  have hTagQuote : '"' ∉ '<' :: opening.tag := by
    intro hMember
    rcases List.mem_cons.mp hMember with hFirst | hMember
    · cases hFirst
    · exact absurd (hTagChars _ hMember) (by decide)
  have hEndQuote : '"' ∉ opening.ending ++ ['>'] := by
    rw [Opening.ending]
    have hBack : '"' ∉ opening.back := not_mem_of_blanks h.back (by decide)
    cases opening.selfClosing <;> simp [hBack]
  have hText : opening.text = ('<' :: (opening.tag ++ opening.attributesText)) ++ (opening.ending ++ ['>']) := by
    simp [Opening.text, Opening.inside]
  have hAttributes := h.attributesIn_append (s := []) (List.forall_mem_nil _)
  rw [List.append_nil] at hAttributes
  rw [attributesIn, hText, attributesFrom_append hEndQuote]
  cases hWritten : opening.attributes with
  | nil =>
      have hNone : opening.attributesText = [] := by rw [Opening.attributesText, hWritten]; rfl
      rw [hNone, List.append_nil, attributesFrom_of_not_mem hTagQuote, Opening.pairs, hWritten]
      rfl
  | cons a others =>
      have ha := h.attributes a (by simp [hWritten])
      have hScan : attributesFrom .outside ('<' :: (opening.tag ++ opening.attributesText)) =
          attributesFrom (.key (opening.tag.reverse ++ ['<'])) opening.attributesText := by
        rw [attributesFrom, if_pos (by decide), attributesFrom_key hTagChars]
      rw [hScan, ← hAttributes, attributesIn, Opening.attributesText, hWritten, List.flatMap_cons,
        WrittenAttribute.text]
      simp only [List.append_assoc]
      exact attributesFrom_key_apart ha.front ha.apart ha.key.nonempty ha.key.chars _ _

/-- The tag of an image begins with its name. -/
theorem Opening.svg_append (hTag : opening.tag = "svg".toList) (rest : Text) :
    opening.text ++ rest = "<svg".toList ++ (opening.inside ++ '>' :: rest) := by
  rw [Opening.text_append, hTag]
  rfl

section Refusals

variable {s : Text} {cause : ReadError}

/-- An element that fails to be read does not fail for want of a root. -/
theorem ne_noRootElement_of_readElement? {readInside : Text → Except ReadError (List Node)}
    (hInside : ∀ {t cause}, readInside t = .error cause → cause ≠ .noRootElement)
    (h : readElement? readInside s = .error cause) : cause ≠ .noRootElement := by
  rw [readElement?] at h
  split at h
  · cases h
  · dsimp only at h
    split at h
    · cases h
    · rcases bind_eq_error.mp h with hFailed | ⟨children, -, hDone⟩
      · exact hInside hFailed
      · cases hDone

theorem ne_noRootElement_of_readNodesWithin {n : Nat} (h : readNodesWithin n s = .error cause) :
    cause ≠ .noRootElement := by
  induction n generalizing s cause with
  | zero => cases h
  | succ n ih =>
      rw [readNodesWithin] at h
      split at h
      · cases h
      · split at h
        · rcases bind_eq_error.mp h with hFailed | ⟨found, -, hFound⟩
          · exact ne_noRootElement_of_readElement? ih hFailed
          · split at hFound
            · cases hFound
              exact ReadError.noConfusion
            · rcases bind_eq_error.mp hFound with hFailed | ⟨others, -, hDone⟩
              · exact ih hFailed
              · cases hDone
        · rcases bind_eq_error.mp h with hFailed | ⟨others, -, hDone⟩
          · exact ih hFailed
          · cases hDone

/-- A text that begins with a root tag is not refused for want of a root. -/
theorem ne_noRootElement_of_rootTag {tag : NamedTag} (hTag : Component.rootTag? s = some tag)
    (h : readRoot s = .error cause) : cause ≠ .noRootElement := by
  obtain ⟨rfl, hEnds⟩ := rootTag?_eq_some hTag
  rw [readRoot_svg hEnds] at h
  split at h
  · cases h
  · rename_i body after hBody
    cases hNodes : readNodes body with
    | error found =>
        rw [hNodes] at h
        cases h
        exact ne_noRootElement_of_readNodesWithin hNodes
    | ok children =>
        rw [hNodes] at h
        cases h

end Refusals

end Markup

namespace Component

variable {optimize : Optimizer} {spec : Spec} {markup optimized text rest : Text} {opening : Opening}

/-- What is put behind the opening tag of an annotated root: a title if a spec asks for one, and with it the closing
tag of a root that has none. -/
def putBehind (spec : Spec) (selfClosing : Bool) : Text :=
  if spec.accessibility = .title then
    "<title>".toList ++ escapeText (readableName spec.componentName) ++ "</title>".toList ++
      if selfClosing then "</svg>".toList else []
  else []

/-- Attributes are written in the opening tag alone. -/
theorem exists_attributed_append (h : opening.Readable) (hTag : opening.tag = "svg".toList) (spec : Spec)
    (rest : Text) :
    ∃ written : Opening, attributed spec (opening.text ++ rest) = written.text ++ rest ∧ written.Readable ∧
      written.tag = "svg".toList ∧ written.selfClosing = opening.selfClosing ∧
      written.pairs = opening.pairs.merge (spec.extraAttributes.mapValues escapeAttribute) := by
  rw [attributed]
  split
  · rename_i hNone
    rw [List.isEmpty_iff.mp hNone]
    exact ⟨opening, rfl, h, hTag, rfl, rfl⟩
  · exact ⟨merged spec.extraAttributes opening, withAttributes_opening h hTag _ rest,
      merged_readable h fun _ => isKey_of_mem_extraAttributes, hTag, rfl, Opening.plain_pairs _ _ _⟩

/-- A title is put behind the opening tag, which is one that does not close itself afterwards. -/
theorem withTitle_append (h : opening.Readable) (hTag : opening.tag = "svg".toList) (title rest : Text) :
    withTitle title (opening.text ++ rest) = (opened opening).text ++
      (writtenTitle title ++ ((if opening.selfClosing then "</svg>".toList else []) ++ rest)) := by
  rw [Opening.svg_append hTag, withTitle_svg h.endsName]
  cases hClosing : opening.selfClosing with
  | true =>
      have hKept : Text.trimEnd opening.inside.dropLast = opening.attributesText := by
        rw [Opening.inside, Opening.ending, hClosing, if_pos rfl, ← List.append_assoc, List.dropLast_concat,
          Text.trimEnd_append_blanks h.back, h.trimEnd_attributesText]
      have hInside : (opened opening).inside = opening.attributesText := by
        rw [opened, hClosing, if_pos rfl]
        simp [Opening.inside, Opening.ending, Opening.attributesText]
      have hName : (opened opening).tag = "svg".toList := by
        rw [opened]
        split <;> exact hTag
      rw [if_pos ((inside_last h).mpr hClosing), Opening.svg_append hName, hInside, hKept]
      rfl
  | false =>
      have hOpen : opened opening = opening := if_neg (by simp [hClosing])
      have hLast : opening.inside.getLast? ≠ some '/' := fun hSlash => by
        rw [(inside_last h).mp hSlash] at hClosing
        cases hClosing
      rw [if_neg hLast, hOpen, Opening.svg_append hTag]
      rfl

theorem putBehind_eq (spec : Spec) (selfClosing : Bool) :
    putBehind spec selfClosing = match spec.titleText? with
      | some title => writtenTitle title ++ if selfClosing then "</svg>".toList else []
      | none => [] := by
  rw [putBehind, Spec.titleText?]
  split
  · simp only [writtenTitle_eq, List.append_assoc]
  · rfl

/-- Annotating edits the root's opening tag and nothing behind it. The tag keeps its attributes, with those that a spec
asks for set in place or behind them; it closes itself as before, unless a title is put behind it. -/
theorem annotated_edits_opening (hOptimized : optimize markup = .ok (opening.text ++ rest)) (h : opening.Readable)
    (hTag : opening.tag = "svg".toList) (spec : Spec) :
    ∃ tag inside,
      annotated optimize spec markup =
        .ok (tag ++ (putBehind spec (Text.endsWith opening.text "/>".toList) ++ rest)) ∧
      rootTag? tag = some ⟨false, inside, []⟩ ∧
      (Text.endsWith tag "/>".toList = true ↔
        Text.endsWith opening.text "/>".toList = true ∧ spec.accessibility ≠ .title) ∧
      attributesIn tag = opening.pairs.merge (spec.extraAttributes.mapValues escapeAttribute) := by
  have hRoot : (rootTag? (opening.text ++ rest)).isNone = false := by
    rw [rootTag?_opening h hTag]
    rfl
  have hAlone : ∀ {o : Opening}, o.Readable → o.tag = "svg".toList → rootTag? o.text = some ⟨false, o.inside, []⟩ := by
    intro o ho hName
    simpa using rootTag?_opening ho hName []
  obtain ⟨written, hWritten, hReadable, hName, hClosing, hPairs⟩ := exists_attributed_append h hTag spec rest
  rw [annotated_eq hOptimized hRoot, ← attributed, hWritten, putBehind_eq, endsWith_opening h, ← hClosing]
  have hKind : spec.titleText?.isSome = decide (spec.accessibility = .title) := by
    rw [Spec.titleText?]
    split <;> simp_all
  cases hTitle : spec.titleText? with
  | none =>
      have hOther : spec.accessibility ≠ .title := by simpa [hTitle] using hKind.symm
      refine ⟨written.text, written.inside, rfl, hAlone hReadable hName, ?_, ?_⟩
      · rw [endsWith_opening hReadable, and_iff_left hOther]
      · rw [hReadable.attributesIn_text, hPairs]
  | some title =>
      have hSame : spec.accessibility = .title := by simpa [hTitle] using hKind.symm
      have hOpened : (opened written).tag = "svg".toList ∧ (opened written).pairs = written.pairs ∧
          (opened written).selfClosing = false := by
        rw [opened]
        split
        · exact ⟨hName, rfl, rfl⟩
        · rename_i hOpen
          exact ⟨hName, rfl, by simpa using hOpen⟩
      have hText := withTitle_append hReadable hName title rest
      refine ⟨(opened written).text, (opened written).inside, ?_, hAlone (opened_readable hReadable) hOpened.1, ?_, ?_⟩
      · simp only [hText, List.append_assoc]
      · rw [endsWith_opening (opened_readable hReadable), hOpened.2.2]
        simp [hSame]
      · rw [(opened_readable hReadable).attributesIn_text, hOpened.2.1, hPairs]

/-- An opening tag with what looks like ends of tags in a value, and with a key that stands there twice. -/
def repeatingTag : Opening :=
  .plain "svg".toList [("a".toList, ">/>".toList), ("data-icon".toList, "x".toList), ("data-icon".toList, "y".toList)]
    true

/-- Nothing that looks like the end of a tag in a value is one, and what is behind the tag need not be markup. -/
theorem annotated_edits_opening_before_scraps :
    ∃ tag inside,
      annotated canonicalOptimizer ⟨"ArrowUp".toList, "a&b".toList, .title, true, false, .inline⟩
          "<svg a='>/>' data-icon=\"x\" data-icon=\"y\" />&<b \"".toList =
        .ok (tag ++ ("<title>Arrow Up</title></svg>".toList ++ "&<b \"".toList)) ∧
      rootTag? tag = some ⟨false, inside, []⟩ ∧ Text.endsWith tag "/>".toList = false ∧
      attributesIn tag = [("a".toList, ">/>".toList), ("data-icon".toList, "a&amp;b".toList),
        ("data-icon".toList, "y".toList)] := by
  have hReadable : repeatingTag.Readable := Opening.plain_readable isTagName_svg (by decide) true
  have hOptimized : canonicalOptimizer "<svg a='>/>' data-icon=\"x\" data-icon=\"y\" />&<b \"".toList =
      .ok (repeatingTag.text ++ "&<b \"".toList) := rfl
  obtain ⟨tag, inside, hText, hTag, hEnds, hAttributes⟩ := annotated_edits_opening hOptimized hReadable rfl
    ⟨"ArrowUp".toList, "a&b".toList, .title, true, false, .inline⟩
  refine ⟨tag, inside, hText, hTag, ?_, hAttributes⟩
  rw [Bool.eq_false_iff]
  exact fun hSlash => (hEnds.mp hSlash).2 rfl

/-- An annotated text begins with a root tag. -/
theorem exists_rootTag_annotated (h : annotated optimize spec markup = .ok text) : ∃ tag, rootTag? text = some tag := by
  obtain ⟨optimized, hOptimized, hText⟩ := bind_eq_ok.mp h
  cases hTag : rootTag? optimized with
  | none =>
      rw [hTag] at hText
      cases hText
  | some tag =>
      obtain ⟨tag', hTag', -⟩ := exists_rootTag_attributed spec hTag
      rw [annotated_eq hOptimized (by rw [hTag]; rfl), ← attributed] at h
      cases hTitle : spec.titleText? with
      | none =>
          rw [hTitle] at h
          cases h
          exact ⟨tag', hTag'⟩
      | some title =>
          rw [hTitle] at h
          cases h
          exact exists_rootTag_withTitle hTag' title

end Component

namespace Framework

open Component

variable {optimize : Optimizer} {spec : Spec} {markup : Text}

/-- Where a text is annotated, there is nothing left to be checked of the root that is read from it. -/
theorem annotatedRoot_eq_bind (optimize : Optimizer) (spec : Spec) (markup : Text) :
    annotatedRoot optimize spec markup =
      (annotated optimize spec markup).bind fun text => (readRoot text).mapError .markup := by
  rw [annotatedRoot]
  cases hText : annotated optimize spec markup with
  | error cause => rfl
  | ok text =>
      obtain ⟨tag, hTag⟩ := exists_rootTag_annotated hText
      cases hRead : readRoot text with
      | error cause =>
          have hOther := ne_noRootElement_of_rootTag hTag hRead
          cases cause with
          | noRootElement => exact absurd rfl hOther
          | unexpected found =>
              simp only [bind, Except.bind, hRead]
              rfl
      | ok root =>
          have hSvg : (root.tag == "svg".toList) = true := by simpa using tag_of_readRoot_svg hTag hRead
          simp only [bind, Except.bind, hRead, if_pos hSvg]
          rfl

/-- A text that annotating gives is never without a root, and the root that is read from it is called `svg`. So
frameworks that write JSX make their trees as if they checked neither, and an icon is without a root to them just where
annotating finds none. -/
theorem annotated_is_rooted (optimize : Optimizer) (spec : Spec) (markup : Text) :
    (∀ text, annotated optimize spec markup = .ok text →
      readRoot text ≠ .error .noRootElement ∧ ∀ root, readRoot text = .ok root → root.tag = "svg".toList) ∧
    annotatedRoot optimize spec markup =
      (annotated optimize spec markup).bind (fun text => (readRoot text).mapError .markup) ∧
    ∀ framework : Framework, framework ≠ .vue → ∀ typescript label,
      framework.transform optimize spec typescript markup = .error (.missingRoot label) ↔
        annotated optimize spec markup = .error (.missingRoot label) := by
  refine ⟨fun text hText => ?_, annotatedRoot_eq_bind optimize spec markup, fun framework hJsx typescript label => ?_⟩
  · obtain ⟨tag, hTag⟩ := exists_rootTag_annotated hText
    exact ⟨fun hNone => ne_noRootElement_of_rootTag hTag hNone rfl, fun root hRead => tag_of_readRoot_svg hTag hRead⟩
  · rw [← failure?_eq_some, failure?_transform, if_neg hJsx, failure?_eq_some, annotatedRoot_eq_bind]
    cases annotated optimize spec markup with
    | error cause =>
        constructor
        all_goals
          intro h
          cases h
          rfl
    | ok text =>
        have hNever : ((readRoot text).mapError TransformError.markup) ≠ .error (.missingRoot label) := by
          cases readRoot text <;> rintro ⟨⟩
        exact iff_of_false hNever (by rintro ⟨⟩)

/-- A key in quotation marks that the scan for attributes finds in a value has a `>` in it, so that the tag that is
written with it ends early: there is a root still. -/
theorem annotated_is_rooted_with_angle_in_key :
    annotated canonicalOptimizer ⟨"A".toList, "a".toList, .hidden, false, false, .inline⟩
        "<svg x\"y>z=\"w\"\"/>".toList = .ok "<svg y>z=\"w\" aria-hidden=\"true\"/>".toList ∧
      readRoot "<svg y>z=\"w\" aria-hidden=\"true\"/>".toList ≠ .error .noRootElement ∧
      ∀ root, readRoot "<svg y>z=\"w\" aria-hidden=\"true\"/>".toList = .ok root → root.tag = "svg".toList := by
  have hText : annotated canonicalOptimizer ⟨"A".toList, "a".toList, .hidden, false, false, .inline⟩
      "<svg x\"y>z=\"w\"\"/>".toList = .ok "<svg y>z=\"w\" aria-hidden=\"true\"/>".toList :=
    eq_ok_of_toOption (by decide +kernel)
  exact ⟨hText, (annotated_is_rooted _ _ _).1 _ hText⟩

end Framework

end IconRegistry
