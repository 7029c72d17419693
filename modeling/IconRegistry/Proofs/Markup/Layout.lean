import IconRegistry.Proofs.Markup.CanonicalTag
import IconRegistry.Proofs.Markup.Reading
import IconRegistry.Proofs.Text.Splitting

/-! Layouts of a document: what may stand in front of the root and between nodes, and what is left of it once prologs,
document types and comments are dropped. Each of these passes turns one layout of a tree into another one. -/
namespace IconRegistry.Markup

open Text (isBlank Becomes Blanks splitAtText? substitute)

/-- Texts of comments that hold nothing that begins or ends anything else. -/
structure IsComment (content : Text) : Prop where
  dashes : ¬"--".toList <:+: content
  instruction : ¬"<?".toList <:+: content
  doctype : ¬"<!DOCTYPE".toList <:+: content.map Char.toUpper

/-- Blanks and comments. -/
inductive Filler : Text → Prop
  | nil : Filler []
  | blank {c : Char} {s : Text} : isBlank c = true → Filler s → Filler (c :: s)
  | comment {content s : Text} : IsComment content → Filler s →
      Filler ("<!--".toList ++ (content ++ "-->".toList) ++ s)

theorem Filler.append {s t : Text} (h : Filler s) (h' : Filler t) : Filler (s ++ t) := by
  induction h with
  | nil => exact h'
  | blank hc _ ih => exact .blank hc ih
  | comment hComment _ ih =>
      rw [List.append_assoc]
      exact .comment hComment ih

/-- The style of markup by many hands, with certain gaps between nodes. -/
def Style.loose (gap : Text → Prop) : Style where
  gap := gap
  opening opening := opening.WellFormed ∧ ∀ a ∈ opening.attributes, '\'' ∉ a.key ∧ '<' ∉ a.value ∧ '>' ∉ a.value
  closing := Blanks

section Dropping

variable {opening closing content s : Text} {c : Char}

def dropping (opening closing s : Text) : Option (Text × Nat) := do
  let inside ← Text.dropFront? opening s
  let (_, after) ← splitAtText? closing inside
  return ([], s.length - after.length - 1)

theorem dropEnclosed_eq (opening closing : Text) :
    dropEnclosed opening closing = substitute (dropping opening closing) := rfl

theorem dropping_of_not_prefix (h : ¬opening <+: s) : dropping opening closing s = none := by
  cases hFront : Text.dropFront? opening s with
  | none => simp [dropping, hFront]
  | some inside => exact absurd ⟨inside, (Text.eq_append_of_dropFront? hFront).symm⟩ h

/-- What is between two marks is dropped with them. -/
theorem becomes_dropping (hOpening : opening ≠ []) (hClosing : closing ≠ [])
    (h : ¬closing <:+: content ++ closing.dropLast) :
    Becomes (dropping opening closing) (opening ++ (content ++ closing)) [] := by
  obtain ⟨c, front, rfl⟩ := List.exists_cons_of_ne_nil hOpening
  rw [List.cons_append]
  refine .of_match fun rest => ?_
  have hText : c :: (front ++ (content ++ closing) ++ rest) = c :: front ++ (content ++ (closing ++ rest)) := by simp
  have hCovered : (c :: front ++ (content ++ (closing ++ rest))).length - rest.length - 1 =
      (front ++ (content ++ closing)).length := by
    simp only [List.length_append, List.length_cons]
    omega
  rw [hText, dropping, Text.dropFront?_append]
  simp only [bind, Option.bind_some, Text.splitAtText?_append hClosing h, hCovered]
  rfl

def droppingDoctype (s : Text) : Option (Text × Nat) := do
  let inside ← if (s.take 9).map Char.toUpper == "<!DOCTYPE".toList then some (s.drop 9) else none
  let (_, after) ← splitAtText? ['>'] inside
  return ([], s.length - after.length - 1)

theorem dropDoctypes_eq : dropDoctypes = substitute droppingDoctype := rfl

theorem droppingDoctype_of_not_prefix (h : ¬"<!DOCTYPE".toList <+: s.map Char.toUpper) : droppingDoctype s = none := by
  have hOther : ((s.take 9).map Char.toUpper == "<!DOCTYPE".toList) = false := by
    rw [beq_eq_false_iff_ne]
    intro hSame
    rw [List.map_take] at hSame
    exact h (hSame ▸ List.take_prefix 9 _)
  rw [droppingDoctype, hOther]
  rfl

/-- The keyword of a document type may be written in any letter case. -/
theorem becomes_droppingDoctype {word : Text} (hWord : word.map Char.toUpper = "DOCTYPE".toList) (h : '>' ∉ content) :
    Becomes droppingDoctype ("<!".toList ++ word ++ (content ++ ">".toList)) [] := by
  have hLength : word.length = 7 := by simpa using congrArg List.length hWord
  have hParts : "<!".toList ++ word ++ (content ++ ">".toList) = '<' :: ('!' :: word ++ (content ++ ['>'])) := rfl
  rw [hParts]
  refine .of_match fun rest => ?_
  have hText : '<' :: ('!' :: word ++ (content ++ ['>']) ++ rest) = '<' :: '!' :: word ++ (content ++ '>' :: rest) := by
    simp
  have hNine : ('<' :: '!' :: word).length = 9 := by simp [hLength]
  have hKeyword : (('<' :: '!' :: word).map Char.toUpper == "<!DOCTYPE".toList) = true := by
    rw [List.map_cons, List.map_cons, hWord]
    decide
  have hCovered : ('<' :: '!' :: word ++ (content ++ '>' :: rest)).length - rest.length - 1 =
      ('!' :: word ++ (content ++ ['>'])).length := by
    simp only [List.length_append, List.length_cons, List.length_nil]
    omega
  rw [hText, droppingDoctype, List.take_append_of_le_length (by omega), List.drop_append_of_le_length (by omega)]
  rw [← hNine, List.take_length, List.drop_length, hKeyword]
  simp only [bind, if_true, Option.bind_some, List.nil_append, Text.splitAtText?_char h, hCovered]
  rfl

end Dropping

section Passes

variable {step : Text → Option (Text × Nat)} {s t out : Text} {c : Char}

/-- Where no match begins, a text stays, if that can be told with the first character behind it. -/
theorem becomes_before (h : ∀ u rest, u ≠ [] → u <:+ s → step (u ++ c :: rest) = none)
    (hBehind : Becomes step (c :: t) out) : Becomes step (s ++ c :: t) (s ++ out) := by
  intro rest
  rw [List.append_assoc, List.cons_append, Text.substitute_append_of_none fun u => h u (t ++ rest),
    List.append_assoc]
  exact congrArg (s ++ ·) (hBehind rest)

/-- A text stays where no mark begins in it. -/
theorem becomes_unmarked {opening closing : Text} (h : ¬opening <:+: s) (hc : c ∉ opening)
    (hBehind : Becomes (dropping opening closing) [c] [c]) :
    Becomes (dropping opening closing) (s ++ [c]) (s ++ [c]) :=
  becomes_before (fun _ rest _ hSuffix => dropping_of_not_prefix (Text.not_prefix_append h hc hSuffix rest)) hBehind

/-- A step that does nothing in tags and texts. -/
structure LeavesTags (step : Text → Option (Text × Nat)) : Prop where
  char : ∀ {c}, c ≠ '<' → ∀ rest, step (c :: rest) = none
  tag : ∀ {c}, c = '/' ∨ c.isAlpha = true → ∀ rest, step ('<' :: c :: rest) = none

namespace LeavesTags

/-- A text without tags stays as it is under a step that leaves tags. -/
theorem becomes_free (h : LeavesTags step) (hs : '<' ∉ s) : Becomes step s s :=
  .self fun _ hc => h.char fun hSame => hs (hSame ▸ hc)

theorem becomes_tag (h : LeavesTags step) (hc : c = '/' ∨ c.isAlpha = true) (hs : '<' ∉ c :: s) :
    Becomes step ('<' :: c :: s) ('<' :: c :: s) :=
  .cons (fun rest => h.tag hc (s ++ rest)) (h.becomes_free hs)

variable {opening : Opening} {tag blanks : Text}

theorem becomes_opening (h : LeavesTags step) (hOpening : opening.WellFormed)
    (hValues : ∀ a ∈ opening.attributes, '<' ∉ a.value) : Becomes step opening.text opening.text := by
  obtain ⟨c, rest, hTag, hLetter⟩ := hOpening.tag.letter
  have hFree := hOpening.angle_not_mem hValues
  rw [Opening.text]
  rw [hTag] at hFree ⊢
  exact h.becomes_tag (.inr hLetter) hFree

theorem becomes_closingTag (h : LeavesTags step) (hTag : IsTagName tag) (hBlanks : Blanks blanks) :
    Becomes step (closingTag tag blanks) (closingTag tag blanks) :=
  h.becomes_tag (.inl rfl) (closingTag_angle_not_mem hTag hBlanks)

end LeavesTags

/-- Dropping what begins with neither a letter nor a slash leaves tags. -/
theorem leavesTags_dropping {front closing : Text} {c : Char} (hc : c ≠ '/' ∧ c.isAlpha = false) :
    LeavesTags (dropping ('<' :: c :: front) closing) where
  char hOther rest := dropping_of_not_prefix fun h => hOther (List.cons_prefix_cons.mp h).1.symm
  tag := by
    intro d hd rest
    refine dropping_of_not_prefix fun h => ?_
    obtain rfl : c = d := (List.cons_prefix_cons.mp (List.cons_prefix_cons.mp h).2).1
    rcases hd with rfl | hd
    · exact hc.1 rfl
    · rw [hc.2] at hd
      cases hd

/-- What is no letter comes from itself only. -/
theorem eq_of_toUpper_eq {c d : Char} (h : c.toUpper = d) (hd : d.isUpper = false) : c = d := by
  by_cases hLower : 97 ≤ c.toNat ∧ c.toNat ≤ 122
  · have hCodes : ∀ n < 123, 97 ≤ n → (Char.ofNat n).toUpper.isUpper = true := by decide
    have hUpper := hCodes c.toNat (by omega) hLower.1
    rw [Char.ofNat_toNat, h, hd] at hUpper
    cases hUpper
  · have hSame : c.toUpper = c := dif_neg hLower
    rwa [hSame] at h

theorem leavesTags_droppingDoctype : LeavesTags droppingDoctype where
  char := by
    intro c hOther rest
    refine droppingDoctype_of_not_prefix fun h => hOther ?_
    rw [List.map_cons] at h
    exact eq_of_toUpper_eq (List.cons_prefix_cons.mp h).1.symm (by decide)
  tag := by
    intro c hc rest
    refine droppingDoctype_of_not_prefix fun h => ?_
    rw [List.map_cons, List.map_cons] at h
    have hMark := (List.cons_prefix_cons.mp (List.cons_prefix_cons.mp h).2).1
    obtain rfl := eq_of_toUpper_eq hMark.symm (by decide)
    rcases hc with hc | hc <;> exact absurd hc (by decide)

/-- Neither the mark that begins a comment nor what stands in it is the beginning of a match. -/
theorem LeavesTags.becomes_comment (h : LeavesTags step) (hOpen : ∀ rest, step ('<' :: '!' :: '-' :: rest) = none)
    {content : Text} (hContent : ∀ u rest, u ≠ [] → u <:+ content → step (u ++ '-' :: rest) = none) :
    Becomes step ("<!--".toList ++ (content ++ "-->".toList)) ("<!--".toList ++ (content ++ "-->".toList)) := by
  have hBehind : Becomes step ("!--".toList) ("!--".toList) := h.becomes_free (by decide)
  have hEnd : Becomes step ('-' :: "->".toList) ('-' :: "->".toList) := h.becomes_free (by decide)
  have hFront : Becomes step ("<!--".toList) ("<!--".toList) := .cons (fun rest => hOpen ('-' :: rest)) hBehind
  exact hFront.append (becomes_before hContent hEnd)

/-- A comment stays where processing instructions are dropped. -/
theorem becomes_comment_dropping {content : Text} (h : IsComment content) :
    Becomes (dropping "<?".toList "?>".toList) ("<!--".toList ++ (content ++ "-->".toList))
      ("<!--".toList ++ (content ++ "-->".toList)) := by
  refine (leavesTags_dropping (by decide)).becomes_comment (fun rest => dropping_of_not_prefix fun hPrefix => ?_)
    fun u rest _ hSuffix => dropping_of_not_prefix (Text.not_prefix_append h.instruction (by decide) hSuffix rest)
  exact absurd (List.cons_prefix_cons.mp (List.cons_prefix_cons.mp hPrefix).2).1 (by decide)

/-- A comment stays where document types are dropped. -/
theorem becomes_comment_droppingDoctype {content : Text} (h : IsComment content) :
    Becomes droppingDoctype ("<!--".toList ++ (content ++ "-->".toList))
      ("<!--".toList ++ (content ++ "-->".toList)) := by
  refine leavesTags_droppingDoctype.becomes_comment (fun rest => droppingDoctype_of_not_prefix fun hPrefix => ?_)
    fun u rest _ hSuffix => droppingDoctype_of_not_prefix ?_
  · have hThird := (List.cons_prefix_cons.mp (List.cons_prefix_cons.mp (List.cons_prefix_cons.mp hPrefix).2).2).1
    exact absurd hThird (by decide)
  · rw [List.map_append, List.map_cons]
    exact Text.not_prefix_append h.doctype (by decide) (hSuffix.map _) _

theorem becomes_comment_dropped {content : Text} (h : IsComment content) :
    Becomes (dropping "<!--".toList "-->".toList) ("<!--".toList ++ (content ++ "-->".toList)) [] := by
  have hWithin : ¬"--".toList ++ ['>'] <:+: content :=
    fun hInfix => h.dashes ((List.prefix_append _ _).isInfix.trans hInfix)
  exact becomes_dropping (by decide) (by decide) (Text.not_infix_append hWithin (by decide))

/-- What fills the place between tags stays where comments do. -/
theorem Filler.becomes_self (h : Filler s) (hLeaves : LeavesTags step)
    (hComment : ∀ content, IsComment content →
      Becomes step ("<!--".toList ++ (content ++ "-->".toList)) ("<!--".toList ++ (content ++ "-->".toList))) :
    Becomes step s s := by
  induction h with
  | nil => exact .nil
  | blank hc _ ih =>
      refine .cons (fun rest => hLeaves.char ?_ _) ih
      rintro rfl
      exact absurd hc (by decide)
  | comment hContent _ ih => exact (hComment _ hContent).append ih

/-- Comments are dropped from fillers. -/
theorem Filler.becomes_blanks (h : Filler s) :
    ∃ blanks, Blanks blanks ∧ Becomes (dropping "<!--".toList "-->".toList) s blanks := by
  have hLeaves : LeavesTags (dropping "<!--".toList "-->".toList) := leavesTags_dropping (by decide)
  induction h with
  | nil => exact ⟨[], List.forall_mem_nil _, .nil⟩
  | blank hc _ ih =>
      obtain ⟨blanks, hBlanks, hRest⟩ := ih
      refine ⟨_ :: blanks, List.forall_mem_cons.mpr ⟨hc, hBlanks⟩, .cons (fun rest => hLeaves.char ?_ _) hRest⟩
      rintro rfl
      exact absurd hc (by decide)
  | comment hContent _ ih =>
      obtain ⟨blanks, hBlanks, hRest⟩ := ih
      exact ⟨blanks, hBlanks, (becomes_comment_dropped hContent).append hRest⟩

end Passes

/-- A step turns whatever is written in one style into something written in another one, values changed. -/
structure Style.Turns (step : Text → Option (Text × Nat)) (value : Text → Text) (style style' : Style) : Prop where
  gap : ∀ {gap}, style.gap gap → ∃ gap', style'.gap gap' ∧ Becomes step gap gap'
  content : ∀ {content}, IsContent content → Becomes step content content
  tag : ∀ {opening}, style.opening opening → IsTagName opening.tag
  opening : ∀ {opening}, style.opening opening → ∃ opening', style'.opening opening' ∧ opening'.tag = opening.tag ∧
    opening'.selfClosing = opening.selfClosing ∧ opening'.pairs = opening.pairs.mapValues value ∧
    Becomes step opening.text opening'.text
  closing : ∀ {tag blanks}, IsTagName tag → style.closing blanks → ∃ blanks', style'.closing blanks' ∧
    Becomes step (closingTag tag blanks) (closingTag tag blanks')

section Turns

variable {step : Text → Option (Text × Nat)} {value : Text → Text} {style style' : Style} {nodes : List Node} {s : Text}

/-- Nodes that begin with no text do not begin with one when they are mapped. -/
theorem mapAll_head_ne_text {content : Text → Text} (h : ∀ other, nodes.head? ≠ some (.text other)) (other : Text) :
    (Node.mapAll value content nodes).head? ≠ some (.text other) := by
  cases nodes with
  | nil => simp [Node.mapAll]
  | cons node rest =>
      cases node with
      | text t => exact absurd rfl (h t)
      | element => simp [Node.mapAll, Node.map]

/-- An element is mapped as the tag that it is written with. -/
theorem Opening.element_map {opening opening' : Opening} (hTag : opening'.tag = opening.tag)
    (hClosing : opening'.selfClosing = opening.selfClosing) (hPairs : opening'.pairs = opening.pairs.mapValues value)
    (children : List Node) :
    (opening.element children).toNode.map value id = (opening'.element (Node.mapAll value id children)).toNode := by
  rw [Opening.element, Opening.element, Element.toNode, Element.toNode, Node.map, hTag, hClosing, hPairs]

/-- A step that turns one style into another turns what is written, node by node. -/
theorem Writes.turns (h : Writes style nodes s) (hTurns : style.Turns step value style') :
    ∃ s', Writes style' (Node.mapAll value id nodes) s' ∧ Becomes step s s' := by
  induction h with
  | nil hGap =>
      obtain ⟨gap, hGap, hStep⟩ := hTurns.gap hGap
      exact ⟨gap, .nil hGap, hStep⟩
  | text hGap hContent hApart _ ih =>
      obtain ⟨gap, hGap, hStep⟩ := hTurns.gap hGap
      obtain ⟨s, hRest, hBehind⟩ := ih
      exact ⟨_, .text hGap hContent (mapAll_head_ne_text hApart) hRest,
        hStep.append ((hTurns.content hContent).append hBehind)⟩
  | bodiless hGap hOpening hClosing _ ih =>
      obtain ⟨gap, hGap, hStep⟩ := hTurns.gap hGap
      obtain ⟨opening, hOpening, hTag, hSame, hPairs, hText⟩ := hTurns.opening hOpening
      obtain ⟨s, hRest, hBehind⟩ := ih
      rw [Node.mapAll, Opening.element_map hTag hSame hPairs]
      exact ⟨_, .bodiless hGap hOpening (hSame.trans hClosing) hRest, hStep.append (hText.append hBehind)⟩
  | body hGap hOpening hOpen _ hBlanks _ ihInner ih =>
      have hName := hTurns.tag hOpening
      obtain ⟨gap, hGap, hStep⟩ := hTurns.gap hGap
      obtain ⟨opening, hOpening, hTag, hSame, hPairs, hText⟩ := hTurns.opening hOpening
      obtain ⟨inner, hInner, hWithin⟩ := ihInner
      obtain ⟨blanks, hBlanks, hEnd⟩ := hTurns.closing hName hBlanks
      obtain ⟨s, hRest, hBehind⟩ := ih
      rw [Node.mapAll, Opening.element_map hTag hSame hPairs]
      refine ⟨_, .body hGap hOpening (hSame.trans hOpen) hInner hBlanks hRest, ?_⟩
      rw [hTag]
      exact hStep.append (hText.append (hWithin.append (hEnd.append hBehind)))

/-- A step that leaves tags turns gaps and nothing else. -/
theorem LeavesTags.turns (h : LeavesTags step) {gap gap' : Text → Prop}
    (hGap : ∀ {s}, gap s → ∃ s', gap' s' ∧ Becomes step s s') :
    (Style.loose gap).Turns step id (Style.loose gap') where
  gap := hGap
  content hContent := h.becomes_free hContent.angle
  tag hOpening := hOpening.1.tag
  opening {opening} hOpening := by
    have hPairs : opening.pairs = opening.pairs.mapValues id := (List.map_id _).symm
    exact ⟨opening, hOpening, rfl, rfl, hPairs, h.becomes_opening hOpening.1 fun a ha => (hOpening.2 a ha).2.1⟩
  closing hTag hBlanks := ⟨_, hBlanks, h.becomes_closingTag hTag hBlanks⟩

theorem Writes.prepend {gap : Text → Prop} (hAppend : ∀ {s t}, gap s → gap t → gap (s ++ t))
    (h : Writes (.loose gap) nodes s) {front : Text} (hFront : gap front) : Writes (.loose gap) nodes (front ++ s) := by
  cases h with
  | nil hGap => exact .nil (hAppend hFront hGap)
  | text hGap hContent hApart hRest =>
      rw [← List.append_assoc]
      exact .text (hAppend hFront hGap) hContent hApart hRest
  | bodiless hGap hOpening hClosing hRest =>
      rw [← List.append_assoc]
      exact .bodiless (hAppend hFront hGap) hOpening hClosing hRest
  | body hGap hOpening hOpen hInner hBlanks hRest =>
      rw [← List.append_assoc]
      exact .body (hAppend hFront hGap) hOpening hOpen hInner hBlanks hRest

end Turns

/-- A processing instruction, if there is one. -/
inductive IsProlog : Text → Prop
  | none : IsProlog []
  | some {content : Text} : ¬"?>".toList <:+: content → IsProlog ("<?".toList ++ (content ++ "?>".toList))

/-- A document type, if there is one. -/
inductive IsDoctype : Text → Prop
  | none : IsDoctype []
  | some {word content : Text} : word.map Char.toUpper = "DOCTYPE".toList → '>' ∉ content →
      ¬"<?".toList <:+: content → IsDoctype ("<!".toList ++ word ++ (content ++ ">".toList))

/-- The layouts of a document with a certain root. -/
inductive LaidOut (e : Element) : Text → Prop
  | mk {front prolog between doctype s : Text} : Filler front → IsProlog prolog → Filler between → IsDoctype doctype →
      Writes (.loose Filler) [e.toNode] s → LaidOut e (front ++ (prolog ++ (between ++ (doctype ++ s))))

section Documents

theorem IsProlog.becomes_nil {s : Text} (h : IsProlog s) : Becomes (dropping "<?".toList "?>".toList) s [] := by
  cases h with
  | none => exact .nil
  | some hContent =>
      have hWithin : ¬['?'] ++ ['>'] <:+: _ := hContent
      exact becomes_dropping (by decide) (by decide) (Text.not_infix_append hWithin (by decide))

/-- A document type without instructions stays where those are dropped. -/
theorem becomes_doctype_dropping {word content : Text} (hWord : word.map Char.toUpper = "DOCTYPE".toList)
    (hContent : ¬"<?".toList <:+: content) :
    Becomes (dropping "<?".toList "?>".toList) ("<!".toList ++ word ++ (content ++ ">".toList))
      ("<!".toList ++ word ++ (content ++ ">".toList)) := by
  have hLeaves : LeavesTags (dropping "<?".toList "?>".toList) := leavesTags_dropping (by decide)
  have hFree : '<' ∉ '!' :: word := by
    intro hMember
    have hUpper : '<' ∈ word.map Char.toUpper := List.mem_map.mpr ⟨'<', by simpa using hMember, by decide⟩
    rw [hWord] at hUpper
    exact absurd hUpper (by decide)
  have hKeyword : Becomes (dropping "<?".toList "?>".toList) ('<' :: '!' :: word) ('<' :: '!' :: word) := by
    refine .cons (fun rest => dropping_of_not_prefix fun hPrefix => ?_) (hLeaves.becomes_free hFree)
    exact absurd (List.cons_prefix_cons.mp (List.cons_prefix_cons.mp hPrefix).2).1 (by decide)
  exact hKeyword.append (becomes_unmarked hContent (by decide) (hLeaves.becomes_free (by decide)))

theorem IsDoctype.becomes_self {s : Text} (h : IsDoctype s) : Becomes (dropping "<?".toList "?>".toList) s s := by
  cases h with
  | none => exact .nil
  | some hWord _ hContent => exact becomes_doctype_dropping hWord hContent

theorem IsDoctype.becomes_nil {s : Text} (h : IsDoctype s) : Becomes droppingDoctype s [] := by
  cases h with
  | none => exact .nil
  | some hWord hAngle _ => exact becomes_droppingDoctype hWord hAngle

/-- Without prolog, document type and comments, a layout is a layout still, with blanks for gaps. -/
theorem LaidOut.bare {e : Element} {s : Text} (h : LaidOut e s) :
    Writes (.loose Blanks) [e.toNode] (dropEnclosed "<!--".toList "-->".toList
      (dropDoctypes (dropEnclosed "<?".toList "?>".toList s))) := by
  obtain ⟨hFront, hProlog, hBetween, hDoctype, hWrites⟩ := h
  have hPrologs : LeavesTags (dropping "<?".toList "?>".toList) := leavesTags_dropping (by decide)
  have hComments : LeavesTags (dropping "<!--".toList "-->".toList) := leavesTags_dropping (by decide)
  have hKeepsFirst : ∀ {s}, Filler s → Becomes (dropping "<?".toList "?>".toList) s s :=
    fun h => h.becomes_self hPrologs fun _ => becomes_comment_dropping
  have hKeepsSecond : ∀ {s}, Filler s → Becomes droppingDoctype s s :=
    fun h => h.becomes_self leavesTags_droppingDoctype fun _ => becomes_comment_droppingDoctype
  obtain ⟨first, hFirst, hStepFirst⟩ := hWrites.turns (hPrologs.turns fun h => ⟨_, h, hKeepsFirst h⟩)
  obtain ⟨second, hSecond, hStepSecond⟩ := hFirst.turns
    (leavesTags_droppingDoctype.turns fun h => ⟨_, h, hKeepsSecond h⟩)
  rw [Node.mapAll_id] at hSecond
  rw [Node.mapAll_id] at hSecond
  have hTogether := (hSecond.prepend Filler.append hBetween).prepend Filler.append hFront
  obtain ⟨third, hThird, hStepThird⟩ := hTogether.turns (hComments.turns Filler.becomes_blanks)
  rw [Node.mapAll_id] at hThird
  have hAfterProlog := (hKeepsFirst hFront).append (hProlog.becomes_nil.append ((hKeepsFirst hBetween).append
    (hDoctype.becomes_self.append hStepFirst)))
  have hAfterDoctype := (hKeepsSecond hFront).append ((hKeepsSecond hBetween).append
    (hDoctype.becomes_nil.append hStepSecond))
  simp only [dropEnclosed_eq, dropDoctypes_eq]
  rw [hAfterProlog.substitute_eq, List.nil_append, hAfterDoctype.substitute_eq, List.nil_append,
    hStepThird.substitute_eq]
  exact hThird

end Documents

end IconRegistry.Markup
