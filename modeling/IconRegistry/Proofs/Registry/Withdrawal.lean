import IconRegistry.Proofs.Registry.Restoring

/-! Withdrawal of one entry from a collection without comments. Blanks may stand anywhere around the entries; the
text that a removal leaves is then a registry again, with all other entries and in their order. -/
namespace IconRegistry.Script

/-- A gap without a slash has no comment in it. -/
theorem isGapBlank_of_isGap {s : Text} (h : isGap s = true) (hSlash : '/' ∉ s) : ∀ c ∈ s, isGapBlank c = true := by
  rw [isGap_iff] at h
  induction s with
  | nil => simp
  | cons c rest ih =>
      simp only [List.mem_cons, not_or] at hSlash
      obtain ⟨hc, hRest⟩ := hSlash
      cases hBlank : isGapBlank c with
      | false => simp [GapState.step, hBlank, Ne.symm hc] at h
      | true =>
          have hGap : GapState.clear.run rest = some .clear := by simpa [GapState.step, hBlank] using h
          exact List.forall_mem_cons.mpr ⟨hBlank, ih hGap hRest⟩

/-- A gap without comments has no comma. -/
theorem comma_not_mem_of_isGap {s : Text} (h : isGap s = true) (hSlash : '/' ∉ s) : ',' ∉ s :=
  fun hComma => absurd (isGapBlank_of_isGap h hSlash _ hComma) (by decide)

end IconRegistry.Script

namespace IconRegistry.Registry

open Script

/-- No comment stands around properties. Where there is just one property and it has a comma, trimming takes away all
that is in front of the comma; it leaves a blank without width. -/
structure Layout.Plain (layout : Layout) : Prop where
  front : '/' ∉ layout.front
  behind : ∀ p ∈ layout.properties, '/' ∉ p.tail
  alone : ∀ p, layout.properties = [p] → p.afterComma?.isSome = true → ∀ c ∈ p.gap, Text.isBlank c = true

section

variable {grammar : Grammar} {p : Property}

/-- Without comments, all that stands behind a property but its comma is blank. -/
theorem Property.isGapBlank_of_wellFormed (h : p.WellFormed grammar) (hSlash : '/' ∉ p.tail) :
    (∀ c ∈ p.gap, isGapBlank c = true) ∧ ∀ c ∈ p.afterComma?.getD [], isGapBlank c = true := by
  cases hComma : p.afterComma? with
  | none =>
      have hGap : '/' ∉ p.gap := by simpa [tail, tailText, hComma] using hSlash
      exact ⟨isGapBlank_of_isGap h.gap hGap, by simp⟩
  | some after =>
      obtain ⟨hGap, hAfter⟩ : '/' ∉ p.gap ∧ '/' ∉ after := by
        simpa [tail, tailText, hComma] using hSlash
      exact ⟨isGapBlank_of_isGap h.gap hGap, isGapBlank_of_isGap (h.afterComma after hComma) hAfter⟩

/-- What the removal of the only property leaves behind it is a gap exactly if trimming takes away all that is in front of
the comma: then it takes away the comma, too. -/
theorem isGap_keptBehind_iff (h : p.WellFormed grammar) (hSlash : '/' ∉ p.tail) :
    isGap (keptBehind p.tail) = true ↔ (p.afterComma?.isSome = true → ∀ c ∈ p.gap, Text.isBlank c = true) := by
  obtain ⟨hGap, hAfter⟩ := Property.isGapBlank_of_wellFormed h hSlash
  cases hComma : p.afterComma? with
  | none =>
      have hTail : p.tail = p.gap := by simp [Property.tail, tailText, hComma]
      rw [hTail]
      exact iff_of_true (isGap_of_all_blank fun c hc => hGap c ((keptBehind_suffix p.gap).subset hc)) (by rintro ⟨⟩)
  | some after =>
      have hTail : p.tail = p.gap ++ ',' :: after := by simp [Property.tail, tailText, hComma]
      constructor
      · intro hKept _
        obtain ⟨blanks, hSplit, hBlanks⟩ := Text.exists_trimStart p.gap
        cases hRest : Text.trimStart p.gap with
        | nil => rwa [hSplit, hRest, List.append_nil]
        | cons c rest =>
            -- a blank that trimming does not know keeps the comma in the text
            have hc : Text.isBlank c = false := Text.isBlank_of_trimStart hRest
            have hOther : ',' ≠ c := by
              rintro rfl
              exact absurd (hGap ',' (hSplit ▸ List.mem_append_right _ (hRest ▸ List.mem_cons_self))) (by decide)
            have hText : keptBehind p.tail = c :: (rest ++ ',' :: after) := by
              have hHead : ∀ d, (c :: (rest ++ ',' :: after)).head? = some d → Text.isBlank d = false := by
                rintro d ⟨rfl⟩
                exact hc
              rw [hTail, hSplit, hRest, List.append_assoc, List.cons_append, keptBehind,
                Text.trimStart_append_cons hBlanks hc]
              simp [Text.dropFront?, hOther, Text.trimStart_eq_self hHead]
            have hClear : '/' ∉ keptBehind p.tail := fun hMem => hSlash ((keptBehind_suffix p.tail).subset hMem)
            exact absurd (by simp [hText]) (comma_not_mem_of_isGap hKept hClear)
      · intro hBlank
        have hKept : keptBehind p.tail = Text.trimStart after := by
          simp [keptBehind, hTail, Text.dropFront?,
            Text.trimStart_append_cons (hBlank rfl) (by decide : Text.isBlank ',' = false)]
        rw [hKept]
        refine isGap_of_all_blank fun c hc => hAfter c ?_
        rw [hComma]
        exact (Text.trimStart_suffix after).subset hc

end

namespace View.Shows

variable {view : View} {grammar : Grammar} {before after name : Text} {layout : Layout}

/-- A removal gives another layout in the same surroundings, with the first property of that name taken out. -/
theorem exists_removal (shows : view.Shows before layout after) (hLayout : layout.WellFormed grammar)
    (hPlain : layout.Plain) (hName : name ∈ view.names) :
    ∃ other : Layout, (view.removal? name).map (·.apply view.source) = some (other.between before after) ∧
      other.WellFormed grammar ∧ namesOf other.properties = (namesOf layout.properties).erase name := by
  obtain ⟨entry, hEntry⟩ := View.exists_find? hName
  obtain ⟨rfl, ps, p, qs, hAt, hFirst⟩ := shows.find? hEntry
  have hNames : (namesOf layout.properties).erase entry.name = namesOf (ps ++ qs) := by
    rw [hAt.split, namesOf_append, List.erase_append_right _ hFirst, namesOf_cons, hAt.name]
    simp
  rw [hNames]
  cases qs with
  | cons q qs =>
      have hOld : Layout.WellFormed grammar ⟨layout.front, ps ++ p :: q :: qs⟩ := hAt.split ▸ hLayout
      exact ⟨_, shows.removal_next hEntry hAt, hOld.erase, rfl⟩
  | nil =>
      have hProperty := hLayout.properties p (by simp [hAt.split])
      have hSlash := hPlain.behind p (by simp [hAt.split])
      rcases List.eq_nil_or_concat ps with rfl | ⟨front, r, rfl⟩
      · -- nothing is left between the braces but blanks
        have hFront : isGap (Text.trimEnd layout.front) = true := by
          obtain ⟨blanks, hBlanks⟩ := Text.trimEnd_prefix layout.front
          have hAll := isGapBlank_of_isGap hLayout.front hPlain.front
          exact isGap_of_all_blank fun c hc => hAll c (hBlanks ▸ List.mem_append_left _ hc)
        have hLeft : isGap (leftAlone layout.front p.tail) = true :=
          isGap_append hFront ((isGap_keptBehind_iff hProperty hSlash).mpr (hPlain.alone p hAt.split))
        refine ⟨⟨leftAlone layout.front p.tail, []⟩, ?_, ⟨hLeft, by simp, by simp [Separated]⟩, rfl⟩
        rw [shows.removal_sole hEntry hAt]
        simp [Layout.between, Layout.text]
      · -- the property in front of it gets the end of the collection
        rw [List.concat_eq_append] at *
        have hSplit : layout.properties = front ++ r :: [p] := by simp [hAt.split]
        have hOld : Layout.WellFormed grammar ⟨layout.front, front ++ r :: [p]⟩ := hSplit ▸ hLayout
        have hr := hLayout.properties r (by simp [hSplit])
        obtain ⟨afterR, hComma⟩ := (separated_append_cons.mp hOld.separated).2.exists_comma (by simp)
        have hNoComma : ',' ∉ r.gap := by
          refine comma_not_mem_of_isGap hr.gap fun hMem => hPlain.behind r (by simp [hSplit]) ?_
          simp [Property.tail, tailText, hComma, hMem]
        refine ⟨⟨layout.front, front ++ [{ r with gap := r.gap ++ p.gap, afterComma? := p.afterComma? }]⟩, ?_,
          hOld.endBehind (isGap_append hr.gap hProperty.gap) hProperty.afterComma, by simp [namesOf_cons]⟩
        rw [shows.removal_last hEntry hAt (mem_tail_of_comma (by simp [hComma])),
          leftBehind_tail (by simp [hComma]) hNoComma]
        cases hEnd : p.afterComma? <;> simp [Layout.between, Layout.text, Layout.upTo, Property.tail, tailText, hEnd]

end View.Shows

/-- A text that an editor reads, with certain entries in its collection and no comments around them. -/
def Editor.Enters (editor : Editor) (grammar : Grammar) (text : Text) (names : List Text) : Prop :=
  ∃ (before : Text) (layout : Layout) (after : Text) (contents : List (Text × List Text × Bool)),
    text = layout.between before after ∧ editor.Takes grammar before after contents ∧
    layout.WellFormed grammar ∧ layout.Plain ∧ namesOf layout.properties = names

namespace Editor.Enters

variable {editor : Editor} {grammar : Grammar} {text name : Text} {names : List Text}

/-- A text that is entered has a collection with those names. -/
theorem view (h : editor.Enters grammar text names) :
    ∃ view, editor.view text = .ok view ∧ view.interior?.isSome = true ∧ view.names = names := by
  obtain ⟨before, layout, after, contents, rfl, takes, hLayout, -, rfl⟩ := h
  obtain ⟨view, hView, hShows, -⟩ := takes.exists_view hLayout
  exact ⟨view, hView, by simp [hShows.interior], hShows.names⟩

/-- Removing one entry leaves the others. -/
theorem removeMany (h : editor.Enters grammar text names) (hName : name ∈ names) :
    ∃ less view, editor.removeMany text [name] = .ok less ∧ editor.view less = .ok view ∧
      view.interior?.isSome = true ∧ view.names = names.erase name := by
  obtain ⟨before, layout, after, contents, rfl, takes, hLayout, hPlain, rfl⟩ := h
  obtain ⟨view, hView, hShows, -⟩ := takes.exists_view hLayout
  rw [← hShows.names] at hName
  obtain ⟨other, hEdit, hOther, hNames⟩ := hShows.exists_removal hLayout hPlain hName
  rw [hShows.source] at hEdit
  obtain ⟨left, hLeft, hShowsLeft, -⟩ := takes.exists_view hOther
  refine ⟨_, left, ?_, hLeft, by simp [hShowsLeft.interior], hShowsLeft.names.trans hNames⟩
  rw [Editor.removeMany, Editor.ensurePresent_of_view hView (by simpa using hName)]
  simp [Editor.remove_of_view hView hEdit, bind, Except.bind, pure, Except.pure]

/-- What is not an entry is not removed. -/
theorem removeMany_missing (h : editor.Enters grammar text names) (hName : name ∉ names) :
    editor.removeMany text [name] = .error (.missingEntries [name]) := by
  obtain ⟨view, hView, -, rfl⟩ := h.view
  have hContains : view.contains name = false := by
    rw [← Bool.not_eq_true, View.contains_iff]
    exact hName
  simp [Editor.removeMany, Editor.ensurePresent, hView, hContains, bind, Except.bind, throw, throwThe,
    MonadExceptOf.throw]

end Editor.Enters

end IconRegistry.Registry
