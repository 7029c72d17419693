import IconRegistry.Proofs.Registry.Reading

/-! Splices: what the edits of a view make of the layout of its collection. Each edit turns the text of a layout
into the text of another one, in the same surroundings. -/
namespace IconRegistry.Registry

open Script

/-- An edit replaces the text at its place. -/
theorem Edit.apply_append (a m b text : Text) :
    (Edit.mk a.length (a.length + m.length) text).apply (a ++ (m ++ b)) = a ++ (text ++ b) := by
  rw [Edit.apply, List.take_left, ← List.append_assoc a m b, ← List.length_append, List.drop_left,
    List.append_assoc]

theorem Edit.insertAt_apply (a b text : Text) :
    (Edit.insertAt a.length text).apply (a ++ b) = a ++ (text ++ b) :=
  Edit.apply_append a [] b text

def gapBefore (source : Text) (position : Nat) : Text :=
  (separatorBefore source position).tail

theorem separatorBefore_eq (source : Text) (position : Nat) :
    separatorBefore source position = ',' :: gapBefore source position := by
  unfold gapBefore separatorBefore
  dsimp only
  split <;> rfl

/-- A separator is a comma and a gap: what it copies of the line are blanks. -/
theorem isGap_gapBefore (source : Text) (position : Nat) : isGap (gapBefore source position) = true := by
  unfold gapBefore separatorBefore
  dsimp only
  split
  · rename_i hLine
    simp only [Bool.and_eq_true, List.all_eq_true] at hLine
    apply isGap_of_all_blank
    intro c hMember
    rcases List.mem_cons.mp hMember with rfl | hMember
    · decide
    · exact isGapBlank_of_isBlank (hLine.1 c hMember)
  · decide

/-- A property with a comma and a certain gap behind it. -/
def separated (name component gap : Text) : Property :=
  ⟨some name, component, [], some gap⟩

/-- A component with a comma behind it is a well-formed property. -/
theorem separated_wellFormed {grammar : Grammar} {name component gap : Text}
    (hComponent : grammar.property (some name) component) (hGap : isGap gap = true) :
    (separated name component gap).WellFormed grammar where
  property := hComponent
  gap := rfl
  afterComma := by
    rintro after hAfter
    cases hAfter
    exact hGap

namespace Layout

/-- A layout with a further property in front of one of its own. -/
theorem WellFormed.insertBefore {grammar : Grammar} {front : Text} {ps qs : List Property} {p new : Property}
    (h : Layout.WellFormed grammar ⟨front, ps ++ p :: qs⟩) (hNew : new.WellFormed grammar)
    (hComma : new.afterComma?.isSome = true) :
    Layout.WellFormed grammar ⟨front, ps ++ new :: p :: qs⟩ where
  front := h.front
  properties := by
    have hOld := h.properties
    simp only [List.forall_mem_append, List.forall_mem_cons] at hOld ⊢
    exact ⟨hOld.1, hNew, hOld.2⟩
  separated := by
    obtain ⟨hFront, hRest⟩ := separated_append_cons.mp h.separated
    exact separated_append_cons.mpr ⟨hFront, separated_cons_cons.mpr ⟨hComma, hRest⟩⟩

/-- A layout with a further property behind one of its own, whose comma it takes over. -/
theorem WellFormed.insertBehind {grammar : Grammar} {front gap : Text} {ps qs : List Property} {p new : Property}
    (h : Layout.WellFormed grammar ⟨front, ps ++ p :: qs⟩) (hGap : isGap gap = true)
    (hNew : grammar.property new.name? new.text) (sameGap : new.gap = p.gap)
    (sameComma : new.afterComma? = p.afterComma?) :
    Layout.WellFormed grammar
      ⟨front, ps ++ { p with gap := [], afterComma? := some gap } :: new :: qs⟩ where
  front := h.front
  properties := by
    have hOld := h.properties
    simp only [List.forall_mem_append, List.forall_mem_cons] at hOld ⊢
    obtain ⟨hFront, hp, hRest⟩ := hOld
    refine ⟨hFront, ⟨hp.property, rfl, ?_⟩, ⟨hNew, sameGap ▸ hp.gap, sameComma ▸ hp.afterComma⟩, hRest⟩
    rintro after hAfter
    cases hAfter
    exact hGap
  separated := by
    obtain ⟨hFront, hRest⟩ := separated_append_cons.mp h.separated
    exact separated_append_cons.mpr
      ⟨hFront, separated_cons_cons.mpr ⟨rfl, hRest.congr_head sameComma.symm⟩⟩

/-- A layout with a further property in front of all, and with another gap behind the brace. -/
theorem WellFormed.insertFirst {grammar : Grammar} {front newFront : Text} {properties : List Property}
    {new : Property} (h : Layout.WellFormed grammar ⟨front, properties⟩) (hFront : isGap newFront = true)
    (hNew : new.WellFormed grammar) (hComma : new.afterComma?.isSome = true) :
    Layout.WellFormed grammar ⟨newFront, new :: properties⟩ where
  front := hFront
  properties := List.forall_mem_cons.mpr ⟨hNew, h.properties⟩
  separated := by
    cases properties with
    | nil => exact separated_singleton new
    | cons p rest => exact separated_cons_cons.mpr ⟨hComma, h.separated⟩

/-- A layout without a property that another one follows. -/
theorem WellFormed.erase {grammar : Grammar} {front : Text} {ps qs : List Property} {p q : Property}
    (h : Layout.WellFormed grammar ⟨front, ps ++ p :: q :: qs⟩) :
    Layout.WellFormed grammar ⟨front, ps ++ q :: qs⟩ where
  front := h.front
  properties := by
    have hOld := h.properties
    simp only [List.forall_mem_append, List.forall_mem_cons] at hOld ⊢
    exact ⟨hOld.1, hOld.2.2⟩
  separated := by
    obtain ⟨hFront, hRest⟩ := separated_append_cons.mp h.separated
    exact separated_append_cons.mpr ⟨hFront, hRest.tail⟩

/-- A layout that ends behind one of its properties, with another ending. -/
theorem WellFormed.endBehind {grammar : Grammar} {front gap : Text} {afterComma? : Option Text}
    {ps qs : List Property} {p : Property} (h : Layout.WellFormed grammar ⟨front, ps ++ p :: qs⟩)
    (hGap : isGap gap = true) (hAfter : ∀ after, afterComma? = some after → isGap after = true) :
    Layout.WellFormed grammar ⟨front, ps ++ [{ p with gap, afterComma? }]⟩ where
  front := h.front
  properties := by
    have hOld := h.properties
    simp only [List.forall_mem_append, List.forall_mem_cons] at hOld
    rw [List.forall_mem_append, List.forall_mem_singleton]
    exact ⟨hOld.1, hOld.2.1.property, hGap, hAfter⟩
  separated := separated_append_cons.mpr ⟨(separated_append_cons.mp h.separated).1, separated_singleton _⟩

/-- A layout with another text for one of its properties. -/
theorem WellFormed.replace {grammar : Grammar} {front text : Text} {ps qs : List Property} {p : Property}
    (h : Layout.WellFormed grammar ⟨front, ps ++ p :: qs⟩) (hText : grammar.property p.name? text) :
    Layout.WellFormed grammar ⟨front, ps ++ { p with text } :: qs⟩ where
  front := h.front
  properties := by
    have hOld := h.properties
    simp only [List.forall_mem_append, List.forall_mem_cons] at hOld ⊢
    exact ⟨hOld.1, ⟨hText, hOld.2.1.gap, hOld.2.1.afterComma⟩, hOld.2.2⟩
  separated := by
    obtain ⟨hFront, hRest⟩ := separated_append_cons.mp h.separated
    exact separated_append_cons.mpr ⟨hFront, hRest.congr_head rfl⟩

end Layout

namespace View.Shows

variable {view : View} {before after : Text} {layout : Layout}

/-- The entry in front of which a name belongs is the first property with a greater name. -/
theorem following? (shows : view.Shows before layout after) {name : Text} {next : Entry}
    (h : view.following? name = some next) :
    ∃ ps p qs, Locates before layout next ps p qs ∧ compareNames next.name name = .gt ∧
      ∀ other ∈ namesOf ps, compareNames other name ≠ .gt := by
  rw [View.following?, shows.entries] at h
  obtain ⟨ps, p, qs, hSplit, hName, hEntry, hGreater, hBefore⟩ :=
    find?_entriesFrom (compareNames · name == .gt) h
  refine ⟨ps, p, qs, locates_of_entryBehind hSplit hName hEntry, by simpa using hGreater, ?_⟩
  intro other hMember
  simpa using hBefore other hMember

/-- If no name is greater, none of the layout is. -/
theorem following?_eq_none (shows : view.Shows before layout after) {name : Text}
    (h : view.following? name = none) :
    ∀ other ∈ namesOf layout.properties, compareNames other name ≠ .gt := by
  rw [View.following?, shows.entries] at h
  intro other hMember
  simpa using find?_entriesFrom_eq_none (compareNames · name == .gt) h other hMember

/-- The last entry is the last property with a name. -/
theorem getLast? (shows : view.Shows before layout after) {last : Entry}
    (h : view.entries.getLast? = some last) :
    ∃ ps p qs, Locates before layout last ps p qs ∧ namesOf qs = [] := by
  rw [shows.entries] at h
  obtain ⟨ps, p, qs, hSplit, hName, hEntry, hNone⟩ := getLast?_entriesFrom h
  exact ⟨ps, p, qs, locates_of_entryBehind hSplit hName hEntry, hNone⟩

theorem getLast?_eq_none (shows : view.Shows before layout after) (h : view.entries.getLast? = none) :
    namesOf layout.properties = [] := by
  rw [← shows.names, View.names, List.getLast?_eq_none_iff.mp h, List.map_nil]

/-- An entry splits the text of its script. -/
theorem source_split (shows : view.Shows before layout after) {entry : Entry} {ps qs : List Property}
    {p : Property} (hAt : Locates before layout entry ps p qs) :
    view.source = layout.upTo before ps ++ (p.text ++ (p.tail ++ closingText qs after)) := by
  rw [shows.source, layout.between_split hAt.split]

/-- Insertion in front of an entry. -/
theorem insertion_before (shows : view.Shows before layout after) {name : Text} (component : Text)
    {next : Entry} {ps qs : List Property} {p : Property} (hNext : view.following? name = some next)
    (hAt : Locates before layout next ps p qs) :
    (view.insertion? name component).map (·.apply view.source) = some (Layout.between
      ⟨layout.front, ps ++ separated name component (gapBefore view.source next.span.start) :: p :: qs⟩
      before after) := by
  have hEntries : view.entries.getLast? ≠ none := by
    rw [Ne, List.getLast?_eq_none_iff]
    intro hNone
    simp [View.following?, hNone] at hNext
  obtain ⟨last, hLast⟩ := Option.ne_none_iff_exists'.mp hEntries
  simp only [View.insertion?, shows.interior, hLast, hNext, Option.map_some, separatorBefore_eq]
  rw [hAt.span, shows.source_split hAt, Edit.insertAt_apply]
  simp [Layout.between, Layout.text, Layout.upTo, closingText, separated, Property.tail, tailText]

/-- Insertion behind the last entry. -/
theorem insertion_behind (shows : view.Shows before layout after) {name : Text} (component : Text)
    {last : Entry} {ps qs : List Property} {p : Property} (hNone : view.following? name = none)
    (hLast : view.entries.getLast? = some last) (hAt : Locates before layout last ps p qs) :
    (view.insertion? name component).map (·.apply view.source) = some (Layout.between
      ⟨layout.front, ps ++ { p with gap := [], afterComma? := some (gapBefore view.source last.span.start) } ::
        { p with name? := some name, text := component } :: qs⟩
      before after) := by
  simp only [View.insertion?, shows.interior, hLast, hNone, Option.map_some, separatorBefore_eq]
  have hSplit : view.source = (layout.upTo before ps ++ p.text) ++ (p.tail ++ closingText qs after) := by
    rw [shows.source_split hAt, List.append_assoc]
  rw [hAt.span, hSplit]
  dsimp only
  rw [← List.length_append, Edit.insertAt_apply]
  simp [Layout.between, Layout.text, Layout.upTo, closingText, Property.tail, tailText]

/-- The text between the braces is the interior of the view. -/
theorem interior_split (shows : view.Shows before layout after) :
    view.source = (before ++ ['{']) ++ (layout.text ++ '}' :: after) := by
  simp [shows.source, Layout.between]

/-- Insertion into a collection without entries. -/
theorem insertion_first (shows : view.Shows before layout after) (name component : Text)
    (hNone : view.entries.getLast? = none) (hBlank : ¬layout.text.all Text.isBlank = true) :
    (view.insertion? name component).map (·.apply view.source) = some (Layout.between
      ⟨"\n  ".toList, separated name component layout.front :: layout.properties⟩ before after) := by
  simp only [View.insertion?, shows.interior, hNone, Option.map_some]
  rw [shows.interior_split, ← List.length_singleton (a := '{'), ← List.length_append]
  simp only [insertionIntoEmpty, Span.textIn_append, if_neg hBlank, Edit.insertAt_apply]
  simp [Layout.between, Layout.text, separated, Property.tail, tailText]

/-- Insertion into a collection with nothing but blanks between its braces. -/
theorem insertion_alone (shows : view.Shows before layout after) (name component : Text)
    (hNone : view.entries.getLast? = none) (hBlank : layout.text.all Text.isBlank = true) :
    (view.insertion? name component).map (·.apply view.source) = some (Layout.between
      ⟨"\n  ".toList, [separated name component "\n".toList]⟩ before after) := by
  simp only [View.insertion?, shows.interior, hNone, Option.map_some]
  rw [shows.interior_split, ← List.length_singleton (a := '{'), ← List.length_append]
  simp only [insertionIntoEmpty, Span.textIn_append, if_pos hBlank, Edit.apply_append]
  simp [Layout.between, Layout.text, separated, Property.tail, tailText]

/-- Replacement of an entry. -/
theorem replacement (shows : view.Shows before layout after) {name : Text} (component : Text)
    {entry : Entry} {ps qs : List Property} {p : Property} (hEntry : view.find? name = some entry)
    (hAt : Locates before layout entry ps p qs) :
    (view.replacement? name component).map (·.apply view.source) = some (Layout.between
      ⟨layout.front, ps ++ { p with text := component } :: qs⟩ before after) := by
  simp only [View.replacement?, hEntry, Option.map_some]
  rw [hAt.span, shows.source_split hAt, Edit.apply_append]
  simp [Layout.between, Layout.text, Layout.upTo, closingText, Property.tail]

end View.Shows

end IconRegistry.Registry
