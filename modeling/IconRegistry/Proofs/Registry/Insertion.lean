import IconRegistry.Proofs.Registry.ModuleTaking
import IconRegistry.Proofs.Registry.NameSorting
import IconRegistry.Proofs.Registry.OutlineLayout
import IconRegistry.Proofs.Registry.Splice

/-! Insertion and replacement as operations on the list of a collection's properties, whatever the layout of the
collection is. -/
namespace IconRegistry.Registry

open Script

def itemNames (items : List (Option Text × Text)) : List Text :=
  items.filterMap (·.1)

/-- The names of items are those of the properties that they show. -/
theorem itemNames_shown (properties : List Property) :
    itemNames (properties.map Property.shown) = namesOf properties := by
  simp [itemNames, namesOf, List.filterMap_map, Property.shown, Function.comp_def]

@[simp] theorem itemNames_append (front rest : List (Option Text × Text)) :
    itemNames (front ++ rest) = itemNames front ++ itemNames rest := by
  simp [itemNames]

@[simp] theorem itemNames_cons_some (name text : Text) (rest : List (Option Text × Text)) :
    itemNames ((some name, text) :: rest) = name :: itemNames rest := by
  simp [itemNames]

/-- Where a name belongs among items: in front of the first greater name; or else behind the last item with a
plain name, in front of any items without one; or first of all if no item has a plain name. -/
inductive Placed (name : Text) : (front rest : List (Option Text × Text)) → Prop
  | before {front rest next text} : (∀ other ∈ itemNames front, compareNames other name ≠ .gt) →
      compareNames next name = .gt → Placed name front ((some next, text) :: rest)
  | behind {front rest last text} : (∀ other ∈ itemNames front, compareNames other name ≠ .gt) →
      compareNames last name ≠ .gt → itemNames rest = [] → Placed name (front ++ [(some last, text)]) rest
  | alone {rest} : itemNames rest = [] → Placed name [] rest

/-- Where a name belongs among items, it has its place among their names. -/
theorem Placed.itemNames_eq {name : Text} {front rest : List (Option Text × Text)} (h : Placed name front rest)
    (text : Text) :
    itemNames (front ++ (some name, text) :: rest) = placeName name (itemNames (front ++ rest)) := by
  rw [itemNames_append, itemNames_cons_some, itemNames_append]
  cases h with
  | before hBefore hNext =>
      rw [itemNames_cons_some, placeName_append hBefore]
      simpa using hNext
  | behind hBefore hLast hNone =>
      rw [hNone, placeName_append _ (by simp)]
      rw [itemNames_append, List.forall_mem_append]
      exact ⟨hBefore, by simpa [itemNames] using hLast⟩
  | alone hNone =>
      rw [hNone]
      rfl

/-- A name where it belongs keeps names in order. -/
theorem Placed.sorted {name text : Text} {front rest : List (Option Text × Text)} (h : Placed name front rest)
    (sorted : NamesSorted (itemNames (front ++ rest))) :
    NamesSorted (itemNames (front ++ (some name, text) :: rest)) := by
  rw [h.itemNames_eq]
  exact sorted.placeName name

theorem map_name_entriesFrom (index : Nat) (spans : List PropertySpan) :
    (entriesFrom index spans).map (·.name) = spans.filterMap (·.name?) := by
  induction spans generalizing index with
  | nil => rfl
  | cons p rest ih => cases hName : p.name? <;> simp [entriesFrom, hName, ih]

/-- The entries are the items with a plain name. -/
theorem names_ofOutline (collection source : Text) (outline : Outline) :
    (View.ofOutline collection source outline).names =
      itemNames (View.ofOutline collection source outline).items := by
  cases hFound : outline.exports.findSome? (collectionIn? collection) with
  | none => simp [View.ofOutline, View.names, View.items, itemNames, hFound]
  | some object =>
      simp only [View.ofOutline, hFound]
      rw [View.names, map_name_entriesFrom, View.items_of_spans rfl rfl, itemNames, List.filterMap_map]
      rfl

namespace View.Shows

variable {view : View} {before after : Text} {layout : Layout}

/-- An insertion gives another layout in the same surroundings, with one more item where its name belongs. -/
theorem exists_insertion {grammar : Grammar} (shows : view.Shows before layout after)
    (hLayout : layout.WellFormed grammar) {name component : Text}
    (hComponent : grammar.property (some name) component) :
    ∃ (other : Layout) (front rest : List (Option Text × Text)),
      (view.insertion? name component).map (·.apply view.source) = some (other.between before after) ∧
      other.WellFormed grammar ∧ view.items = front ++ rest ∧ Placed name front rest ∧
      other.properties.map Property.shown = front ++ (some name, component) :: rest := by
  rw [shows.items]
  cases hLast : view.entries.getLast? with
  | none =>
      have hNone : itemNames (layout.properties.map Property.shown) = [] := by
        rw [itemNames_shown, shows.getLast?_eq_none hLast]
      by_cases hBlank : layout.text.all Text.isBlank = true
      · have hEmpty : layout.properties = [] := hLayout.properties_eq_nil
          (isGap_of_all_blank fun c hc => isGapBlank_of_isBlank (List.all_eq_true.mp hBlank c hc))
        refine ⟨_, [], _, shows.insertion_alone name component hLast hBlank, ?_, rfl, .alone hNone, ?_⟩
        · have hAlone : Layout.WellFormed grammar ⟨layout.front, []⟩ := hEmpty ▸ hLayout
          exact hAlone.insertFirst (by decide) (separated_wellFormed hComponent (by decide)) rfl
        · rw [hEmpty]
          rfl
      · refine ⟨_, [], _, shows.insertion_first name component hLast hBlank, ?_, rfl, .alone hNone, rfl⟩
        exact hLayout.insertFirst (by decide) (separated_wellFormed hComponent hLayout.front) rfl
  | some last =>
      cases hNext : view.following? name with
      | none =>
          have hLess := shows.following?_eq_none hNext
          obtain ⟨ps, p, qs, hAt, hAfter⟩ := shows.getLast? hLast
          rw [hAt.split, namesOf_append, namesOf_cons, hAt.name] at hLess
          simp only [Option.toList_some, List.singleton_append, List.forall_mem_append,
            List.forall_mem_cons] at hLess
          refine ⟨_, ps.map Property.shown ++ [(some last.name, p.text)], qs.map Property.shown,
            shows.insertion_behind component hNext hLast hAt, ?_, ?_, ?_, ?_⟩
          · have hOld : Layout.WellFormed grammar ⟨layout.front, ps ++ p :: qs⟩ := hAt.split ▸ hLayout
            exact hOld.insertBehind (isGap_gapBefore ..) hComponent rfl rfl
          · simp [hAt.split, Property.shown, hAt.name]
          · exact .behind (by rw [itemNames_shown]; exact hLess.1) hLess.2.1 (by rw [itemNames_shown, hAfter])
          · simp [Property.shown, hAt.name]
      | some next =>
          obtain ⟨ps, p, qs, hAt, hGreater, hLess⟩ := shows.following? hNext
          refine ⟨_, ps.map Property.shown, (some next.name, p.text) :: qs.map Property.shown,
            shows.insertion_before component hNext hAt, ?_, ?_, ?_, ?_⟩
          · have hOld : Layout.WellFormed grammar ⟨layout.front, ps ++ p :: qs⟩ := hAt.split ▸ hLayout
            exact hOld.insertBefore (separated_wellFormed hComponent (isGap_gapBefore ..)) rfl
          · simp [hAt.split, Property.shown, hAt.name]
          · exact .before (by rw [itemNames_shown]; exact hLess) hGreater
          · simp [Property.shown, separated, hAt.name]

end View.Shows

section Editor

variable {editor : Editor} {grammar : Grammar} {source name component text : Text} {view : View}

theorem Editor.insert_of_view (hView : editor.view source = .ok view)
    (h : (view.insertion? name component).map (·.apply source) = some text) :
    editor.insert source name component = .ok text := by
  obtain ⟨edit, hEdit, rfl⟩ := Option.map_eq_some_iff.mp h
  simp [Editor.insert, hView, hEdit, bind, Except.bind, pure, Except.pure]

theorem Editor.replace_of_view (hView : editor.view source = .ok view)
    (h : (view.replacement? name component).map (·.apply source) = some text) :
    editor.replace source name component = .ok text := by
  simp [Editor.replace, hView, h, bind, Except.bind, pure, Except.pure]

/-- A view tells the names of its items. -/
theorem Editor.names_eq_itemNames (hView : editor.view source = .ok view) : view.names = itemNames view.items := by
  obtain ⟨outline, -, rfl⟩ := Editor.exists_read hView
  exact names_ofOutline ..

/-- An insertion adds one item, and leaves what is around the collection and what is read of it. -/
theorem Editor.Admits.exists_insert (admits : editor.Admits grammar view) (hView : editor.view source = .ok view)
    (hComponent : grammar.property (some name) component) :
    ∃ text changed front rest, editor.insert source name component = .ok text ∧
      editor.view text = .ok changed ∧ view.items = front ++ rest ∧ Placed name front rest ∧
      changed.items = front ++ (some name, component) :: rest ∧
      changed.surroundings? = view.surroundings? ∧
      changed.imports.map importContent = view.imports.map importContent ∧ editor.Admits grammar changed := by
  obtain ⟨before, layout, after, rfl, hLayout, hShows, takes⟩ := admits.exists_takes hView
  obtain ⟨other, front, rest, hEdit, hOther, hItems, hPlaced, hMore⟩ := hShows.exists_insertion hLayout hComponent
  obtain ⟨changed, hChanged, hShowsChanged, hImports⟩ := takes.exists_view hOther
  rw [hShows.source] at hEdit
  refine ⟨_, changed, front, rest, Editor.insert_of_view hView hEdit, hChanged, hItems, hPlaced, ?_, ?_,
    hImports, takes.admits hOther hShowsChanged hImports⟩
  · rw [hShowsChanged.items, hMore]
  · rw [hShowsChanged.surroundings, hShows.surroundings]

/-- A replacement changes the text of the first entry with the name only, and its inverse is a replacement. -/
theorem Editor.Admits.exists_replace (admits : editor.Admits grammar view) (hView : editor.view source = .ok view)
    (hComponent : grammar.property (some name) component) (hMember : name ∈ view.names) :
    ∃ text changed front old rest, editor.replace source name component = .ok text ∧
      editor.view text = .ok changed ∧ view.items = front ++ (some name, old) :: rest ∧
      name ∉ itemNames front ∧ changed.items = front ++ (some name, component) :: rest ∧
      (∃ a b, source = a ++ (old ++ b) ∧ text = a ++ (component ++ b)) ∧
      changed.surroundings? = view.surroundings? ∧
      changed.imports.map importContent = view.imports.map importContent ∧ editor.Admits grammar changed ∧
      editor.replace text name old = .ok source := by
  obtain ⟨before, layout, after, rfl, hLayout, hShows, takes⟩ := admits.exists_takes hView
  obtain ⟨entry, hEntry⟩ := View.exists_find? hMember
  obtain ⟨rfl, ps, p, qs, hAt, hFirst⟩ := hShows.find? hEntry
  have hOld : Layout.WellFormed grammar ⟨layout.front, ps ++ p :: qs⟩ := hAt.split ▸ hLayout
  have hNew := hOld.replace (hAt.name ▸ hComponent)
  have hEdit := hShows.replacement component hEntry hAt
  rw [hShows.source] at hEdit
  obtain ⟨changed, hChanged, hShowsChanged, hImports⟩ := takes.exists_view hNew
  refine ⟨_, changed, ps.map Property.shown, p.text, qs.map Property.shown,
    Editor.replace_of_view hView hEdit, hChanged, ?_, ?_, ?_, ?_, ?_, hImports,
    takes.admits hNew hShowsChanged hImports, ?_⟩
  · simp [hShows.items, hAt.split, Property.shown, hAt.name]
  · rwa [itemNames_shown]
  · simp [hShowsChanged.items, Property.shown, hAt.name]
  · refine ⟨_, _, layout.between_split hAt.split before after, ?_⟩
    simp [Layout.between, Layout.text, Layout.upTo, closingText, Property.tail]
  · rw [hShowsChanged.surroundings, hShows.surroundings]
  · -- the changed property is still the first one with its name
    obtain ⟨again, hAgain, hAtAgain⟩ := hShowsChanged.exists_find? rfl hAt.name hFirst
    have hBack := hShowsChanged.replacement p.text hAgain hAtAgain
    rw [hShowsChanged.source] at hBack
    rw [Editor.replace_of_view hChanged hBack]
    simp [Layout.between, Layout.text, hAt.split]

/-- On a collection in any layout, insertion adds one item where its name belongs and keeps all others, and
replacement changes the text of the first entry with the name only and is undone by replacing it back. -/
theorem insert_and_replace_act_on_items (hView : editor.view source = .ok view) (admits : editor.Admits grammar view)
    (hComponent : grammar.property (some name) component) :
    (∃ text changed front rest, editor.insert source name component = .ok text ∧
      editor.view text = .ok changed ∧ view.items = front ++ rest ∧ Placed name front rest ∧
      changed.items = front ++ (some name, component) :: rest ∧
      changed.surroundings? = view.surroundings? ∧
      (NamesSorted view.names → NamesSorted changed.names)) ∧
    (name ∈ view.names →
      ∃ text changed front old rest, editor.replace source name component = .ok text ∧
        editor.view text = .ok changed ∧ view.items = front ++ (some name, old) :: rest ∧
        name ∉ itemNames front ∧ changed.items = front ++ (some name, component) :: rest ∧
        (∃ a b, source = a ++ (old ++ b) ∧ text = a ++ (component ++ b)) ∧
        changed.surroundings? = view.surroundings? ∧
        editor.replace text name old = .ok source) := by
  constructor
  · obtain ⟨text, changed, front, rest, hInsert, hChanged, hItems, hPlaced, hMore, hAround, -, -⟩ :=
      admits.exists_insert hView hComponent
    refine ⟨text, changed, front, rest, hInsert, hChanged, hItems, hPlaced, hMore, hAround, ?_⟩
    rw [Editor.names_eq_itemNames hView, Editor.names_eq_itemNames hChanged, hItems, hMore]
    exact hPlaced.sorted
  · intro hMember
    obtain ⟨text, changed, front, old, rest, hReplace, hChanged, hItems, hFirst, hMore, hTexts, hAround, -, -,
      hBack⟩ := admits.exists_replace hView hComponent hMember
    exact ⟨text, changed, front, old, rest, hReplace, hChanged, hItems, hFirst, hMore, hTexts, hAround, hBack⟩

/-- A literal with comments, and with a property that has no name behind its last entry. -/
theorem insert_and_replace_among_comments :
    let editor := Editor.ofDialect "Icons".toList .tsx
    let source := "export const Icons = \x7b // first\n  A: h, /* , */ B: h, ...props /* B */\x7d;\n".toList
    ∃ view, editor.view source = .ok view ∧ "B".toList ∈ view.names ∧
      (∃ text changed front rest, editor.insert source "B".toList "B: ref".toList = .ok text ∧
        editor.view text = .ok changed ∧ view.items = front ++ rest ∧ Placed "B".toList front rest ∧
        changed.items = front ++ (some "B".toList, "B: ref".toList) :: rest ∧
        changed.surroundings? = view.surroundings? ∧
        (NamesSorted view.names → NamesSorted changed.names)) ∧
      ∃ text changed front old rest, editor.replace source "B".toList "B: ref".toList = .ok text ∧
        editor.view text = .ok changed ∧ view.items = front ++ (some "B".toList, old) :: rest ∧
        "B".toList ∉ itemNames front ∧ changed.items = front ++ (some "B".toList, "B: ref".toList) :: rest ∧
        (∃ a b, source = a ++ (old ++ b) ∧ text = a ++ ("B: ref".toList ++ b)) ∧
        changed.surroundings? = view.surroundings? ∧
        editor.replace text "B".toList old = .ok source := by
  intro editor source
  let layout : Layout := ⟨" // first\n  ".toList, [⟨some "A".toList, "A: h".toList, [], some " /* , */ ".toList⟩,
    ⟨some "B".toList, "B: h".toList, [], some [' ']⟩, ⟨none, "...props".toList, " /* B */".toList, none⟩]⟩
  have hLayout : layout.WellFormed .members := Layout.HasWords.wellFormed (by decide)
  obtain ⟨view, hView, hShows, -, hAdmits⟩ := isModule_icons.exists_view false hLayout
  have hText : layout.between (frontOf [] [] "Icons".toList) (backOf false ['\n']) = source := by decide
  rw [hText] at hView
  have hProperty : Grammar.members.property (some "B".toList) "B: ref".toList :=
    isMember_of_isWordMember (by decide : isWordMember (some "B".toList, "B: ref".toList) = true)
  have hMember : "B".toList ∈ view.names := by
    rw [hShows.names]
    decide
  have hBoth := insert_and_replace_act_on_items hView hAdmits hProperty
  exact ⟨view, hView, hMember, hBoth.1, hBoth.2 hMember⟩

end Editor

end IconRegistry.Registry
