import IconRegistry.Proofs.Registry.Grammar
import IconRegistry.Registry.Editor

/-! What is known of the reader of scripts. It is a parameter of an editor. That it is exact ties the literals that it
reports to layouts, at their exact spans. Which layouts it takes is said of one place at a time: of two texts, and of a
grammar of the properties that may stand between them. -/
namespace IconRegistry.Registry

open Script

def importContent (declaration : Import) : Text × List Text × Bool :=
  (declaration.source, declaration.locals, declaration.typeOnly)

/-- An editor's reader finds the collection where a layout says, and reads all of the script around it. -/
structure Editor.Reads (editor : Editor) (before : Text) (layout : Layout) (after : Text) (outline : Outline) :
    Prop where
  read : editor.read (layout.between before after) = some outline
  found : outline.exports.findSome? (collectionIn? editor.collection) = some (layout.literalAt before.length)

/-- The reader of an editor reports a collection where it is laid out, at its exact spans. -/
structure ReadsExactly (editor : Editor) : Prop where
  laidOut : ∀ {source outline literal}, editor.read source = some outline →
    outline.exports.findSome? (collectionIn? editor.collection) = some literal → LaidOutIn source literal

/-- Between two texts, the reader of an editor takes every layout that a grammar derives: it reads the script and finds the
collection there. What the script imports does not depend on the layout. -/
def Editor.Takes (editor : Editor) (grammar : Grammar) (before after : Text)
    (contents : List (Text × List Text × Bool)) : Prop :=
  ∀ layout : Layout, layout.WellFormed grammar →
    ∃ outline, editor.Reads before layout after outline ∧ outline.imports.map importContent = contents

/-- The properties of a view, each with its plain name, if it is an entry, and its text. -/
def View.items (view : View) : List (Option Text × Text) :=
  view.properties.zipIdx.map fun (span, index) =>
    ((view.entries.find? (·.property == index)).map (·.name), span.textIn view.source)

/-- The text up to the opening brace of the collection, and the text from its closing brace on. -/
def View.surroundings? (view : View) : Option (Text × Text) :=
  view.interior?.map fun interior => (view.source.take interior.start, view.source.drop interior.stop)

/-- The text of a script up to a property of its collection, given the properties in front of it. -/
def Layout.upTo (layout : Layout) (before : Text) (properties : List Property) : Text :=
  before ++ '{' :: (layout.front ++ writtenAll properties)

def closingText (properties : List Property) (after : Text) : Text :=
  writtenAll properties ++ '}' :: after

/-- Properties start with a token if what stands behind them does. -/
theorem beginsToken_writtenAll {grammar : Grammar} {properties : List Property} {s : Text}
    (h : ∀ p ∈ properties, p.WellFormed grammar) (hs : BeginsToken s) :
    BeginsToken (writtenAll properties ++ s) := by
  cases properties with
  | nil => exact hs
  | cons p rest =>
      rw [writtenAll_cons, List.append_assoc]
      exact BeginsToken.append (grammar.begins (h p (by simp)).property) _

/-- Behind a gap, a property or the closing brace begins. -/
theorem beginsToken_closingText {grammar : Grammar} {properties : List Property}
    (h : ∀ p ∈ properties, p.WellFormed grammar) (after : Text) : BeginsToken (closingText properties after) :=
  beginsToken_writtenAll h ⟨'}', after, rfl, by decide⟩

theorem Layout.length_upTo (layout : Layout) (before : Text) (properties : List Property) :
    (layout.upTo before properties).length =
      before.length + 1 + layout.front.length + (writtenAll properties).length := by
  simp only [Layout.upTo, List.length_append, List.length_cons]
  omega

/-- The closing brace stands behind all properties. -/
theorem Layout.length_upTo_all (layout : Layout) (before : Text) :
    (layout.upTo before layout.properties).length = before.length + 1 + layout.text.length := by
  rw [Layout.length_upTo, Layout.text, List.length_append]
  omega

theorem Layout.length_upTo_concat (layout : Layout) (before : Text) (ps : List Property) (p : Property) :
    (layout.upTo before (ps ++ [p])).length = (layout.upTo before ps ++ p.text).length + p.tail.length := by
  simp only [List.length_append, Layout.length_upTo, writtenAll_append, writtenAll_cons, writtenAll_nil,
    List.append_nil]
  omega

/-- A property splits the text of a script. -/
theorem Layout.between_split {layout : Layout} {ps qs : List Property} {p : Property}
    (h : layout.properties = ps ++ p :: qs) (before after : Text) :
    layout.between before after =
      layout.upTo before ps ++ (p.text ++ (p.tail ++ closingText qs after)) := by
  simp [Layout.between, Layout.text, Layout.upTo, closingText, h]

theorem Span.textIn_append (a m b : Text) :
    Span.textIn ⟨a.length, a.length + m.length⟩ (a ++ (m ++ b)) = m := by
  rw [Span.textIn, ← List.append_assoc, ← List.length_append, List.take_left, List.drop_left]

/-- Properties show their names and texts at their places. -/
theorem spansFrom_shown (front : Text) (properties : List Property) (after : Text) :
    (spansFrom front.length properties).map (fun p =>
      (p.name?, Span.textIn ⟨p.start, p.stop⟩ (front ++ (writtenAll properties ++ after)))) =
      properties.map Property.shown := by
  induction properties generalizing front with
  | nil => rfl
  | cons p rest ih =>
      have hRest := ih (front ++ p.written)
      have hText : front ++ (writtenAll (p :: rest) ++ after) =
          front ++ p.written ++ (writtenAll rest ++ after) := by
        simp [Property.written]
      have hSpan : Span.textIn ⟨front.length, front.length + p.text.length⟩
          (front ++ (writtenAll (p :: rest) ++ after)) = p.text := by
        rw [writtenAll_cons, List.append_assoc, Span.textIn_append]
      rw [List.length_append] at hRest
      rw [spansFrom, List.map_cons, List.map_cons, hSpan, hText, hRest]
      rfl

/-- The properties of a view that was made of an object literal. -/
theorem View.items_of_spans {view : View} {spans : List PropertySpan}
    (hProperties : view.properties = spans.map fun p => ⟨p.start, p.stop⟩)
    (hEntries : view.entries = entriesFrom 0 spans) :
    view.items = spans.map fun p => (p.name?, Span.textIn ⟨p.start, p.stop⟩ view.source) := by
  apply List.ext_getElem?
  intro i
  have hName := find?_index_entriesFrom 0 i spans
  rw [View.items, hProperties, hEntries, List.getElem?_map, List.getElem?_zipIdx, List.getElem?_map,
    List.getElem?_map]
  cases hSpan : spans[i]? with
  | none => rfl
  | some p =>
      rw [hSpan] at hName
      simp only [Option.map_some, Nat.zero_add] at hName ⊢
      rw [hName]
      rfl

/-- A view of a script whose collection has a certain layout. -/
structure View.Shows (view : View) (before : Text) (layout : Layout) (after : Text) : Prop where
  source : view.source = layout.between before after
  properties : view.properties =
    (spansFrom (before.length + 1 + layout.front.length) layout.properties).map fun p => ⟨p.start, p.stop⟩
  entries : view.entries = entriesFrom 0 (spansFrom (before.length + 1 + layout.front.length) layout.properties)
  interior : view.interior? = some ⟨before.length + 1, before.length + 1 + layout.text.length⟩

/-- A view shows a layout that a grammar derives, and in its place the reader takes all layouts that the grammar
derives. -/
def Editor.Admits (editor : Editor) (grammar : Grammar) (view : View) : Prop :=
  ∃ before layout after, layout.WellFormed grammar ∧ view.Shows before layout after ∧
    editor.Takes grammar before after (view.imports.map importContent)

/-- What an editor views of a script that it reads. -/
theorem Editor.Reads.view {editor : Editor} {before after : Text} {layout : Layout} {outline : Outline}
    (h : editor.Reads before layout after outline) :
    ∃ view, editor.view (layout.between before after) = .ok view ∧ view.Shows before layout after ∧
      view.imports = outline.imports ∧ view.bodyStart = outline.bodyStart := by
  refine ⟨_, by rw [Editor.view, h.read], ?_⟩
  have hStop : before.length + layout.text.length + 2 - 1 = before.length + 1 + layout.text.length := by
    omega
  simp only [View.ofOutline, h.found, Layout.literalAt, hStop]
  exact ⟨⟨rfl, rfl, rfl, rfl⟩, trivial, trivial⟩

/-- A script that is viewed is read, and the view tells what was read. -/
theorem Editor.exists_read {editor : Editor} {source : Text} {view : View} (hView : editor.view source = .ok view) :
    ∃ outline, editor.read source = some outline ∧ view = View.ofOutline editor.collection source outline := by
  cases hRead : editor.read source with
  | none => simp [Editor.view, hRead] at hView
  | some outline => exact ⟨outline, rfl, by simpa [Editor.view, hRead, eq_comm] using hView⟩

theorem Editor.view_source {editor : Editor} {source : Text} {view : View} (hView : editor.view source = .ok view) :
    view.source = source := by
  obtain ⟨outline, -, rfl⟩ := Editor.exists_read hView
  unfold View.ofOutline
  split <;> rfl

/-- A view with a collection comes from reading a script whose collection is laid out. -/
theorem ReadsExactly.exists_shows {editor : Editor} (exact : ReadsExactly editor) {source : Text} {view : View}
    (hView : editor.view source = .ok view) (found : view.interior?.isSome = true) :
    ∃ before layout after, source = layout.between before after ∧ layout.WellFormed .any ∧
      view.Shows before layout after := by
  obtain ⟨outline, hRead, rfl⟩ := Editor.exists_read hView
  cases hFound : outline.exports.findSome? (collectionIn? editor.collection) with
  | none => simp [View.ofOutline, hFound] at found
  | some literal =>
      obtain ⟨before, after, layout, rfl, hLayout, rfl⟩ := exact.laidOut hRead hFound
      have hReads : editor.Reads before layout after outline := ⟨hRead, hFound⟩
      obtain ⟨view, hAgain, hShows, -⟩ := hReads.view
      cases hView.symm.trans hAgain
      exact ⟨before, layout, after, rfl, hLayout, hShows⟩

/-- What the reader takes at a place shows what stands there. -/
theorem Editor.Takes.exists_view {editor : Editor} {grammar : Grammar} {before after : Text}
    {contents : List (Text × List Text × Bool)} (takes : editor.Takes grammar before after contents) {layout : Layout}
    (hLayout : layout.WellFormed grammar) :
    ∃ view, editor.view (layout.between before after) = .ok view ∧ view.Shows before layout after ∧
      view.imports.map importContent = contents := by
  obtain ⟨outline, hReads, hImports⟩ := takes layout hLayout
  obtain ⟨view, hView, hShows, hSame, -⟩ := hReads.view
  exact ⟨view, hView, hShows, by rw [hSame, hImports]⟩

theorem View.exists_find? {view : View} {name : Text} (h : name ∈ view.names) :
    ∃ entry, view.find? name = some entry := by
  obtain ⟨entry, hMember, rfl⟩ := List.mem_map.mp h
  rw [← Option.isSome_iff_exists, View.find?, List.find?_isSome]
  exact ⟨entry, hMember, by simp⟩

theorem View.contains_iff {view : View} {name : Text} : view.contains name = true ↔ name ∈ view.names := by
  constructor
  · intro h
    obtain ⟨entry, hEntry⟩ := Option.isSome_iff_exists.mp h
    exact List.mem_map.mpr ⟨entry, List.mem_of_find?_eq_some hEntry, by simpa using List.find?_some hEntry⟩
  · intro h
    obtain ⟨entry, hEntry⟩ := View.exists_find? h
    exact Option.isSome_iff_exists.mpr ⟨entry, hEntry⟩

namespace View.Shows

variable {view : View} {before after : Text} {layout : Layout}

theorem found (shows : view.Shows before layout after) : view.interior?.isSome = true := by
  rw [shows.interior]
  rfl

/-- A view tells the names of the properties. -/
theorem names (shows : view.Shows before layout after) : view.names = namesOf layout.properties := by
  rw [View.names, shows.entries, names_entriesFrom]

theorem surroundings (shows : view.Shows before layout after) :
    view.surroundings? = some (before ++ ['{'], '}' :: after) := by
  have hText : layout.between before after = (before ++ ['{']) ++ (layout.text ++ '}' :: after) := by
    simp [Layout.between]
  rw [View.surroundings?, shows.interior, shows.source, hText]
  simp only [Option.map_some, Option.some.injEq, Prod.mk.injEq]
  refine ⟨List.take_left' (by simp), ?_⟩
  rw [← List.append_assoc]
  exact List.drop_left' (by simp; omega)

/-- The surroundings tell between which texts a layout stands. -/
theorem eq_of_surroundings (shows : view.Shows before layout after) {before' after' : Text}
    (h : view.surroundings? = some (before' ++ ['{'], '}' :: after')) : before = before' ∧ after = after' := by
  rw [shows.surroundings, Option.some.injEq, Prod.mk.injEq] at h
  exact ⟨List.append_cancel_right h.1, (List.cons_eq_cons.mp h.2).2⟩

/-- The span of a property holds its text. -/
theorem getElem?_properties (shows : view.Shows before layout after) {ps qs : List Property} {p : Property}
    (h : layout.properties = ps ++ p :: qs) :
    view.properties[ps.length]? =
      some ⟨(layout.upTo before ps).length, (layout.upTo before ps).length + p.text.length⟩ := by
  rw [shows.properties, h, spansFrom_append, List.map_append, List.getElem?_append_right (by simp)]
  simp [spansFrom, Layout.length_upTo]

theorem length_properties (shows : view.Shows before layout after) :
    view.properties.length = layout.properties.length := by
  simp [shows.properties]

/-- A view shows the names and the texts of the properties of its layout. -/
theorem items (shows : view.Shows before layout after) : view.items = layout.properties.map Property.shown := by
  have hText : layout.between before after =
      (before ++ '{' :: layout.front) ++ (writtenAll layout.properties ++ '}' :: after) := by
    simp [Layout.between, Layout.text]
  have hStart : before.length + 1 + layout.front.length = (before ++ '{' :: layout.front).length := by
    simp only [List.length_append, List.length_cons]
    omega
  rw [View.items_of_spans shows.properties shows.entries, shows.source, hText, hStart, spansFrom_shown]

/-- An entry and the property that it is, with the properties in front of that one and behind it. -/
structure Locates (before : Text) (layout : Layout) (entry : Entry) (ps : List Property) (p : Property)
    (qs : List Property) : Prop where
  split : layout.properties = ps ++ p :: qs
  name : p.name? = some entry.name
  span : entry.span = ⟨(layout.upTo before ps).length, (layout.upTo before ps).length + p.text.length⟩
  property : entry.property = ps.length

/-- An entry is located where its property stands. -/
theorem locates_of_entryBehind {entry : Entry} {ps qs : List Property} {p : Property}
    (hSplit : layout.properties = ps ++ p :: qs) (hName : p.name? = some entry.name)
    (hEntry : entry = entryBehind 0 (before.length + 1 + layout.front.length) ps p entry.name) :
    Locates before layout entry ps p qs := by
  refine ⟨hSplit, hName, ?_, ?_⟩
  · rw [hEntry, Layout.length_upTo]
    rfl
  · rw [hEntry]
    exact Nat.zero_add _

/-- The entry that a name leads to is the first property with that name. -/
theorem find? (shows : view.Shows before layout after) {name : Text} {entry : Entry}
    (h : view.find? name = some entry) :
    entry.name = name ∧ ∃ ps p qs, Locates before layout entry ps p qs ∧ name ∉ namesOf ps := by
  rw [View.find?, shows.entries] at h
  obtain ⟨ps, p, qs, hSplit, hName, hEntry, hFound, hBefore⟩ := find?_entriesFrom (· == name) h
  refine ⟨by simpa using hFound, ps, p, qs, locates_of_entryBehind hSplit hName hEntry, ?_⟩
  intro hMember
  simpa using hBefore name hMember

/-- The first property with a name is the entry that the name leads to. -/
theorem exists_find? (shows : view.Shows before layout after) {name : Text} {ps qs : List Property} {p : Property}
    (hSplit : layout.properties = ps ++ p :: qs) (hName : p.name? = some name) (hFirst : name ∉ namesOf ps) :
    ∃ entry, view.find? name = some entry ∧ Locates before layout entry ps p qs := by
  have hMember : name ∈ view.names := by simp [shows.names, hSplit, namesOf_cons, hName]
  obtain ⟨entry, hEntry⟩ := View.exists_find? hMember
  obtain ⟨hSame, ps', p', qs', hAt, hFirst'⟩ := shows.find? hEntry
  have hName' : p'.name? = some name := by rw [hAt.name, hSame]
  obtain ⟨rfl, rfl, rfl⟩ := split_eq_of_first (hSplit.symm.trans hAt.split) hName hName' hFirst hFirst'
  exact ⟨entry, hEntry, hAt⟩

/-- Entries that a grammar derives have plain names. -/
theorem isIdentifier_of_mem {grammar : Grammar} (shows : view.Shows before layout after)
    (hLayout : layout.WellFormed grammar) {name : Text} (h : name ∈ view.names) : IsIdentifier name := by
  rw [shows.names] at h
  obtain ⟨p, hp, hName⟩ := List.mem_filterMap.mp h
  exact grammar.isIdentifier (hName ▸ (hLayout.properties p hp).property)

end View.Shows

/-- All entries have plain names. -/
theorem ReadsExactly.isIdentifier_of_mem {editor : Editor} (exact : ReadsExactly editor)
    {source name : Text} {view : View} (hView : editor.view source = .ok view)
    (found : view.interior?.isSome = true) (h : name ∈ view.names) : IsIdentifier name := by
  obtain ⟨before, layout, after, -, hLayout, hShows⟩ := exact.exists_shows hView found
  exact hShows.isIdentifier_of_mem hLayout h

/-- A text whose view is admitted is laid out as the grammar derives, and the reader takes all that is derived there. -/
theorem Editor.Admits.exists_takes {editor : Editor} {grammar : Grammar} {view : View} {source : Text}
    (admits : editor.Admits grammar view) (hView : editor.view source = .ok view) :
    ∃ before layout after, source = layout.between before after ∧ layout.WellFormed grammar ∧
      view.Shows before layout after ∧ editor.Takes grammar before after (view.imports.map importContent) := by
  obtain ⟨before, layout, after, hLayout, hShows, takes⟩ := admits
  exact ⟨before, layout, after, (Editor.view_source hView).symm.trans hShows.source, hLayout, hShows, takes⟩

theorem Editor.Admits.found {editor : Editor} {grammar : Grammar} {view : View} (admits : editor.Admits grammar view) :
    view.interior?.isSome = true := by
  obtain ⟨before, layout, after, -, hShows, -⟩ := admits
  exact hShows.found

theorem Editor.Admits.isIdentifier_of_mem {editor : Editor} {grammar : Grammar} {view : View} {name : Text}
    (admits : editor.Admits grammar view) (h : name ∈ view.names) : IsIdentifier name := by
  obtain ⟨before, layout, after, hLayout, hShows, -⟩ := admits
  exact hShows.isIdentifier_of_mem hLayout h

/-- What the reader takes at a place is admitted. -/
theorem Editor.Takes.admits {editor : Editor} {grammar : Grammar} {before after : Text}
    {contents : List (Text × List Text × Bool)} {view : View} {layout : Layout}
    (takes : editor.Takes grammar before after contents) (hLayout : layout.WellFormed grammar)
    (hShows : view.Shows before layout after) (hImports : view.imports.map importContent = contents) :
    editor.Admits grammar view :=
  ⟨before, layout, after, hLayout, hShows, hImports ▸ takes⟩

/-- A view with known surroundings shows a layout in these surroundings. -/
theorem ReadsExactly.exists_shows_between {editor : Editor} (exact : ReadsExactly editor)
    {source before after : Text} {view : View} (hView : editor.view source = .ok view)
    (hAround : view.surroundings? = some (before ++ ['{'], '}' :: after)) :
    ∃ layout, source = layout.between before after ∧ layout.WellFormed .any ∧ view.Shows before layout after := by
  have hFound : view.interior?.isSome = true := by
    cases hInterior : view.interior? with
    | none => simp [View.surroundings?, hInterior] at hAround
    | some interior => rfl
  obtain ⟨before', layout, after', hText, hLayout, hShows⟩ := exact.exists_shows hView hFound
  obtain ⟨rfl, rfl⟩ := hShows.eq_of_surroundings hAround
  exact ⟨layout, hText, hLayout, hShows⟩

/-- Between the same surroundings a text has one layout's text. -/
theorem Layout.text_of_between {layout : Layout} {before after between : Text}
    (h : layout.between before after = before ++ '{' :: (between ++ '}' :: after)) : layout.text = between := by
  obtain ⟨-, hRest⟩ := List.cons_eq_cons.mp (List.append_cancel_left h)
  exact List.append_cancel_right hRest

end IconRegistry.Registry
