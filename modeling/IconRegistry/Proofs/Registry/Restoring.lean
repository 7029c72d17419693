import IconRegistry.Proofs.Registry.Growth
import IconRegistry.Proofs.Registry.ModuleTaking
import IconRegistry.Proofs.Registry.OutlineLayout
import IconRegistry.Proofs.Registry.SortedLines

/-! Batches: entries that are inserted one by one and then removed together. In whatever order that happens, the
text is in the end what it was in the beginning. -/
namespace IconRegistry.Registry

open Script

/-- What is known of the texts between the first insertion of a batch and its last removal, given the names that
are inserted. -/
structure Editor.Batch (editor : Editor) (source : Text) (rows : List Row) (State : Text → List Text → Prop) :
    Prop where
  start : State source []
  finish : ∀ {text}, State text [] → text = source
  perm : ∀ {text inserted others}, State text inserted → inserted.Perm others → State text others
  present : ∀ {text inserted}, State text inserted →
    ∃ view, editor.view text = .ok view ∧ ∀ name ∈ inserted, name ∈ view.names
  insert : ∀ {text inserted name component}, (name, component) ∈ rows → name ∉ inserted → State text inserted →
    ∃ more, editor.insert text name component = .ok more ∧ State more (name :: inserted)
  remove : ∀ {text inserted name}, (name :: inserted).Nodup → State text (name :: inserted) →
    ∃ less, editor.remove text name = .ok less ∧ State less inserted

theorem Editor.ensurePresent_of_view {editor : Editor} {source : Text} {view : View} {names : List Text}
    (hView : editor.view source = .ok view) (hNames : ∀ name ∈ names, name ∈ view.names) :
    editor.ensurePresent source names = .ok () := by
  have hMissing : names.filter (!view.contains ·) = [] := by
    simpa [View.contains_iff] using hNames
  simp [Editor.ensurePresent, hView, hMissing, bind, Except.bind, pure, Except.pure]

namespace Editor.Batch

variable {editor : Editor} {source text : Text} {rows part : List Row} {names inserted : List Text}
  {State : Text → List Text → Prop}

/-- A batch can be inserted, whatever part of it is there. -/
theorem insertAll (batch : editor.Batch source rows State) (hPart : ∀ row ∈ part, row ∈ rows)
    (hNodup : (part.map (·.1) ++ inserted).Nodup) (h : State text inserted) :
    ∃ full, part.foldlM (fun text row => editor.insert text row.1 row.2) text = .ok full ∧
      State full (part.map (·.1) ++ inserted) := by
  induction part generalizing text inserted with
  | nil => exact ⟨text, rfl, h⟩
  | cons row rest ih =>
      obtain ⟨hRow, hRest⟩ := List.forall_mem_cons.mp hPart
      have hMiddle : (rest.map (·.1) ++ row.1 :: inserted).Perm ((row :: rest).map (·.1) ++ inserted) :=
        List.perm_middle
      have hNew : row.1 ∉ inserted := fun hMember => (List.nodup_cons.mp hNodup).1 (by simp [hMember])
      obtain ⟨more, hInsert, hMore⟩ := batch.insert hRow hNew h
      obtain ⟨full, hRun, hFull⟩ := ih hRest (hMiddle.nodup_iff.mpr hNodup) hMore
      refine ⟨full, ?_, batch.perm hFull hMiddle⟩
      rw [List.foldlM_cons, hInsert]
      exact hRun

/-- Removing all that was inserted gives the source back. -/
theorem removeAll (batch : editor.Batch source rows State) (hNodup : names.Nodup) (h : State text names) :
    names.foldlM editor.remove text = .ok source := by
  induction names generalizing text with
  | nil => rw [batch.finish h]; rfl
  | cons name rest ih =>
      obtain ⟨less, hRemove, hLess⟩ := batch.remove hNodup h
      rw [List.foldlM_cons, hRemove]
      exact ih (List.nodup_cons.mp hNodup).2 hLess

/-- A batch of different names is removed without a trace. -/
theorem restores (batch : editor.Batch source rows State) (hNodup : (rows.map (·.1)).Nodup)
    (hNames : names.Perm (rows.map (·.1))) :
    ∃ text, rows.foldlM (fun text row => editor.insert text row.1 row.2) source = .ok text ∧
      editor.removeMany text names = .ok source := by
  obtain ⟨text, hRun, hText⟩ := batch.insertAll (fun _ h => h) (by simpa using hNodup) batch.start
  rw [List.append_nil] at hText
  have hFull := batch.perm hText hNames.symm
  obtain ⟨view, hView, hPresent⟩ := batch.present hFull
  refine ⟨text, hRun, ?_⟩
  rw [Editor.removeMany, Editor.ensurePresent_of_view hView hPresent]
  exact batch.removeAll (hNames.nodup_iff.mpr hNodup) hFull

end Editor.Batch

/-! ### An empty literal -/

/-- A text between whose surroundings the lines of certain names are listed. -/
def Grammar.ListsNames (grammar : Grammar) (before after text : Text) (names : List Text) : Prop :=
  ∃ contents rows, grammar.Lists contents rows ∧
    text = (rowLayout rows).between before after ∧ ∀ name, contents name ≠ none ↔ name ∈ names

section Empty

variable {editor : Editor} {grammar : Grammar} {before after : Text} {rows : List Row}
  {imports : List (Text × List Text × Bool)}

/-- Rows in order are a batch on an empty collection. -/
theorem Editor.batch_of_lists (takes : editor.Takes grammar before after imports)
    (hRows : ∀ row ∈ rows, grammar.property (some row.1) row.2) :
    editor.Batch ((rowLayout []).between before after) rows (grammar.ListsNames before after) where
  start := ⟨_, [], grammar.lists_nothing, rfl, by simp⟩
  finish := by
    rintro text ⟨contents, lines, hLists, rfl, hNames⟩
    have hNone : lines = [] := by
      refine List.eq_nil_iff_forall_not_mem.mpr fun (name, component) hMember => ?_
      have hListed := (hLists.listing.mem_iff name component).mp hMember
      simpa [hListed] using hNames name
    rw [hNone]
  perm := by
    rintro text inserted others ⟨contents, lines, hLists, rfl, hNames⟩ hPerm
    exact ⟨contents, lines, hLists, rfl, fun name => (hNames name).trans hPerm.mem_iff⟩
  present := by
    rintro text inserted ⟨contents, lines, hLists, rfl, hNames⟩
    obtain ⟨view, hView, hShows, -⟩ := hLists.view takes
    refine ⟨view, hView, fun name hMember => ?_⟩
    obtain ⟨rs, old, ss, rfl⟩ := hLists.listing.exists_split ((hNames name).mpr hMember)
    rw [hShows.names, rowLayout, namesOf_rowProperties]
    simp
  insert := by
    rintro text inserted name component hRow hNew ⟨contents, lines, hLists, rfl, hNames⟩
    have hFree : contents name = none := by simpa [hNew] using hNames name
    obtain ⟨others, hOthers, hInsert⟩ := hLists.insert takes hFree (hRows _ hRow)
    refine ⟨_, hInsert, _, others, hOthers, rfl, fun other => ?_⟩
    by_cases hSame : other = name <;> simp [Contents.set, hSame, hNames]
  remove := by
    rintro text inserted name hNodup ⟨contents, lines, hLists, rfl, hNames⟩
    obtain ⟨hOnce, -⟩ := List.nodup_cons.mp hNodup
    obtain ⟨others, hOthers, hRemove⟩ := hLists.remove takes ((hNames name).mpr (by simp))
    refine ⟨_, hRemove, _, others, hOthers, rfl, fun other => ?_⟩
    by_cases hSame : other = name
    · simp [Contents.set, hSame, hOnce]
    · simp [Contents.set, hSame, hNames]

end Empty

/-! ### A collection that ends in an entry -/

/-- The entry of the last property. -/
theorem View.Shows.getLast?_of_named {view : View} {before after : Text} {layout : Layout} {ps : List Property}
    {p : Property} (shows : view.Shows before layout after) (hSplit : layout.properties = ps ++ [p])
    (hNamed : p.name?.isSome = true) :
    ∃ last, view.entries.getLast? = some last ∧ Locates before layout last ps p [] := by
  obtain ⟨name, hName⟩ := Option.isSome_iff_exists.mp hNamed
  have hEntries : view.entries.getLast? ≠ none := by
    intro hNone
    have hNames := shows.getLast?_eq_none hNone
    simp [hSplit, namesOf_cons, hName] at hNames
  obtain ⟨last, hLast⟩ := Option.ne_none_iff_exists'.mp hEntries
  obtain ⟨ps', p', qs, hAt, hAfter⟩ := shows.getLast? hLast
  have hBoth : ps ++ [p] = ps' ++ p' :: qs := hSplit.symm.trans hAt.split
  rcases List.eq_nil_or_concat qs with rfl | ⟨qs, q, rfl⟩
  · obtain ⟨rfl, hSame⟩ := List.append_inj' hBoth rfl
    obtain rfl := List.head_eq_of_cons_eq hSame
    exact ⟨last, hLast, hAt⟩
  · rw [List.concat_eq_append] at *
    have hEnds : ps ++ [p] = (ps' ++ p' :: qs) ++ [q] := by simpa using hBoth
    obtain rfl := List.head_eq_of_cons_eq (List.append_inj' hEnds rfl).2
    simp [namesOf_cons, hName] at hAfter

/-- Where no gap is in front of its comma, the property before the last one gets what stood behind that. -/
theorem View.Shows.removal_last_tight {view : View} {before after name afterComma : Text} {layout : Layout}
    {entry : Entry} {ps : List Property} {r p : Property} (shows : view.Shows before layout after)
    (hEntry : view.find? name = some entry) (hAt : Locates before layout entry (ps ++ [r]) p [])
    (hGap : r.gap = []) (hComma : r.afterComma? = some afterComma) :
    (view.removal? name).map (·.apply view.source) =
      some (Layout.between ⟨layout.front, ps ++ [r.closedLike p]⟩ before after) := by
  have hTail : r.tail = ',' :: afterComma := by
    rw [Property.tail, hGap, hComma]
    rfl
  have hBehind : leftBehind r.tail p.tail = p.tail := by simp [leftBehind, hTail]
  rw [shows.removal_last hEntry hAt (by simp [hTail]), hBehind]
  simp [Layout.between, Layout.text, Layout.upTo, Property.tail, Property.closedLike]

/-- A text whose collection has grown out of certain properties by the entries of certain names, some of which are
inserted. -/
def Grammar.HasGrown (grammar : Grammar) (names : List Text) (before front after : Text) (last : Property)
    (original : List Property) (text : Text) (inserted : List Text) : Prop :=
  ∃ properties, text = Layout.between ⟨front, properties⟩ before after ∧
    Layout.WellFormed grammar ⟨front, properties⟩ ∧ Grown names last original properties ∧
    (addedNames names properties).Perm inserted

section Growing

variable {editor : Editor} {grammar : Grammar} {names inserted : List Text} {before front after text : Text}
  {last : Property} {ps : List Property} {name component : Text} {imports : List (Text × List Text × Bool)}

/-- A collection that has grown goes on growing with each insertion. -/
theorem Grammar.HasGrown.insert (takes : editor.Takes grammar before after imports) (hLast : last.name?.isSome = true)
    (h : grammar.HasGrown names before front after last (ps ++ [last]) text inserted) (hName : name ∈ names)
    (hComponent : grammar.property (some name) component) :
    ∃ more, editor.insert text name component = .ok more ∧
      grammar.HasGrown names before front after last (ps ++ [last]) more (name :: inserted) := by
  obtain ⟨properties, rfl, hWellFormed, hGrown, hAdded⟩ := h
  obtain ⟨view, hView, hShows, -⟩ := takes.exists_view hWellFormed
  cases hNext : view.following? name with
  | some next =>
      obtain ⟨front', p, qs, hAt, -, -⟩ := hShows.following? hNext
      obtain rfl : properties = front' ++ p :: qs := hAt.split
      have hEdit := hShows.insertion_before component hNext hAt
      rw [hShows.source] at hEdit
      refine ⟨_, Editor.insert_of_view hView hEdit, _, rfl, ?_, ?_, ?_⟩
      · exact hWellFormed.insertBefore (separated_wellFormed hComponent (isGap_gapBefore ..)) rfl
      · exact hGrown.insertBefore (Property.isAmong_iff.mpr ⟨name, hName, rfl⟩) rfl
      · exact (perm_addedNames rfl hName).trans (hAdded.cons name)
  | none =>
      obtain ⟨front', p, rfl, hNamed⟩ := hGrown.exists_last hLast
      obtain ⟨entry, hEntry, hAt⟩ := hShows.getLast?_of_named rfl hNamed
      have hEdit := hShows.insertion_behind component hNext hEntry hAt
      rw [hShows.source] at hEdit
      refine ⟨_, Editor.insert_of_view hView hEdit, _, rfl, ?_, ?_, ?_⟩
      · exact hWellFormed.insertBehind (isGap_gapBefore ..) hComponent rfl rfl
      · exact hGrown.insertBehind hName component _
      · exact (perm_addedNames_behind hName component _).trans (hAdded.cons name)

theorem Grammar.HasGrown.remove (takes : editor.Takes grammar before after imports)
    (h : grammar.HasGrown names before front after last (ps ++ [last]) text (name :: inserted)) :
    ∃ less, editor.remove text name = .ok less ∧
      grammar.HasGrown names before front after last (ps ++ [last]) less inserted := by
  obtain ⟨properties, rfl, hWellFormed, hGrown, hAdded⟩ := h
  obtain ⟨view, hView, hShows, -⟩ := takes.exists_view hWellFormed
  have hMember : name ∈ addedNames names properties := hAdded.mem_iff.mpr (by simp)
  obtain ⟨hListed, hAmong⟩ := List.mem_filter.mp hMember
  have hName : name ∈ names := by simpa using hAmong
  obtain ⟨entry, hEntry⟩ := View.exists_find? (hShows.names ▸ hListed)
  obtain ⟨rfl, front', p, qs, hAt, -⟩ := hShows.find? hEntry
  obtain rfl : properties = front' ++ p :: qs := hAt.split
  have hp : p.isAmong names = true := Property.isAmong_iff.mpr ⟨_, hName, hAt.name⟩
  have hLeft := ((perm_addedNames hAt.name hName).symm.trans hAdded).cons_inv
  cases qs with
  | cons q qs =>
      have hEdit := hShows.removal_next hEntry hAt
      rw [hShows.source] at hEdit
      exact ⟨_, Editor.remove_of_view hView hEdit, _, rfl, hWellFormed.erase, hGrown.removeNext hp, hLeft⟩
  | nil =>
      rcases List.eq_nil_or_concat front' with rfl | ⟨front', r, rfl⟩
      · -- one of the properties has not been inserted
        simpa [hp, closedLike] using hGrown.kept
      · rw [List.concat_eq_append] at *
        have hPair : front' ++ [r] ++ [p] = front' ++ [r, p] := by simp
        rw [hPair] at hGrown hWellFormed
        obtain ⟨hGap, hGrownLeft⟩ := hGrown.removeLast hp
        obtain ⟨-, hSeparated⟩ := separated_append_cons.mp hWellFormed.separated
        obtain ⟨after', hComma⟩ := hSeparated.exists_comma (by simp)
        have hEdit := hShows.removal_last_tight hEntry hAt hGap hComma
        rw [hShows.source] at hEdit
        have hLast := hWellFormed.properties p (by simp)
        have hSame : addedNames names (front' ++ [r.closedLike p]) = addedNames names (front' ++ [r]) :=
          addedNames_congr (by simp)
        refine ⟨_, Editor.remove_of_view hView hEdit, _, rfl, ?_, hGrownLeft, ?_⟩
        · exact hWellFormed.endBehind hLast.gap hLast.afterComma
        · rw [hSame]
          simpa using hLeft

/-- Rows are a batch on a collection whose last property has a name, and whose names are others. -/
theorem Editor.batch_of_grown (takes : editor.Takes grammar before after imports) {rows : List Row}
    (hLayout : Layout.WellFormed grammar ⟨front, ps ++ [last]⟩) (hLast : last.name?.isSome = true)
    (hRows : ∀ row ∈ rows, grammar.property (some row.1) row.2)
    (hNew : ∀ row ∈ rows, row.1 ∉ namesOf (ps ++ [last])) :
    editor.Batch (Layout.between ⟨front, ps ++ [last]⟩ before after) rows
      (grammar.HasGrown (rows.map (·.1)) before front after last (ps ++ [last])) where
  start := by
    have hNone : addedNames (rows.map (·.1)) (ps ++ [last]) = [] := by
      rw [addedNames, List.filter_eq_nil_iff]
      intro name hName hRow
      obtain ⟨row, hMember, rfl⟩ := List.mem_map.mp (List.contains_iff_mem.mp hRow)
      exact hNew row hMember hName
    exact ⟨_, rfl, hLayout, .refl (none_isAmong hNone), by rw [hNone]⟩
  finish := by
    rintro text ⟨properties, rfl, -, hGrown, hAdded⟩
    rw [hGrown.eq_of_none (none_isAmong hAdded.eq_nil)]
  perm := by
    rintro text inserted others ⟨properties, rfl, hWellFormed, hGrown, hAdded⟩ hPerm
    exact ⟨properties, rfl, hWellFormed, hGrown, hAdded.trans hPerm⟩
  present := by
    rintro text inserted ⟨properties, rfl, hWellFormed, -, hAdded⟩
    obtain ⟨view, hView, hShows, -⟩ := takes.exists_view hWellFormed
    refine ⟨view, hView, fun name hMember => ?_⟩
    rw [hShows.names]
    exact (List.mem_filter.mp (hAdded.mem_iff.mpr hMember)).1
  insert := by
    intro text inserted name component hRow _ h
    exact h.insert takes hLast (List.mem_map_of_mem hRow) (hRows _ hRow)
  remove := fun _ h => h.remove takes

end Growing

/-- Whether a collection is an empty literal, without even a blank between its braces, or its last property is an
entry. -/
def View.EmptyOrEndsInEntry (view : View) : Prop :=
  (∃ position, view.interior? = some ⟨position, position⟩) ∨
    ∃ name text, view.items.getLast? = some (some name, text)

section Editor

variable {editor : Editor} {grammar : Grammar} {source : Text} {view : View} {rows : List Row} {names : List Text}

/-- Entries with new names that are inserted one by one and then removed together, in whatever order, leave no
trace. -/
theorem removeMany_undoes_insertions (hView : editor.view source = .ok view) (admits : editor.Admits grammar view)
    (hShape : view.EmptyOrEndsInEntry)
    (hRows : ∀ row ∈ rows, grammar.property (some row.1) row.2) (hDifferent : (rows.map (·.1)).Nodup)
    (hNew : ∀ row ∈ rows, row.1 ∉ view.names) (hNames : names.Perm (rows.map (·.1))) :
    ∃ text, rows.foldlM (fun text row => editor.insert text row.1 row.2) source = .ok text ∧
      editor.removeMany text names = .ok source := by
  obtain ⟨before, layout, after, rfl, hLayout, hShows, takes⟩ := admits.exists_takes hView
  rcases hShape with ⟨position, hEmpty⟩ | ⟨name, text, hEnd⟩
  · have hNothing : layout.text = [] := by
      rw [hShows.interior, Option.some.injEq, Span.mk.injEq] at hEmpty
      exact List.eq_nil_of_length_eq_zero (by omega)
    have hText : layout.between before after = (rowLayout []).between before after := by
      rw [between_rowLayout, Layout.between, hNothing]
      simp [literalText]
    rw [hText]
    exact (Editor.batch_of_lists takes hRows).restores hDifferent hNames
  · obtain ⟨front, properties⟩ := layout
    rw [hShows.items] at hEnd
    rcases List.eq_nil_or_concat properties with rfl | ⟨ps, last, rfl⟩
    · cases hEnd
    · rw [List.concat_eq_append] at *
      have hLast : last.name? = some name := by
        simp only [List.map_append, List.map_singleton, List.getLast?_concat, Option.some.injEq] at hEnd
        exact congrArg Prod.fst hEnd
      refine (Editor.batch_of_grown takes hLayout (by simp [hLast]) hRows ?_).restores hDifferent hNames
      simpa only [hShows.names] using hNew

/-- One entry joins in front of the last one, and one behind it; the first of them to come is the last to go. -/
theorem removeMany_undoes_insertions_among_comments :
    let editor := Editor.ofDialect "Icons".toList .tsx
    let source := "export const Icons = \x7b // first\n  ...props /* , */, B: h // last\n\x7d;\n".toList
    let rows := [("C".toList, "C: h".toList), ("A".toList, "A: h".toList)]
    let names := ["A".toList, "C".toList]
    ∃ view, editor.view source = .ok view ∧ view.EmptyOrEndsInEntry ∧ (rows.map (·.1)).Nodup ∧
      (∀ row ∈ rows, row.1 ∉ view.names) ∧ names.Perm (rows.map (·.1)) ∧
      ∃ text, rows.foldlM (fun text row => editor.insert text row.1 row.2) source = .ok text ∧
        editor.removeMany text names = .ok source := by
  intro editor source rows names
  let layout : Layout := ⟨" // first\n  ".toList, [⟨none, "...props".toList, " /* , */".toList, some [' ']⟩,
    ⟨some "B".toList, "B: h".toList, " // last\n".toList, none⟩]⟩
  have hLayout : layout.WellFormed .members := Layout.HasWords.wellFormed (by decide)
  obtain ⟨view, hView, hShows, -, hAdmits⟩ := isModule_icons.exists_view false hLayout
  have hText : layout.between (frontOf [] [] "Icons".toList) (backOf false ['\n']) = source := by decide
  rw [hText] at hView
  have hShape : view.EmptyOrEndsInEntry := by
    refine .inr ⟨"B".toList, "B: h".toList, ?_⟩
    rw [hShows.items]
    rfl
  have hRows : ∀ row ∈ rows, Grammar.members.property (some row.1) row.2 := by
    have hWords : ∀ row ∈ rows, isWordMember (some row.1, row.2) = true := by decide
    exact fun row hRow => isMember_of_isWordMember (hWords row hRow)
  have hDifferent : (rows.map (·.1)).Nodup := by decide
  have hNew : ∀ row ∈ rows, row.1 ∉ view.names := by
    rw [hShows.names]
    decide
  have hNames : names.Perm (rows.map (·.1)) := by decide
  exact ⟨view, hView, hShape, hDifferent, hNew, hNames,
    removeMany_undoes_insertions hView hAdmits hShape hRows hDifferent hNew
      hNames⟩

end Editor

end IconRegistry.Registry
