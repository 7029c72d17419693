import IconRegistry.Proofs.Registry.Importing
import IconRegistry.Proofs.Registry.Restoring

/-! Collections as sets of names. A collection that only an editor has written has one line for each name, and editing
it adds a name or takes one away, whatever the components are. -/
namespace IconRegistry.Registry

open Script

/-- A text that lists contents of certain names between fixed surroundings. -/
def Grammar.Lines (grammar : Grammar) (before after : Text) (names : Names) (text : Text) : Prop :=
  ∃ contents rows, grammar.Lists contents rows ∧ contents.names = names ∧ text = (rowLayout rows).between before after

/-- The empty literal lists no names. -/
theorem Grammar.lines_nothing (grammar : Grammar) (before after : Text) :
    grammar.Lines before after (fun _ => false) (before ++ "\x7b\x7d".toList ++ after) :=
  ⟨fun _ => none, [], grammar.lists_nothing, rfl, (between_rowLayout [] before after).symm⟩

section

variable {editor : Editor} {grammar : Grammar} {before after text name component : Text} {names : Names}
  {removed : List Text} {view : View} {imports : List (Text × List Text × Bool)}

namespace Grammar.Lines

/-- Each name is shown once. -/
theorem exists_view (h : grammar.Lines before after names text) (takes : editor.Takes grammar before after imports) :
    ∃ view, editor.view text = .ok view ∧ view.interior?.isSome = true ∧ view.names.Nodup ∧
      (∀ name, name ∈ view.names ↔ names name = true) ∧ view.imports.map importContent = imports := by
  obtain ⟨contents, rows, hLists, rfl, rfl⟩ := h
  obtain ⟨view, hView, hShows, hImports⟩ := hLists.view takes
  have hNames : view.names = rows.map (·.1) := by rw [hShows.names, rowLayout, namesOf_rowProperties]
  refine ⟨view, hView, hShows.found, ?_, fun name => ?_, hImports⟩
  · rw [hNames]
    exact List.pairwise_map.mpr (hLists.listing.sorted.imp ne_of_compareNames_lt)
  · rw [hNames, List.mem_map, Contents.names, Option.isSome_iff_exists]
    constructor
    · rintro ⟨⟨other, component⟩, hRow, rfl⟩
      exact ⟨component, (hLists.listing.mem_iff other component).mp hRow⟩
    · rintro ⟨component, hComponent⟩
      exact ⟨(name, component), (hLists.listing.mem_iff name component).mpr hComponent, rfl⟩

/-- A view contains the names that are listed. -/
theorem contains (h : grammar.Lines before after names text) (takes : editor.Takes grammar before after imports)
    (hView : editor.view text = .ok view) (name : Text) : view.contains name = names name := by
  obtain ⟨shown, hShown, -, -, hNames, -⟩ := h.exists_view takes
  obtain rfl : shown = view := Except.ok.inj (hShown.symm.trans hView)
  rw [Bool.eq_iff_iff, View.contains_iff, hNames]

/-- An entry that was inserted has its line. -/
theorem insert (h : grammar.Lines before after names text) (takes : editor.Takes grammar before after imports)
    (hName : names name = false) (hComponent : grammar.property (some name) component) :
    ∃ more, editor.insert text name component = .ok more ∧ grammar.Lines before after (names.set name true) more := by
  obtain ⟨contents, rows, hLists, rfl, rfl⟩ := h
  obtain ⟨others, hOthers, hInsert⟩ := hLists.insert takes (by simpa [Contents.names] using hName) hComponent
  exact ⟨_, hInsert, _, others, hOthers, contents.names_set name (some component), rfl⟩

/-- An entry that was replaced keeps its line. -/
theorem replace (h : grammar.Lines before after names text) (takes : editor.Takes grammar before after imports)
    (hName : names name = true) (hComponent : grammar.property (some name) component) :
    ∃ changed, editor.replace text name component = .ok changed ∧
      grammar.Lines before after (names.set name true) changed := by
  obtain ⟨contents, rows, hLists, rfl, rfl⟩ := h
  obtain ⟨others, hOthers, hReplace⟩ := hLists.replace takes (Option.isSome_iff_ne_none.mp hName) hComponent
  exact ⟨_, hReplace, _, others, hOthers, contents.names_set name (some component), rfl⟩

/-- An entry that was removed has no line. -/
theorem remove (h : grammar.Lines before after names text) (takes : editor.Takes grammar before after imports)
    (hName : names name = true) :
    ∃ less, editor.remove text name = .ok less ∧ grammar.Lines before after (names.set name false) less := by
  obtain ⟨contents, rows, hLists, rfl, rfl⟩ := h
  obtain ⟨others, hOthers, hRemove⟩ := hLists.remove takes (Option.isSome_iff_ne_none.mp hName)
  exact ⟨_, hRemove, _, others, hOthers, contents.names_set name none, rfl⟩

/-- Different names are removed one after the other. -/
theorem removeEach (h : grammar.Lines before after names text) (takes : editor.Takes grammar before after imports)
    (hNodup : removed.Nodup) (hNames : ∀ name ∈ removed, names name = true) :
    ∃ less, removed.foldlM editor.remove text = .ok less ∧
      grammar.Lines before after (names.without removed) less := by
  induction removed generalizing text names with
  | nil => exact ⟨text, rfl, by simpa using h⟩
  | cons first rest ih =>
      obtain ⟨hFirst, hOthers⟩ := List.forall_mem_cons.mp hNames
      obtain ⟨less, hRemove, hLess⟩ := h.remove takes hFirst
      obtain ⟨final, hFinal, hLines⟩ := ih hLess (List.nodup_cons.mp hNodup).2 (Names.registered_behind hNodup hOthers)
      rw [List.foldlM_cons, hRemove, Names.without_cons]
      exact ⟨final, hFinal, hLines⟩

theorem removeMany (h : grammar.Lines before after names text) (takes : editor.Takes grammar before after imports)
    (hNodup : removed.Nodup) (hNames : ∀ name ∈ removed, names name = true) :
    ∃ less, editor.removeMany text removed = .ok less ∧
      grammar.Lines before after (names.without removed) less := by
  obtain ⟨view, hView, -, -, hShown, -⟩ := h.exists_view takes
  obtain ⟨less, hRemove, hLess⟩ := h.removeEach takes hNodup hNames
  refine ⟨less, ?_, hLess⟩
  rw [Editor.removeMany, Editor.ensurePresent_of_view hView fun name hName => (hShown name).mpr (hNames name hName)]
  exact hRemove

/-- Where names are missing, none is removed. -/
theorem removeMany_missing (h : grammar.Lines before after names text)
    (takes : editor.Takes grammar before after imports) (hMissing : removed.filter (fun name => !names name) ≠ []) :
    editor.removeMany text removed = .error (.missingEntries (removed.filter fun name => !names name)) := by
  obtain ⟨view, hView, -⟩ := h.exists_view takes
  have hSame : removed.filter (!view.contains ·) = removed.filter fun name => !names name := by
    simp only [h.contains takes hView]
  simp [Editor.removeMany, Editor.ensurePresent, hView, hSame, hMissing, bind, Except.bind, throw, throwThe,
    MonadExceptOf.throw]

/-- What is imported where the collection stands is not imported again. -/
theorem ensureImport {module : Text} (h : grammar.Lines before after names text)
    (takes : editor.Takes grammar before after imports) (hImports : ImportsValue imports name module) :
    editor.ensureImport text name module = .ok text := by
  obtain ⟨view, hView, -, -, -, hSame⟩ := h.exists_view takes
  exact Editor.ensureImport_of_importsValue hView (View.importsValue_iff.mpr (hSame ▸ hImports))

end Grammar.Lines

end

end IconRegistry.Registry
