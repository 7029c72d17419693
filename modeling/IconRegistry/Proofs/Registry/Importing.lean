import IconRegistry.Proofs.Registry.Insertion

/-! Imports that an editor adds. A further import goes into the text around the collection and leaves the collection as it
is. Where it goes, and whether the reader takes it there, is said of one place at a time. -/
namespace IconRegistry.Registry

open Script

/-- What a declarator declares, wherever it stands: the name of the variable, and of each property of the object
literal that it is set to the plain name and the text. -/
def declared (source : Text) (d : Declarator) : Option Text × Option (List (Option Text × Text)) :=
  (d.name?, d.object?.map fun object =>
    object.properties.map fun p => (p.name?, Span.textIn ⟨p.start, p.stop⟩ source))

/-- What is read of one text is read of another one, and one more import. -/
structure AddsImport (content : Text × List Text × Bool) (source : Text) (outline : Outline) (text : Text)
    (changed : Outline) : Prop where
  imports : changed.imports.map importContent = outline.imports.map importContent ++ [content]
  exports : changed.exports.map (·.map (declared text)) = outline.exports.map (·.map (declared source))

def importLine (name module : Text) : Text :=
  "import \x7b ".toList ++ name ++ " \x7d from \"".toList ++ module ++ "\";".toList

/-- The items of the collection among what declarators declare. -/
def collectionItems? (collection : Text) (declarators : List (Option Text × Option (List (Option Text × Text)))) :
    Option (List (Option Text × Text)) :=
  declarators.findSome? fun d => if d.1 == some collection then d.2 else none

/-- The items of a collection are the texts of its properties. -/
theorem collectionItems?_declared (collection source : Text) (declarators : List Declarator) :
    collectionItems? collection (declarators.map (declared source)) =
      (collectionIn? collection declarators).map fun object =>
        object.properties.map fun p => (p.name?, Span.textIn ⟨p.start, p.stop⟩ source) := by
  rw [collectionItems?, List.findSome?_map, collectionIn?, List.map_findSome?]
  congr 1
  funext d
  by_cases hName : d.name? = some collection <;> simp [declared, hName]

theorem collectionItems?_exports (collection source : Text) (outline : Outline) :
    (outline.exports.map (·.map (declared source))).findSome? (collectionItems? collection) =
      (outline.exports.findSome? (collectionIn? collection)).map fun object =>
        object.properties.map fun p => (p.name?, Span.textIn ⟨p.start, p.stop⟩ source) := by
  rw [List.findSome?_map, List.map_findSome?]
  congr 1
  funext declarators
  exact collectionItems?_declared collection source declarators

/-- What declarators declare tells the items of the collection. -/
theorem items_ofOutline (collection source : Text) (outline : Outline) :
    (View.ofOutline collection source outline).items =
      ((outline.exports.map (·.map (declared source))).findSome? (collectionItems? collection)).getD [] := by
  rw [collectionItems?_exports]
  cases hFound : outline.exports.findSome? (collectionIn? collection) with
  | none => simp [View.ofOutline, View.items, hFound]
  | some object =>
      simp only [View.ofOutline, hFound, Option.map_some, Option.getD_some]
      rw [View.items_of_spans rfl rfl]

theorem imports_ofOutline (collection source : Text) (outline : Outline) :
    (View.ofOutline collection source outline).imports = outline.imports := by
  unfold View.ofOutline
  split <;> rfl

/-- A value is imported by what imports declare. -/
def ImportsValue (contents : List (Text × List Text × Bool)) (name module : Text) : Prop :=
  ∃ names, name ∈ names ∧ (module, names, false) ∈ contents

/-- Whether a value is imported depends on what the imports declare only. -/
theorem View.importsValue_iff {view : View} {name module : Text} :
    view.importsValue name module = true ↔ ImportsValue (view.imports.map importContent) name module := by
  rw [View.importsValue, List.any_eq_true]
  constructor
  · rintro ⟨declaration, hMember, hDeclares⟩
    simp only [Bool.and_eq_true, beq_iff_eq, Bool.not_eq_true', List.contains_iff_mem] at hDeclares
    obtain ⟨⟨hModule, hValue⟩, hName⟩ := hDeclares
    refine ⟨declaration.locals, hName, List.mem_map.mpr ⟨declaration, hMember, ?_⟩⟩
    rw [importContent, hModule, hValue]
  · rintro ⟨names, hName, hContent⟩
    obtain ⟨declaration, hMember, hSame⟩ := List.mem_map.mp hContent
    obtain ⟨hModule, hNames, hValue⟩ : declaration.source = module ∧ declaration.locals = names ∧
        declaration.typeOnly = false := by
      simpa [importContent] using hSame
    exact ⟨declaration, hMember, by simp [hModule, hNames, hValue, hName]⟩

theorem importsValue_concat (contents : List (Text × List Text × Bool)) (name module : Text) :
    ImportsValue (contents ++ [(module, [name], false)]) name module :=
  ⟨[name], List.mem_singleton_self name, by simp⟩

section Editor

variable {editor : Editor} {grammar : Grammar} {source text name module before after : Text} {view changed : View}
  {contents : List (Text × List Text × Bool)}

theorem imports_ne_nil_of_importsValue (h : view.importsValue name module = true) : view.imports ≠ [] := by
  intro hNone
  simp [View.importsValue, hNone] at h

/-- An import that is there already is not added again. -/
theorem Editor.ensureImport_of_importsValue (hView : editor.view source = .ok view)
    (hImports : view.importsValue name module = true) : editor.ensureImport source name module = .ok source := by
  simp [Editor.ensureImport, hView, hImports, bind, Except.bind, pure, Except.pure]

/-- An import that is missing is inserted. -/
theorem Editor.ensureImport_of_missing (hView : editor.view source = .ok view)
    (hMissing : ¬view.importsValue name module = true) :
    editor.ensureImport source name module = .ok ((view.importInsertion name module).apply source) := by
  simp [Editor.ensureImport, hView, hMissing, bind, Except.bind, pure, Except.pure]

section Added

variable {outline more : Outline} {content : Text × List Text × Bool}

/-- Another import leaves the items of the collection. -/
theorem AddsImport.items (hAdds : AddsImport content source outline text more) (collection : Text) :
    (View.ofOutline collection text more).items = (View.ofOutline collection source outline).items := by
  rw [items_ofOutline, items_ofOutline, hAdds.exports]

/-- A text has the import that was added to it. -/
theorem AddsImport.importsValue {collection : Text}
    (hAdds : AddsImport (module, [name], false) source outline text more) :
    (View.ofOutline collection text more).importsValue name module = true := by
  rw [View.importsValue_iff, imports_ofOutline, hAdds.imports]
  exact importsValue_concat _ name module

end Added

/-- A value is imported there already, or other values are, or the text with the import in front of the first statement
is a script. -/
def Editor.Importable (editor : Editor) (view : View) (name module : Text) : Prop :=
  view.imports = [] → ∃ changed, editor.view ((view.importInsertion name module).apply view.source) = .ok changed

/-- An import of a value into a script whose collection stands between two texts goes into one of these texts, whatever
the layout of the collection is. The reader then takes all layouts that it took before, with one more import; or else it
takes none, which only happens in scripts without imports. -/
structure Editor.TakesImport (editor : Editor) (grammar : Grammar) (before after : Text)
    (contents : List (Text × List Text × Bool)) (name module before' after' : Text) : Prop where
  placed : ∀ {layout : Layout} {view : View}, layout.WellFormed grammar →
    editor.view (layout.between before after) = .ok view →
    (view.importInsertion name module).apply (layout.between before after) = layout.between before' after'
  takes : editor.Takes grammar before' after' (contents ++ [(module, [name], false)]) ∨
    contents = [] ∧ ∀ layout : Layout, layout.WellFormed grammar → editor.read (layout.between before' after') = none

/-- A value is imported already, or the reader takes an import of it where the collection of a view stands. -/
def Editor.AdmitsImport (editor : Editor) (grammar : Grammar) (name module : Text) (view : View) : Prop :=
  ∀ before after, view.surroundings? = some (before ++ ['{'], '}' :: after) →
    ¬ImportsValue (view.imports.map importContent) name module →
    ∃ before' after', editor.TakesImport grammar before after (view.imports.map importContent) name module before' after'

/-- Whether an import is admitted depends on what is around the collection. -/
theorem Editor.AdmitsImport.congr (h : editor.AdmitsImport grammar name module view)
    (hAround : changed.surroundings? = view.surroundings?)
    (hImports : changed.imports.map importContent = view.imports.map importContent) :
    editor.AdmitsImport grammar name module changed := by
  intro before after hBetween
  rw [hImports]
  exact h before after (hAround ▸ hBetween)

/-- What is imported is admitted. -/
theorem Editor.AdmitsImport.of_importsValue (h : view.importsValue name module = true) :
    editor.AdmitsImport grammar name module view :=
  fun _ _ _ hMissing => absurd (View.importsValue_iff.mp h) hMissing

/-- Where the text that is made sure of an import can be viewed, the import was there or could be added. -/
theorem Editor.importable_of_ensureImport (hView : editor.view source = .ok view)
    (hEnsure : editor.ensureImport source name module = .ok text) (hChanged : editor.view text = .ok changed) :
    editor.Importable view name module := by
  intro hNone
  have hMissing : ¬view.importsValue name module = true := fun h => imports_ne_nil_of_importsValue h hNone
  obtain rfl := Except.ok.inj ((Editor.ensureImport_of_missing hView hMissing).symm.trans hEnsure)
  exact ⟨changed, by rw [Editor.view_source hView, hChanged]⟩

/-- An import can be added exactly where the reader takes it. -/
theorem Editor.TakesImport.importable_iff {before' after' : Text} {layout : Layout}
    (h : editor.TakesImport grammar before after (view.imports.map importContent) name module before' after')
    (hLayout : layout.WellFormed grammar) (hView : editor.view (layout.between before after) = .ok view) :
    editor.Importable view name module ↔
      editor.Takes grammar before' after' (view.imports.map importContent ++ [(module, [name], false)]) := by
  rw [Editor.Importable, Editor.view_source hView, h.placed hLayout hView]
  constructor
  · intro hImportable
    refine h.takes.resolve_right ?_
    rintro ⟨hNone, hUnread⟩
    obtain ⟨changed, hChanged⟩ := hImportable (List.map_eq_nil_iff.mp hNone)
    obtain ⟨outline, hRead, -⟩ := Editor.exists_read hChanged
    rw [hUnread layout hLayout] at hRead
    cases hRead
  · intro takes _
    obtain ⟨changed, hChanged, -⟩ := takes.exists_view hLayout
    exact ⟨changed, hChanged⟩

/-- Whether an import can be added depends on what is around the collection. -/
theorem Editor.Admits.importable_congr (admits : editor.Admits grammar view) (hView : editor.view source = .ok view)
    (hImport : editor.AdmitsImport grammar name module view)
    (hText : editor.view text = .ok changed) (hChanged : editor.Admits grammar changed)
    (hAround : changed.surroundings? = view.surroundings?)
    (hImports : changed.imports.map importContent = view.imports.map importContent) :
    editor.Importable changed name module ↔ editor.Importable view name module := by
  by_cases hValue : ImportsValue (view.imports.map importContent) name module
  · have hSome := imports_ne_nil_of_importsValue (View.importsValue_iff.mpr hValue)
    have hStill := imports_ne_nil_of_importsValue (View.importsValue_iff.mpr (hImports ▸ hValue))
    exact iff_of_true (fun hNone => absurd hNone hStill) fun hNone => absurd hNone hSome
  · obtain ⟨before, layout, after, rfl, hLayout, hShows, -⟩ := admits.exists_takes hView
    obtain ⟨before', after', hTakes⟩ := hImport _ _ hShows.surroundings hValue
    obtain ⟨front, other, back, rfl, hOther, hShowsOther, -⟩ := hChanged.exists_takes hText
    obtain ⟨rfl, rfl⟩ := hShowsOther.eq_of_surroundings (hAround.trans hShows.surroundings)
    have hSame := hTakes
    rw [← hImports] at hSame
    rw [hTakes.importable_iff hLayout hView, hSame.importable_iff hOther hText, hImports]

/-- Making sure of an import that can be added keeps the collection as it is, and all that is admitted in its place. -/
theorem Editor.Admits.exists_ensureImport (admits : editor.Admits grammar view) (hView : editor.view source = .ok view)
    (hImport : editor.AdmitsImport grammar name module view) (hImportable : editor.Importable view name module) :
    ∃ text changed, editor.ensureImport source name module = .ok text ∧ editor.view text = .ok changed ∧
      changed.items = view.items ∧ changed.names = view.names ∧
      editor.Admits grammar changed ∧ changed.importsValue name module = true := by
  by_cases hValue : view.importsValue name module = true
  · exact ⟨source, view, Editor.ensureImport_of_importsValue hView hValue, hView, rfl, rfl, admits, hValue⟩
  · obtain ⟨before, layout, after, rfl, hLayout, hShows, -⟩ := admits.exists_takes hView
    obtain ⟨before', after', hTakes⟩ := hImport _ _ hShows.surroundings fun h => hValue (View.importsValue_iff.mpr h)
    have takes := (hTakes.importable_iff hLayout hView).mp hImportable
    obtain ⟨changed, hChanged, hShowsChanged, hImports⟩ := takes.exists_view hLayout
    refine ⟨_, changed, Editor.ensureImport_of_missing hView hValue, ?_, hShowsChanged.items.trans hShows.items.symm,
      hShowsChanged.names.trans hShows.names.symm, takes.admits hLayout hShowsChanged hImports, ?_⟩
    · rw [hTakes.placed hLayout hView, hChanged]
    · rw [View.importsValue_iff, hImports]
      exact importsValue_concat _ name module

end Editor

end IconRegistry.Registry
