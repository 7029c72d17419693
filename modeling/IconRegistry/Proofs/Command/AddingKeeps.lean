import IconRegistry.Proofs.Command.Adding
import IconRegistry.Proofs.Component.ReadBack
import IconRegistry.Proofs.Registry.ModuleImporting
import IconRegistry.Proofs.Registry.OutlineLayout
import IconRegistry.Proofs.Registry.Rewriting

/-! Runs that add icons keep the registry: which entries it has afterwards, and exactly when it can be read. -/
namespace IconRegistry

open Component Registry Config

namespace Outcome

/-- The icon whose component was written, if one was. -/
def written? : Outcome → Option Text
  | added icon | replaced icon => some icon
  | _ => none

/-- The name of the component that was added, if one was. -/
def addedName? : Outcome → Option Text
  | added icon => some (nameOf icon)
  | _ => none

end Outcome

def writtenIcons (outcomes : List Outcome) : List Text :=
  outcomes.filterMap Outcome.written?

def addedNames (outcomes : List Outcome) : List Text :=
  outcomes.filterMap Outcome.addedName?

namespace Registry

/-- A text shows the collection, with the entries of a view and with those that are called as given. -/
def Editor.Registers (editor : Editor) (view : View) (names : List Text) (text : Text) : Prop :=
  ∃ changed, editor.view text = .ok changed ∧ changed.interior?.isSome = true ∧
    ∀ name, name ∈ changed.names ↔ name ∈ view.names ∨ name ∈ names

end Registry

namespace Config.Settings

/-- A registry with types and JSX is read as it is laid out. -/
theorem readsExactly_editor {settings : Settings}
    (h : (Script.Dialect.ofPath? settings.registryPath).getD .tsx = .tsx) : ReadsExactly settings.editor := by
  rw [editor_eq_ofDialect h]
  exact readsExactly_ofDialect rfl settings.collection

end Config.Settings

namespace Command

/-- The components of icons are properties that are called so, if their names are names of scripts. -/
def MakesProperties (grammar : Grammar) (settings : Settings) (framework : Framework) (files : Store)
    (icons : List Text) : Prop :=
  ∀ icon ∈ icons, ∀ component, componentOf settings framework files icon = .ok component →
    Script.IsIdentifier (nameOf icon) → grammar.property (some (nameOf icon)) component

/-- The element trees of icons are written with names only. -/
def NamesTrees (pieces : Pieces) (settings : Settings) (framework : Framework) (files : Store) (icons : List Text) :
    Prop :=
  ∀ icon ∈ icons, ∀ markup, IconSource.fetch files settings.iconsDirectory icon = .ok markup →
    pieces.NamesIcon framework canonicalOptimizer (settings.spec icon) markup

/-- Images without names that are foreign to scripts make components that can be read. -/
theorem namesTrees_of_isFrame {settings : Settings} {framework : Framework} {files : Store} {icons : List Text}
    (h : ∀ icon ∈ icons, (IconSource.fetch files settings.iconsDirectory icon).toOption.all
      (isFrame framework canonicalOptimizer (settings.spec icon)) = true) :
    NamesTrees readPieces settings framework files icons := by
  intro icon hIcon markup hMarkup
  have hFrame := h icon hIcon
  rw [hMarkup] at hFrame
  exact namesIcon_of_isFrame hFrame

/-- Components with fitting names are properties. -/
theorem makesProperties_of_names {grammar : Grammar} {pieces : Pieces} (composes : pieces.Composes grammar)
    {settings : Settings} {framework : Framework} {files : Store} {icons : List Text}
    (hInline : settings.placement = .inline) (h : NamesTrees pieces settings framework files icons) :
    MakesProperties grammar settings framework files icons := by
  intro icon hIcon component hComponent hName
  rw [componentOf] at hComponent
  split at hComponent
  · cases hComponent
  · rename_i markup hMarkup
    split at hComponent
    · cases hComponent
    · rename_i made hMade
      cases hComponent
      exact Pieces.property_of_transform composes hInline hName (h icon hIcon markup hMarkup) hMade

/-- Components call the constructor that a module exports. -/
def CallsConstructor (settings : Settings) (framework : Framework) (module : Text) : Prop :=
  settings.forwardRef = true ∧ framework.refModule? = some module

/-- A viewed registry admits what a run writes into it: properties that a grammar derives, and an import of the constructor
that components call. -/
structure AdmitsComponents (editor : Editor) (grammar : Grammar) (settings : Settings) (framework : Framework)
    (view : View) : Prop where
  admits : editor.Admits grammar view
  imports : ∀ module, CallsConstructor settings framework module →
    editor.AdmitsImport grammar Framework.refConstructor module view

/-- The constructor that components call can be imported. -/
def HasPlace (editor : Editor) (settings : Settings) (framework : Framework) (view : View) : Prop :=
  ∀ module, CallsConstructor settings framework module → editor.Importable view Framework.refConstructor module

section

variable {editor : Editor} {grammar : Grammar} {settings : Settings} {framework : Framework} {mode : AddMode}
  {files : Store} {text result icon component : Text} {view changed : View} {outcome : Outcome}

/-- What was written into a registry leaves it open for more. -/
theorem AdmitsComponents.of_writes (h : AdmitsComponents editor grammar settings framework view)
    (writes : editor.Writes grammar view (nameOf icon) component text changed) :
    AdmitsComponents editor grammar settings framework changed :=
  ⟨writes.admits, fun module hCalls => (h.imports module hCalls).congr writes.around writes.imports⟩

/-- Whether there is a place for the import does not depend on the components. -/
theorem AdmitsComponents.hasPlace_iff (h : AdmitsComponents editor grammar settings framework view)
    (hView : editor.view text = .ok view)
    (writes : editor.Writes grammar view (nameOf icon) component result changed) :
    HasPlace editor settings framework changed ↔ HasPlace editor settings framework view :=
  forall₂_congr fun module hCalls => h.admits.importable_congr hView (h.imports module hCalls) writes.viewed
    writes.admits writes.around writes.imports

/-- The constructor has a place where it is imported. -/
theorem hasPlace_of_imports (h : ∀ module, CallsConstructor settings framework module →
    view.importsValue Framework.refConstructor module = true) : HasPlace editor settings framework view :=
  fun module hCalls hNone => absurd hNone (imports_ne_nil_of_importsValue (h module hCalls))

/-- Where the constructor has a place, making sure of the import leaves the collection as it is. -/
theorem ConstructorImported.exists_view (accepts : AdmitsComponents editor grammar settings framework view)
    (imported : ConstructorImported editor settings framework text result)
    (hView : editor.view text = .ok view) (hPlace : HasPlace editor settings framework view) :
    ∃ changed, editor.view result = .ok changed ∧ changed.items = view.items ∧
      changed.names = view.names ∧ AdmitsComponents editor grammar settings framework changed ∧
      (∀ module, CallsConstructor settings framework module →
        changed.importsValue Framework.refConstructor module = true) ∧
      (framework.refModule? = none → changed.imports.map importContent = view.imports.map importContent) := by
  cases imported with
  | unneeded hNot =>
      have hNever : ∀ module, ¬CallsConstructor settings framework module := by
        rintro module ⟨hForward, hModule⟩
        rcases hNot with hNone | hOff <;> simp_all
      exact ⟨view, hView, rfl, rfl, accepts, fun module hCalls => absurd hCalls (hNever module), fun _ => rfl⟩
  | ensured hModule hForward hEnsure =>
      rename_i module
      obtain ⟨more, changed, hMore, hChanged, hItems, hNames, hAdmits, hImports⟩ :=
        accepts.admits.exists_ensureImport hView (accepts.imports module ⟨hForward, hModule⟩)
          (hPlace module ⟨hForward, hModule⟩)
      obtain rfl := Except.ok.inj (hEnsure.symm.trans hMore)
      have hAll : ∀ other, CallsConstructor settings framework other →
          changed.importsValue Framework.refConstructor other = true := by
        rintro other ⟨-, hOther⟩
        cases hModule.symm.trans hOther
        exact hImports
      exact ⟨changed, hChanged, hItems, hNames,
        ⟨hAdmits, fun other hCalls => Editor.AdmitsImport.of_importsValue (hAll other hCalls)⟩, hAll,
        fun hNone => absurd (hModule.symm.trans hNone) (by simp)⟩

/-- If the text that is made sure of the import can be viewed, then there was a place for it. -/
theorem ConstructorImported.hasPlace (imported : ConstructorImported editor settings framework text result)
    (hView : editor.view text = .ok view) (hChanged : editor.view result = .ok changed) :
    HasPlace editor settings framework view := by
  rintro module ⟨hForward, hModule⟩
  cases imported with
  | unneeded hNot => rcases hNot with hNone | hOff <;> simp_all
  | ensured hSame _ hEnsure =>
      cases hModule.symm.trans hSame
      exact Editor.importable_of_ensureImport hView hEnsure hChanged

/-- A step writes nothing, or it writes the component of its icon first and makes sure of the import then. -/
theorem EntryStep.exists_writes (admits : editor.Admits grammar view)
    (step : EntryStep editor settings framework mode files text icon result outcome)
    (hView : editor.view text = .ok view)
    (hComponents : MakesProperties grammar settings framework files outcome.written?.toList)
    (hNames : ∀ name ∈ outcome.addedName?, Script.IsIdentifier name) :
    (outcome.written? = none ∧ outcome.addedName? = none ∧ result = text) ∨
    outcome.written? = some icon ∧
    ∃ component between changed, componentOf settings framework files icon = .ok component ∧
      mode.skipReason? (view.contains (nameOf icon)) = none ∧
      editor.Writes grammar view (nameOf icon) component between changed ∧
      (∀ name, name ∈ changed.names ↔ name ∈ view.names ∨ name ∈ outcome.addedName?) ∧
      ConstructorImported editor settings framework between result := by
  have hProperty : ∀ component, outcome.written? = some icon →
      componentOf settings framework files icon = .ok component → Script.IsIdentifier (nameOf icon) →
      grammar.property (some (nameOf icon)) component :=
    fun component hWritten hComponent hName => hComponents icon (by simp [hWritten]) component hComponent hName
  cases step with
  | skipped | failed => exact .inl ⟨rfl, rfl, rfl⟩
  | replaced hSame hSkip hContains hComponent hReplace hImported =>
      cases hView.symm.trans hSame
      have hMember := View.contains_iff.mp hContains
      have hMade := hProperty _ rfl hComponent (admits.isIdentifier_of_mem hMember)
      obtain ⟨between, changed, hText, writes⟩ := admits.exists_writes_replace hView hContains hMade
      obtain rfl := Except.ok.inj (hReplace.symm.trans hText)
      refine .inr ⟨rfl, _, _, changed, hComponent, hSkip, writes, fun name => ?_, hImported⟩
      rw [writes.names, or_iff_left_of_imp (fun hName => hName ▸ hMember)]
      simp [Outcome.addedName?]
  | added hSame hSkip hContains hComponent hInsert hImported =>
      cases hView.symm.trans hSame
      have hMade := hProperty _ rfl hComponent (hNames _ rfl)
      obtain ⟨between, changed, hText, writes⟩ := admits.exists_writes_insert hView hContains hMade
      obtain rfl := Except.ok.inj (hInsert.symm.trans hText)
      refine .inr ⟨rfl, _, _, changed, hComponent, hSkip, writes, fun name => ?_, hImported⟩
      rw [writes.names, Outcome.addedName?, Option.mem_def, Option.some.injEq, eq_comm (a := nameOf icon)]

theorem writtenIcons_cons (outcome : Outcome) (outcomes : List Outcome) :
    writtenIcons (outcome :: outcomes) = outcome.written?.toList ++ writtenIcons outcomes := by
  cases h : outcome.written? <;> simp [writtenIcons, h]

theorem addedNames_cons (outcome : Outcome) (outcomes : List Outcome) :
    addedNames (outcome :: outcomes) = outcome.addedName?.toList ++ addedNames outcomes := by
  cases h : outcome.addedName? <;> simp [addedNames, h]

/-- Icons make properties together if they do so in parts. -/
theorem makesProperties_append {icons more : List Text} :
    MakesProperties grammar settings framework files (icons ++ more) ↔
      MakesProperties grammar settings framework files icons ∧
        MakesProperties grammar settings framework files more := by
  simp [MakesProperties, or_imp, forall_and]

/-- What a run leaves of a viewed registry: it can be viewed, has the added entries and no others, and imports the
constructor that components call, if something was written or it did before. -/
structure LeftBehind (editor : Editor) (settings : Settings) (framework : Framework) (view : View)
    (outcomes : List Outcome) (text : Text) (changed : View) : Prop where
  viewed : editor.view text = .ok changed
  found : changed.interior?.isSome = true
  names : ∀ name, name ∈ changed.names ↔ name ∈ view.names ∨ name ∈ addedNames outcomes
  imported : ∀ module, CallsConstructor settings framework module →
    writtenIcons outcomes ≠ [] ∨ view.importsValue Framework.refConstructor module = true →
    changed.importsValue Framework.refConstructor module = true
  imports : framework.refModule? = none → changed.imports.map importContent = view.imports.map importContent

/-- A run whose added names are names of scripts leaves a registry that can be viewed, if the import has a place where it
is needed. -/
theorem EntrySteps.exists_leftBehind {icons : List Text} {outcomes : List Outcome}
    (accepts : AdmitsComponents editor grammar settings framework view)
    (steps : EntrySteps editor settings framework mode files text icons result outcomes)
    (hView : editor.view text = .ok view)
    (hComponents : MakesProperties grammar settings framework files (writtenIcons outcomes))
    (hNames : ∀ name ∈ addedNames outcomes, Script.IsIdentifier name)
    (hPlace : writtenIcons outcomes ≠ [] → HasPlace editor settings framework view) :
    ∃ changed, LeftBehind editor settings framework view outcomes result changed := by
  induction steps generalizing view with
  | nil =>
      exact ⟨view, hView, accepts.admits.found, by simp [addedNames],
        fun _ _ h => h.resolve_left (absurd rfl), fun _ => rfl⟩
  | cons step rest ih =>
      rw [writtenIcons_cons, makesProperties_append] at hComponents
      simp only [addedNames_cons, List.forall_mem_append, Option.mem_toList] at hNames
      rcases step.exists_writes accepts.admits hView hComponents.1 hNames.1 with
        ⟨hWritten, hAdded, rfl⟩ | ⟨hWritten, component, between, changed, -, -, writes, hMore, hImported⟩
      · rw [writtenIcons_cons, hWritten] at hPlace
        obtain ⟨last, hLast⟩ := ih accepts hView hComponents.2 hNames.2 hPlace
        refine ⟨last, hLast.viewed, hLast.found, ?_, ?_, hLast.imports⟩
        · rw [addedNames_cons, hAdded]
          exact hLast.names
        · rw [writtenIcons_cons, hWritten]
          exact hLast.imported
      · have hHere : HasPlace editor settings framework view := hPlace (by simp [writtenIcons_cons, hWritten])
        obtain ⟨next, hNext, -, hNextNames, hNextAccepts, hThere, hNextImports⟩ :=
          hImported.exists_view (accepts.of_writes writes) writes.viewed ((accepts.hasPlace_iff hView writes).mpr hHere)
        obtain ⟨last, hLast⟩ :=
          ih hNextAccepts hNext hComponents.2 hNames.2 fun _ => hasPlace_of_imports hThere
        refine ⟨last, hLast.viewed, hLast.found, fun name => ?_,
          fun module hCalls _ => hLast.imported module hCalls (.inr (hThere module hCalls)), fun hNone => ?_⟩
        · rw [addedNames_cons, hLast.names, hNextNames, hMore, or_assoc, List.mem_append, Option.mem_toList,
            Option.mem_def]
        · rw [hLast.imports hNone, hNextImports hNone, writes.imports]

/-- A run reads the text that it begins with, if it takes a step. -/
theorem EntrySteps.exists_view {icons : List Text} {outcomes : List Outcome}
    (steps : EntrySteps editor settings framework mode files text icons result outcomes)
    (hView : editor.view result = .ok view) : ∃ first, editor.view text = .ok first := by
  cases steps with
  | nil => exact ⟨view, hView⟩
  | cons step rest =>
      cases step with
      | skipped hFirst | failed hFirst | replaced hFirst | added hFirst => exact ⟨_, hFirst⟩

/-- A run that writes something and whose result can be read had a place for the import. -/
theorem EntrySteps.hasPlace {icons : List Text} {outcomes : List Outcome}
    (accepts : AdmitsComponents editor grammar settings framework view)
    (steps : EntrySteps editor settings framework mode files text icons result outcomes)
    (hView : editor.view text = .ok view)
    (hComponents : MakesProperties grammar settings framework files (writtenIcons outcomes))
    (hNames : ∀ name ∈ addedNames outcomes, Script.IsIdentifier name)
    (hResult : editor.view result = .ok changed) (hWrites : writtenIcons outcomes ≠ []) :
    HasPlace editor settings framework view := by
  induction steps generalizing view with
  | nil => exact absurd rfl hWrites
  | cons step rest ih =>
      rw [writtenIcons_cons, makesProperties_append] at hComponents
      simp only [addedNames_cons, List.forall_mem_append, Option.mem_toList] at hNames
      rcases step.exists_writes accepts.admits hView hComponents.1 hNames.1 with
        ⟨hWritten, -, rfl⟩ | ⟨-, component, between, middle, -, -, writes, -, hImported⟩
      · rw [writtenIcons_cons, hWritten] at hWrites
        exact ih accepts hView hComponents.2 hNames.2 hResult hWrites
      · obtain ⟨next, hNext⟩ := EntrySteps.exists_view rest hResult
        exact (accepts.hasPlace_iff hView writes).mp (hImported.hasPlace writes.viewed hNext)

/-- A run that succeeds leaves the text in the registry file that its steps lead to. -/
theorem exists_entrySteps {w w' : Workspace} {before : Text} {icons : List Text} {outcomes : List Outcome}
    (hInline : settings.placement = .inline)
    (hFramework : Framework.Catalogue.builtin.get settings.framework = .ok framework)
    (hRead : w.store.readText settings.registryPath = .ok before)
    (hRun : (add editor settings icons mode).Gives w outcomes w') :
    ∃ after, w'.store.readText settings.registryPath = .ok after ∧
      EntrySteps editor settings framework mode w.store before icons after outcomes := by
  rw [add] at hRun
  obtain ⟨known, first, hKnown, hRun⟩ := gives_bind.mp hRun
  obtain ⟨hSame, rfl⟩ := get_of_gives_framework hKnown
  cases hFramework.symm.trans hSame
  obtain ⟨noted, second, hNoted, hRun⟩ := gives_bind.mp hRun
  simp only [hInline, addInline] at hRun
  obtain ⟨text, third, hText, hRun⟩ := gives_bind.mp hRun
  obtain ⟨hAgain, rfl⟩ := readText_of_gives_readRegistry hText
  rw [store_of_gives_debug hNoted, hRead] at hAgain
  cases hAgain
  obtain ⟨⟨after, made⟩, fourth, hEntries, hRun⟩ := gives_bind.mp hRun
  obtain ⟨hStore, hSteps⟩ := entrySteps_of_gives hEntries
  rw [store_of_gives_debug hNoted] at hStore hSteps
  rw [← hStore] at hRead
  dsimp only at hRun
  split at hRun
  · obtain ⟨done, fifth, hWrite, hRun⟩ := gives_bind.mp hRun
    obtain ⟨told, sixth, hTold, hRun⟩ := gives_bind.mp hRun
    obtain ⟨rfl, rfl⟩ := gives_pure.mp hRun
    refine ⟨after, ?_, hSteps⟩
    rw [store_of_gives_debug hTold]
    exact readText_of_gives_writeFile hWrite
  · rename_i hUnchanged
    obtain ⟨rfl, rfl⟩ := gives_pure.mp hRun
    obtain rfl : after = before := by simpa using hUnchanged
    exact ⟨after, hRead, hSteps⟩

/-- After a run that succeeds, the added names are names of scripts if the registry can be read and has its old entries,
the added ones and no others. Where element trees are written with names only, it does if and only if the added names are
names of scripts and an import has a place where components call an imported constructor. -/
theorem add_registers_iff (exact : ReadsExactly editor) {pieces : Pieces} (composes : pieces.Composes grammar)
    {w w' : Workspace} {before : Text} {icons : List Text} {outcomes : List Outcome}
    (hInline : settings.placement = .inline)
    (hFramework : Framework.Catalogue.builtin.get settings.framework = .ok framework)
    (hRead : w.store.readText settings.registryPath = .ok before)
    (hView : editor.view before = .ok view) (accepts : AdmitsComponents editor grammar settings framework view)
    (hRun : (add editor settings icons mode).Gives w outcomes w') :
    ∃ after, w'.store.readText settings.registryPath = .ok after ∧
      (editor.Registers view (addedNames outcomes) after → ∀ name ∈ addedNames outcomes, Script.IsIdentifier name) ∧
      (NamesTrees pieces settings framework w.store (writtenIcons outcomes) →
        (editor.Registers view (addedNames outcomes) after ↔
          (∀ name ∈ addedNames outcomes, Script.IsIdentifier name) ∧
            (writtenIcons outcomes ≠ [] → HasPlace editor settings framework view))) := by
  obtain ⟨after, hAfter, hSteps⟩ := exists_entrySteps hInline hFramework hRead hRun
  have hPlain : editor.Registers view (addedNames outcomes) after →
      ∀ name ∈ addedNames outcomes, Script.IsIdentifier name := by
    rintro ⟨changed, hChanged, hFound, hNames⟩ name hName
    exact exact.isIdentifier_of_mem hChanged hFound ((hNames name).mpr (.inr hName))
  refine ⟨after, hAfter, hPlain, ?_⟩
  intro hTrees
  have hComponents := makesProperties_of_names composes hInline hTrees
  constructor
  · intro hRegisters
    have hNames := hPlain hRegisters
    obtain ⟨changed, hChanged, -, -⟩ := hRegisters
    exact ⟨hNames, hSteps.hasPlace accepts hView hComponents hNames hChanged⟩
  · rintro ⟨hNames, hPlace⟩
    obtain ⟨changed, hLeft⟩ := hSteps.exists_leftBehind accepts hView hComponents hNames hPlace
    exact ⟨changed, hLeft.viewed, hLeft.found, hLeft.names⟩

/-- A module is a registry that admits components, and the constructor that they call has a place in it. -/
theorem exists_view_module (settings : Settings) {lead ending : Text} {imports : List (Script.ImportLine × Text)}
    {layout : Layout} (h : IsModule lead imports settings.collection ending)
    (hPath : (Script.Dialect.ofPath? settings.registryPath).getD .tsx = .tsx) (typed : Bool)
    (hLayout : layout.WellFormed .members) (framework : Framework) :
    ∃ view, settings.editor.view (layout.between (frontOf lead imports settings.collection) (backOf typed ending)) =
        .ok view ∧ view.names = namesOf layout.properties ∧
      view.imports.map importContent = imports.map (·.1.content) ∧
      AdmitsComponents settings.editor .members settings framework view ∧
      HasPlace settings.editor settings framework view := by
  obtain ⟨view, hView, hShows, hImports, hAdmits⟩ := h.exists_view typed hLayout
  have hName : Script.Rule.IsImportable Framework.refConstructor := ⟨by decide, by decide, by decide, by decide⟩
  have hPlain : ∀ module, framework.refModule? = some module → stringLiteral module = '"' :: (module ++ ['"']) := by
    cases framework <;> decide
  have hMore : ∀ module, CallsConstructor settings framework module → _ := fun module hCalls =>
    h.admitsImport typed hLayout hView hName (hPlain module hCalls.2)
  rw [settings.editor_eq_ofDialect hPath]
  exact ⟨view, hView, hShows.names, hImports,
    ⟨hAdmits, fun module hCalls => (hMore module hCalls).1⟩, fun module hCalls => (hMore module hCalls).2⟩

/-- So is a registry with an empty collection and nothing else. -/
theorem exists_view_empty (settings : Settings) (hCollection : settings.collection = "Icons".toList)
    (hPath : (Script.Dialect.ofPath? settings.registryPath).getD .tsx = .tsx) (framework : Framework) :
    ∃ view, settings.editor.view "export const Icons = \x7b\x7d as const;\n".toList = .ok view ∧
      view.names = [] ∧ view.imports.map importContent = [] ∧
      AdmitsComponents settings.editor .members settings framework view ∧
      HasPlace settings.editor settings framework view := by
  have hModule : IsModule [] [] settings.collection ['\n'] := by
    rw [hCollection]
    exact ⟨by decide, List.forall_mem_nil _, ⟨by decide, by decide, fun _ => by decide⟩, by decide⟩
  have hEmpty : (⟨[], []⟩ : Layout).WellFormed .members := ⟨by decide, List.forall_mem_nil _, by simp [Separated]⟩
  have hText : (⟨[], []⟩ : Layout).between (frontOf [] [] "Icons".toList) (backOf true ['\n']) =
      "export const Icons = \x7b\x7d as const;\n".toList := by decide
  have hView := exists_view_module settings hModule hPath true hEmpty framework
  rwa [hCollection, hText] at hView

/-- An icon whose component calls a constructor, added to a registry without imports. -/
theorem add_registers_call :
    let settings : Settings := { forwardRef := true }
    let before := "export const Icons = \x7b\x7d as const;\n".toList
    let w : Workspace := ⟨⟨[], [(["src".toList], .directory), (["src".toList, "icons.tsx".toList], .file before),
      (["icons".toList], .directory),
      (["icons".toList, "home.svg".toList], .file "<svg viewBox=\"0 0 1 1\"/>".toList)]⟩, []⟩
    ∃ w' view after, (add settings.editor settings ["home".toList] .add).Gives w [.added "home".toList] w' ∧
      w'.store.readText settings.registryPath = .ok after ∧ settings.editor.view before = .ok view ∧
      settings.editor.Registers view ["Home".toList] after := by
  intro settings before w
  let command := add settings.editor settings ["home".toList] .add
  have hRun : command.Gives w [.added "home".toList] (command.run.run w).2 := gives_of_result (by decide +kernel)
  have hPath : (Script.Dialect.ofPath? settings.registryPath).getD .tsx = .tsx := by decide
  obtain ⟨view, hView, -, -, accepts, hPlace⟩ := exists_view_empty settings rfl hPath .react
  obtain ⟨after, hAfter, -, hKept⟩ := add_registers_iff (settings.readsExactly_editor hPath) readPieces_composes rfl rfl rfl
    hView accepts hRun
  have hTrees : NamesTrees readPieces settings .react w.store ["home".toList] := namesTrees_of_isFrame (by decide +kernel)
  refine ⟨_, view, after, hRun, hAfter, hView, (hKept hTrees).mpr ⟨?_, fun _ => hPlace⟩⟩
  intro name hName
  obtain rfl : name = "Home".toList := List.mem_singleton.mp hName
  decide

end

/-- An icon name with a sign that no plain name has: the icon counts as added, and the registry cannot be read any
more. -/
theorem add_leaves_unreadable :
    let settings : Settings := {}
    let w : Workspace := ⟨⟨[], [(["src".toList], .directory),
      (["src".toList, "icons.tsx".toList], .file "export const Icons = \x7b\x7d as const;\n".toList),
      (["icons".toList], .directory), (["icons".toList, "a@b.svg".toList], .file "<svg/>".toList)]⟩, []⟩
    let text := "export const Icons = \x7b\n  A@b: (props: SVGProps<SVGSVGElement>) => ".toList ++
      "(<svg aria-hidden=\"true\" \x7b...props\x7d />),\n\x7d as const;\n".toList
    ∃ w', (add settings.editor settings ["a@b".toList] .add).Gives w [.added "a@b".toList] w' ∧
      w'.store.readText settings.registryPath = .ok text ∧ (settings.editor.view text).toOption.isNone = true := by
  intro settings w text
  let command := add settings.editor settings ["a@b".toList] .add
  have hAll : (command.run.run w).1.toOption = some [.added "a@b".toList] ∧
      ((command.run.run w).2.store.readText settings.registryPath).toOption = some text ∧
      (settings.editor.view text).toOption.isNone = true := by
    decide +kernel
  exact ⟨(command.run.run w).2, gives_of_result hAll.1, eq_ok_of_toOption hAll.2.1, hAll.2.2⟩

end Command

end IconRegistry
