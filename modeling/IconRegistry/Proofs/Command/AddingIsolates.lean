import IconRegistry.Proofs.Command.Stepping

/-! Runs that add icons keep failures apart: an icon that fails makes no difference to the others. What stops a run is
told exactly: a component with a name or a tree that the script cannot take, or a file that cannot be written. -/
namespace IconRegistry.Command

open Component Registry Config

/-- Whether the component of an icon is registered, by an entry of the registry file or by a file of its own. -/
def isRegistered (editor : Registry.Editor) (settings : Settings) (framework : Framework) (store : Store)
    (icon : Text) : Bool :=
  match settings.placement with
  | .inline =>
    (store.readText settings.registryPath).toOption.any fun text =>
      (editor.view text).toOption.any fun view => view.contains (nameOf icon)
  | .standalone => store.contains (componentPath settings framework (nameOf icon))

/-- The store that the icons of a batch are read from. The registry file is written when all of them are through. -/
def readFrom (settings : Settings) (before now : Store) : Store :=
  match settings.placement with
  | .inline => before
  | .standalone => now

/-- A run tells of each icon what becomes of it after those in front of it, and without the icons that fail it is the
same for the others. -/
structure Isolates (editor : Registry.Editor) (settings : Settings) (framework : Framework) (mode : AddMode)
    (w : Workspace) (icons : List Text) (outcomes : List Outcome) (w' : Workspace) : Prop where
  each : outcomes.map Outcome.icon = icons
  turns : ∀ front icon rest, icons = front ++ icon :: rest → ∃ done outcome more between,
    outcomes = done ++ outcome :: more ∧ (add editor settings front mode).Gives w done between ∧
    outcome = outcomeOf mode (isRegistered editor settings framework between.store icon) icon
      (componentOf settings framework (readFrom settings w.store between.store) icon)
  kept : ∃ v, (add editor settings (keptIcons outcomes) mode).Gives w (outcomes.filter (!·.isFailed)) v ∧
    v.store = w'.store

section

variable {editor : Registry.Editor} {grammar : Grammar} {settings : Settings} {framework : Framework} {mode : AddMode}
  {w w' : Workspace} {icons : List Text} {outcomes : List Outcome} {files : Store} {before text icon : Text}
  {view : View} {e : CommandError}

/-- Writing a registry leaves one store. -/
theorem RegistryWritten.unique {after : Text} {store a b : Store} (ha : RegistryWritten settings before after store a)
    (hb : RegistryWritten settings before after store b) : a = b := by
  rw [RegistryWritten] at ha hb
  split at ha
  · rename_i hSame
    rw [if_pos hSame] at hb
    rw [ha, hb]
  · rename_i hOther
    rw [if_neg hOther] at hb
    obtain ⟨here, hLocate, rfl⟩ := ha
    obtain ⟨there, hLocateAgain, rfl⟩ := hb
    rw [Except.ok.inj (hLocate.symm.trans hLocateAgain)]

/-- A run on a registry file isolates what fails. -/
theorem isolates_inline (hInline : settings.placement = .inline)
    (hFramework : Framework.Catalogue.builtin.get settings.framework = .ok framework)
    (hRead : w.store.readText settings.registryPath = .ok before)
    (h : (add editor settings icons mode).Gives w outcomes w') :
    Isolates editor settings framework mode w icons outcomes w' := by
  obtain ⟨after, steps, hWritten⟩ := exists_steps_of_gives_inline hInline hFramework hRead h
  have hIcon : ∀ text icon result outcome,
      EntryStep editor settings framework mode w.store text icon result outcome → outcome.icon = icon :=
    fun _ _ _ _ step => step.icon_eq
  refine ⟨steps.map_icon hIcon, ?_, ?_⟩
  · rintro front icon rest rfl
    obtain ⟨middle, done, more, rfl, hFront, hRest⟩ := steps.split
    cases hRest with
    | cons step others =>
        obtain ⟨view, hView, hOutcome⟩ := step.exists_outcomeOf
        obtain ⟨between, hGives, hBetween⟩ := exists_gives_add_inline hInline hFramework hRead hFront
        have hRegistered : isRegistered editor settings framework between.store icon = view.contains (nameOf icon) := by
          simp [isRegistered, hInline, hBetween.readText hRead, hView, Except.toOption]
        refine ⟨done, _, _, between, rfl, hGives, ?_⟩
        rw [hRegistered, readFrom, hInline]
        exact hOutcome
  · obtain ⟨v, hGives, hAgain⟩ := exists_gives_add_inline hInline hFramework hRead
      (steps.kept hIcon fun _ _ _ _ step => step.eq_of_isFailed)
    exact ⟨v, hGives, hAgain.unique hWritten⟩

/-- A run on files of their own isolates what fails. -/
theorem isolates_standalone (hStandalone : settings.placement = .standalone)
    (hFramework : Framework.Catalogue.builtin.get settings.framework = .ok framework)
    (h : (add editor settings icons mode).Gives w outcomes w') :
    Isolates editor settings framework mode w icons outcomes w' := by
  have steps := steps_of_gives_standalone hStandalone hFramework h
  have hIcon : ∀ store icon store' outcome,
      FileStep settings framework mode store icon store' outcome → outcome.icon = icon :=
    fun _ _ _ _ step => step.icon_eq
  refine ⟨steps.map_icon hIcon, ?_, exists_gives_add_standalone editor hStandalone hFramework
    (steps.kept hIcon fun _ _ _ _ step => step.eq_of_isFailed)⟩
  rintro front icon rest rfl
  obtain ⟨middle, done, more, rfl, hFront, hRest⟩ := steps.split
  cases hRest with
  | cons step others =>
      obtain ⟨between, hBetween, rfl⟩ := exists_gives_add_standalone editor hStandalone hFramework hFront
      refine ⟨done, _, _, between, rfl, hBetween, ?_⟩
      simp only [isRegistered, readFrom, hStandalone]
      exact step.outcome_eq

/-- Where the constructor has a place to be imported, making sure of the import leaves such a text. -/
theorem exists_constructorImported (accepts : AdmitsComponents editor grammar settings framework view)
    (hView : editor.view text = .ok view) (hPlace : HasPlace editor settings framework view) :
    ∃ result changed, ConstructorImported editor settings framework text result ∧
      editor.view result = .ok changed ∧
      AdmitsComponents editor grammar settings framework changed ∧ HasPlace editor settings framework changed := by
  suffices hSome : ∃ result, ConstructorImported editor settings framework text result by
    obtain ⟨result, imported⟩ := hSome
    obtain ⟨changed, hChanged, -, -, hAccepts, hThere, -⟩ := imported.exists_view accepts hView hPlace
    exact ⟨result, changed, imported, hChanged, hAccepts, hasPlace_of_imports hThere⟩
  by_cases hForward : settings.forwardRef = true
  · cases hModule : framework.refModule? with
    | none => exact ⟨text, .unneeded (.inl hModule)⟩
    | some module =>
        obtain ⟨result, changed, hResult, -⟩ := accepts.admits.exists_ensureImport hView
          (accepts.imports module ⟨hForward, hModule⟩) (hPlace module ⟨hForward, hModule⟩)
        exact ⟨result, .ensured hModule hForward hResult⟩
  · exact ⟨text, .unneeded (.inr (by simpa using hForward))⟩

/-- An icon whose component, if it can be made, is a property with its name takes a step, and the text shows the
collection again. -/
theorem exists_entryStep (mode : AddMode) (accepts : AdmitsComponents editor grammar settings framework view)
    (hView : editor.view text = .ok view) (hPlace : HasPlace editor settings framework view)
    (hMade : ∀ component, componentOf settings framework files icon = .ok component →
      grammar.property (some (nameOf icon)) component) :
    ∃ result outcome changed, EntryStep editor settings framework mode files text icon result outcome ∧
      editor.view result = .ok changed ∧
      AdmitsComponents editor grammar settings framework changed ∧ HasPlace editor settings framework changed := by
  have hImported : ∀ {component between changed}, editor.Writes grammar view (nameOf icon) component between changed →
      ∃ result last, ConstructorImported editor settings framework between result ∧ editor.view result = .ok last ∧
        AdmitsComponents editor grammar settings framework last ∧ HasPlace editor settings framework last :=
    fun writes => exists_constructorImported (accepts.of_writes writes) writes.viewed
      ((accepts.hasPlace_iff hView writes).mpr hPlace)
  cases hSkip : mode.skipReason? (view.contains (nameOf icon)) with
  | some reason => exact ⟨text, _, view, .skipped hView hSkip, hView, accepts, hPlace⟩
  | none =>
      cases hComponent : componentOf settings framework files icon with
      | error e => exact ⟨text, _, view, .failed hView hSkip hComponent, hView, accepts, hPlace⟩
      | ok component =>
          cases hContains : view.contains (nameOf icon) with
          | true =>
              obtain ⟨between, changed, hText, writes⟩ :=
                accepts.admits.exists_writes_replace hView hContains (hMade component hComponent)
              obtain ⟨result, last, imported, hLast⟩ := hImported writes
              exact ⟨result, _, last, .replaced hView hSkip hContains hComponent hText imported, hLast⟩
          | false =>
              obtain ⟨between, changed, hText, writes⟩ :=
                accepts.admits.exists_writes_insert hView hContains (hMade component hComponent)
              obtain ⟨result, last, imported, hLast⟩ := hImported writes
              exact ⟨result, _, last, .added hView hSkip hContains hComponent hText imported, hLast⟩

/-- Where components are properties and there is a place for imports, every icon has its step. -/
theorem exists_entrySteps_of_properties (mode : AddMode) (icons : List Text)
    (accepts : AdmitsComponents editor grammar settings framework view) (hView : editor.view text = .ok view)
    (hPlace : HasPlace editor settings framework view)
    (hMade : ∀ icon ∈ icons, ∀ component, componentOf settings framework files icon = .ok component →
      grammar.property (some (nameOf icon)) component) :
    ∃ result outcomes, EntrySteps editor settings framework mode files text icons result outcomes := by
  induction icons generalizing text view with
  | nil => exact ⟨text, [], .nil⟩
  | cons icon rest ih =>
      obtain ⟨hHere, hRest⟩ := List.forall_mem_cons.mp hMade
      obtain ⟨between, outcome, changed, first, hChanged, hAccepts, hStill⟩ :=
        exists_entryStep mode accepts hView hPlace hHere
      obtain ⟨result, outcomes, others⟩ := ih hAccepts hChanged hStill hRest
      exact ⟨result, outcome :: outcomes, .cons first others⟩

/-- What stops a run that adds entries: an icon whose component has a name that is none of scripts or is written with what
are no names, or an import that has no place. -/
theorem exists_unfit_of_fails_inline {pieces : Pieces} (composes : pieces.Composes grammar)
    (accepts : AdmitsComponents editor grammar settings framework view) (hInline : settings.placement = .inline)
    (hFramework : Framework.Catalogue.builtin.get settings.framework = .ok framework)
    (hRead : w.store.readText settings.registryPath = .ok before) (hView : editor.view before = .ok view)
    (h : (add editor settings icons mode).Fails w e w') :
    (∃ icon ∈ icons, (∃ component, componentOf settings framework w.store icon = .ok component) ∧
      ¬(Script.IsIdentifier (nameOf icon) ∧ NamesTrees pieces settings framework w.store [icon])) ∨
    ¬HasPlace editor settings framework view := by
  refine Classical.byContradiction fun hNot => ?_
  rw [not_or, not_not] at hNot
  obtain ⟨hFit, hPlace⟩ := hNot
  obtain ⟨after, outcomes, steps⟩ := exists_entrySteps_of_properties mode icons accepts hView hPlace
    fun icon hIcon component hComponent => by
      obtain ⟨hName, hTrees⟩ : Script.IsIdentifier (nameOf icon) ∧
          NamesTrees pieces settings framework w.store [icon] :=
        Classical.byContradiction fun hUnfit => hFit ⟨icon, hIcon, ⟨component, hComponent⟩, hUnfit⟩
      exact makesProperties_of_names composes hInline hTrees icon (List.mem_singleton_self icon) component hComponent
        hName
  obtain ⟨v, hGives, -⟩ := exists_gives_add_inline hInline hFramework hRead steps
  exact hGives.not_fails h

/-- A run on files that fails fails at an icon whose file cannot be written, behind icons that were added. -/
theorem exists_unwritable_of_fails_standalone (hStandalone : settings.placement = .standalone)
    (hFramework : Framework.Catalogue.builtin.get settings.framework = .ok framework)
    (h : (add editor settings icons mode).Fails w e w') :
    ∃ front icon rest done between, icons = front ++ icon :: rest ∧
      (add editor settings front mode).Gives w done between ∧
      Unwritable settings framework mode between.store icon e := by
  obtain ⟨first, hFirst, hRun⟩ := run_add_standalone editor mode hStandalone hFramework icons w
  rw [Fails, hRun] at h
  obtain ⟨front, icon, rest, done, store, rfl, steps, hUnwritable⟩ := exists_unwritable_of_fails_mapM h
  rw [hFirst] at steps
  obtain ⟨between, hGives, rfl⟩ := exists_gives_add_standalone editor hStandalone hFramework steps
  exact ⟨front, icon, rest, done, between, rfl, hGives, hUnwritable⟩

/-- A run that succeeds keeps the failures of icons apart. A run fails only at an icon whose component is made: where its
file cannot be written, or, in a registry file, where its name is none of scripts, or it is written with what are no
names, or it finds no place for its import. -/
theorem add_isolates_failures (hFramework : Framework.Catalogue.builtin.get settings.framework = .ok framework) :
    (∀ outcomes w', (add editor settings icons mode).Gives w outcomes w' →
      Isolates editor settings framework mode w icons outcomes w') ∧
    (settings.placement = .standalone → ∀ e w', (add editor settings icons mode).Fails w e w' →
      ∃ front icon rest done between, icons = front ++ icon :: rest ∧
        (add editor settings front mode).Gives w done between ∧
        Unwritable settings framework mode between.store icon e) ∧
    (settings.placement = .inline → ∀ {grammar : Grammar} {pieces : Pieces} {before view},
      pieces.Composes grammar → w.store.readText settings.registryPath = .ok before →
      editor.view before = .ok view → AdmitsComponents editor grammar settings framework view →
      ∀ e w', (add editor settings icons mode).Fails w e w' →
        (∃ icon ∈ icons, (∃ component, componentOf settings framework w.store icon = .ok component) ∧
          ¬(Script.IsIdentifier (nameOf icon) ∧ NamesTrees pieces settings framework w.store [icon])) ∨
        ¬HasPlace editor settings framework view) := by
  refine ⟨fun outcomes w' hRun => ?_, fun hStandalone _ _ => exists_unwritable_of_fails_standalone hStandalone hFramework,
    fun hInline _ _ _ _ composes hRead hView accepts _ _ =>
      exists_unfit_of_fails_inline composes accepts hInline hFramework hRead hView⟩
  cases hPlacement : settings.placement with
  | inline =>
      obtain ⟨before, hRead⟩ := exists_registry_of_gives_add hPlacement hRun
      exact isolates_inline hPlacement hFramework hRead hRun
  | standalone => exact isolates_standalone hPlacement hFramework hRun

end

/-- A missing icon between two others, and an icon whose name is none of scripts in front of another. -/
theorem add_around_missing :
    let settings : Settings := { forwardRef := true }
    let w : Workspace := ⟨⟨[], [(["src".toList], .directory),
      (["src".toList, "icons.tsx".toList], .file "export const Icons = \x7b\x7d as const;\n".toList),
      (["icons".toList], .directory), (["icons".toList, "home.svg".toList], .file "<svg/>".toList),
      (["icons".toList, "a@b.svg".toList], .file "<svg/>".toList),
      (["icons".toList, "bell.svg".toList], .file "<svg/>".toList)]⟩, []⟩
    let ghost : Outcome := .failed "ghost".toList "Icon not found: ghost".toList
    (∃ w' v, (add settings.editor settings ["home".toList, "ghost".toList, "bell".toList] .add).Gives w
        [.added "home".toList, ghost, .added "bell".toList] w' ∧
      (add settings.editor settings ["home".toList, "bell".toList] .add).Gives w
        [.added "home".toList, .added "bell".toList] v ∧ v.store = w'.store) ∧
    ∃ w', (add settings.editor settings ["a@b".toList, "bell".toList] .add).Fails w (.registry .unreadable) w' ∧
      ∃ icon ∈ ["a@b".toList, "bell".toList], (∃ component, componentOf settings .react w.store icon = .ok component) ∧
        ¬(Script.IsIdentifier (nameOf icon) ∧ NamesTrees readPieces settings .react w.store [icon]) := by
  intro settings w ghost
  let batch := add settings.editor settings ["home".toList, "ghost".toList, "bell".toList] .add
  let stopped := add settings.editor settings ["a@b".toList, "bell".toList] .add
  have hRun : batch.Gives w [.added "home".toList, ghost, .added "bell".toList] (batch.run.run w).2 :=
    gives_of_result (by decide +kernel)
  have hFails : stopped.Fails w (.registry .unreadable) (stopped.run.run w).2 := fails_of_result (by decide +kernel)
  have hFramework : Framework.Catalogue.builtin.get settings.framework = .ok .react := rfl
  have hPath : (Script.Dialect.ofPath? settings.registryPath).getD .tsx = .tsx := by decide
  obtain ⟨view, hView, -, -, accepts, hPlace⟩ := exists_view_empty settings rfl hPath .react
  obtain ⟨v, hKept, hStore⟩ := ((add_isolates_failures hFramework).1 _ _ hRun).kept
  refine ⟨⟨_, v, hRun, hKept, hStore⟩, _, hFails, ?_⟩
  exact ((add_isolates_failures hFramework).2.2 rfl readPieces_composes rfl hView accepts _ _ hFails).resolve_right
    (not_not_intro hPlace)

/-- Two icons that stop the batch, though the other icon is added without them: one in whose place there is a
directory, and one whose name has a sign that no plain name has. -/
theorem add_stops_at_failing_icon :
    let separate : Settings := { registryPath := "src/icons".toList, placement := .standalone }
    let together : Settings := {}
    let w : Workspace := ⟨⟨[], [(["src".toList], .directory), (["src".toList, "icons".toList], .directory),
      (["src".toList, "icons".toList, "Home.tsx".toList], .directory),
      (["src".toList, "icons.tsx".toList], .file "export const Icons = \x7b\x7d as const;\n".toList),
      (["icons".toList], .directory), (["icons".toList, "home.svg".toList], .file "<svg/>".toList),
      (["icons".toList, "a@b.svg".toList], .file "<svg/>".toList),
      (["icons".toList, "bell.svg".toList], .file "<svg/>".toList)]⟩, []⟩
    (∃ w', (add separate.editor separate ["home".toList, "bell".toList] .upsert).Fails w
      (.file "Failed to write src/icons/Home.tsx".toList .isDirectory) w') ∧
    (∃ w', (add separate.editor separate ["bell".toList] .upsert).Gives w [.added "bell".toList] w') ∧
    (∃ w', (add together.editor together ["a@b".toList, "bell".toList] .upsert).Fails w (.registry .unreadable) w') ∧
    ∃ w', (add together.editor together ["bell".toList] .upsert).Gives w [.added "bell".toList] w' := by
  intro separate together w
  let run (settings : Settings) (icons : List Text) :=
    ((add settings.editor settings icons .upsert).run.run w).1
  have hAll : failure? (run separate ["home".toList, "bell".toList]) =
        some (.file "Failed to write src/icons/Home.tsx".toList .isDirectory) ∧
      (run separate ["bell".toList]).toOption = some [.added "bell".toList] ∧
      failure? (run together ["a@b".toList, "bell".toList]) = some (.registry .unreadable) ∧
      (run together ["bell".toList]).toOption = some [.added "bell".toList] := by
    decide +kernel
  exact ⟨⟨_, fails_of_result hAll.1⟩, ⟨_, gives_of_result hAll.2.1⟩, ⟨_, fails_of_result hAll.2.2.1⟩,
    ⟨_, gives_of_result hAll.2.2.2⟩⟩

end IconRegistry.Command
