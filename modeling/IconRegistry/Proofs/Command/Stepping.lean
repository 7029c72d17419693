import IconRegistry.Proofs.Command.AddingKeeps
import IconRegistry.Proofs.Command.Failing

/-! Runs that add icons are their steps: every run takes them, and wherever the steps can be taken there is the run.
Components in the registry file are steps over its text, components in files of their own are steps over the store. -/
namespace IconRegistry

open Component Registry Config

namespace Outcome

def isFailed : Outcome → Bool
  | failed _ _ => true
  | _ => false

end Outcome

namespace Command

/-- What is told of an icon, given whether it is registered and what making its component comes to. -/
def outcomeOf (mode : AddMode) (registered : Bool) (icon : Text) (made : Except IconError Text) : Outcome :=
  match mode.skipReason? registered, made with
  | some reason, _ => .skipped icon reason
  | none, .error e => .failed icon e.message
  | none, .ok _ => if registered then .replaced icon else .added icon

def keptIcons (outcomes : List Outcome) : List Text :=
  (outcomes.filter (!·.isFailed)).map Outcome.icon

@[simp] theorem icon_outcomeOf (mode : AddMode) (registered : Bool) (icon : Text) (made : Except IconError Text) :
    (outcomeOf mode registered icon made).icon = icon := by
  cases hSkip : mode.skipReason? registered with
  | some reason => simp [outcomeOf, hSkip, Outcome.icon]
  | none => cases made <;> cases registered <;> simp [outcomeOf, hSkip, Outcome.icon]

/-- What is told depends on the failure only. -/
theorem outcomeOf_congr {mode : AddMode} {registered : Bool} {icon : Text} {made other : Except IconError Text}
    (h : failure? made = failure? other) : outcomeOf mode registered icon made = outcomeOf mode registered icon other := by
  cases hSkip : mode.skipReason? registered with
  | some reason => simp [outcomeOf, hSkip]
  | none => cases made <;> cases other <;> simp_all [failure?, outcomeOf]

namespace Steps

variable {σ : Type} {step : σ → Text → σ → Outcome → Prop} {state final : σ} {outcomes : List Outcome}

/-- A run over icons in a row is a run over one part and then over the other. -/
theorem split {front rest : List Text} (h : Steps step state (front ++ rest) final outcomes) :
    ∃ middle done more, outcomes = done ++ more ∧ Steps step state front middle done ∧
      Steps step middle rest final more := by
  induction front generalizing state outcomes with
  | nil => exact ⟨state, [], outcomes, rfl, .nil, h⟩
  | cons icon front ih =>
      cases h with
      | cons first others =>
          obtain ⟨middle, done, more, rfl, hFront, hRest⟩ := ih others
          exact ⟨middle, _ :: done, more, rfl, .cons first hFront, hRest⟩

/-- If each step tells its icon, a run tells them in order. -/
theorem map_icon (hIcon : ∀ s icon s' outcome, step s icon s' outcome → outcome.icon = icon) {icons : List Text}
    (h : Steps step state icons final outcomes) : outcomes.map Outcome.icon = icons := by
  induction h with
  | nil => rfl
  | cons first _ ih => rw [List.map_cons, ih, hIcon _ _ _ _ first]

/-- Where a failure changes nothing, the other icons take the same steps without those that fail. -/
theorem kept (hIcon : ∀ s icon s' outcome, step s icon s' outcome → outcome.icon = icon)
    (hFailed : ∀ s icon s' outcome, step s icon s' outcome → outcome.isFailed = true → s' = s) {icons : List Text}
    (h : Steps step state icons final outcomes) :
    Steps step state (keptIcons outcomes) final (outcomes.filter (!·.isFailed)) := by
  induction h with
  | nil => exact .nil
  | @cons state between final icon rest outcome outcomes first _ ih =>
      cases hOutcome : outcome.isFailed with
      | true =>
          obtain rfl := hFailed _ _ _ _ first hOutcome
          simpa [keptIcons, hOutcome] using ih
      | false =>
          have hSame := hIcon _ _ _ _ first
          simpa [keptIcons, hOutcome, hSame] using Steps.cons first ih

end Steps

section

variable {editor : Registry.Editor} {settings : Settings} {framework : Framework} {mode : AddMode} {files : Store}
  {text result icon : Text} {outcome : Outcome}

/-- The outcome of a step follows from what the registry contains and from the component. -/
theorem EntryStep.exists_outcomeOf (step : EntryStep editor settings framework mode files text icon result outcome) :
    ∃ view, editor.view text = .ok view ∧
      outcome = outcomeOf mode (view.contains (nameOf icon)) icon (componentOf settings framework files icon) := by
  cases step with
  | skipped hView hSkip => exact ⟨_, hView, by simp [outcomeOf, hSkip]⟩
  | failed hView hSkip hMade => exact ⟨_, hView, by simp [outcomeOf, hSkip, hMade]⟩
  | replaced hView hSkip hContains hMade =>
      rw [hContains] at hSkip
      exact ⟨_, hView, by simp [outcomeOf, hSkip, hMade, hContains]⟩
  | added hView hSkip hContains hMade =>
      rw [hContains] at hSkip
      exact ⟨_, hView, by simp [outcomeOf, hSkip, hMade, hContains]⟩

theorem EntryStep.icon_eq (step : EntryStep editor settings framework mode files text icon result outcome) :
    outcome.icon = icon := by
  obtain ⟨view, -, rfl⟩ := step.exists_outcomeOf
  exact icon_outcomeOf ..

/-- A step that fails leaves the registry as it was. -/
theorem EntryStep.eq_of_isFailed (step : EntryStep editor settings framework mode files text icon result outcome)
    (h : outcome.isFailed = true) : result = text := by
  cases step with
  | skipped | failed => rfl
  | replaced | added => cases h

/-- A registry with its constructor imported is what the command gives. -/
theorem exists_gives_importConstructor (imported : ConstructorImported editor settings framework text result)
    (w : Workspace) :
    ∃ w', (importConstructor editor settings framework text).Gives w result w' ∧ w'.store = w.store := by
  rw [importConstructor]
  cases imported with
  | unneeded hNot =>
      rcases hNot with hNone | hOff
      · rw [hNone]
        exact ⟨w, gives_pure.mpr ⟨rfl, rfl⟩, rfl⟩
      · simp only [hOff, Bool.false_eq_true, if_false]
        cases framework.refModule? <;> exact ⟨w, gives_pure.mpr ⟨rfl, rfl⟩, rfl⟩
  | ensured hModule hForward hEnsure =>
      simp only [hModule, hForward, if_true]
      obtain ⟨between, hDebug, hStore⟩ := gives_debug _ w
      exact ⟨between, gives_bind.mpr ⟨(), between, hDebug, gives_ofRegistry.mpr ⟨hEnsure, rfl⟩⟩, hStore⟩

theorem exists_gives_makeComponent (settings : Settings) (framework : Framework) (icon : Text) (w : Workspace) :
    ∃ w', (makeComponent settings framework icon).Gives w (componentOf settings framework w.store icon) w' ∧
      w'.store = w.store := by
  obtain ⟨w', hDebug, hStore⟩ := gives_debug (componentNotes settings framework w.store icon) w
  refine ⟨w', ?_, hStore⟩
  rw [makeComponent]
  exact gives_bind.mpr ⟨w.store, w, gives_store.mpr ⟨rfl, rfl⟩,
    gives_bind.mpr ⟨(), w', hDebug, gives_pure.mpr ⟨rfl, rfl⟩⟩⟩

/-- Every step of the registry is a run of the command. -/
theorem exists_gives_addEntry {w : Workspace}
    (step : EntryStep editor settings framework mode w.store text icon result outcome) :
    ∃ w', (addEntry editor settings framework mode text icon).Gives w (result, outcome) w' ∧ w'.store = w.store := by
  obtain ⟨first, hDebug, hFirst⟩ := gives_debug (editor.notes text fun _ => []) w
  obtain ⟨second, hMake, hSecond⟩ := exists_gives_makeComponent settings framework icon first
  rw [hFirst] at hMake hSecond
  rw [addEntry]
  have hEnter {view : Registry.View} (hView : editor.view text = .ok view) :
      (ofRegistry (editor.view text)).Gives first view first :=
    gives_ofRegistry.mpr ⟨hView, rfl⟩
  cases step with
  | skipped hView hSkip =>
      refine ⟨first, gives_bind.mpr ⟨(), first, hDebug, gives_bind.mpr ⟨_, first, hEnter hView, ?_⟩⟩, hFirst⟩
      simp only [hSkip]
      exact gives_pure.mpr ⟨rfl, rfl⟩
  | failed hView hSkip hMade =>
      rw [hMade] at hMake
      refine ⟨second, gives_bind.mpr ⟨(), first, hDebug, gives_bind.mpr ⟨_, first, hEnter hView, ?_⟩⟩, hSecond⟩
      simp only [hSkip]
      exact gives_bind.mpr ⟨_, second, hMake, gives_pure.mpr ⟨rfl, rfl⟩⟩
  | replaced hView hSkip hContains hMade hReplace hImported =>
      rw [hMade] at hMake
      obtain ⟨third, hThird, hStore⟩ := exists_gives_importConstructor hImported second
      refine ⟨third, gives_bind.mpr ⟨(), first, hDebug, gives_bind.mpr ⟨_, first, hEnter hView, ?_⟩⟩,
        hStore.trans hSecond⟩
      simp only [hSkip]
      refine gives_bind.mpr ⟨_, second, hMake, ?_⟩
      simp only [hContains, if_true]
      exact gives_bind.mpr ⟨_, second, gives_ofRegistry.mpr ⟨hReplace, rfl⟩,
        gives_bind.mpr ⟨_, third, hThird, gives_pure.mpr ⟨rfl, rfl⟩⟩⟩
  | added hView hSkip hContains hMade hInsert hImported =>
      rw [hMade] at hMake
      obtain ⟨third, hNoted, hThird⟩ :=
        gives_debug (editor.notes text (Registry.View.insertionNotes (nameOf icon))) second
      obtain ⟨fourth, hFourth, hStore⟩ := exists_gives_importConstructor hImported third
      refine ⟨fourth, gives_bind.mpr ⟨(), first, hDebug, gives_bind.mpr ⟨_, first, hEnter hView, ?_⟩⟩,
        hStore.trans (hThird.trans hSecond)⟩
      simp only [hSkip]
      refine gives_bind.mpr ⟨_, second, hMake, ?_⟩
      simp only [hContains, Bool.false_eq_true, if_false]
      exact gives_bind.mpr ⟨(), third, hNoted, gives_bind.mpr ⟨_, third, gives_ofRegistry.mpr ⟨hInsert, rfl⟩,
        gives_bind.mpr ⟨_, fourth, hFourth, gives_pure.mpr ⟨rfl, rfl⟩⟩⟩⟩

/-- Every run of steps is one of the command. -/
theorem exists_gives_addEntries {w : Workspace} {icons : List Text} {outcomes : List Outcome}
    (steps : EntrySteps editor settings framework mode w.store text icons result outcomes) :
    ∃ w', (addEntries editor settings framework mode text icons).Gives w (result, outcomes) w' ∧
      w'.store = w.store := by
  induction icons generalizing w text outcomes with
  | nil =>
      cases steps
      exact ⟨w, gives_pure.mpr ⟨rfl, rfl⟩, rfl⟩
  | cons icon rest ih =>
      cases steps with
      | cons first others =>
          obtain ⟨middle, hFirst, hMiddle⟩ := exists_gives_addEntry first
          rw [← hMiddle] at others
          obtain ⟨w', hRest, hStore⟩ := ih others
          refine ⟨w', ?_, hStore.trans hMiddle⟩
          rw [addEntries]
          exact gives_bind.mpr ⟨_, middle, hFirst, gives_bind.mpr ⟨_, w', hRest, gives_pure.mpr ⟨rfl, rfl⟩⟩⟩

/-- The registry file of a store holds another text, and is as it was if that is the same. -/
def RegistryWritten (settings : Settings) (before after : Text) (store store' : Store) : Prop :=
  if after = before then store' = store
  else ∃ here, store.locate settings.registryPath = .ok here ∧ store' = store.put here (.file after)

/-- Where steps over the text of the registry can be taken, there is a run. -/
theorem exists_gives_add_inline {w : Workspace} {before after : Text} {icons : List Text} {outcomes : List Outcome}
    (hInline : settings.placement = .inline)
    (hFramework : Framework.Catalogue.builtin.get settings.framework = .ok framework)
    (hRead : w.store.readText settings.registryPath = .ok before)
    (steps : EntrySteps editor settings framework mode w.store before icons after outcomes) :
    ∃ w', (add editor settings icons mode).Gives w outcomes w' ∧
      RegistryWritten settings before after w.store w'.store := by
  obtain ⟨first, hDebug, hFirst⟩ := gives_debug (["processing ".toList ++ Text.ofNat icons.length ++
    " icon(s) for ".toList ++ framework.name ++ " (".toList ++ placementWord settings.placement ++ [')']]) w
  rw [← hFirst] at hRead steps
  obtain ⟨second, hEntries, hSecond⟩ := exists_gives_addEntries steps
  have hStore := hSecond.trans hFirst
  suffices hInlined : ∃ w', (addInline editor settings framework mode icons).Gives first outcomes w' ∧
      RegistryWritten settings before after w.store w'.store by
    obtain ⟨w', hGives, hWritten⟩ := hInlined
    refine ⟨w', ?_, hWritten⟩
    rw [add]
    refine gives_bind.mpr ⟨_, w, gives_framework.mpr ⟨hFramework, rfl⟩, gives_bind.mpr ⟨(), first, hDebug, ?_⟩⟩
    rwa [hInline]
  rw [addInline]
  by_cases hSame : after = before
  · refine ⟨second, ?_, by rw [RegistryWritten, if_pos hSame, hStore]⟩
    refine gives_bind.mpr ⟨_, first, gives_readRegistry.mpr ⟨hRead, rfl⟩, gives_bind.mpr ⟨_, second, hEntries, ?_⟩⟩
    simp only [hSame, bne_self_eq_false, Bool.false_eq_true, if_false]
    exact gives_pure.mpr ⟨rfl, rfl⟩
  · rw [← hSecond] at hRead
    obtain ⟨here, hLocate, -, hWrite⟩ := gives_writeFile_of_readText hRead after
    obtain ⟨third, hNoted, hThird⟩ := gives_debug ["wrote ".toList ++ settings.registryPath]
      { second with store := second.store.put here (.file after) }
    refine ⟨third, ?_, ?_⟩
    · rw [hSecond] at hRead
      refine gives_bind.mpr ⟨_, first, gives_readRegistry.mpr ⟨hRead, rfl⟩, gives_bind.mpr ⟨_, second, hEntries, ?_⟩⟩
      have hChanged : (after != before) = true := by simpa using hSame
      simp only [hChanged, if_true]
      exact gives_bind.mpr ⟨(), _, hWrite, gives_bind.mpr ⟨(), third, hNoted, gives_pure.mpr ⟨rfl, rfl⟩⟩⟩
    · rw [RegistryWritten, if_neg hSame, hThird, hStore]
      rw [hStore] at hLocate
      exact ⟨here, hLocate, rfl⟩

/-- A run over the registry file has read it. -/
theorem exists_registry_of_gives_add {w w' : Workspace} {icons : List Text} {outcomes : List Outcome}
    (hInline : settings.placement = .inline)
    (h : (add editor settings icons mode).Gives w outcomes w') :
    ∃ before, w.store.readText settings.registryPath = .ok before := by
  rw [add] at h
  obtain ⟨framework, first, hKnown, hRest⟩ := gives_bind.mp h
  obtain ⟨-, rfl⟩ := gives_framework.mp hKnown
  obtain ⟨noted, second, hNoted, hInlined⟩ := gives_bind.mp hRest
  simp only [hInline, addInline] at hInlined
  obtain ⟨before, third, hRead, -⟩ := gives_bind.mp hInlined
  rw [← store_of_gives_debug hNoted]
  exact ⟨before, (gives_readRegistry.mp hRead).1⟩

/-- Every run over the text of the registry takes the steps. -/
theorem exists_steps_of_gives_inline {w w' : Workspace} {before : Text} {icons : List Text} {outcomes : List Outcome}
    (hInline : settings.placement = .inline)
    (hFramework : Framework.Catalogue.builtin.get settings.framework = .ok framework)
    (hRead : w.store.readText settings.registryPath = .ok before)
    (h : (add editor settings icons mode).Gives w outcomes w') :
    ∃ after, EntrySteps editor settings framework mode w.store before icons after outcomes ∧
      RegistryWritten settings before after w.store w'.store := by
  obtain ⟨after, -, steps⟩ := exists_entrySteps hInline hFramework hRead h
  obtain ⟨v, hGives, hWritten⟩ := exists_gives_add_inline hInline hFramework hRead steps
  obtain ⟨-, rfl⟩ := h.unique hGives
  exact ⟨after, steps, hWritten⟩

theorem RegistryWritten.readText {before after : Text} {store store' : Store}
    (h : RegistryWritten settings before after store store')
    (hRead : store.readText settings.registryPath = .ok before) :
    store'.readText settings.registryPath = .ok after := by
  rw [RegistryWritten] at h
  split at h
  · rename_i hSame
    rwa [h, hSame]
  · obtain ⟨here, hLocate, rfl⟩ := h
    obtain ⟨here', hLocate', hNode⟩ := Store.readText_eq_ok.mp hRead
    obtain rfl : here = here' := Except.ok.inj (hLocate.symm.trans hLocate')
    have hRoot : here ≠ [] := by
      rintro rfl
      cases hNode
    have hFile : store.node? here ≠ some .directory := by simp [hNode]
    have hSame := Store.sameDirectories_put hFile after
    exact Store.readText_eq_ok.mpr ⟨here, hSame.locate_iff.mpr hLocate, Store.node?_put_same hRoot _⟩

end

/-- A file is written, after the directories above it are made. -/
def Writes (path text : Text) (store store' : Store) : Prop :=
  ∀ log, (writeFile path text).Gives ⟨store, log⟩ () ⟨store', log⟩

section

variable (settings : Settings) (framework : Framework) (mode : AddMode)

/-- What becomes of one icon and of the store. -/
inductive FileStep (store : Store) (icon : Text) : Store → Outcome → Prop
  | skipped {reason : Text} :
      mode.skipReason? (store.contains (componentPath settings framework (nameOf icon))) = some reason →
      FileStep store icon store (.skipped icon reason)
  | failed {e : IconError} :
      mode.skipReason? (store.contains (componentPath settings framework (nameOf icon))) = none →
      componentOf settings framework store icon = .error e → FileStep store icon store (.failed icon e.message)
  | written {component : Text} {store' : Store} :
      mode.skipReason? (store.contains (componentPath settings framework (nameOf icon))) = none →
      componentOf settings framework store icon = .ok component →
      Writes (componentPath settings framework (nameOf icon)) component store store' →
      FileStep store icon store'
        (if store.contains (componentPath settings framework (nameOf icon)) then .replaced icon else .added icon)

/-- A component is made, but its file cannot be written. -/
def Unwritable (store : Store) (icon : Text) (e : CommandError) : Prop :=
  mode.skipReason? (store.contains (componentPath settings framework (nameOf icon))) = none ∧
    ∃ component, componentOf settings framework store icon = .ok component ∧
      ∃ w w', w.store = store ∧
        (writeFile (componentPath settings framework (nameOf icon)) component).Fails w e w'

end

section

variable {settings : Settings} {framework : Framework} {mode : AddMode} {w w' : Workspace} {store store' : Store}
  {path text icon : Text} {outcome : Outcome} {e : CommandError}

/-- A file that is written is all that changes. -/
theorem writes_of_gives (h : (writeFile path text).Gives w () w') : Writes path text w.store w'.store ∧ w'.log = w.log := by
  rw [writeFile] at h
  have hChange : ∀ {between : Workspace},
      (change ("Failed to write ".toList ++ path) (·.writeText path text)).Gives between () w' → ∀ log,
      (change ("Failed to write ".toList ++ path) (·.writeText path text)).Gives ⟨between.store, log⟩ ()
        ⟨w'.store, log⟩ ∧ w'.log = between.log := by
    intro between hWrite log
    obtain ⟨changed, hChanged, rfl⟩ := gives_change_iff.mp hWrite
    exact ⟨gives_change_iff.mpr ⟨changed, hChanged, rfl⟩, rfl⟩
  rw [Writes]
  simp only [writeFile]
  split at h
  · split at h
    · rename_i hNonempty
      obtain ⟨done, between, hMade, hWrite⟩ := gives_bind.mp h
      obtain ⟨made, hResult, rfl⟩ := gives_makeDirectories.mp hMade
      refine ⟨fun log => ?_, (hChange hWrite []).2⟩
      rw [if_pos hNonempty]
      exact gives_bind.mpr ⟨(), ⟨made, log⟩, gives_makeDirectories.mpr ⟨made, hResult, rfl⟩, (hChange hWrite log).1⟩
    · rename_i hEmpty
      refine ⟨fun log => ?_, (hChange h []).2⟩
      rw [if_neg hEmpty]
      exact (hChange h log).1
  · exact ⟨fun log => (hChange h log).1, (hChange h []).2⟩

theorem Writes.gives (h : Writes path text w.store store') :
    (writeFile path text).Gives w () { w with store := store' } :=
  h w.log

/-- The outcome of a step follows from whether the file is there and from the component. -/
theorem FileStep.outcome_eq (step : FileStep settings framework mode store icon store' outcome) :
    outcome = outcomeOf mode (store.contains (componentPath settings framework (nameOf icon))) icon
      (componentOf settings framework store icon) := by
  cases step with
  | skipped hSkip => simp [outcomeOf, hSkip]
  | failed hSkip hMade => simp [outcomeOf, hSkip, hMade]
  | written hSkip hMade => simp [outcomeOf, hSkip, hMade]

theorem FileStep.icon_eq (step : FileStep settings framework mode store icon store' outcome) :
    outcome.icon = icon := by
  rw [step.outcome_eq, icon_outcomeOf]

/-- A step that fails leaves the store as it was. -/
theorem FileStep.eq_of_isFailed (step : FileStep settings framework mode store icon store' outcome)
    (h : outcome.isFailed = true) : store' = store := by
  cases step with
  | skipped | failed => rfl
  | written => split at h <;> cases h

/-- Adding a file is one step of the store. -/
theorem fileStep_of_gives (h : (addFile settings framework mode icon).Gives w outcome w') :
    FileStep settings framework mode w.store icon w'.store outcome := by
  rw [addFile] at h
  obtain ⟨files, first, hStore, hRest⟩ := gives_bind.mp h
  obtain ⟨rfl, rfl⟩ := gives_store.mp hStore
  dsimp only at hRest
  split at hRest
  · rename_i reason hSkip
    obtain ⟨rfl, rfl⟩ := gives_pure.mp hRest
    exact .skipped hSkip
  · rename_i hSkip
    obtain ⟨made, second, hMake, hMade⟩ := gives_bind.mp hRest
    obtain ⟨hSecond, hComponent⟩ := component_of_gives hMake
    split at hMade
    · obtain ⟨rfl, rfl⟩ := gives_pure.mp hMade
      rw [hSecond]
      exact .failed hSkip hComponent
    · obtain ⟨done, third, hWrite, hTold⟩ := gives_bind.mp hMade
      obtain ⟨rfl, rfl⟩ := gives_pure.mp hTold
      have hWrites := (writes_of_gives hWrite).1
      rw [hSecond] at hWrites
      exact .written hSkip hComponent hWrites

/-- Every step of the store is a run of the command. -/
theorem exists_gives_addFile (step : FileStep settings framework mode w.store icon store' outcome) :
    ∃ w', (addFile settings framework mode icon).Gives w outcome w' ∧ w'.store = store' := by
  obtain ⟨first, hMake, hFirst⟩ := exists_gives_makeComponent settings framework icon w
  rw [addFile]
  cases step with
  | skipped hSkip =>
      refine ⟨w, gives_bind.mpr ⟨w.store, w, gives_store.mpr ⟨rfl, rfl⟩, ?_⟩, rfl⟩
      simp only [hSkip]
      exact gives_pure.mpr ⟨rfl, rfl⟩
  | failed hSkip hMade =>
      rw [hMade] at hMake
      refine ⟨first, gives_bind.mpr ⟨w.store, w, gives_store.mpr ⟨rfl, rfl⟩, ?_⟩, hFirst⟩
      simp only [hSkip]
      exact gives_bind.mpr ⟨_, first, hMake, gives_pure.mpr ⟨rfl, rfl⟩⟩
  | written hSkip hMade hWrites =>
      rw [hMade] at hMake
      rw [← hFirst] at hWrites
      refine ⟨{ first with store := store' }, gives_bind.mpr ⟨w.store, w, gives_store.mpr ⟨rfl, rfl⟩, ?_⟩, rfl⟩
      simp only [hSkip]
      exact gives_bind.mpr ⟨_, first, hMake, gives_bind.mpr ⟨(), _, hWrites.gives, gives_pure.mpr ⟨rfl, rfl⟩⟩⟩

/-- Adding a file fails only if it cannot be written. -/
theorem unwritable_of_fails (h : (addFile settings framework mode icon).Fails w e w') :
    Unwritable settings framework mode w.store icon e := by
  rw [addFile] at h
  rcases fails_bind.mp h with hNever | ⟨files, first, hStore, hRest⟩
  · exact absurd hNever not_fails_store
  obtain ⟨rfl, rfl⟩ := gives_store.mp hStore
  dsimp only at hRest
  split at hRest
  · exact absurd hRest not_fails_pure
  · rename_i hSkip
    obtain ⟨made, hMake, hMade⟩ := exists_gives_makeComponent settings framework icon w
    rcases fails_bind.mp hRest with hNever | ⟨component?, second, hGives, hWrite⟩
    · exact absurd hNever hMake.not_fails
    obtain ⟨rfl, rfl⟩ := hMake.unique hGives
    split at hWrite
    · exact absurd hWrite not_fails_pure
    · rename_i component hComponent
      rcases fails_bind.mp hWrite with hFails | ⟨done, third, -, hNever⟩
      · exact ⟨hSkip, component, hComponent, made, w', hMade, hFails⟩
      · exact absurd hNever not_fails_pure

/-- Adding files is one step after the other. -/
theorem steps_of_gives_mapM {icons : List Text} {outcomes : List Outcome}
    (h : (icons.mapM (addFile settings framework mode)).Gives w outcomes w') :
    Steps (FileStep settings framework mode) w.store icons w'.store outcomes := by
  induction icons generalizing w outcomes with
  | nil =>
      obtain ⟨rfl, rfl⟩ := gives_pure.mp h
      exact .nil
  | cons icon rest ih =>
      rw [List.mapM_cons] at h
      obtain ⟨outcome, first, hFirst, hRest⟩ := gives_bind.mp h
      obtain ⟨others, second, hOthers, hTold⟩ := gives_bind.mp hRest
      obtain ⟨rfl, rfl⟩ := gives_pure.mp hTold
      exact .cons (fileStep_of_gives hFirst) (ih hOthers)

/-- Every run of steps is one of the command. -/
theorem exists_gives_mapM {icons : List Text} {outcomes : List Outcome}
    (steps : Steps (FileStep settings framework mode) w.store icons store' outcomes) :
    ∃ w', (icons.mapM (addFile settings framework mode)).Gives w outcomes w' ∧ w'.store = store' := by
  induction icons generalizing w outcomes with
  | nil =>
      cases steps
      exact ⟨w, gives_pure.mpr ⟨rfl, rfl⟩, rfl⟩
  | cons icon rest ih =>
      cases steps with
      | cons first others =>
          obtain ⟨middle, hFirst, rfl⟩ := exists_gives_addFile first
          obtain ⟨w', hRest, hStore⟩ := ih others
          refine ⟨w', ?_, hStore⟩
          rw [List.mapM_cons]
          exact gives_bind.mpr ⟨_, middle, hFirst, gives_bind.mpr ⟨_, w', hRest, gives_pure.mpr ⟨rfl, rfl⟩⟩⟩

/-- Where a run fails, steps lead up to an icon whose file cannot be written. -/
theorem exists_unwritable_of_fails_mapM {icons : List Text}
    (h : (icons.mapM (addFile settings framework mode)).Fails w e w') :
    ∃ front icon rest done between, icons = front ++ icon :: rest ∧
      Steps (FileStep settings framework mode) w.store front between done ∧
      Unwritable settings framework mode between icon e := by
  induction icons generalizing w with
  | nil => exact absurd h not_fails_pure
  | cons icon rest ih =>
      rw [List.mapM_cons] at h
      rcases fails_bind.mp h with hFirst | ⟨outcome, first, hFirst, hRest⟩
      · exact ⟨[], icon, rest, [], w.store, rfl, .nil, unwritable_of_fails hFirst⟩
      · rcases fails_bind.mp hRest with hOthers | ⟨others, second, -, hNever⟩
        · obtain ⟨front, next, last, done, between, rfl, hSteps, hUnwritable⟩ := ih hOthers
          exact ⟨icon :: front, next, last, outcome :: done, between, rfl, .cons (fileStep_of_gives hFirst) hSteps,
            hUnwritable⟩
        · exact absurd hNever not_fails_pure

/-- An addition of files runs icon by icon, behind a note. -/
theorem run_add_standalone (editor : Registry.Editor) (mode : AddMode) (hStandalone : settings.placement = .standalone)
    (hFramework : Framework.Catalogue.builtin.get settings.framework = .ok framework) (icons : List Text)
    (w : Workspace) :
    ∃ first, first.store = w.store ∧ (add editor settings icons mode).run.run w =
      (icons.mapM (addFile settings framework mode)).run.run first := by
  obtain ⟨first, hDebug, hFirst⟩ := gives_debug (["processing ".toList ++ Text.ofNat icons.length ++
    " icon(s) for ".toList ++ framework.name ++ " (".toList ++ placementWord settings.placement ++ [')']]) w
  have hKnown : (Command.framework settings).Gives w framework w := gives_framework.mpr ⟨hFramework, rfl⟩
  rw [Gives] at hDebug hKnown
  refine ⟨first, hFirst, ?_⟩
  rw [add, run_bind, hKnown]
  simp only
  rw [run_bind, hDebug]
  simp only [hStandalone]

/-- Every run over the store takes the steps. -/
theorem steps_of_gives_standalone {editor : Registry.Editor} {icons : List Text} {outcomes : List Outcome}
    (hStandalone : settings.placement = .standalone)
    (hFramework : Framework.Catalogue.builtin.get settings.framework = .ok framework)
    (h : (add editor settings icons mode).Gives w outcomes w') :
    Steps (FileStep settings framework mode) w.store icons w'.store outcomes := by
  obtain ⟨first, hFirst, hRun⟩ := run_add_standalone editor mode hStandalone hFramework icons w
  rw [Gives, hRun] at h
  rw [← hFirst]
  exact steps_of_gives_mapM h

/-- Where steps over the store can be taken, there is a run. -/
theorem exists_gives_add_standalone (editor : Registry.Editor) {icons : List Text} {outcomes : List Outcome}
    (hStandalone : settings.placement = .standalone)
    (hFramework : Framework.Catalogue.builtin.get settings.framework = .ok framework)
    (steps : Steps (FileStep settings framework mode) w.store icons store' outcomes) :
    ∃ w', (add editor settings icons mode).Gives w outcomes w' ∧ w'.store = store' := by
  obtain ⟨first, hFirst, hRun⟩ := run_add_standalone editor mode hStandalone hFramework icons w
  rw [← hFirst] at steps
  obtain ⟨w', hGives, hStore⟩ := exists_gives_mapM steps
  refine ⟨w', ?_, hStore⟩
  rw [Gives, hRun]
  exact hGives

end

end Command

end IconRegistry
