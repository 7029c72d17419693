import IconRegistry.Command.Add
import IconRegistry.Proofs.Command.Running

/-! Runs that add icons, taken apart into one step for each icon. A step tells what became of the icon and of the
text of the registry; no step touches the store. -/
namespace IconRegistry.Command

open Config Component

/-- Steps for several icons, one after the other. -/
inductive Steps {σ : Type} (step : σ → Text → σ → Outcome → Prop) : σ → List Text → σ → List Outcome → Prop
  | nil {state : σ} : Steps step state [] state []
  | cons {state between final : σ} {icon : Text} {rest : List Text} {outcome : Outcome} {outcomes : List Outcome} :
      step state icon between outcome → Steps step between rest final outcomes →
      Steps step state (icon :: rest) final (outcome :: outcomes)

section

variable (editor : Registry.Editor) (settings : Settings) (framework : Framework) (mode : AddMode) (files : Store)

/-- The text after making sure that the constructor is imported that components call. -/
inductive ConstructorImported (text : Text) : Text → Prop
  | unneeded : framework.refModule? = none ∨ settings.forwardRef = false → ConstructorImported text text
  | ensured {module result : Text} : framework.refModule? = some module → settings.forwardRef = true →
      editor.ensureImport text Framework.refConstructor module = .ok result → ConstructorImported text result

/-- What becomes of one icon and of the text of the registry. -/
inductive EntryStep (text icon : Text) : Text → Outcome → Prop
  | skipped {view : Registry.View} {reason : Text} : editor.view text = .ok view →
      mode.skipReason? (view.contains (nameOf icon)) = some reason → EntryStep text icon text (.skipped icon reason)
  | failed {view : Registry.View} {e : IconError} : editor.view text = .ok view →
      mode.skipReason? (view.contains (nameOf icon)) = none → componentOf settings framework files icon = .error e →
      EntryStep text icon text (.failed icon e.message)
  | replaced {view : Registry.View} {component changed result : Text} : editor.view text = .ok view →
      mode.skipReason? (view.contains (nameOf icon)) = none → view.contains (nameOf icon) = true →
      componentOf settings framework files icon = .ok component →
      editor.replace text (nameOf icon) component = .ok changed →
      ConstructorImported editor settings framework changed result → EntryStep text icon result (.replaced icon)
  | added {view : Registry.View} {component changed result : Text} : editor.view text = .ok view →
      mode.skipReason? (view.contains (nameOf icon)) = none → view.contains (nameOf icon) = false →
      componentOf settings framework files icon = .ok component →
      editor.insert text (nameOf icon) component = .ok changed →
      ConstructorImported editor settings framework changed result → EntryStep text icon result (.added icon)

/-- What becomes of several icons, one after the other. -/
abbrev EntrySteps : Text → List Text → Text → List Outcome → Prop :=
  Steps (EntryStep editor settings framework mode files)

end

section

variable {editor : Registry.Editor} {settings : Settings} {framework : Framework} {mode : AddMode}
  {w w' : Workspace} {text result : Text}

/-- An import of the constructor leaves the store alone and gives a registry that has it. -/
theorem imported_of_gives (h : (importConstructor editor settings framework text).Gives w result w') :
    w'.store = w.store ∧ ConstructorImported editor settings framework text result := by
  rw [importConstructor] at h
  split at h
  · rename_i hNone
    obtain ⟨rfl, rfl⟩ := gives_pure.mp h
    exact ⟨rfl, .unneeded (.inl hNone)⟩
  · rename_i module hModule
    split at h
    · rename_i hForward
      obtain ⟨done, between, hDebug, h⟩ := gives_bind.mp h
      obtain ⟨hImport, rfl⟩ := gives_ofRegistry.mp h
      exact ⟨store_of_gives_debug hDebug, .ensured hModule hForward hImport⟩
    · rename_i hForward
      obtain ⟨rfl, rfl⟩ := gives_pure.mp h
      exact ⟨rfl, .unneeded (.inr (by simpa using hForward))⟩

/-- Making a component leaves the store alone and gives the component of the icon. -/
theorem component_of_gives {icon : Text} {made : Except IconError Text}
    (h : (makeComponent settings framework icon).Gives w made w') :
    w'.store = w.store ∧ componentOf settings framework w.store icon = made := by
  rw [makeComponent] at h
  obtain ⟨files, first, hStore, h⟩ := gives_bind.mp h
  obtain ⟨rfl, rfl⟩ := gives_store.mp hStore
  obtain ⟨done, second, hDebug, h⟩ := gives_bind.mp h
  obtain ⟨rfl, rfl⟩ := gives_pure.mp h
  exact ⟨store_of_gives_debug hDebug, rfl⟩

/-- Adding an entry is one step of the registry. -/
theorem entryStep_of_gives {icon : Text} {outcome : Outcome}
    (h : (addEntry editor settings framework mode text icon).Gives w (result, outcome) w') :
    w'.store = w.store ∧ EntryStep editor settings framework mode w.store text icon result outcome := by
  rw [addEntry] at h
  obtain ⟨done, first, hDebug, h⟩ := gives_bind.mp h
  obtain ⟨view, second, hOfView, h⟩ := gives_bind.mp h
  obtain ⟨hView, rfl⟩ := gives_ofRegistry.mp hOfView
  have hFirst := store_of_gives_debug hDebug
  dsimp only at h
  split at h
  · rename_i reason hSkip
    obtain ⟨hSame, rfl⟩ := gives_pure.mp h
    obtain ⟨rfl, rfl⟩ := Prod.mk.inj hSame
    exact ⟨hFirst, .skipped hView hSkip⟩
  · rename_i hSkip
    obtain ⟨made, third, hMake, h⟩ := gives_bind.mp h
    obtain ⟨hThird, hMade⟩ := component_of_gives hMake
    rw [hFirst] at hThird hMade
    split at h
    · obtain ⟨hSame, rfl⟩ := gives_pure.mp h
      obtain ⟨rfl, rfl⟩ := Prod.mk.inj hSame
      exact ⟨hThird, .failed hView hSkip hMade⟩
    · rename_i component
      split at h
      · rename_i hContains
        obtain ⟨changed, fourth, hGives, h⟩ := gives_bind.mp h
        obtain ⟨hReplace, rfl⟩ := gives_ofRegistry.mp hGives
        obtain ⟨imported, fifth, hImport, h⟩ := gives_bind.mp h
        obtain ⟨hStore, hImported⟩ := imported_of_gives hImport
        obtain ⟨hSame, rfl⟩ := gives_pure.mp h
        obtain ⟨rfl, rfl⟩ := Prod.mk.inj hSame
        exact ⟨hStore.trans hThird, .replaced hView hSkip hContains hMade hReplace hImported⟩
      · rename_i hContains
        obtain ⟨noted, fourth, hNoted, h⟩ := gives_bind.mp h
        obtain ⟨changed, fifth, hGives, h⟩ := gives_bind.mp h
        obtain ⟨hInsert, rfl⟩ := gives_ofRegistry.mp hGives
        obtain ⟨imported, sixth, hImport, h⟩ := gives_bind.mp h
        obtain ⟨hStore, hImported⟩ := imported_of_gives hImport
        obtain ⟨hSame, rfl⟩ := gives_pure.mp h
        obtain ⟨rfl, rfl⟩ := Prod.mk.inj hSame
        have hFourth := store_of_gives_debug hNoted
        exact ⟨hStore.trans (hFourth.trans hThird),
          .added hView hSkip (by simpa using hContains) hMade hInsert hImported⟩

/-- Adding entries is one step after the other. -/
theorem entrySteps_of_gives {icons : List Text} {outcomes : List Outcome}
    (h : (addEntries editor settings framework mode text icons).Gives w (result, outcomes) w') :
    w'.store = w.store ∧ EntrySteps editor settings framework mode w.store text icons result outcomes := by
  induction icons generalizing w text outcomes with
  | nil =>
      obtain ⟨hSame, rfl⟩ := gives_pure.mp h
      obtain ⟨rfl, rfl⟩ := Prod.mk.inj hSame
      exact ⟨rfl, .nil⟩
  | cons icon rest ih =>
      rw [addEntries] at h
      obtain ⟨⟨between, outcome⟩, middle, hEntry, h⟩ := gives_bind.mp h
      obtain ⟨⟨last, more⟩, final, hRest, h⟩ := gives_bind.mp h
      obtain ⟨hSame, rfl⟩ := gives_pure.mp h
      obtain ⟨rfl, rfl⟩ := Prod.mk.inj hSame
      obtain ⟨hStore, hStep⟩ := entryStep_of_gives hEntry
      obtain ⟨hStoreRest, hSteps⟩ := ih hRest
      rw [hStore] at hStoreRest hSteps
      exact ⟨hStoreRest, .cons hStep hSteps⟩

end

section

variable (editor : Registry.Editor) (settings : Settings) (framework : Framework) (mode : AddMode)

theorem keepsStore_makeComponent (icon : Text) : KeepsStore (makeComponent settings framework icon) :=
  .bind .store fun _ => .bind (.debug _) fun _ => .pure _

theorem keepsStore_importConstructor (text : Text) : KeepsStore (importConstructor editor settings framework text) := by
  rw [importConstructor]
  split
  · exact .pure _
  · split
    · exact .bind (.debug _) fun _ => .ofRegistry _
    · exact .pure _

theorem keepsStore_addEntry (text icon : Text) : KeepsStore (addEntry editor settings framework mode text icon) := by
  refine .bind (.debug _) fun _ => .bind (.ofRegistry _) fun view => ?_
  dsimp only
  split
  · exact .pure _
  · refine .bind (keepsStore_makeComponent settings framework icon) fun made => ?_
    split
    · exact .pure _
    · split
      · exact .bind (.ofRegistry _) fun _ =>
          .bind (keepsStore_importConstructor editor settings framework _) fun _ => .pure _
      · exact .bind (.debug _) fun _ => .bind (.ofRegistry _) fun _ =>
          .bind (keepsStore_importConstructor editor settings framework _) fun _ => .pure _

theorem keepsStore_addEntries (text : Text) (icons : List Text) :
    KeepsStore (addEntries editor settings framework mode text icons) := by
  induction icons generalizing text with
  | nil => exact .pure _
  | cons icon rest ih =>
      exact .bind (keepsStore_addEntry editor settings framework mode text icon) fun _ => .bind (ih _) fun _ => .pure _

end

end IconRegistry.Command
