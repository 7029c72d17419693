import IconRegistry.Proofs.Command.RepeatingEntries
import IconRegistry.Proofs.Command.RepeatingFiles

/-! Adding the same icons again. What a run leaves is what the same run leaves of it, in both placements: aliases that
overwrite each other do so in the same order again, and the last one has the last word again. -/
namespace IconRegistry

open Component Registry Config

namespace Command

/-- What is asked of a registry file and of the icons that are added to it. No icon is read from that file, each component
is one property under its name, and where the file shows a collection, the components are admitted there. -/
structure Registrable (editor : Editor) (grammar : Grammar) (settings : Settings) (framework : Framework)
    (store : Store) (icons : List Text) : Prop where
  apart : RegistryApart settings store icons
  property : ∀ icon ∈ icons, ∀ component, componentOf settings framework store icon = .ok component →
    grammar.property (some (nameOf icon)) component
  admits : ∀ {text view}, store.readText settings.registryPath = .ok text → editor.view text = .ok view →
    view.interior?.isSome = true → AdmitsComponents editor grammar settings framework view

/-- A batch can be run over a store and changes nothing. The run that adds has nothing to add, and the one that adds or
replaces replaces what is there, unless it fails for an icon. -/
def RunsIdly (editor : Editor) (settings : Settings) (mode : AddMode) (icons : List Text) (w : Workspace) : Prop :=
  ∃ outcomes w', (add editor settings icons mode).Gives w outcomes w' ∧ w.store.Same w'.store ∧
    outcomes.map Outcome.icon = icons ∧
    (mode = .add → ∀ outcome ∈ outcomes, outcome.isSkipped = true ∨ outcome.isFailed = true) ∧
    (mode = .upsert → ∀ outcome ∈ outcomes, outcome.isReplaced = true ∨ outcome.isFailed = true)

section

variable {editor : Editor} {grammar : Grammar} {settings : Settings} {framework : Framework} {mode : AddMode}
  {icons : List Text} {outcomes : List Outcome} {w w' : Workspace}

/-- After a run that succeeds, the same run over the same directory of icons succeeds, too, and leaves every file as it
is, exactly if the registry file, where something was written there, had a place for the import that was needed. -/
theorem add_again_iff (hFramework : Framework.Catalogue.builtin.get settings.framework = .ok framework)
    (hInline : settings.placement = .inline → Registrable editor grammar settings framework w.store icons)
    (rooted : w.store.Rooted)
    (hDirectory : ∀ home, w'.store.locate settings.iconsDirectory = .ok home →
      w.store.locate settings.iconsDirectory = .ok home)
    (h : (add editor settings icons mode).Gives w outcomes w') :
    RunsIdly editor settings mode icons w' ↔
      (settings.placement = .inline → writtenIcons outcomes ≠ [] → ∀ before view,
        w.store.readText settings.registryPath = .ok before → editor.view before = .ok view →
        HasPlace editor settings framework view) := by
  constructor
  · rintro ⟨again, v, hAgain, -⟩ hPlacement hWrites before view hRead hView
    have registrable := hInline hPlacement
    obtain ⟨after, steps, hWritten⟩ := exists_steps_of_gives_inline hPlacement hFramework hRead h
    obtain ⟨last, others, -⟩ := exists_steps_of_gives_inline hPlacement hFramework (hWritten.readText hRead) hAgain
    -- a batch that wrote something is not empty, so the second run reads what the first one left
    obtain ⟨changed, hChanged⟩ : ∃ changed, editor.view after = .ok changed := by
      cases others with
      | nil =>
          cases steps
          exact absurd rfl hWrites
      | cons step _ =>
          obtain ⟨changed, hChanged, -⟩ := step.exists_outcomeOf
          exact ⟨changed, hChanged⟩
    obtain ⟨same, hSame, found⟩ := steps.found_of_written hWrites
    cases hView.symm.trans hSame
    obtain ⟨hComponents, hNames⟩ := steps.properties registrable.property
    exact steps.hasPlace (registrable.admits hRead hView found) hView hComponents hNames hChanged hWrites
  · intro hPlace
    obtain ⟨again, v, hAgain, hSame, hTold⟩ : ∃ again v, (add editor settings icons mode).Gives w' again v ∧
        w'.store.Same v.store ∧ ∀ outcome ∈ again, outcome.Repeated mode := by
      cases hPlacement : settings.placement with
      | inline =>
          have registrable := hInline hPlacement
          obtain ⟨before, hRead⟩ := exists_registry_of_gives_add hPlacement h
          refine exists_gives_again_inline hRead (fun hWrites => ?_) hPlacement hFramework
            registrable.apart registrable.property h
          obtain ⟨after, steps, -⟩ := exists_steps_of_gives_inline hPlacement hFramework hRead h
          obtain ⟨view, hView, found⟩ := steps.found_of_written hWrites
          exact ⟨view, hView, registrable.admits hRead hView found,
            hPlace hPlacement hWrites before view hRead hView⟩
      | standalone => exact exists_gives_again_standalone editor hPlacement hFramework rooted hDirectory h
    refine ⟨again, v, hAgain, hSame, map_icon_of_gives_add hAgain, ?_, ?_⟩
    · rintro rfl outcome hOutcome
      exact Outcome.Repeated.of_add (hTold outcome hOutcome)
    · rintro rfl outcome hOutcome
      exact Outcome.Repeated.of_upsert (hTold outcome hOutcome)

end

/-- Two icons for one component that forwards its reference, and a missing one, in a registry file and in files of their
own. -/
theorem add_again_aliases :
    let together : Settings := { forwardRef := true }
    let separate : Settings := { forwardRef := true, registryPath := "src".toList, placement := .standalone }
    let icons := ["home".toList, "Home".toList, "ghost".toList]
    let ghost : Outcome := .failed "ghost".toList "Icon not found: ghost".toList
    let first : List Outcome := [.added "home".toList, .replaced "Home".toList, ghost]
    let w : Workspace := ⟨⟨[], [(["src".toList], .directory),
      (["src".toList, "icons.tsx".toList], .file "export const Icons = \x7b\x7d as const;\n".toList),
      (["icons".toList], .directory), (["icons".toList, "home.svg".toList], .file "<svg/>".toList),
      (["icons".toList, "Home.svg".toList], .file "<svg viewBox=\"0 0 1 1\"/>".toList)]⟩, []⟩
    ∀ settings ∈ [together, separate], ∃ w', (add settings.editor settings icons .upsert).Gives w first w' ∧
      RunsIdly settings.editor settings .upsert icons w' := by
  intro together separate icons ghost first w settings hSettings
  have hPath : (Script.Dialect.ofPath? together.registryPath).getD .tsx = .tsx := by decide
  obtain ⟨view, hView, -, -, accepts, hPlace⟩ := exists_view_empty together rfl hPath .react
  have hSame : ∀ {text shown}, w.store.readText together.registryPath = .ok text →
      together.editor.view text = .ok shown → view = shown := by
    intro text shown hText hShown
    cases hText.symm.trans (rfl : w.store.readText together.registryPath = .ok _)
    exact Except.ok.inj (hView.symm.trans hShown)
  have hTrees : NamesTrees readPieces together .react w.store icons := namesTrees_of_isFrame (by decide +kernel)
  have registrable : Registrable together.editor .members together .react w.store icons := by
    refine ⟨?_, ?_, fun hText hShown _ => hSame hText hShown ▸ accepts⟩
    · intro icon hIcon path hPath
      suffices hNe : (w.store.locate path).toOption ≠ (w.store.locate together.registryPath).toOption from
        mt (congrArg Except.toOption) hNe
      revert icon path
      decide +kernel
    · intro icon hIcon component hComponent
      have hNames : ∀ icon ∈ icons, Script.IsIdentifier (nameOf icon) := by decide
      exact makesProperties_of_names readPieces_composes rfl hTrees icon hIcon component hComponent (hNames icon hIcon)
  let command := add settings.editor settings icons .upsert
  have hRun : command.Gives w first (command.run.run w).2 := by
    rcases List.mem_pair.mp hSettings with rfl | rfl <;> exact gives_of_result (by decide +kernel)
  have hFramework : Framework.Catalogue.builtin.get settings.framework = .ok .react := by
    rcases List.mem_pair.mp hSettings with rfl | rfl <;> rfl
  have hTogether : settings.placement = .inline → settings = together := by
    intro hPlacement
    rcases List.mem_pair.mp hSettings with rfl | rfl
    · rfl
    · cases hPlacement
  have hDirectory : ((command.run.run w).2.store.locate settings.iconsDirectory).toOption =
      (w.store.locate settings.iconsDirectory).toOption := by
    rcases List.mem_pair.mp hSettings with rfl | rfl <;> decide +kernel
  refine ⟨_, hRun, (add_again_iff hFramework (fun hPlacement => hTogether hPlacement ▸ registrable)
    (Store.rooted_of_nodes (by decide +kernel))
    (fun home hHome => eq_ok_of_toOption (by rw [← hDirectory, hHome]; rfl)) hRun).mpr ?_⟩
  intro hPlacement _ before shown hRead hShown
  cases hTogether hPlacement
  exact hSame hRead hShown ▸ hPlace

/-- Behind decorators there is no place for an import: the run over the registry succeeds, and the same run over what
it left finds no registry that can be read. -/
theorem add_again_behind_decorators :
    let settings : Settings := { forwardRef := true }
    let w : Workspace := ⟨⟨[], [(["src".toList], .directory), (["src".toList, "icons.tsx".toList],
        .file "@d<T> export class A \x7b\x7d\nexport const Icons = \x7b\x7d as const;\n".toList),
      (["icons".toList], .directory), (["icons".toList, "home.svg".toList], .file "<svg/>".toList)]⟩, []⟩
    ∃ w', (add settings.editor settings ["home".toList] .add).Gives w [.added "home".toList] w' ∧
      (add settings.editor settings ["home".toList] .add).Fails w' (.registry .unreadable)
        ((add settings.editor settings ["home".toList] .add).run.run w').2 := by
  intro settings w
  let command := add settings.editor settings ["home".toList] .add
  have hAll : (command.run.run w).1.toOption = some [.added "home".toList] ∧
      failure? (command.run.run (command.run.run w).2).1 = some (.registry .unreadable) := by
    decide +kernel
  exact ⟨_, gives_of_result hAll.1, fails_of_result hAll.2⟩

end Command

end IconRegistry
