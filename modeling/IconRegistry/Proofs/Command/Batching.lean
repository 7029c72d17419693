import IconRegistry.Proofs.Command.AddingIsolates
import IconRegistry.Proofs.Command.Removing
import IconRegistry.Proofs.Store.Changing

/-! Batches are sequences. A batch that is cut in two and run one part after the other leaves the same in every file and
tells the same, though the text of the registry goes through the file between the parts. A run over the registry file
that fails leaves the store as it was. -/
namespace IconRegistry

open Component Registry Config

/-- Whether an icon was skipped, so that its file was not read. -/
def Outcome.isSkipped : Outcome → Bool
  | skipped _ _ => true
  | _ => false

namespace Command

def readIcons (outcomes : List Outcome) : List Text :=
  (outcomes.filter (!·.isSkipped)).map Outcome.icon

/-- The registry file is none of the files of certain icons. -/
def RegistryApart (settings : Settings) (store : Store) (icons : List Text) : Prop :=
  ∀ icon ∈ icons, ∀ path ∈ IconSource.path? settings.iconsDirectory icon,
    store.locate path ≠ store.locate settings.registryPath

section

variable {editor : Registry.Editor} {settings : Settings} {framework : Framework} {mode : AddMode}
  {w w' : Workspace} {a b c store : Store} {before middle after text result icon : Text} {icons xs ys : List Text}
  {outcome : Outcome} {outcomes : List Outcome} {e : CommandError} {here : Location}

theorem exists_framework_of_gives_add (h : (add editor settings icons mode).Gives w outcomes w') :
    ∃ framework, Framework.Catalogue.builtin.get settings.framework = .ok framework := by
  rw [add] at h
  obtain ⟨framework, first, hKnown, -⟩ := gives_bind.mp h
  exact ⟨framework, (gives_framework.mp hKnown).1⟩

theorem RegistryWritten.rewritten (h : RegistryWritten settings before after a b)
    (hLocate : a.locate settings.registryPath = .ok here) (hNode : a.node? here = some (.file before)) :
    a.Rewritten here before after b := by
  rw [RegistryWritten] at h
  split at h
  · rename_i hSame
    rw [h, hSame]
    exact ⟨rfl, hNode, hNode, fun _ _ => rfl⟩
  · obtain ⟨there, hThere, rfl⟩ := h
    obtain rfl : here = there := Except.ok.inj (hLocate.symm.trans hThere)
    have hRoot : here ≠ [] := by
      rintro rfl
      cases hNode
    exact ⟨rfl, hNode, Store.node?_put_same hRoot _, fun _ hOther => Store.node?_put_of_ne a hOther _⟩

/-- Written twice, the registry file is as if it was written the second time only. -/
theorem RegistryWritten.same_of_twice (hRead : a.readText settings.registryPath = .ok before)
    (hFirst : RegistryWritten settings before middle a b) (hSecond : RegistryWritten settings middle after b c)
    (hOnce : RegistryWritten settings before after a store) : store.Same c := by
  obtain ⟨here, hLocate, hNode⟩ := Store.readText_eq_ok.mp hRead
  have rewritten := hFirst.rewritten hLocate hNode
  have hAgain : b.locate settings.registryPath = .ok here := by rw [rewritten.sameKinds.locate, hLocate]
  exact (hOnce.rewritten hLocate hNode).same (rewritten.trans (hSecond.rewritten hAgain rewritten.new))

/-- The components of icons are the same after the registry file was written, unless that is one of their files. -/
theorem RegistryWritten.componentOf_eq (h : RegistryWritten settings before after a b)
    (hRead : a.readText settings.registryPath = .ok before) (hApart : RegistryApart settings a icons)
    (hIcon : icon ∈ icons) : componentOf settings framework b icon = componentOf settings framework a icon := by
  obtain ⟨here, hLocate, hNode⟩ := Store.readText_eq_ok.mp hRead
  have rewritten := h.rewritten hLocate hNode
  rw [componentOf, componentOf, IconSource.fetch_congr rewritten.sameKinds fun path hPath there hThere =>
    rewritten.kept there ?_]
  rintro rfl
  exact hApart icon hIcon path hPath (hThere.trans hLocate.symm)

/-- A step is the same where the icon has the same component. -/
theorem EntryStep.congr (step : EntryStep editor settings framework mode a text icon result outcome)
    (hMade : outcome.isSkipped = false →
      componentOf settings framework b icon = componentOf settings framework a icon) :
    EntryStep editor settings framework mode b text icon result outcome := by
  cases step with
  | skipped hView hSkip => exact .skipped hView hSkip
  | failed hView hSkip hComponent => exact .failed hView hSkip ((hMade rfl).trans hComponent)
  | replaced hView hSkip hContains hComponent hText hImported =>
      exact .replaced hView hSkip hContains ((hMade rfl).trans hComponent) hText hImported
  | added hView hSkip hContains hComponent hText hImported =>
      exact .added hView hSkip hContains ((hMade rfl).trans hComponent) hText hImported

/-- The icons that are read are those that are not skipped. -/
theorem mem_readIcons_cons : icon ∈ readIcons (outcome :: outcomes) ↔
    outcome.isSkipped = false ∧ outcome.icon = icon ∨ icon ∈ readIcons outcomes := by
  cases h : outcome.isSkipped <;> simp [readIcons, h, @eq_comm Text icon]

theorem readIcons_append (done more : List Outcome) :
    readIcons (done ++ more) = readIcons done ++ readIcons more := by
  simp [readIcons]

/-- The same steps can be taken from another store in which the icons that are read have the same components. -/
theorem entrySteps_congr (steps : EntrySteps editor settings framework mode a text icons result outcomes)
    (hMade : ∀ icon ∈ readIcons outcomes,
      componentOf settings framework b icon = componentOf settings framework a icon) :
    EntrySteps editor settings framework mode b text icons result outcomes := by
  induction steps with
  | nil => exact .nil
  | cons step _ ih =>
      refine .cons (step.congr fun hRead => hMade _ ?_) (ih fun icon hIcon => hMade icon ?_)
      · exact mem_readIcons_cons.mpr (.inl ⟨hRead, step.icon_eq⟩)
      · exact mem_readIcons_cons.mpr (.inr hIcon)

/-- On a registry file, adding icons together leaves what adding them in two runs leaves. -/
theorem add_append_inline (hInline : settings.placement = .inline)
    (h : (add editor settings (xs ++ ys) mode).Gives w outcomes w')
    (hApart : RegistryApart settings w.store (readIcons outcomes)) :
    ∃ done more between final, outcomes = done ++ more ∧ (add editor settings xs mode).Gives w done between ∧
      (add editor settings ys mode).Gives between more final ∧ w'.store.Same final.store := by
  obtain ⟨framework, hFramework⟩ := exists_framework_of_gives_add h
  obtain ⟨before, hRead⟩ := exists_registry_of_gives_add hInline h
  obtain ⟨after, steps, hWritten⟩ := exists_steps_of_gives_inline hInline hFramework hRead h
  obtain ⟨middle, done, more, rfl, hFront, hRest⟩ := steps.split
  obtain ⟨between, hFirst, hBetween⟩ := exists_gives_add_inline hInline hFramework hRead hFront
  rw [readIcons_append] at hApart
  have hMoved : EntrySteps editor settings framework mode between.store middle ys after more :=
    entrySteps_congr hRest fun icon hIcon =>
      hBetween.componentOf_eq hRead hApart (List.mem_append_right _ hIcon)
  obtain ⟨final, hSecond, hFinal⟩ := exists_gives_add_inline hInline hFramework (hBetween.readText hRead) hMoved
  exact ⟨done, more, between, final, rfl, hFirst, hSecond, hBetween.same_of_twice hRead hFinal hWritten⟩

/-- On files of their own, it does so without a condition. -/
theorem add_append_standalone (hStandalone : settings.placement = .standalone)
    (h : (add editor settings (xs ++ ys) mode).Gives w outcomes w') :
    ∃ done more between final, outcomes = done ++ more ∧ (add editor settings xs mode).Gives w done between ∧
      (add editor settings ys mode).Gives between more final ∧ w'.store.Same final.store := by
  obtain ⟨framework, hFramework⟩ := exists_framework_of_gives_add h
  obtain ⟨middle, done, more, rfl, hFront, hRest⟩ := (steps_of_gives_standalone hStandalone hFramework h).split
  obtain ⟨between, hFirst, rfl⟩ := exists_gives_add_standalone editor hStandalone hFramework hFront
  obtain ⟨final, hSecond, hStore⟩ := exists_gives_add_standalone editor hStandalone hFramework hRest
  refine ⟨done, more, between, final, rfl, hFirst, hSecond, ?_⟩
  rw [hStore]
  exact .refl _

/-- Every icon has its outcome, in order. -/
theorem map_icon_of_gives_add (h : (add editor settings icons mode).Gives w outcomes w') :
    outcomes.map Outcome.icon = icons := by
  obtain ⟨framework, hFramework⟩ := exists_framework_of_gives_add h
  cases hPlacement : settings.placement with
  | inline =>
      obtain ⟨before, hRead⟩ := exists_registry_of_gives_add hPlacement h
      obtain ⟨after, steps, -⟩ := exists_steps_of_gives_inline hPlacement hFramework hRead h
      exact steps.map_icon fun _ _ _ _ step => step.icon_eq
  | standalone =>
      exact (steps_of_gives_standalone hPlacement hFramework h).map_icon fun _ _ _ _ step => step.icon_eq

/-- What was read can be written, so a run fails in front of the only write. -/
theorem store_eq_of_fails_add (hInline : settings.placement = .inline)
    (h : (add editor settings icons mode).Fails w e w') : w'.store = w.store := by
  rw [add] at h
  rcases fails_bind.mp h with hFails | ⟨framework, first, hKnown, hRest⟩
  · rw [fails_framework hFails]
  obtain ⟨-, rfl⟩ := gives_framework.mp hKnown
  rcases fails_bind.mp hRest with hNever | ⟨noted, second, hNoted, hInlined⟩
  · exact absurd hNever not_fails_debug
  rw [← store_of_gives_debug hNoted]
  simp only [hInline, addInline] at hInlined
  rcases fails_bind.mp hInlined with hFails | ⟨before, third, hText, hAdded⟩
  · rw [fails_readRegistry hFails]
  obtain ⟨hRead, rfl⟩ := gives_readRegistry.mp hText
  rcases fails_bind.mp hAdded with hFails | ⟨⟨after, outcomes⟩, fourth, hEntries, hWritten⟩
  · exact (keepsStore_addEntries editor settings framework mode before icons).store_eq_of_fails hFails
  rw [← (entrySteps_of_gives hEntries).1] at hRead
  obtain ⟨here, -, -, hWrite⟩ := gives_writeFile_of_readText hRead after
  split at hWritten
  · rcases fails_bind.mp hWritten with hFails | ⟨done, fifth, -, hTold⟩
    · exact absurd hFails hWrite.not_fails
    · rcases fails_bind.mp hTold with hNever | ⟨noted, sixth, -, hNever⟩
      · exact absurd hNever not_fails_debug
      · exact absurd hNever not_fails_pure
  · exact absurd hWritten not_fails_pure

end

/-- A run over a batch is a run over its first part and one over the rest, and tells of each icon in its turn. A run
over the registry file that fails changes nothing. -/
theorem add_append (editor : Registry.Editor) (settings : Settings) (mode : AddMode) (w : Workspace) :
    (∀ xs ys outcomes w', (add editor settings (xs ++ ys) mode).Gives w outcomes w' →
      (settings.placement = .inline → RegistryApart settings w.store (readIcons outcomes)) →
      ∃ done more between final, outcomes = done ++ more ∧ (add editor settings xs mode).Gives w done between ∧
        (add editor settings ys mode).Gives between more final ∧ w'.store.Same final.store) ∧
    (∀ icons outcomes w', (add editor settings icons mode).Gives w outcomes w' →
      outcomes.map Outcome.icon = icons) ∧
    (settings.placement = .inline → ∀ icons e w',
      (add editor settings icons mode).Fails w e w' ∨ (remove editor settings icons).Fails w e w' →
      w'.store = w.store) := by
  refine ⟨fun xs ys outcomes w' h hApart => ?_, fun icons outcomes w' => map_icon_of_gives_add,
    fun hInline icons e w' h => ?_⟩
  · cases hPlacement : settings.placement with
    | inline => exact add_append_inline hPlacement h (hApart hPlacement)
    | standalone => exact add_append_standalone hPlacement h
  · rcases h with h | h
    · exact store_eq_of_fails_add hInline h
    · rcases fails_remove h with ⟨-, hSame⟩ | ⟨hOther, -⟩
      · exact hSame
      · rw [hInline] at hOther
        cases hOther

/-- Two icons for one component, cut apart: the second run finds what the first one wrote. -/
theorem add_append_home :
    let settings : Settings := {}
    let w : Workspace := ⟨⟨[], [(["src".toList], .directory),
      (["src".toList, "icons.tsx".toList], .file "export const Icons = \x7b\x7d as const;\n".toList),
      (["icons".toList], .directory), (["icons".toList, "home.svg".toList], .file "<svg/>".toList)]⟩, []⟩
    let skipped : Outcome := .skipped "Home".toList "already registered (use --force to regenerate)".toList
    ∃ w' between final,
      (add settings.editor settings (["home".toList] ++ ["Home".toList]) .add).Gives w [.added "home".toList, skipped] w' ∧
      (add settings.editor settings ["home".toList] .add).Gives w [.added "home".toList] between ∧
      (add settings.editor settings ["Home".toList] .add).Gives between [skipped] final ∧
      w'.store.Same final.store := by
  intro settings w skipped
  let command := add settings.editor settings (["home".toList] ++ ["Home".toList]) .add
  have hRun : command.Gives w [.added "home".toList, skipped] (command.run.run w).2 := gives_of_result (by decide +kernel)
  have hApart : RegistryApart settings w.store (readIcons [.added "home".toList, skipped]) := by
    intro icon hIcon path hPath
    obtain rfl : icon = "home".toList := by simpa [readIcons, skipped, Outcome.isSkipped, Outcome.icon] using hIcon
    obtain rfl : "icons/home.svg".toList = path := Option.some.inj hPath
    exact mt (congrArg Except.toOption) (by decide +kernel)
  obtain ⟨done, more, between, final, hOutcomes, hFirst, hSecond, hSame⟩ :=
    (add_append settings.editor settings .add w).1 _ _ _ _ hRun fun _ => hApart
  have hDone : done.length = 1 := by simpa using congrArg List.length (map_icon_of_gives_add hFirst)
  obtain ⟨rfl, rfl⟩ : [.added "home".toList] = done ∧ [skipped] = more := List.append_inj hOutcomes hDone.symm
  exact ⟨_, between, final, hRun, hFirst, hSecond, hSame⟩

end Command

end IconRegistry
