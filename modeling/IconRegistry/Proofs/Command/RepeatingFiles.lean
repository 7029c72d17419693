import IconRegistry.Proofs.Command.KeepingIcons
import IconRegistry.Proofs.Command.Repeating

/-! Batches with files of their own for the components that are run again. A second run writes files that are there, so
nothing but their texts changes on the way, and in the end these are what they were. -/
namespace IconRegistry

open Component Registry Config

namespace Command

/-- A store is like another one, but for components that are still to be written, in whose files the other store has
them. -/
structure LikeFiles (settings : Settings) (framework : Framework) (settled : Store) (pending : Text → Option Text)
    (store : Store) : Prop where
  kinds : settled.SameKinds store
  written : ∀ name component, pending name = some component →
    settled.readText (componentPath settings framework name) = .ok component
  node : ∀ here, store.node? here = settled.node? here ∨ ∃ name component, pending name = some component ∧
    settled.locate (componentPath settings framework name) = .ok here

section

variable {editor : Registry.Editor} {settings : Settings} {framework : Framework} {mode : AddMode}
  {store store' first last : Store} {icon other name text component : Text} {icons : List Text} {outcome : Outcome}
  {outcomes : List Outcome} {w w' : Workspace} {here : Location}

/-- A step changes component files and nothing else. -/
theorem FileStep.changesComponents (step : FileStep settings framework mode store icon store' outcome) :
    ChangesComponents settings framework store store' := by
  cases step with
  | skipped | failed => exact .refl _
  | written _ _ hWrites => exact changesComponents_of_writes hWrites

theorem Writes.readText (h : Writes name text store store') : store'.readText name = .ok text :=
  readText_of_gives_writeFile (h [])

/-- Where a component is found, it is written without anything else. -/
theorem Writes.exists_put (hSlash : '/' ∉ name)
    (hThere : store.contains (componentPath settings framework name) = true)
    (h : Writes (componentPath settings framework name) text store store') :
    ∃ here node, store.locate (componentPath settings framework name) = .ok here ∧ store.node? here = some node ∧
      node ≠ .directory ∧ store' = store.put here (.file text) := by
  have entry : Path.EntryIn (componentPath settings framework name) _ _ :=
    ComponentFile.entryIn_pathOf (isExtension_extension framework settings.typescript) hSlash
  obtain ⟨here, node, hLocate, hNode⟩ := Store.contains_iff.mp hThere
  obtain ⟨made, hAdds, hWrite⟩ := exists_addsDirectories_of_gives_writeFile (h [])
  obtain ⟨there, hLed, hFile, -⟩ := (Store.writeText_eq_ok entry.getLast?_ne).mp hWrite
  obtain rfl := Except.ok.inj ((hAdds.toExtends.locate hLocate).symm.trans hLed)
  have hOther : node ≠ .directory := by
    rintro rfl
    exact hFile (hAdds.toExtends.node here _ hNode)
  refine ⟨here, node, hLocate, hNode, hOther, ?_⟩
  obtain ⟨-, hSame⟩ := (h []).unique (gives_writeFile entry hLocate (by simpa [hNode] using hOther))
  exact congrArg Workspace.store hSame

/-- What was found stays where it is, unless the text is written there. -/
theorem Writes.cases_node {path : Text} {node : Store.Node} (h : Writes path text store store')
    (hLocate : store.locate other = .ok here) (hNode : store.node? here = some node) :
    store'.locate other = .ok here ∧ (store'.node? here = some node ∨ store'.locate path = .ok here) := by
  refine ⟨h.changesAt.locate hLocate, ?_⟩
  rcases h.changesAt.node here with hSame | ⟨hNone, -⟩ | ⟨touch, hTouch, -, hWritten⟩
  · exact .inl (hSame.trans hNode)
  · rw [hNone] at hNode
    cases hNode
  · obtain rfl := List.mem_singleton.mp hTouch
    exact .inr hWritten

/-- Components with other names stay. -/
theorem Writes.readText_other (hSlash : '/' ∉ name) (hOther : '/' ∉ other) (hNe : name ≠ other)
    (h : Writes (componentPath settings framework name) text store store')
    (hRead : store.readText (componentPath settings framework other) = .ok component) :
    store'.readText (componentPath settings framework other) = .ok component := by
  obtain ⟨here, hLocate, hNode⟩ := Store.readText_eq_ok.mp hRead
  obtain ⟨hLed, hSame | hWritten⟩ := h.cases_node hLocate hNode
  · exact Store.readText_eq_ok.mpr ⟨here, hLed, hSame⟩
  · exact absurd (ComponentFile.name_eq_of_locate (isExtension_extension framework settings.typescript) hSlash hOther
      hWritten hLed) hNe

theorem Writes.contains (h : Writes name text store store') : store'.contains name = true := by
  obtain ⟨here, hLocate, hNode⟩ := Store.readText_eq_ok.mp h.readText
  exact Store.contains_iff.mpr ⟨here, _, hLocate, hNode⟩

theorem Writes.contains_kept (h : Writes name text store store') (hThere : store.contains other = true) :
    store'.contains other = true := by
  obtain ⟨here, node, hLocate, hNode⟩ := Store.contains_iff.mp hThere
  obtain ⟨hLed, hSame | hWritten⟩ := h.cases_node hLocate hNode
  · exact Store.contains_iff.mpr ⟨here, node, hLed, hSame⟩
  · obtain ⟨there, found, hFound, hNew⟩ := Store.contains_iff.mp h.contains
    obtain rfl := Except.ok.inj (hWritten.symm.trans hFound)
    exact Store.contains_iff.mpr ⟨here, found, hLed, hNew⟩

/-- A step writes a component, or it leaves the store. -/
theorem FileStep.cases_written (step : FileStep settings framework mode store icon store' outcome) :
    (store' = store ∧ (mode.skipReason? (store.contains (componentPath settings framework (nameOf icon))) = none →
      (componentOf settings framework store icon).toOption = none)) ∨
    ∃ component, componentOf settings framework store icon = .ok component ∧
      mode.skipReason? (store.contains (componentPath settings framework (nameOf icon))) = none ∧
      Writes (componentPath settings framework (nameOf icon)) component store store' := by
  cases step with
  | skipped hSkip => exact .inl ⟨rfl, by simp [hSkip]⟩
  | failed hSkip hMade => exact .inl ⟨rfl, fun _ => by rw [hMade]; rfl⟩
  | written hSkip hMade hWrites => exact .inr ⟨_, hMade, hSkip, hWrites⟩

/-- Steps over the store write components under names. -/
theorem tracks_fileStep (hSame : SameIcons settings icons first last) :
    Tracks (fun store icon store' outcome => FileStep settings framework mode store icon store' outcome ∧
        ChangesComponents settings framework first store ∧ ChangesComponents settings framework store last) mode
      (fun icon => (componentOf settings framework first icon).toOption)
      (fun store name => store.contains (componentPath settings framework name))
      (fun store name => (store.readText (componentPath settings framework name)).toOption) icons where
  kept := by
    rintro store icon store' outcome ⟨step, -⟩ hIcon other hOther hRegistered
    rcases step.cases_written with ⟨rfl, -⟩ | ⟨component, -, -, hWrites⟩
    · exact hRegistered
    · exact hWrites.contains_kept hRegistered
  closed hMode := by
    rintro store icon store' outcome ⟨step, -⟩ hIcon other hOther hRegistered
    rcases step.cases_written with ⟨rfl, -⟩ | ⟨component, -, hSkip, hWrites⟩
    · exact hRegistered
    · have hThere := registered_of_skipReason? hMode hSkip
      obtain ⟨here, node, -, hNode, hFile, rfl⟩ := hWrites.exists_put (slash_not_mem_nameOf icon) hThere
      rwa [(Store.sameKinds_put hNode hFile component).contains] at hRegistered
  written := by
    rintro store icon store' outcome component ⟨step, hBefore, hAfter⟩ hIcon hSkip hMade
    rw [← (hSame.between hBefore hAfter).componentOf hIcon] at hMade
    rcases step.cases_written with ⟨-, hNone⟩ | ⟨found, hFound, -, hWrites⟩
    · rw [hNone hSkip] at hMade
      cases hMade
    · rw [hFound] at hMade
      obtain rfl := Option.some.inj hMade
      exact ⟨hWrites.contains, by rw [hWrites.readText]; rfl⟩
  held := by
    rintro store icon store' outcome component ⟨step, hBefore, hAfter⟩ hIcon other hOther hHeld hNone
    rcases step.cases_written with ⟨rfl, -⟩ | ⟨found, hFound, -, hWrites⟩
    · exact hHeld
    · rw [← (hSame.between hBefore hAfter).componentOf hIcon, hFound] at hNone
      have hRead := hWrites.readText_other (slash_not_mem_nameOf icon) (slash_not_mem_nameOf other)
        (fun hName => nomatch hNone hName) (eq_ok_of_toOption hHeld)
      rw [hRead]
      rfl

namespace LikeFiles

variable {pending : Text → Option Text}

/-- In a store that is like another one, icons have the same components. -/
theorem componentOf_eq (h : LikeFiles settings framework last pending store) (icon : Text) :
    componentOf settings framework store icon = componentOf settings framework last icon := by
  have hFetch : IconSource.fetch store settings.iconsDirectory icon =
      IconSource.fetch last settings.iconsDirectory icon := by
    refine IconSource.fetch_congr h.kinds fun path hPath here hLocate => ?_
    rcases h.node here with hSame | ⟨name, component, -, hLed⟩
    · exact hSame
    · exact absurd rfl (place_ne_of_icon hPath hLocate hLed)
  rw [componentOf, componentOf, hFetch]

/-- One of the components that are still to be written is written. -/
theorem exists_writes
    (h : LikeFiles settings framework last
      (fun other => (pending other).or (if name = other then some component else none)) store)
    (hSlash : '/' ∉ name) :
    ∃ store', Writes (componentPath settings framework name) component store store' ∧
      LikeFiles settings framework last pending store' := by
  obtain ⟨text, hText⟩ : ∃ text, (pending name).or (if name = name then some component else none) = some text := by
    cases pending name <;> simp
  obtain ⟨here, hLocate, hNode⟩ := Store.readText_eq_ok.mp (h.written name text hText)
  have hLed : store.locate (componentPath settings framework name) = .ok here := by rw [h.kinds.locate, hLocate]
  have hFile : store.node? here ≠ some .directory := by
    rw [Ne, h.kinds.directory_iff, hNode]
    simp
  obtain ⟨node, hOld⟩ : ∃ node, store.node? here = some node := by
    have hKind := h.kinds.kind here
    rw [Store.kind?, Store.kind?, hNode] at hKind
    cases hOld : store.node? here with
    | some node => exact ⟨node, rfl⟩
    | none =>
        rw [hOld] at hKind
        cases hKind
  have hSame := Store.sameKinds_put hOld (fun hDirectory => hFile (hDirectory ▸ hOld)) component
  have hRoot : here ≠ [] := by
    rintro rfl
    exact hFile rfl
  have entry : Path.EntryIn (componentPath settings framework name) _ _ :=
    ComponentFile.entryIn_pathOf (isExtension_extension framework settings.typescript) hSlash
  refine ⟨store.put here (.file component), fun _ => gives_writeFile entry hLed hFile, h.kinds.trans hSame,
    fun other found hFound => h.written other found (by simp [hFound]), fun there => ?_⟩
  by_cases hThere : there = here
  · -- the file that is written is the settled one, unless another component is to be written there
    subst hThere
    cases hPending : pending name with
    | some more => exact .inr ⟨name, more, hPending, hLocate⟩
    | none =>
        obtain rfl : component = text := by simpa [hPending] using hText
        exact .inl ((Store.node?_put_same hRoot _).trans hNode.symm)
  · rw [Store.node?_put_of_ne store hThere]
    refine (h.node there).imp id ?_
    rintro ⟨other, found, hFound, hOther⟩
    refine ⟨other, found, ?_, hOther⟩
    have hNe : name ≠ other := by
      rintro rfl
      exact hThere (Except.ok.inj (hOther.symm.trans hLocate))
    simpa [hNe] using hFound

/-- A store that is like another one has the same component files. -/
theorem contains_eq (h : LikeFiles settings framework last pending store) (name : Text) :
    store.contains (componentPath settings framework name) = last.contains (componentPath settings framework name) :=
  h.kinds.contains _

end LikeFiles

/-- From a settled store, a batch goes through stores that are like it. -/
theorem rewrites_fileStep (hSame : SameIcons settings icons first last) :
    Rewrites (FileStep settings framework mode) mode
      (fun icon => (componentOf settings framework first icon).toOption)
      (fun name => last.contains (componentPath settings framework name))
      (LikeFiles settings framework last) icons where
  skipped hLike _ hSkip := .skipped (by rw [hLike.contains_eq, hSkip])
  failed := by
    intro pending store icon hLike hIcon hSkip hMade
    rw [← hSame.componentOf hIcon, ← hLike.componentOf_eq] at hMade
    rw [← hLike.contains_eq] at hSkip
    cases hComponent : componentOf settings framework store icon with
    | error e => exact ⟨_, .failed hSkip hComponent, rfl⟩
    | ok component =>
        rw [hComponent] at hMade
        cases hMade
  replaced := by
    intro pending store icon component hLike hIcon hSkip hThere hMade
    rw [← hSame.componentOf hIcon, ← hLike.componentOf_eq] at hMade
    rw [← hLike.contains_eq] at hSkip hThere
    obtain ⟨store', hWrites, hLikeAfter⟩ := hLike.exists_writes (slash_not_mem_nameOf icon)
    have step := FileStep.written hSkip (eq_ok_of_toOption hMade) hWrites
    rw [if_pos hThere] at step
    exact ⟨store', step, hLikeAfter⟩

/-- The store that steps lead to is one that they lead back to. -/
theorem exists_fileSteps_again (hSame : SameIcons settings icons first last)
    (steps : Steps (FileStep settings framework mode) first icons last outcomes) :
    ∃ store again, Steps (FileStep settings framework mode) last icons store again ∧ last.Same store ∧
      ∀ outcome ∈ again, outcome.Repeated mode := by
  obtain ⟨-, tracked⟩ := steps.between ChangesComponents.refl ChangesComponents.trans FileStep.changesComponents
  have settled := (tracks_fileStep hSame).settled tracked
  have hLike : LikeFiles settings framework last
      (lastWrite mode (fun name => last.contains (componentPath settings framework name))
        (fun icon => (componentOf settings framework first icon).toOption) icons) last :=
    ⟨⟨rfl, fun _ => rfl⟩, fun name component hLast => eq_ok_of_toOption (settled.current name component hLast),
      fun _ => .inl rfl⟩
  obtain ⟨store, again, hAgain, hEnd, hTold⟩ :=
    (rewrites_fileStep hSame).exists_steps settled.complete (fun _ => id) hLike
  refine ⟨store, again, hAgain, ⟨hEnd.kinds.base, fun here => (hEnd.node here).resolve_right ?_⟩, hTold⟩
  rintro ⟨name, component, hPending, -⟩
  cases hPending

/-- A run over component files comes back to the store that it left. -/
theorem exists_gives_again_standalone (editor : Registry.Editor) (hStandalone : settings.placement = .standalone)
    (hFramework : Framework.Catalogue.builtin.get settings.framework = .ok framework)
    (rooted : w.store.Rooted)
    (hDirectory : ∀ home, w'.store.locate settings.iconsDirectory = .ok home →
      w.store.locate settings.iconsDirectory = .ok home)
    (h : (add editor settings icons mode).Gives w outcomes w') :
    ∃ again v, (add editor settings icons mode).Gives w' again v ∧ w'.store.Same v.store ∧
      ∀ outcome ∈ again, outcome.Repeated mode := by
  have steps := steps_of_gives_standalone hStandalone hFramework h
  obtain ⟨hChanges, -⟩ := steps.between ChangesComponents.refl ChangesComponents.trans FileStep.changesComponents
  obtain ⟨store, again, hAgain, hBack, hTold⟩ :=
    exists_fileSteps_again (sameIcons_of_rooted rooted hDirectory hChanges) steps
  obtain ⟨v, hGives, rfl⟩ := exists_gives_add_standalone editor hStandalone hFramework hAgain
  exact ⟨again, v, hGives, hBack, hTold⟩

end

end Command

end IconRegistry
