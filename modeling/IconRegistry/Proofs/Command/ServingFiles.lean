import IconRegistry.Proofs.Command.Answering

/-! Requests served by files of their own. A directory holds the files of the registered names, one for each, and
nothing else is in the place of a component that may be asked for. -/
namespace IconRegistry

open Component Registry Config

namespace Command

section

variable {directory name extension text : Text} {store store' : Store} {home : Location}

/-- Into a directory that is there, a file is written without anything else. -/
theorem Writes.eq_put (hExtension : ComponentFile.IsExtension extension) (hName : '/' ∉ name)
    (hLocated : store.locate directory = .ok home) (hHome : store.node? home = some .directory)
    (h : Writes (ComponentFile.pathOf directory name extension) text store store') :
    store.locate (ComponentFile.pathOf directory name extension) = .ok (home ++ [name ++ '.' :: extension]) ∧
      store.node? (home ++ [name ++ '.' :: extension]) ≠ some .directory ∧
      store' = store.put (home ++ [name ++ '.' :: extension]) (.file text) := by
  have entry : Path.EntryIn (ComponentFile.pathOf directory name extension) (ComponentFile.piecesTo directory)
      (name ++ '.' :: extension) := ComponentFile.entryIn_pathOf hExtension hName
  obtain ⟨made, hAdds, hWrite⟩ := exists_addsDirectories_of_gives_writeFile (h [])
  have hExtends := hAdds.toExtends
  obtain ⟨here, hMade, hFile, -⟩ := (Store.writeText_eq_ok entry.getLast?_ne).mp hWrite
  -- the directories that were made do not lead the path elsewhere
  have hFollow : store.follow (ComponentFile.piecesTo directory)
      (store.start (ComponentFile.pathOf directory name extension)) = .ok home := by
    rw [ComponentFile.start_pathOf hName]
    exact ComponentFile.follow_piecesTo hLocated
  have hStart : made.start (ComponentFile.pathOf directory name extension) =
      store.start (ComponentFile.pathOf directory name extension) := by
    rw [Store.start, Store.start, hExtends.base]
  obtain ⟨home', hHome', -, hStep⟩ := Store.exists_home entry hMade
  rw [hStart] at hHome'
  obtain rfl : home = home' := Except.ok.inj ((hExtends.follow hFollow).symm.trans hHome')
  obtain ⟨hNul, hNonempty, hLength, -⟩ := Store.locate_eq_ok.mp hMade
  have hLocate : store.locate (ComponentFile.pathOf directory name extension) = .ok here := by
    refine Store.locate_eq_ok.mpr ⟨hNul, hNonempty, hLength, ?_⟩
    rw [entry.split, Store.follow_append_eq_ok]
    exact ⟨home, hFollow, Store.follow_cons_eq_ok.mpr ⟨hHome, here, hStep, rfl⟩⟩
  have hNode : store.node? here ≠ some .directory := fun hDirectory => hFile (hExtends.node _ _ hDirectory)
  obtain rfl := ComponentFile.eq_of_locate_pathOf hExtension hLocated hName hLocate
  refine ⟨hLocate, hNode, ?_⟩
  obtain ⟨-, hSame⟩ := (h []).unique (gives_writeFile entry hLocate hNode)
  exact congrArg Workspace.store hSame

end

/-- A store in which a directory holds the component files of certain names, all of them of icons that may be asked
for, and nothing is in the place of the others. -/
structure Filed (settings : Settings) (framework : Framework) (icons : List Text) (first : Store) (home : Location)
    (names : Names) (now : Store) : Prop where
  kept : Kept settings framework icons first now
  holds : ComponentFile.Holds now settings.registryPath (framework.extension settings.typescript) home names
  wanted : ∀ name, names name = true → name ∈ icons.map nameOf
  free : ∀ name ∈ icons.map nameOf, names name = false → now.contains (componentPath settings framework name) = false

section

variable {editor : Editor} {settings : Settings} {framework : Framework} {mode : AddMode} {first store store' : Store}
  {icons batch : List Text} {home : Location} {names : Names} {name icon text : Text} {w w' : Workspace}
  {made : Text → Except IconError Text} {outcome : Outcome} {outcomes : List Outcome} {e : CommandError}

theorem componentPath_mem_outputs (hStandalone : settings.placement = .standalone) (h : name ∈ icons.map nameOf) :
    componentPath settings framework name ∈ outputs settings framework icons := by
  obtain ⟨icon, hIcon, rfl⟩ := List.mem_map.mp h
  simp only [outputs, hStandalone]
  exact List.mem_map_of_mem hIcon

/-- A component file is there exactly if its name is registered. -/
theorem Filed.contains (h : Filed settings framework icons first home names store) (hName : name ∈ icons.map nameOf) :
    store.contains (componentPath settings framework name) = names name := by
  cases hRegistered : names name with
  | true => exact h.holds.contains hRegistered
  | false => exact h.free name hName hRegistered

/-- Names of components have no slash. -/
theorem slash_not_mem_of_mem (h : name ∈ icons.map nameOf) : '/' ∉ name := by
  obtain ⟨icon, -, rfl⟩ := List.mem_map.mp h
  exact slash_not_mem_nameOf icon

/-- Where the file of one name is put or erased, nothing else changes. -/
theorem Filed.change (h : Filed settings framework icons first home names store) {now : Store} {registered : Bool}
    (hName : name ∈ icons.map nameOf) (hSame : store.SameDirectories now)
    (hNode : ∀ there, there ≠ home ++ [name ++ '.' :: framework.extension settings.typescript] →
      now.node? there = store.node? there)
    (hGone : registered = false →
      now.node? (home ++ [name ++ '.' :: framework.extension settings.typescript]) = none)
    (kept : Kept settings framework icons first now)
    (holds : ComponentFile.Holds now settings.registryPath (framework.extension settings.typescript) home
      (names.set name registered)) :
    Filed settings framework icons first home (names.set name registered) now := by
  refine ⟨kept, holds, fun other hOther => ?_, fun other hOther hFree => ?_⟩
  · rcases Names.of_set hOther with ⟨rfl, -⟩ | ⟨-, hBefore⟩
    · exact hName
    · exact h.wanted other hBefore
  · rw [← Bool.not_eq_true]
    intro hContains
    obtain ⟨here, node, hLocate, hFound⟩ := Store.contains_iff.mp hContains
    have hBefore := hSame.locate_iff.mp hLocate
    obtain rfl := ComponentFile.eq_of_locate_pathOf (isExtension_extension framework settings.typescript)
      h.holds.located (slash_not_mem_of_mem hOther) hBefore
    by_cases hEq : other = name
    · subst hEq
      rw [Names.set_same] at hFree
      simp [hGone hFree] at hFound
    · rw [Names.set_of_ne names hEq] at hFree
      rw [hNode _ (by simpa using hEq)] at hFound
      exact absurd (Store.contains_iff.mpr ⟨_, node, hBefore, hFound⟩) (by simp [h.free other hOther hFree])

/-- A component that is written registers its name. -/
theorem Filed.write (h : Filed settings framework icons first home names store)
    (hStandalone : settings.placement = .standalone) (hName : name ∈ icons.map nameOf) (hNonempty : name ≠ [])
    (hWrites : Writes (componentPath settings framework name) text store store') :
    Filed settings framework icons first home (names.set name true) store' := by
  have hExtension := isExtension_extension framework settings.typescript
  have hSlash := slash_not_mem_of_mem hName
  obtain ⟨hLocate, hNode, rfl⟩ := hWrites.eq_put hExtension hSlash h.holds.located h.holds.isDirectory
  exact h.change hName (Store.sameDirectories_put hNode text) (fun there hThere => Store.node?_put_of_ne _ hThere _)
    (by simp) (h.kept.put (componentPath_mem_outputs hStandalone hName) hLocate hNode text)
    (h.holds.put hExtension hSlash hNonempty hLocate hNode text)

/-- The file of a registered name can be removed. -/
theorem Filed.removeFile (h : Filed settings framework icons first home names w.store)
    (hStandalone : settings.placement = .standalone) (hName : names name = true) :
    ∃ w', (Command.removeFile (componentPath settings framework name)).Gives w () w' ∧
      Filed settings framework icons first home (names.set name false) w'.store := by
  have hWanted := h.wanted name hName
  obtain ⟨hLocate, node, hFound, hFile⟩ := h.holds.present name hName
  have hNode := h.holds.not_directory hName
  exact ⟨_, gives_removeFile.mpr ⟨_, Store.removeFile_eq_ok.mpr ⟨_, node, hLocate, hFound, hFile, rfl⟩, rfl⟩,
    h.change hWanted (Store.sameDirectories_erase hNode) (fun there hThere => Store.node?_erase_of_ne _ hThere)
      (fun _ => Store.node?_erase_same (by simp)) (h.kept.erase (componentPath_mem_outputs hStandalone hWanted) hLocate
      hNode) (h.holds.erase hName)⟩

/-- So can the files of any number of different names. -/
theorem Filed.removeEach (h : Filed settings framework icons first home names w.store)
    (hStandalone : settings.placement = .standalone) {removed : List Text} (hNodup : removed.Nodup)
    (hNames : ∀ name ∈ removed, names name = true) :
    ∃ w', ((removed.map (componentPath settings framework)).forM Command.removeFile).Gives w () w' ∧
      Filed settings framework icons first home (names.without removed) w'.store := by
  induction removed generalizing w names with
  | nil => exact ⟨w, gives_pure.mpr ⟨rfl, rfl⟩, by simpa using h⟩
  | cons name rest ih =>
      obtain ⟨hFirst, hOthers⟩ := List.forall_mem_cons.mp hNames
      obtain ⟨between, hRemove, hBetween⟩ := h.removeFile hStandalone hFirst
      obtain ⟨w', hGives, hFiled⟩ := ih hBetween (List.nodup_cons.mp hNodup).2 (Names.registered_behind hNodup hOthers)
      rw [List.map_cons, List.forM, Names.without_cons]
      exact ⟨w', gives_bind.mpr ⟨(), between, hRemove, hGives⟩, hFiled⟩

/-- A step registers the name of the component that it writes, and nothing else. -/
theorem Filed.step (h : Filed settings framework icons first home names store)
    (hStandalone : settings.placement = .standalone) (hIcon : icon ∈ icons) (hNonempty : nameOf icon ≠ [])
    (step : FileStep settings framework mode store icon store' outcome) :
    Filed settings framework icons first home (names.after outcome) store' := by
  cases step with
  | skipped | failed => exact h
  | written hSkip hMade hWrites =>
      have hWritten := h.write hStandalone (List.mem_map_of_mem hIcon) hNonempty hWrites
      split <;> exact hWritten

/-- The steps of a run tell what the names tell. -/
theorem Filed.steps (h : Filed settings framework icons first home names store)
    (hStandalone : settings.placement = .standalone) (hApart : IconsApart settings framework icons first)
    (hSame : ∀ icon ∈ icons, failure? (componentOf settings framework first icon) = failure? (made icon))
    (hNonempty : ∀ icon ∈ icons, nameOf icon ≠ []) (hBatch : ∀ icon ∈ batch, icon ∈ icons)
    (steps : Steps (FileStep settings framework mode) store batch store' outcomes) :
    outcomes = (tellAdded made mode names batch).1 ∧
      Filed settings framework icons first home (tellAdded made mode names batch).2 store' := by
  induction steps generalizing names with
  | nil => exact ⟨rfl, h⟩
  | @cons state between final icon rest outcome outcomes step others ih =>
      obtain ⟨hIcon, hRest⟩ := List.forall_mem_cons.mp hBatch
      have hOutcome : outcome = outcomeOf mode (names (nameOf icon)) icon (made icon) := by
        rw [step.outcome_eq, h.contains (List.mem_map_of_mem hIcon), h.kept.componentOf_eq hApart hIcon]
        exact outcomeOf_congr (hSame icon hIcon)
      have hBetween := h.step hStandalone hIcon (hNonempty icon hIcon) step
      rw [hOutcome] at hBetween
      obtain ⟨hOutcomes, hFinal⟩ := ih hBetween hRest
      exact ⟨by rw [tellAdded, hOutcome, hOutcomes], hFinal⟩

/-- Icons are added as the names tell, unless a file cannot be written. -/
theorem Filed.add (h : Filed settings framework icons first home names w.store)
    (hStandalone : settings.placement = .standalone)
    (hFramework : Framework.Catalogue.builtin.get settings.framework = .ok framework)
    (hApart : IconsApart settings framework icons first)
    (hSame : ∀ icon ∈ icons, failure? (componentOf settings framework first icon) = failure? (made icon))
    (hNonempty : ∀ icon ∈ icons, nameOf icon ≠ []) (hBatch : ∀ icon ∈ batch, icon ∈ icons) :
    (∃ w', (Command.add editor settings batch mode).Gives w (tellAdded made mode names batch).1 w' ∧
      Filed settings framework icons first home (tellAdded made mode names batch).2 w'.store) ∨
    ∃ e w', (Command.add editor settings batch mode).Fails w e w' ∧ e.isOfFile = true := by
  obtain ⟨noted, hStore, hRun⟩ := run_add_standalone editor mode hStandalone hFramework batch w
  rw [← hStore] at h
  rcases gives_or_fails (batch.mapM (addFile settings framework mode)) noted with
    ⟨outcomes, w', hGives⟩ | ⟨e, w', hFails⟩
  · obtain ⟨rfl, hFinal⟩ := h.steps hStandalone hApart hSame hNonempty hBatch (steps_of_gives_mapM hGives)
    exact .inl ⟨w', hRun.trans hGives, hFinal⟩
  · obtain ⟨front, icon, rest, done, between, -, -, hUnwritable⟩ := exists_unwritable_of_fails_mapM hFails
    obtain ⟨-, component, -, v, v', -, hWrite⟩ := hUnwritable
    obtain ⟨context, cause, rfl⟩ := fails_writeFile hWrite
    exact .inr ⟨_, w', hRun.trans hFails, rfl⟩

/-- Component files are removed together, or none of them. -/
theorem Filed.remove (h : Filed settings framework icons first home names w.store)
    (hStandalone : settings.placement = .standalone)
    (hFramework : Framework.Catalogue.builtin.get settings.framework = .ok framework)
    (hBatch : ∀ icon ∈ batch, icon ∈ icons) :
    ∃ w', (Command.remove editor settings batch).run.run w = ((tellRemoved names batch).1, w') ∧
      Filed settings framework icons first home (tellRemoved names batch).2 w'.store := by
  have hWanted : ∀ name ∈ mentioned batch, name ∈ icons.map nameOf := by
    intro name hName
    obtain ⟨icon, hIcon, rfl⟩ := List.mem_map.mp (List.mem_eraseDups.mp hName)
    exact List.mem_map_of_mem (hBatch icon hIcon)
  have hRun := run_removeFiles hFramework (List.filter_congr (l := mentioned batch) fun name hName =>
    congrArg (!·) (h.contains (hWanted name hName)))
  rw [Command.remove, map_nameOf_distinctIcons, hStandalone, tellRemoved]
  by_cases hNone : (mentioned batch).filter (fun name => !names name) = []
  · have hAll : ∀ name ∈ mentioned batch, names name = true := by simpa using hNone
    obtain ⟨w', hEach, hFiled⟩ := h.removeEach hStandalone (nodup_mentioned batch) hAll
    rw [if_pos hNone] at hRun
    simp only [hNone, List.isEmpty_nil, if_true]
    exact ⟨w', gives_bind.mpr ⟨(), w', hRun.trans hEach, gives_pure.mpr ⟨rfl, rfl⟩⟩, hFiled⟩
  · rw [if_neg hNone] at hRun
    simp only [List.isEmpty_iff, hNone, if_false]
    exact ⟨w, fails_bind.mpr (.inl hRun), h⟩

/-- The component files are those of the registered names. -/
theorem Filed.exists_paths (h : Filed settings framework icons first home names w.store) :
    ∃ registered : List Text,
      (componentPaths settings framework).Gives w (registered.map (componentPath settings framework)) w ∧
        registered.Nodup ∧ ∀ name, name ∈ registered ↔ names name = true := by
  obtain ⟨registered, hAll, hRegistered⟩ := h.holds.exists_all
  exact ⟨registered, gives_bind.mpr ⟨w.store, w, gives_store.mpr ⟨rfl, rfl⟩, gives_pure.mpr ⟨hAll, rfl⟩⟩, hRegistered⟩

theorem Filed.clear (h : Filed settings framework icons first home names w.store)
    (hStandalone : settings.placement = .standalone)
    (hFramework : Framework.Catalogue.builtin.get settings.framework = .ok framework) :
    ∃ w', (Command.clear settings true).Gives w () w' ∧
      Filed settings framework icons first home (fun _ => false) w'.store := by
  obtain ⟨registered, hPaths, hNodup, hNames⟩ := h.exists_paths
  obtain ⟨cleared, hGives, hFiled⟩ := h.removeEach hStandalone hNodup fun name hName => (hNames name).mp hName
  have hNone : names.without registered = fun _ => false := by
    funext name
    cases hName : names name with
    | false => simp [Names.without, hName]
    | true => simp [Names.without, hName, (hNames name).mpr hName]
  obtain ⟨w', hNoted, hStore⟩ := gives_note .info ("Removed ".toList ++ Text.ofNat (registered.map
    (componentPath settings framework)).length ++ " component file(s)".toList) cleared
  rw [hNone, ← hStore] at hFiled
  refine ⟨w', ?_, hFiled⟩
  rw [Command.clear]
  simp only [Bool.not_true, Bool.false_eq_true, if_false]
  refine gives_bind.mpr ⟨framework, w, gives_framework.mpr ⟨hFramework, rfl⟩, ?_⟩
  simp only [hStandalone]
  exact gives_bind.mpr ⟨_, w, hPaths, gives_bind.mpr ⟨(), cleared, hGives, hNoted⟩⟩

theorem Filed.list (h : Filed settings framework icons first home names w.store)
    (hStandalone : settings.placement = .standalone)
    (hFramework : Framework.Catalogue.builtin.get settings.framework = .ok framework) :
    ∃ listed w', (Command.list editor settings false).Gives w listed w' ∧ w'.store = w.store ∧ listed.Nodup ∧
      ∀ name, name ∈ listed ↔ names name = true := by
  obtain ⟨registered, hPaths, hNodup, hNames⟩ := h.exists_paths
  refine ⟨registered, w, ?_, rfl, hNodup, hNames⟩
  have hStems : (registered.map (componentPath settings framework)).filterMap Path.stem? = registered := by
    have hStem : ∀ name ∈ registered, (Path.stem? ∘ componentPath settings framework) name = some name := by
      intro name hName
      obtain ⟨hNonempty, hSlash⟩ := h.holds.proper name ((hNames name).mp hName)
      exact ComponentFile.stem?_pathOf (isExtension_extension framework settings.typescript) hSlash hNonempty
    rw [List.filterMap_map, List.filterMap_congr hStem, List.filterMap_some]
  rw [Command.list]
  simp only [Bool.false_eq_true, if_false, hStandalone]
  exact gives_bind.mpr ⟨framework, w, gives_framework.mpr ⟨hFramework, rfl⟩,
    gives_bind.mpr ⟨_, w, hPaths, gives_pure.mpr ⟨hStems, rfl⟩⟩⟩

/-- Files of their own serve all requests about icons whose components have names, unless a file cannot be written. -/
theorem serves_files (hStandalone : settings.placement = .standalone)
    (hFramework : Framework.Catalogue.builtin.get settings.framework = .ok framework)
    (hApart : IconsApart settings framework icons first)
    (hSame : ∀ icon ∈ icons, failure? (componentOf settings framework first icon) = failure? (made icon))
    (hNonempty : ∀ icon ∈ icons, nameOf icon ≠ []) :
    Serves made editor settings icons (·.isOfFile = true) (Filed settings framework icons first home) where
  answered {names w request} h hIcons := by
    cases request with
    | add mode batch => exact h.add hStandalone hFramework hApart hSame hNonempty hIcons
    | remove batch => exact .inl (h.remove hStandalone hFramework hIcons)
    | clear =>
        obtain ⟨w', hGives, hAfter⟩ := h.clear hStandalone hFramework
        exact .inl ⟨w', gives_bind.mpr ⟨(), w', hGives, gives_pure.mpr ⟨rfl, rfl⟩⟩, hAfter⟩
  listed h := h.list hStandalone hFramework

end

end Command

end IconRegistry
