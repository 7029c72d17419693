import IconRegistry.Proofs.Command.Listing
import IconRegistry.Proofs.Command.Removing
import IconRegistry.Proofs.Registry.ModuleTaking
import IconRegistry.Proofs.Registry.Withdrawal

/-! Removing what a listing reports. A listing tells names as they stand in the registry, while a removal takes the name
of an icon and makes the name of a component from it. So a listed name can be removed by that name only if it is the
name of a component already. -/
namespace IconRegistry.Command

open Config Component Registry

/-- A store with a registry that is in order: a registry file with different entries and no comments around them, or
a directory of files. -/
inductive Orderly (editor : Editor) (grammar : Grammar) (settings : Settings) (store : Store) : Prop
  | entries {text : Text} {names : List Text} (placement : settings.placement = .inline)
      (file : store.readText settings.registryPath = .ok text) (entered : editor.Enters grammar text names)
      (distinct : names.Nodup)
  | files (placement : settings.placement = .standalone) (proper : store.Proper)
      (directory : ∀ node, store.find? settings.registryPath = some node → node = .directory)

section

variable {editor : Editor} {grammar : Grammar} {settings : Settings} {framework : Framework} {w w' v : Workspace}
  {icons names : List Text} {icon name text changed : Text} {files : Store} {outcomes : List Outcome}
  {home : Location}

/-! ### Runs that remove -/

/-- A removal succeeds if the editor can remove the entries. -/
theorem exists_gives_remove_inline (hInline : settings.placement = .inline)
    (hRead : w.store.readText settings.registryPath = .ok text)
    (hRemove : editor.removeMany text (mentioned icons) = .ok changed) :
    ∃ v, (remove editor settings icons).Gives w ((distinctIcons [] icons).map .removed) v ∧
      v.store.readText settings.registryPath = .ok changed := by
  obtain ⟨noted, hNoted, hStore⟩ := gives_debug (editor.notes text fun _ => []) w
  have hAgain : noted.store.readText settings.registryPath = .ok text := hStore ▸ hRead
  obtain ⟨here, -, -, hWrite⟩ := gives_writeFile_of_readText hAgain changed
  refine ⟨_, ?_, readText_of_gives_writeFile hWrite⟩
  have hEntries : (removeInline editor settings (mentioned icons)).Gives w () _ :=
    gives_bind.mpr ⟨text, w, gives_readRegistry.mpr ⟨hRead, rfl⟩, gives_bind.mpr ⟨(), noted, hNoted,
      gives_bind.mpr ⟨changed, noted, gives_ofRegistry.mpr ⟨hRemove, rfl⟩, hWrite⟩⟩⟩
  rw [remove, map_nameOf_distinctIcons, hInline]
  exact gives_bind.mpr ⟨(), _, hEntries, gives_pure.mpr ⟨rfl, rfl⟩⟩

/-- What a removal leaves in the registry file is what the editor leaves. -/
theorem removeMany_of_gives_remove (hInline : settings.placement = .inline)
    (h : (remove editor settings icons).Gives w outcomes v) :
    ∃ text changed, w.store.readText settings.registryPath = .ok text ∧
      editor.removeMany text (mentioned icons) = .ok changed ∧
      v.store.readText settings.registryPath = .ok changed := by
  rw [remove, map_nameOf_distinctIcons, hInline] at h
  obtain ⟨done, between, hEntries, hOutcomes⟩ := gives_bind.mp h
  obtain ⟨-, rfl⟩ := gives_pure.mp hOutcomes
  obtain ⟨text, first, hRegistry, hRest⟩ := gives_bind.mp hEntries
  obtain ⟨hRead, rfl⟩ := gives_readRegistry.mp hRegistry
  obtain ⟨noted, second, -, hEdit⟩ := gives_bind.mp hRest
  obtain ⟨changed, third, hRemove, hWrite⟩ := gives_bind.mp hEdit
  exact ⟨text, changed, hRead, (gives_ofRegistry.mp hRemove).1, readText_of_gives_writeFile hWrite⟩

/-- A removal succeeds if the file of the component can be removed. -/
theorem gives_remove_file (hStandalone : settings.placement = .standalone)
    (hFramework : Framework.Catalogue.builtin.get settings.framework = .ok framework)
    (hRemove : w.store.removeFile (componentPath settings framework (nameOf icon)) = .ok files) :
    (remove editor settings [icon]).Gives w [.removed icon] { w with store := files } := by
  obtain ⟨here, node, hLocate, hNode, -, -⟩ := Store.removeFile_eq_ok.mp hRemove
  have hThere := Store.contains_iff.mpr ⟨here, node, hLocate, hNode⟩
  have hFound : [nameOf icon].filter (fun name => !w.store.contains (componentPath settings framework name)) = [] := by
    simp [hThere]
  have hRun := run_removeFiles hFramework hFound
  have hEach :
      ([componentPath settings framework (nameOf icon)].forM removeFile).Gives w () { w with store := files } :=
    gives_removeEach_cons.mpr ⟨files, hRemove, gives_pure.mpr ⟨rfl, rfl⟩⟩
  rw [remove, map_nameOf_distinctIcons, hStandalone]
  exact gives_bind.mpr ⟨(), _, hRun.trans hEach, gives_pure.mpr ⟨rfl, rfl⟩⟩

/-- What a removal leaves is the store without that file. -/
theorem removeFile_of_gives_remove (hStandalone : settings.placement = .standalone)
    (hFramework : Framework.Catalogue.builtin.get settings.framework = .ok framework)
    (h : (remove editor settings [icon]).Gives w outcomes v) :
    w.store.removeFile (componentPath settings framework (nameOf icon)) = .ok v.store := by
  obtain ⟨known, hKnown, hEach⟩ := gives_removeFiles ((gives_remove h).2 hStandalone)
  obtain rfl : framework = known := Except.ok.inj (hFramework.symm.trans hKnown)
  obtain ⟨files, hRemove, hNone⟩ := gives_removeEach_cons.mp hEach
  obtain ⟨-, rfl⟩ := gives_pure.mp hNone
  exact hRemove

/-! ### What a removal leaves to list -/

/-- A registry lists different names; a removal takes away the name of the icon's component, and it succeeds if that
name is listed and its file, if it has one of its own, can be reached. -/
structure ListsAs (editor : Editor) (settings : Settings) (w : Workspace) (names : List Text) : Prop where
  nodup : names.Nodup
  after : ∀ {icon outcomes v}, (remove editor settings [icon]).Gives w outcomes v →
    ∃ v', (list editor settings false).Gives v (names.erase (nameOf icon)) v'
  removed : ∀ {icon}, nameOf icon ∈ names →
    ((∃ v, (remove editor settings [icon]).Gives w [.removed icon] v) ↔
      (settings.placement = .standalone → ∀ framework,
        Framework.Catalogue.builtin.get settings.framework = .ok framework →
        Text.byteLength (componentPath settings framework (nameOf icon)) ≤ Store.longestPath))

/-- A registry file with different entries lists them as removals take them away. -/
theorem listsAs_entries (hInline : settings.placement = .inline)
    (hRead : w.store.readText settings.registryPath = .ok text) (hEntered : editor.Enters grammar text names)
    (hNodup : names.Nodup) : ListsAs editor settings w names where
  nodup := hNodup
  after {icon outcomes v} h := by
    obtain ⟨text', changed, hRead', hRemove, hChanged⟩ := removeMany_of_gives_remove hInline h
    obtain rfl : text = text' := Except.ok.inj (hRead.symm.trans hRead')
    by_cases hName : nameOf icon ∈ names
    · obtain ⟨less, view, hLess, hView, -, hNames⟩ := hEntered.removeMany hName
      obtain rfl : less = changed := Except.ok.inj (hLess.symm.trans hRemove)
      obtain ⟨v', hList, -⟩ := exists_gives_list_inline hInline hChanged hView
      exact ⟨v', hNames ▸ hList⟩
    · cases (hEntered.removeMany_missing hName).symm.trans hRemove
  removed {icon} hName := by
    obtain ⟨less, view, hLess, -⟩ := hEntered.removeMany hName
    have hMentioned : editor.removeMany text (mentioned [icon]) = .ok less := hLess
    obtain ⟨v, hGives, -⟩ := exists_gives_remove_inline hInline hRead hMentioned
    exact iff_of_true ⟨v, hGives⟩ (by simp [hInline])

/-- What is removed is a file, and it goes without anything else. -/
theorem exists_erased_of_gives_remove (hStandalone : settings.placement = .standalone)
    (hFramework : Framework.Catalogue.builtin.get settings.framework = .ok framework)
    (h : (remove editor settings [icon]).Gives w outcomes v) :
    ∃ here, w.store.locate (componentPath settings framework (nameOf icon)) = .ok here ∧
      w.store.node? here ≠ some .directory ∧ v.store = w.store.erase here := by
  obtain ⟨here, node, hLocate, hNode, hFile, hErase⟩ :=
    Store.removeFile_eq_ok.mp (removeFile_of_gives_remove hStandalone hFramework h)
  exact ⟨here, hLocate, by rwa [hNode, ne_eq, Option.some.injEq], hErase⟩

/-- A directory of files lists its components so. -/
theorem listsAs_directory (hStandalone : settings.placement = .standalone)
    (hFramework : Framework.Catalogue.builtin.get settings.framework = .ok framework) (proper : w.store.Proper)
    (hLocated : w.store.locate settings.registryPath = .ok home) (hHome : w.store.node? home = some .directory) :
    ListsAs editor settings w (ComponentFile.componentsIn w.store settings.registryPath
      (framework.extension settings.typescript)) where
  nodup := ComponentFile.nodup_componentsIn proper (isExtension_extension framework settings.typescript) hLocated hHome
  after {icon outcomes v} h := by
    have hExtension := isExtension_extension framework settings.typescript
    obtain ⟨here, hLocate, hFile, hStore⟩ := exists_erased_of_gives_remove hStandalone hFramework h
    obtain rfl := ComponentFile.eq_of_locate_pathOf hExtension hLocated (slash_not_mem_nameOf icon) hLocate
    refine ⟨v, (gives_list_standalone hStandalone).mpr ⟨framework, hFramework, ?_, rfl⟩⟩
    rw [hStore, ComponentFile.componentsIn_erase proper hExtension hLocated hHome hFile]
  removed {icon} hName := by
    have hExtension := isExtension_extension framework settings.typescript
    have hShort := ComponentFile.locate_pathOf_iff proper hExtension hLocated hHome hName
    obtain ⟨-, hMember⟩ := (ComponentFile.mem_componentsIn_iff proper hExtension hLocated hHome).mp hName
    obtain ⟨node, hNode, hFile⟩ := proper.mem_filesIn_iff.mp hMember
    constructor
    · rintro ⟨v, h⟩ - known hKnown
      obtain rfl : framework = known := Except.ok.inj (hFramework.symm.trans hKnown)
      obtain ⟨here, hLocate, -⟩ := exists_erased_of_gives_remove hStandalone hFramework h
      obtain ⟨-, -, hLength, -⟩ := Store.locate_eq_ok.mp hLocate
      exact hLength
    · intro h
      have hLocate := hShort.mpr (h hStandalone framework hFramework)
      exact ⟨_, gives_remove_file hStandalone hFramework
        (Store.removeFile_eq_ok.mpr ⟨_, node, hLocate, hNode, hFile, rfl⟩)⟩

/-- Where there is no directory, nothing is listed, whatever is removed elsewhere. -/
theorem listsAs_nothing (hStandalone : settings.placement = .standalone)
    (hFramework : Framework.Catalogue.builtin.get settings.framework = .ok framework)
    (hNothing : ∀ home, w.store.locate settings.registryPath = .ok home → w.store.node? home = none) :
    ListsAs editor settings w [] where
  nodup := List.nodup_nil
  after {icon outcomes v} h := by
    obtain ⟨here, -, hFile, hStore⟩ := exists_erased_of_gives_remove hStandalone hFramework h
    have hStill : ∀ home, v.store.locate settings.registryPath = .ok home → v.store.node? home = none := by
      intro home hLocated
      rw [hStore] at hLocated ⊢
      have hBefore := hNothing home ((Store.sameDirectories_erase hFile).locate_iff.mp hLocated)
      by_cases hSame : home = here
      · rw [hSame]
        exact Store.node?_erase_same fun hRoot => hFile (hRoot ▸ Store.node?_root _)
      · rw [Store.node?_erase_of_ne _ hSame, hBefore]
    exact ⟨v, (gives_list_standalone hStandalone).mpr ⟨framework, hFramework,
      (ComponentFile.componentsIn_eq_nil hStill).symm, rfl⟩⟩
  removed := by simp

theorem Orderly.listsAs (orderly : Orderly editor grammar settings w.store)
    (hList : (list editor settings false).Gives w names w') : ListsAs editor settings w' names := by
  cases orderly with
  | entries hInline hRead hEntered hNodup =>
      obtain ⟨text, view, hRead', hView, rfl, hStore⟩ := exists_view_of_gives_list hInline hList
      cases hRead.symm.trans hRead'
      obtain ⟨view', hView', -, rfl⟩ := hEntered.view
      obtain rfl : view = view' := Except.ok.inj (hView.symm.trans hView')
      exact listsAs_entries hInline (hStore ▸ hRead) hEntered hNodup
  | files hStandalone hProper hDirectory =>
      obtain ⟨framework, hFramework, rfl, rfl⟩ := (gives_list_standalone hStandalone).mp hList
      by_cases hHome : ∃ home, w'.store.locate settings.registryPath = .ok home ∧
          w'.store.node? home = some .directory
      · obtain ⟨home, hLocated, hHome⟩ := hHome
        exact listsAs_directory hStandalone hFramework hProper hLocated hHome
      · have hNothing : ∀ home, w'.store.locate settings.registryPath = .ok home → w'.store.node? home = none := by
          intro home hLocated
          rw [Option.eq_none_iff_forall_ne_some]
          intro node hNode
          obtain rfl := hDirectory node (by simp [Store.find?, hLocated, Except.toOption, hNode])
          exact hHome ⟨home, hLocated, hNode⟩
        rw [ComponentFile.componentsIn_eq_nil hNothing]
        exact listsAs_nothing hStandalone hFramework hNothing

/-- A registry in order lists different names. A listed name can be removed by that name, with just the others listed
afterwards, exactly if it is the name of its own component, and a file is not refused for the length of its path. -/
theorem removes_listed_iff (orderly : Orderly editor grammar settings w.store)
    (hList : (list editor settings false).Gives w names w') :
    names.Nodup ∧ ∀ name ∈ names,
      ((∃ v v', (remove editor settings [name]).Gives w' [.removed name] v ∧
          (list editor settings false).Gives v (names.erase name) v') ↔
        nameOf name = name ∧ (settings.placement = .standalone → ∀ framework,
          Framework.Catalogue.builtin.get settings.framework = .ok framework →
          Text.byteLength (componentPath settings framework name) ≤ Store.longestPath)) := by
  have lists := orderly.listsAs hList
  refine ⟨lists.nodup, fun name hName => ⟨?_, ?_⟩⟩
  · rintro ⟨v, v', hRemove, hLeft⟩
    obtain ⟨other, hOther⟩ := lists.after hRemove
    obtain ⟨hSame, -⟩ := hLeft.unique hOther
    -- the name itself is gone, so it is the one that was taken away
    have hGone : name ∉ names.erase (nameOf name) := hSame ▸ lists.nodup.not_mem_erase
    have hOwn : nameOf name = name := by
      by_contra hDifferent
      exact hGone ((List.mem_erase_of_ne (Ne.symm hDifferent)).mpr hName)
    have hFits := (lists.removed (hOwn.symm ▸ hName)).mp ⟨v, hRemove⟩
    rw [hOwn] at hFits
    exact ⟨hOwn, hFits⟩
  · rintro ⟨hOwn, hFits⟩
    rw [← hOwn] at hName hFits
    obtain ⟨v, hRemove⟩ := (lists.removed hName).mpr hFits
    obtain ⟨v', hLeft⟩ := lists.after hRemove
    rw [hOwn] at hLeft
    exact ⟨v, v', hRemove, hLeft⟩

end

/-- A letter that is listed and its own component. -/
theorem remove_listed_letter :
    let settings : Settings := {}
    let w : Workspace := ⟨⟨[], [(["src".toList], .directory), (["src".toList, "icons.tsx".toList],
      .file "export const Icons = \x7b A: h, B: h \x7d;\n".toList)]⟩, []⟩
    ∃ w', Orderly settings.editor .members settings w.store ∧
      (list settings.editor settings false).Gives w ["A".toList, "B".toList] w' ∧
      ∃ v v', (remove settings.editor settings ["A".toList]).Gives w' [.removed "A".toList] v ∧
        (list settings.editor settings false).Gives v ["B".toList] v' := by
  intro settings w
  let layout : Layout := ⟨[' '], [⟨some "A".toList, "A: h".toList, [], some [' ']⟩,
    ⟨some "B".toList, "B: h".toList, [' '], none⟩]⟩
  have hLayout : layout.WellFormed .members := Layout.HasWords.wellFormed (by decide)
  have hPlain : layout.Plain := ⟨by decide, by decide, by simp [layout]⟩
  have hText : "export const Icons = \x7b A: h, B: h \x7d;\n".toList =
      layout.between (frontOf [] [] "Icons".toList) (backOf false ['\n']) := by decide
  have takes : settings.editor.Takes .members (frontOf [] [] "Icons".toList) (backOf false ['\n']) [] := by
    rw [settings.editor_eq_ofDialect (by decide)]
    exact isModule_icons.takes false
  have orderly : Orderly settings.editor .members settings w.store :=
    .entries rfl rfl ⟨_, layout, _, _, hText, takes, hLayout, hPlain, rfl⟩ (by decide)
  have hList : (list settings.editor settings false).Gives w ["A".toList, "B".toList]
      ((list settings.editor settings false).run.run w).2 := gives_of_result (by decide +kernel)
  obtain ⟨-, hNames⟩ := removes_listed_iff orderly hList
  exact ⟨_, orderly, hList, (hNames "A".toList (by decide)).mpr ⟨by decide, fun h => by cases h⟩⟩

/-- An entry whose name begins with a small letter is listed, and cannot be removed by that name. -/
theorem remove_misses_listed :
    let settings : Settings := {}
    let w : Workspace := ⟨⟨[], [(["src".toList], .directory), (["src".toList, "icons.tsx".toList],
      .file "export const Icons = \x7b\n  home: 1,\n\x7d;\n".toList)]⟩, []⟩
    ∃ w', (list settings.editor settings false).Gives w ["home".toList] w' ∧
      (remove settings.editor settings ["home".toList]).Fails w' (.registry (.missingEntries ["Home".toList]))
        ((remove settings.editor settings ["home".toList]).run.run w').2 := by
  intro settings w
  exact ⟨_, gives_of_result (by decide +kernel), fails_of_result (by decide +kernel)⟩

end IconRegistry.Command
