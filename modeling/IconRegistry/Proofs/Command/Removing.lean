import IconRegistry.Command.Remove
import IconRegistry.Proofs.Command.Failing

/-! Runs that remove icons: what they report, which files are gone, and when a run that fails has removed some. -/
namespace IconRegistry

open Config Component

namespace Store

/-- Every file of a store is still there, as it was. -/
def KeepsFiles (before after : Store) : Prop :=
  ∀ here node, before.node? here = some node → node ≠ .directory → after.node? here = some node

/-- What is at a location is gone, and all else is as it was. -/
structure Loses (here : Location) (before after : Store) : Prop where
  directories : before.SameDirectories after
  gone : after.node? here = none
  kept : ∀ there, there ≠ here → after.node? there = before.node? there

/-- The files that paths lead to are gone, and all else is as it was. -/
structure Removes (paths : List Text) (before after : Store) : Prop where
  base : after.base = before.base
  gone : ∀ path ∈ paths, ∃ here node, before.locate path = .ok here ∧ before.node? here = some node ∧
    node ≠ .directory ∧ after.node? here = none
  kept : ∀ here, (∀ path ∈ paths, before.locate path ≠ .ok here) → after.node? here = before.node? here

/-- Paths that lead to different places, if they lead anywhere. -/
def LeadApart (store : Store) (paths : List Text) : Prop :=
  paths.Pairwise fun path other => ∀ here, store.locate path = .ok here → store.locate other ≠ .ok here

variable {before between after : Store} {path : Text} {rest : List Text}

/-- Whether paths lead apart depends on the directories only. -/
theorem SameDirectories.leadApart_iff {paths : List Text} (h : before.SameDirectories after) :
    after.LeadApart paths ↔ before.LeadApart paths := by
  simp only [LeadApart, Ne, h.locate_iff]

theorem loses_erase {here : Location} (h : before.node? here ≠ some .directory) :
    Loses here before (before.erase here) := by
  have hRoot : here ≠ [] := by
    rintro rfl
    exact h (node?_root before)
  exact ⟨sameDirectories_erase h, node?_erase_same hRoot, fun there hThere => node?_erase_of_ne before hThere⟩

/-- A removal finds a file and loses just that. -/
theorem exists_of_removeFile (h : before.removeFile path = .ok after) :
    ∃ here node, before.locate path = .ok here ∧ before.node? here = some node ∧ node ≠ .directory ∧
      Loses here before after := by
  obtain ⟨here, node, hLocate, hNode, hFile, rfl⟩ := removeFile_eq_ok.mp h
  exact ⟨here, node, hLocate, hNode, hFile, loses_erase (by rw [hNode]; simpa using hFile)⟩

/-- Of what is there, all but a directory can be removed. -/
theorem exists_removeFile_iff (h : before.contains path = true) :
    (∃ after, before.removeFile path = .ok after) ↔ ¬before.hasDirectory path = true := by
  obtain ⟨here, node, hLocate, hNode⟩ := contains_iff.mp h
  rw [hasDirectory_iff]
  constructor
  · rintro ⟨after, hAfter⟩ ⟨here', hLocate', hNode'⟩
    obtain ⟨here'', found, hLocate'', hFound, hFile, -⟩ := removeFile_eq_ok.mp hAfter
    obtain rfl : here'' = here' := Except.ok.inj (hLocate''.symm.trans hLocate')
    exact hFile (Option.some.inj (hFound.symm.trans hNode'))
  · intro hNot
    refine ⟨_, removeFile_eq_ok.mpr ⟨here, node, hLocate, hNode, ?_, rfl⟩⟩
    rintro rfl
    exact hNot ⟨here, hLocate, hNode⟩

theorem KeepsFiles.refl (store : Store) : store.KeepsFiles store :=
  fun _ _ h _ => h

theorem Removes.nil (store : Store) : store.Removes [] store :=
  ⟨rfl, by simp, fun _ _ => rfl⟩

/-- A file is removed first, and then those that other paths lead to. -/
theorem Removes.cons (hFirst : before.removeFile path = .ok between) (hApart : before.LeadApart (path :: rest))
    (h : between.Removes rest after) : before.Removes (path :: rest) after := by
  obtain ⟨here, node, hLocate, hNode, hFile, lost⟩ := exists_of_removeFile hFirst
  have hOther : ∀ other ∈ rest, before.locate other ≠ .ok here :=
    fun other hMem => (List.pairwise_cons.mp hApart).1 other hMem here hLocate
  refine ⟨h.base.trans lost.directories.base, ?_, ?_⟩
  · intro other hMem
    rcases List.mem_cons.mp hMem with rfl | hMem
    · refine ⟨here, node, hLocate, hNode, hFile, ?_⟩
      rw [h.kept here fun other hMem => mt lost.directories.locate_iff.mp (hOther other hMem), lost.gone]
    · obtain ⟨there, found, hThere, hFound, hNot, hGone⟩ := h.gone other hMem
      rw [lost.directories.locate_iff] at hThere
      have hDifferent : there ≠ here := by
        rintro rfl
        exact hOther other hMem hThere
      rw [lost.kept there hDifferent] at hFound
      exact ⟨there, found, hThere, hFound, hNot, hGone⟩
  · intro there hNone
    have hDifferent : there ≠ here := by
      rintro rfl
      exact hNone path List.mem_cons_self hLocate
    rw [h.kept there fun other hMem => mt lost.directories.locate_iff.mp (hNone other (List.mem_cons_of_mem _ hMem)),
      lost.kept there hDifferent]

end Store

namespace Command

section

variable {w w' : Workspace} {e : CommandError} {path : Text} {paths rest : List Text}

/-- Files are removed one after the other. -/
theorem gives_removeEach_cons :
    ((path :: rest).forM removeFile).Gives w () w' ↔
      ∃ changed, w.store.removeFile path = .ok changed ∧
        (rest.forM removeFile).Gives { w with store := changed } () w' := by
  rw [List.forM, gives_bind]
  constructor
  · rintro ⟨done, between, hFirst, hRest⟩
    obtain ⟨changed, hChanged, rfl⟩ := gives_removeFile.mp hFirst
    exact ⟨changed, hChanged, hRest⟩
  · rintro ⟨changed, hChanged, hRest⟩
    exact ⟨(), _, gives_removeFile.mpr ⟨changed, hChanged, rfl⟩, hRest⟩

/-- A removal fails at one of the files, with those in front of it gone. -/
theorem fails_removeEach_cons (h : ((path :: rest).forM removeFile).Fails w e w') :
    ((∃ cause, w.store.removeFile path = .error cause) ∧ w' = w) ∨
      ∃ changed, w.store.removeFile path = .ok changed ∧
        (rest.forM removeFile).Fails { w with store := changed } e w' := by
  rw [List.forM] at h
  rcases fails_bind.mp h with h | ⟨done, between, hFirst, hRest⟩
  · obtain ⟨cause, hCause, -, rfl⟩ := fails_removeFile.mp h
    exact .inl ⟨⟨cause, hCause⟩, rfl⟩
  · obtain ⟨changed, hChanged, rfl⟩ := gives_removeFile.mp hFirst
    exact .inr ⟨changed, hChanged, hRest⟩

/-- A run that removes files and fails has brought nothing in. -/
theorem node?_of_fails_removeEach {here : Location} {node : Store.Node} (h : (paths.forM removeFile).Fails w e w')
    (hNode : w'.store.node? here = some node) : w.store.node? here = some node := by
  induction paths generalizing w with
  | nil => exact absurd h not_fails_pure
  | cons path rest ih =>
      rcases fails_removeEach_cons h with ⟨-, rfl⟩ | ⟨changed, hChanged, hRest⟩
      · exact hNode
      · obtain ⟨there, -, -, -, -, lost⟩ := Store.exists_of_removeFile hChanged
        have hBetween : changed.node? here = some node := ih hRest
        by_cases hHere : here = there
        · rw [hHere, lost.gone] at hBetween
          cases hBetween
        · rwa [lost.kept here hHere] at hBetween

/-- If their paths lead apart, exactly the files are removed. -/
theorem removes_of_gives (hApart : w.store.LeadApart paths) (h : (paths.forM removeFile).Gives w () w') :
    w.store.Removes paths w'.store := by
  induction paths generalizing w with
  | nil =>
      obtain ⟨-, rfl⟩ := gives_pure.mp h
      exact .nil w.store
  | cons path rest ih =>
      obtain ⟨changed, hChanged, hRest⟩ := gives_removeEach_cons.mp h
      obtain ⟨here, -, -, -, -, lost⟩ := Store.exists_of_removeFile hChanged
      exact .cons hChanged hApart (ih (lost.directories.leadApart_iff.mpr (List.pairwise_cons.mp hApart).2) hRest)

/-- Of paths that all lead to something, one that leads to a directory is why removing the files fails. -/
theorem exists_directory_of_fails (hApart : w.store.LeadApart paths)
    (hThere : ∀ path ∈ paths, w.store.contains path = true) (h : (paths.forM removeFile).Fails w e w') :
    ∃ path ∈ paths, w.store.hasDirectory path = true := by
  induction paths generalizing w with
  | nil => exact absurd h not_fails_pure
  | cons path rest ih =>
      obtain ⟨hFirst, hRest⟩ := List.forall_mem_cons.mp hThere
      rcases fails_removeEach_cons h with ⟨⟨cause, hCause⟩, -⟩ | ⟨changed, hChanged, hFails⟩
      · refine ⟨path, List.mem_cons_self, Classical.not_not.mp fun hNot => ?_⟩
        obtain ⟨after, hAfter⟩ := (Store.exists_removeFile_iff hFirst).mpr hNot
        cases hAfter.symm.trans hCause
      · obtain ⟨here, -, hLocate, -, -, lost⟩ := Store.exists_of_removeFile hChanged
        have hStill : ∀ other ∈ rest, changed.contains other = true := by
          intro other hMem
          obtain ⟨there, found, hLocateOther, hFound⟩ := Store.contains_iff.mp (hRest other hMem)
          have hDifferent : there ≠ here := by
            rintro rfl
            exact (List.pairwise_cons.mp hApart).1 other hMem there hLocate hLocateOther
          exact Store.contains_iff.mpr ⟨there, found, lost.directories.locate_iff.mpr hLocateOther,
            by rwa [lost.kept there hDifferent]⟩
        obtain ⟨other, hMem, hDirectory⟩ :=
          ih (lost.directories.leadApart_iff.mpr (List.pairwise_cons.mp hApart).2) hStill hFails
        exact ⟨other, List.mem_cons_of_mem _ hMem, lost.directories.hasDirectory_iff.mp hDirectory⟩

/-- A run that fails at the first path changes nothing. One that gets behind it has removed a file. -/
theorem keepsFiles_iff_of_fails (hThere : w.store.contains path = true)
    (h : ((path :: rest).forM removeFile).Fails w e w') :
    (w.store.KeepsFiles w'.store ↔ w.store.hasDirectory path = true) ∧
      (w.store.KeepsFiles w'.store → w'.store = w.store) := by
  have hRemovable := Store.exists_removeFile_iff hThere
  rcases fails_removeEach_cons h with ⟨⟨cause, hCause⟩, rfl⟩ | ⟨changed, hChanged, hRest⟩
  · refine ⟨iff_of_true (.refl w'.store) (Classical.not_not.mp fun hNot => ?_), fun _ => rfl⟩
    obtain ⟨after, hAfter⟩ := hRemovable.mpr hNot
    cases hAfter.symm.trans hCause
  · obtain ⟨here, node, -, hNode, hFile, lost⟩ := Store.exists_of_removeFile hChanged
    have hLost : ¬w.store.KeepsFiles w'.store := by
      intro hKeeps
      have hBetween : changed.node? here = some node :=
        node?_of_fails_removeEach hRest (hKeeps here node hNode hFile)
      rw [lost.gone] at hBetween
      cases hBetween
    exact ⟨iff_of_false hLost (hRemovable.mp ⟨changed, hChanged⟩), fun hKeeps => absurd hKeeps hLost⟩

end

/-- The components that icons name, each once, in the order in which they are first named. -/
def mentioned (icons : List Text) : List Text :=
  (icons.map nameOf).eraseDups

/-- The icon that names a component first. -/
def firstMention? (icons : List Text) (name : Text) : Option Text :=
  icons.find? fun icon => nameOf icon == name

theorem map_distinctIcons (seen icons : List Text) :
    (distinctIcons seen icons).map nameOf = ((icons.map nameOf).filter fun name => !seen.contains name).eraseDups := by
  induction icons generalizing seen with
  | nil => rfl
  | cons icon rest ih =>
      rw [distinctIcons, List.map_cons]
      cases hSeen : seen.contains (nameOf icon) with
      | true => simp only [if_true, ih, List.filter_cons, hSeen, Bool.not_true, Bool.false_eq_true, if_false]
      | false =>
          have hFilter : ((rest.map nameOf).filter fun name => !seen.contains name).filter
              (fun name => !name == nameOf icon) =
              (rest.map nameOf).filter fun name => !(nameOf icon :: seen).contains name := by
            rw [List.filter_filter]
            simp only [List.contains_cons, Bool.not_or]
          simp only [Bool.false_eq_true, if_false, List.map_cons, ih, List.filter_cons, hSeen, Bool.not_false, if_true,
            List.eraseDups_cons, hFilter]

/-- The icons that are reported make the names that are mentioned. -/
theorem map_nameOf_distinctIcons (icons : List Text) : (distinctIcons [] icons).map nameOf = mentioned icons := by
  rw [map_distinctIcons, mentioned]
  congr 1
  exact List.filter_eq_self.mpr fun _ _ => rfl

/-- An icon that is kept is the first one that names its component. -/
theorem firstMention?_of_mem {seen icons : List Text} {icon : Text} (h : icon ∈ distinctIcons seen icons) :
    seen.contains (nameOf icon) = false ∧ firstMention? icons (nameOf icon) = some icon := by
  induction icons generalizing seen with
  | nil => cases h
  | cons first rest ih =>
      rw [distinctIcons] at h
      split at h
      · rename_i hSeen
        obtain ⟨hNew, hFirst⟩ := ih h
        have hOther : ¬(nameOf first == nameOf icon) = true := by
          rw [beq_iff_eq]
          intro hSame
          rw [hSame, hNew] at hSeen
          cases hSeen
        exact ⟨hNew, by simpa [firstMention?, hOther] using hFirst⟩
      · rename_i hSeen
        rcases List.mem_cons.mp h with rfl | h
        · exact ⟨by simpa using hSeen, by simp [firstMention?]⟩
        · obtain ⟨hNew, hFirst⟩ := ih h
          rw [List.contains_cons, Bool.or_eq_false_iff] at hNew
          have hOther : ¬(nameOf first == nameOf icon) = true := by
            rw [beq_iff_eq]
            exact fun hSame => absurd hSame.symm (beq_eq_false_iff_ne.mp hNew.1)
          exact ⟨hNew.2, by simpa [firstMention?, hOther] using hFirst⟩

theorem nodup_distinctIcons (seen icons : List Text) : ((distinctIcons seen icons).map nameOf).Nodup := by
  induction icons generalizing seen with
  | nil => exact List.nodup_nil
  | cons icon rest ih =>
      rw [distinctIcons]
      split
      · exact ih seen
      · refine List.nodup_cons.mpr ⟨?_, ih _⟩
        intro hMem
        obtain ⟨other, hOther, hSame⟩ := List.mem_map.mp hMem
        have hNew := (firstMention?_of_mem hOther).1
        rw [hSame] at hNew
        simp at hNew

/-- No name is mentioned twice. -/
theorem nodup_mentioned (icons : List Text) : (mentioned icons).Nodup := by
  rw [← map_nameOf_distinctIcons]
  exact nodup_distinctIcons [] icons

section

variable {settings : Settings} {framework : Framework} {w w' : Workspace} {e : CommandError} {names : List Text}

/-- Files of different components are in different places. -/
theorem leadApart_mentioned (settings : Settings) (framework : Framework) (store : Store) (icons : List Text) :
    store.LeadApart ((mentioned icons).map (componentPath settings framework)) := by
  rw [Store.LeadApart, List.pairwise_map]
  refine (nodup_mentioned icons).imp_of_mem ?_
  intro name other hName hOther hDifferent here hLocate hLocateOther
  have hSlash : ∀ name ∈ mentioned icons, '/' ∉ name := by
    intro name hName
    obtain ⟨icon, -, rfl⟩ := List.mem_map.mp (List.mem_eraseDups.mp hName)
    exact slash_not_mem_nameOf icon
  exact hDifferent (ComponentFile.name_eq_of_locate (isExtension_extension framework settings.typescript)
    (hSlash name hName) (hSlash other hOther) hLocate hLocateOther)

/-- Component files are removed one after the other, if none is missing. -/
theorem run_removeFiles (hFramework : Framework.Catalogue.builtin.get settings.framework = .ok framework)
    {removed missing : List Text}
    (hMissing : removed.filter (fun name => !w.store.contains (componentPath settings framework name)) = missing) :
    (removeFiles settings removed).run.run w =
      if missing = [] then ((removed.map (componentPath settings framework)).forM Command.removeFile).run.run w
      else (.error (.registry (.missingEntries missing)), w) := by
  have hKnown : (Command.framework settings).Gives w framework w := gives_framework.mpr ⟨hFramework, rfl⟩
  have hStore : Command.store.Gives w w.store w := gives_store.mpr ⟨rfl, rfl⟩
  rw [Gives] at hKnown hStore
  rw [removeFiles, run_bind, hKnown]
  simp only
  rw [run_bind, hStore]
  simp only [hMissing]
  cases missing with
  | nil =>
      rw [List.forM_eq_forM, List.forM_map]
      rfl
  | cons name rest => exact fails_bind.mpr (.inl (fails_throw.mpr ⟨rfl, rfl⟩))

/-- Files are removed from the paths of their components. -/
theorem gives_removeFiles (h : (removeFiles settings names).Gives w () w') :
    ∃ framework, Framework.Catalogue.builtin.get settings.framework = .ok framework ∧
      ((names.map (componentPath settings framework)).forM removeFile).Gives w () w' := by
  rw [removeFiles] at h
  obtain ⟨framework, first, hFramework, hRest⟩ := gives_bind.mp h
  obtain ⟨hGet, rfl⟩ := gives_framework.mp hFramework
  obtain ⟨files, second, hStore, hRemove⟩ := gives_bind.mp hRest
  obtain ⟨rfl, rfl⟩ := gives_store.mp hStore
  dsimp only at hRemove
  split at hRemove
  · obtain ⟨done, between, hThrow, -⟩ := gives_bind.mp hRemove
    exact absurd hThrow not_gives_throw
  · exact ⟨framework, hGet, by rwa [List.forM_eq_forM, List.forM_map]⟩

/-- Removing component files fails before the first of them, where something is missing, or it fails in removing
them. -/
theorem fails_removeFiles (h : (removeFiles settings names).Fails w e w') :
    (w' = w ∧ ∀ framework, Framework.Catalogue.builtin.get settings.framework = .ok framework →
        ∃ name ∈ names, w.store.contains (componentPath settings framework name) = false) ∨
      ∃ framework, Framework.Catalogue.builtin.get settings.framework = .ok framework ∧
        (∀ name ∈ names, w.store.contains (componentPath settings framework name) = true) ∧
        ((names.map (componentPath settings framework)).forM removeFile).Fails w e w' := by
  rw [removeFiles] at h
  rcases fails_bind.mp h with hUnknown | ⟨framework, first, hFramework, hRest⟩
  · refine .inl ⟨fails_framework hUnknown, fun framework hGet => ?_⟩
    exact absurd hUnknown (gives_framework.mpr ⟨hGet, rfl⟩ : (Command.framework settings).Gives w framework w).not_fails
  · obtain ⟨hGet, rfl⟩ := gives_framework.mp hFramework
    rcases fails_bind.mp hRest with hNever | ⟨files, second, hStore, hRemove⟩
    · exact absurd hNever not_fails_store
    · obtain ⟨rfl, rfl⟩ := gives_store.mp hStore
      dsimp only at hRemove
      split at hRemove
      · rename_i hMissing
        rcases fails_bind.mp hRemove with hThrow | ⟨done, between, hThrow, -⟩
        · refine .inl ⟨(fails_throw.mp hThrow).2.symm, fun known hKnown => ?_⟩
          obtain rfl : framework = known := Except.ok.inj (hGet.symm.trans hKnown)
          simpa using hMissing
        · exact absurd hThrow not_gives_throw
      · rename_i hNone
        refine .inr ⟨framework, hGet, ?_, by rwa [List.forM_eq_forM, List.forM_map]⟩
        simpa using hNone

/-- Removing entries of the registry file writes it or changes nothing. -/
theorem fails_removeInline {editor : Registry.Editor} (h : (removeInline editor settings names).Fails w e w') :
    w'.store = w.store := by
  rw [removeInline] at h
  rcases fails_bind.mp h with hUnread | ⟨text, first, hRegistry, hRest⟩
  · rw [fails_readRegistry hUnread]
  · obtain ⟨hRead, rfl⟩ := gives_readRegistry.mp hRegistry
    rcases fails_bind.mp hRest with hNever | ⟨done, second, hDebug, hEdit⟩
    · exact absurd hNever not_fails_debug
    · have hStore := store_of_gives_debug hDebug
      rcases fails_bind.mp hEdit with hRefused | ⟨changed, third, hRemove, hWrite⟩
      · rw [← (fails_ofRegistry.mp hRefused).2, hStore]
      · obtain ⟨-, rfl⟩ := gives_ofRegistry.mp hRemove
        rw [← hStore] at hRead
        obtain ⟨here, -, -, hWritten⟩ := gives_writeFile_of_readText hRead changed
        exact absurd hWrite hWritten.not_fails

/-- A removal that succeeds reports each icon once. -/
theorem gives_remove {editor : Registry.Editor} {icons : List Text} {outcomes : List Outcome}
    (h : (remove editor settings icons).Gives w outcomes w') :
    outcomes = (distinctIcons [] icons).map .removed ∧
      (settings.placement = .standalone → (removeFiles settings (mentioned icons)).Gives w () w') := by
  rw [remove, map_nameOf_distinctIcons] at h
  split at h
  all_goals
    rename_i hPlacement
    obtain ⟨done, between, hRun, hOutcomes⟩ := gives_bind.mp h
    obtain ⟨rfl, rfl⟩ := gives_pure.mp hOutcomes
    exact ⟨rfl, by simp [hPlacement, hRun]⟩

/-- A removal from a registry file that fails leaves the store alone. -/
theorem fails_remove {editor : Registry.Editor} {icons : List Text} (h : (remove editor settings icons).Fails w e w') :
    settings.placement = .inline ∧ w'.store = w.store ∨
      settings.placement = .standalone ∧ (removeFiles settings (mentioned icons)).Fails w e w' := by
  rw [remove, map_nameOf_distinctIcons] at h
  split at h
  all_goals
    rename_i hPlacement
    rcases fails_bind.mp h with hRun | ⟨done, between, -, hOutcomes⟩
    rotate_left
    · exact absurd hOutcomes not_fails_pure
  · exact .inl ⟨hPlacement, fails_removeInline hRun⟩
  · exact .inr ⟨hPlacement, hRun⟩

/-- All component files are there to remove, but one of them, and not the first, is a directory. -/
def StopsHalfway (settings : Settings) (store : Store) (names : List Text) : Prop :=
  settings.placement = .standalone ∧
    ∃ framework, Framework.Catalogue.builtin.get settings.framework = .ok framework ∧
      (∀ name ∈ names, store.contains (componentPath settings framework name) = true) ∧
      (∃ name ∈ names, store.hasDirectory (componentPath settings framework name) = true) ∧
      ∀ first ∈ names.head?, ¬store.hasDirectory (componentPath settings framework first) = true

/-- A removal that succeeds removes the files of the names that are mentioned, and no others. -/
theorem removes_of_gives_remove {editor : Registry.Editor} {icons : List Text} {outcomes : List Outcome}
    (hPlacement : settings.placement = .standalone) (h : (remove editor settings icons).Gives w outcomes w') :
    ∃ framework, Framework.Catalogue.builtin.get settings.framework = .ok framework ∧
      w.store.Removes ((mentioned icons).map (componentPath settings framework)) w'.store := by
  obtain ⟨framework, hGet, hEach⟩ := gives_removeFiles ((gives_remove h).2 hPlacement)
  exact ⟨framework, hGet, removes_of_gives (leadApart_mentioned settings framework w.store icons) hEach⟩

/-- A removal that fails keeps all files unless it stops halfway, and then the store is as it was. -/
theorem keepsFiles_iff_of_fails_remove {editor : Registry.Editor} {icons : List Text}
    (h : (remove editor settings icons).Fails w e w') :
    (w.store.KeepsFiles w'.store ↔ ¬StopsHalfway settings w.store (mentioned icons)) ∧
      (w.store.KeepsFiles w'.store → w'.store = w.store) := by
  rcases fails_remove h with ⟨hPlacement, hSame⟩ | ⟨hPlacement, hRun⟩
  · rw [hSame]
    exact ⟨iff_of_true (.refl w.store) fun ⟨hOther, _⟩ => by simp [hPlacement] at hOther, fun _ => rfl⟩
  rcases fails_removeFiles hRun with ⟨rfl, hMissing⟩ | ⟨framework, hGet, hThere, hEach⟩
  · refine ⟨iff_of_true (.refl w'.store) ?_, fun _ => rfl⟩
    rintro ⟨-, framework, hGet, hThere, -⟩
    obtain ⟨name, hName, hNone⟩ := hMissing framework hGet
    simp [hThere name hName] at hNone
  · obtain ⟨path, hPath, hDirectory⟩ := exists_directory_of_fails
      (leadApart_mentioned settings framework w.store icons) (by simpa using hThere) hEach
    obtain ⟨name, hName, rfl⟩ := List.mem_map.mp hPath
    obtain ⟨first, rest, hNames⟩ := List.exists_cons_of_ne_nil (List.ne_nil_of_mem hName)
    rw [hNames, List.map_cons] at hEach
    obtain ⟨hKeeps, hSame⟩ := keepsFiles_iff_of_fails (hThere first (by simp [hNames])) hEach
    refine ⟨?_, hSame⟩
    rw [hKeeps]
    constructor
    · rintro hFirst ⟨-, known, hKnown, -, -, hNot⟩
      obtain rfl : framework = known := Except.ok.inj (hGet.symm.trans hKnown)
      exact hNot first (by simp [hNames]) hFirst
    · intro hNot
      refine Classical.not_not.mp fun hFirst => hNot ⟨hPlacement, framework, hGet, hThere, ⟨name, hName, hDirectory⟩, ?_⟩
      intro other hOther
      obtain rfl : first = other := by simpa [hNames] using hOther
      exact hFirst

/-- A run that removes icons reports each component once, for the icon that names it first, and component files are
gone exactly as reported. A run that fails keeps every file, and then changes nothing, unless it stops halfway. -/
theorem remove_all_or_nothing_iff (editor : Registry.Editor) (settings : Settings) (icons : List Text)
    (w : Workspace) :
    (∀ outcomes w', (remove editor settings icons).Gives w outcomes w' →
      outcomes.map (fun outcome => nameOf outcome.icon) = mentioned icons ∧
      (∀ outcome ∈ outcomes, ∃ icon, firstMention? icons (nameOf icon) = some icon ∧ outcome = .removed icon) ∧
      (settings.placement = .standalone →
        ∃ framework, Framework.Catalogue.builtin.get settings.framework = .ok framework ∧
          w.store.Removes ((mentioned icons).map (componentPath settings framework)) w'.store)) ∧
    ((∀ e w', (remove editor settings icons).Fails w e w' → w.store.KeepsFiles w'.store) ↔
      ¬StopsHalfway settings w.store (mentioned icons)) ∧
    ∀ e w', (remove editor settings icons).Fails w e w' → w.store.KeepsFiles w'.store → w'.store = w.store := by
  refine ⟨fun outcomes w' h => ⟨?_, ?_, fun hPlacement => removes_of_gives_remove hPlacement h⟩, ⟨?_, ?_⟩,
    fun e w' h => (keepsFiles_iff_of_fails_remove h).2⟩
  · obtain ⟨rfl, -⟩ := gives_remove h
    rw [← map_nameOf_distinctIcons, List.map_map]
    rfl
  · obtain ⟨rfl, -⟩ := gives_remove h
    intro outcome hOutcome
    obtain ⟨icon, hIcon, rfl⟩ := List.mem_map.mp hOutcome
    exact ⟨icon, (firstMention?_of_mem hIcon).2, rfl⟩
  · intro hKeeps hHalfway
    rcases gives_or_fails (remove editor settings icons) w with ⟨outcomes, w', h⟩ | ⟨e, w', h⟩
    · -- no run that removes everything comes to a directory
      obtain ⟨hPlacement, framework, hGet, -, ⟨name, hName, hDirectory⟩, -⟩ := hHalfway
      obtain ⟨known, hKnown, hRemoves⟩ := removes_of_gives_remove hPlacement h
      obtain rfl : framework = known := Except.ok.inj (hGet.symm.trans hKnown)
      obtain ⟨here, node, hLocate, hNode, hFile, -⟩ := hRemoves.gone _ (List.mem_map_of_mem hName)
      obtain ⟨there, hThere, hFound⟩ := Store.hasDirectory_iff.mp hDirectory
      obtain rfl : here = there := Except.ok.inj (hLocate.symm.trans hThere)
      exact hFile (Option.some.inj (hNode.symm.trans hFound))
    · exact (keepsFiles_iff_of_fails_remove h).1.mp (hKeeps e w' h) hHalfway
  · exact fun hNot e w' h => (keepsFiles_iff_of_fails_remove h).1.mpr hNot

end

/-- Three mentions of two components. -/
theorem remove_mentioned :
    let settings : Settings := { registryPath := "src/icons".toList, placement := .standalone }
    let w : Workspace := ⟨⟨[], [(["src".toList], .directory), (["src".toList, "icons".toList], .directory),
      (["src".toList, "icons".toList, "Bell.tsx".toList], .file "b".toList),
      (["src".toList, "icons".toList, "Home.tsx".toList], .file "h".toList)]⟩, []⟩
    ∃ w', (remove settings.editor settings ["home".toList, "bell".toList, "Home".toList]).Gives w
        [.removed "home".toList, .removed "bell".toList] w' ∧
      mentioned ["home".toList, "bell".toList, "Home".toList] = ["Home".toList, "Bell".toList] ∧
      w.store.Removes ["src/icons/Home.tsx".toList, "src/icons/Bell.tsx".toList] w'.store := by
  intro settings w
  let icons := ["home".toList, "bell".toList, "Home".toList]
  let command := remove settings.editor settings icons
  have hRun : command.Gives w [.removed "home".toList, .removed "bell".toList] (command.run.run w).2 :=
    gives_of_result (by decide +kernel)
  have hMentioned : mentioned icons = ["Home".toList, "Bell".toList] := by decide +kernel
  obtain ⟨-, -, hGone⟩ := (remove_all_or_nothing_iff settings.editor settings icons w).1 _ _ hRun
  obtain ⟨framework, hGet, hRemoves⟩ := hGone rfl
  obtain rfl : Framework.react = framework := Except.ok.inj hGet
  rw [hMentioned] at hRemoves
  exact ⟨_, hRun, hMentioned, hRemoves⟩

/-- A directory in the place of the second component: the run fails there, and the file of the first one is gone. -/
theorem remove_stops_halfway :
    let settings : Settings := { registryPath := "src/icons".toList, placement := .standalone }
    let bell := ["src".toList, "icons".toList, "Bell.tsx".toList]
    let w : Workspace := ⟨⟨[], [(["src".toList], .directory), (["src".toList, "icons".toList], .directory),
      (bell, .file "x".toList), (["src".toList, "icons".toList, "Home.tsx".toList], .directory)]⟩, []⟩
    ∃ w', (remove settings.editor settings ["bell".toList, "home".toList]).Fails w
        (.file "Failed to remove src/icons/Home.tsx".toList .isDirectory) w' ∧
      w.store.node? bell = some (.file "x".toList) ∧ w'.store.node? bell = none := by
  intro settings bell w
  let command := remove settings.editor settings ["bell".toList, "home".toList]
  have hAll : failure? (command.run.run w).1 =
      some (.file "Failed to remove src/icons/Home.tsx".toList .isDirectory) ∧
      w.store.node? bell = some (.file "x".toList) ∧ (command.run.run w).2.store.node? bell = none := by
    decide +kernel
  exact ⟨(command.run.run w).2, fails_of_result hAll.1, hAll.2⟩

end Command

end IconRegistry
