import IconRegistry.Proofs.Command.Running
import IconRegistry.Proofs.Store.Placing

/-! Runs of commands that fail: with which failure, and in which workspace they stop. -/
namespace IconRegistry.Command

open Config Component

/-- A command that is run in a workspace fails, and leaves another workspace. -/
def Fails {α : Type} (command : Command α) (w : Workspace) (e : CommandError) (w' : Workspace) : Prop :=
  command.run.run w = (.error e, w')

section

variable {α β : Type} {w w' : Workspace} {a : α} {e : CommandError}

theorem fails_of_result {command : Command α} (h : failure? (command.run.run w).1 = some e) :
    command.Fails w e (command.run.run w).2 :=
  Prod.ext (eq_error_of_failure? h) rfl

/-- A command succeeds or fails. -/
theorem gives_or_fails (command : Command α) (w : Workspace) :
    (∃ a w', command.Gives w a w') ∨ ∃ e w', command.Fails w e w' := by
  rcases hRun : command.run.run w with ⟨e | a, w'⟩
  · exact .inr ⟨e, w', hRun⟩
  · exact .inl ⟨a, w', hRun⟩

/-- A command that keeps the store keeps it when it fails, too. -/
theorem KeepsStore.store_eq_of_fails {command : Command α} (h : KeepsStore command) (hFails : command.Fails w e w') :
    w'.store = w.store := by
  have hKept := h w
  rw [Fails] at hFails
  rwa [hFails] at hKept

theorem Gives.not_fails {command : Command α} (h : command.Gives w a w') {v : Workspace} : ¬command.Fails w e v := by
  intro hFails
  cases h.symm.trans hFails

/-- A command has one result. -/
theorem Gives.unique {command : Command α} {b : α} {v : Workspace} (h : command.Gives w a w')
    (h' : command.Gives w b v) : a = b ∧ w' = v := by
  cases h.symm.trans h'
  exact ⟨rfl, rfl⟩

/-- A sequence fails where one of its commands does. -/
theorem fails_bind {command : Command α} {next : α → Command β} :
    (command >>= next).Fails w e w' ↔
      command.Fails w e w' ∨ ∃ a between, command.Gives w a between ∧ (next a).Fails between e w' := by
  rw [Fails, run_bind]
  simp only [Gives, Fails]
  rcases command.run.run w with ⟨e' | a, between⟩
  · constructor
    · intro h
      cases h
      exact .inl rfl
    · rintro (h | ⟨a, between, h, -⟩)
      · cases h
        rfl
      · cases h
  · constructor
    · exact fun h => .inr ⟨a, between, rfl, h⟩
    · rintro (h | ⟨a, between, h, hNext⟩)
      · cases h
      · cases h
        exact hNext

theorem not_fails_pure : ¬(pure a : Command α).Fails w e w' := by
  intro h
  cases h

theorem fails_throw {e' : CommandError} : (throw e' : Command α).Fails w e w' ↔ e' = e ∧ w = w' := by
  constructor
  · intro h
    cases h
    exact ⟨rfl, rfl⟩
  · rintro ⟨rfl, rfl⟩
    rfl

theorem not_fails_store : ¬store.Fails w e w' := by
  intro h
  cases h

theorem not_fails_debug {messages : List Text} : ¬(debug messages).Fails w e w' := by
  intro h
  cases h

/-- Notes for debugging always succeed and change no file. -/
theorem gives_debug (messages : List Text) (w : Workspace) :
    ∃ w', (debug messages).Gives w () w' ∧ w'.store = w.store :=
  ⟨_, rfl, rfl⟩

theorem gives_note (severity : Severity) (message : Text) (w : Workspace) :
    ∃ w', (note severity message).Gives w () w' ∧ w'.store = w.store :=
  ⟨_, rfl, rfl⟩

/-- What fails in the registry fails the command, with the workspace as it was. -/
theorem fails_ofRegistry {result : Except Registry.RegistryError α} :
    (ofRegistry result).Fails w e w' ↔ (∃ cause, result = .error cause ∧ e = .registry cause) ∧ w = w' := by
  cases result with
  | ok found => simp [ofRegistry, not_fails_pure]
  | error cause => simp [ofRegistry, fails_throw, eq_comm]

/-- A change succeeds exactly if the operation does, and it leaves what that left. -/
theorem gives_change_iff {context : Text} {operation : Store → Except FileError Store} :
    (change context operation).Gives w () w' ↔
      ∃ changed, operation w.store = .ok changed ∧ w' = { w with store := changed } := by
  constructor
  · intro h
    rw [change, gives_bind] at h
    obtain ⟨s, between, hStore, h⟩ := h
    obtain ⟨rfl, rfl⟩ := gives_store.mp hStore
    split at h
    · rename_i changed hChanged
      cases h
      exact ⟨changed, hChanged, rfl⟩
    · exact absurd h not_gives_throw
  · rintro ⟨changed, hChanged, rfl⟩
    rw [change, gives_bind]
    refine ⟨w.store, w, gives_store.mpr ⟨rfl, rfl⟩, ?_⟩
    rw [hChanged]
    rfl

/-- A change that fails changes nothing. -/
theorem fails_change {context : Text} {operation : Store → Except FileError Store} :
    (change context operation).Fails w e w' ↔
      ∃ cause, operation w.store = .error cause ∧ e = .file context cause ∧ w' = w := by
  constructor
  · intro h
    rw [change, fails_bind] at h
    obtain h | ⟨s, between, hStore, h⟩ := h
    · exact absurd h not_fails_store
    · obtain ⟨rfl, rfl⟩ := gives_store.mp hStore
      split at h
      · cases h
      · rename_i cause hCause
        obtain ⟨rfl, rfl⟩ := fails_throw.mp h
        exact ⟨cause, hCause, rfl, rfl⟩
  · rintro ⟨cause, hCause, rfl, rfl⟩
    rw [change, fails_bind]
    refine .inr ⟨w'.store, w', gives_store.mpr ⟨rfl, rfl⟩, ?_⟩
    rw [hCause]
    rfl

/-- Directories are made if all of them could be. -/
theorem gives_makeDirectories {context path : Text} :
    (makeDirectories context path).Gives w () w' ↔
      ∃ made, w.store.makeDirectories path = (made, .ok ()) ∧ w' = { w with store := made } := by
  rcases hMade : w.store.makeDirectories path with ⟨made, e | done⟩
  · constructor
    · intro h
      rw [makeDirectories, gives_bind] at h
      obtain ⟨s, between, hStore, h⟩ := h
      obtain ⟨rfl, rfl⟩ := gives_store.mp hStore
      simp only [hMade] at h
      cases h
    · rintro ⟨made, h, -⟩
      cases h
  · rw [makeDirectories, gives_bind]
    constructor
    · rintro ⟨s, between, hStore, h⟩
      obtain ⟨rfl, rfl⟩ := gives_store.mp hStore
      simp only [hMade] at h
      cases h
      exact ⟨made, rfl, rfl⟩
    · rintro ⟨made, h, rfl⟩
      cases h
      refine ⟨w.store, w, gives_store.mpr ⟨rfl, rfl⟩, ?_⟩
      simp only [hMade]
      rfl

theorem fails_makeDirectories {context path : Text} (h : (makeDirectories context path).Fails w e w') :
    ∃ cause, e = .file context cause := by
  rw [makeDirectories, fails_bind] at h
  obtain h | ⟨s, between, hStore, h⟩ := h
  · exact absurd h not_fails_store
  · obtain ⟨rfl, rfl⟩ := gives_store.mp hStore
    rcases hMade : w.store.makeDirectories path with ⟨made, cause | done⟩
    · simp only [hMade] at h
      cases h
      exact ⟨cause, rfl⟩
    · simp only [hMade] at h
      cases h

/-- Writing fails for a reason that lies in the file. -/
theorem fails_writeFile {path text : Text} (h : (writeFile path text).Fails w e w') :
    ∃ context cause, e = .file context cause := by
  rw [writeFile] at h
  suffices hAfter : ∀ {between : Workspace},
      (change ("Failed to write ".toList ++ path) (·.writeText path text)).Fails between e w' →
      ∃ context cause, e = .file context cause by
    split at h
    · split at h
      · rcases fails_bind.mp h with h | ⟨done, between, -, h⟩
        · exact ⟨_, fails_makeDirectories h⟩
        · exact hAfter h
      · exact hAfter h
    · exact hAfter h
  intro between hWrite
  obtain ⟨cause, -, rfl, -⟩ := fails_change.mp hWrite
  exact ⟨_, cause, rfl⟩

/-- A removal of a file succeeds exactly if the store can remove it. -/
theorem gives_removeFile {path : Text} :
    (removeFile path).Gives w () w' ↔
      ∃ changed, w.store.removeFile path = .ok changed ∧ w' = { w with store := changed } :=
  gives_change_iff

theorem fails_removeFile {path : Text} :
    (removeFile path).Fails w e w' ↔ ∃ cause, w.store.removeFile path = .error cause ∧
      e = .file ("Failed to remove ".toList ++ path) cause ∧ w' = w :=
  fails_change

theorem gives_readRegistry {settings : Settings} {text : Text} :
    (readRegistry settings).Gives w text w' ↔ w.store.readText settings.registryPath = .ok text ∧ w' = w := by
  refine ⟨readText_of_gives_readRegistry, ?_⟩
  rintro ⟨hRead, rfl⟩
  rw [readRegistry, gives_bind]
  refine ⟨w'.store, w', gives_store.mpr ⟨rfl, rfl⟩, ?_⟩
  rw [hRead]
  rfl

theorem fails_readRegistry {settings : Settings} (h : (readRegistry settings).Fails w e w') : w' = w := by
  rw [readRegistry, fails_bind] at h
  obtain h | ⟨s, between, hStore, h⟩ := h
  · exact absurd h not_fails_store
  · obtain ⟨rfl, rfl⟩ := gives_store.mp hStore
    split at h
    · exact absurd h not_fails_pure
    · exact (fails_throw.mp h).2.symm

theorem gives_framework {settings : Settings} {found : Framework} :
    (framework settings).Gives w found w' ↔
      Framework.Catalogue.builtin.get settings.framework = .ok found ∧ w' = w := by
  refine ⟨get_of_gives_framework, ?_⟩
  rintro ⟨hFound, rfl⟩
  rw [framework, hFound]
  rfl

theorem fails_framework {settings : Settings} (h : (framework settings).Fails w e w') : w' = w := by
  rw [framework] at h
  split at h
  · exact absurd h not_fails_pure
  · exact (fails_throw.mp h).2.symm

/-- What is above a path that leads somewhere need not be made, so only the file is written. -/
theorem gives_writeFile {path text last : Text} {pieces : List Text} {here : Location}
    (entry : Path.EntryIn path pieces last) (hLocate : w.store.locate path = .ok here)
    (hNode : w.store.node? here ≠ some .directory) :
    (writeFile path text).Gives w () { w with store := w.store.put here (.file text) } := by
  have hWrite : (change ("Failed to write ".toList ++ path) (·.writeText path text)).Gives w ()
      { w with store := w.store.put here (.file text) } :=
    gives_change_iff.mpr ⟨_, (Store.writeText_eq_ok entry.getLast?_ne).mpr ⟨here, hLocate, hNode, rfl⟩, rfl⟩
  rw [writeFile]
  split
  · rename_i above hAbove
    split
    · rename_i hNonempty
      have hSome : above ≠ [] := by simpa using hNonempty
      have hMade := Store.makeDirectories_above entry hLocate hAbove hSome
      exact gives_bind.mpr ⟨(), w, gives_makeDirectories.mpr ⟨_, hMade, rfl⟩, hWrite⟩
    · exact hWrite
  · exact hWrite

/-- A file that can be read can be written. -/
theorem gives_writeFile_of_readText {path old : Text} (h : w.store.readText path = .ok old) (text : Text) :
    ∃ here, w.store.locate path = .ok here ∧ w.store.node? here = some (.file old) ∧
      (writeFile path text).Gives w () { w with store := w.store.put here (.file text) } := by
  obtain ⟨pieces, last, entry⟩ := Store.exists_entryIn h
  obtain ⟨here, hLocate, hNode⟩ := Store.readText_eq_ok.mp h
  exact ⟨here, hLocate, hNode, gives_writeFile entry hLocate (by simp [hNode])⟩

end

theorem isExtension_extension (framework : Framework) (typescript : Bool) :
    ComponentFile.IsExtension (framework.extension typescript) := by
  cases framework <;> cases typescript <;> exact ⟨by decide, by decide, by decide⟩

/-- The name of a component is no path. -/
theorem slash_not_mem_nameOf (icon : Text) : '/' ∉ nameOf icon :=
  fun h => absurd (isNameSeparator_of_mem_nameOf h) (by decide)

end IconRegistry.Command
