import IconRegistry.Command.Basic
import IconRegistry.Proofs.Result
import IconRegistry.Proofs.Store.Following

/-! Runs of commands that succeed, taken apart: what a command gave, and which workspace it left. -/
namespace IconRegistry

open Config Component

/-- A registry is read with types and JSX unless its path tells otherwise. -/
theorem Config.Settings.editor_eq_ofDialect {settings : Settings}
    (h : (Script.Dialect.ofPath? settings.registryPath).getD .tsx = .tsx) :
    settings.editor = .ofDialect settings.collection .tsx := by
  rw [editor, Registry.Editor.ofPath, h]

namespace Command

/-- A command that is run in a workspace succeeds, gives a value and leaves another workspace. -/
def Gives {α : Type} (command : Command α) (w : Workspace) (a : α) (w' : Workspace) : Prop :=
  command.run.run w = (.ok a, w')

section

variable {α β : Type} {w w' : Workspace} {a : α}

theorem gives_of_result {command : Command α} (h : (command.run.run w).1.toOption = some a) :
    command.Gives w a (command.run.run w).2 :=
  Prod.ext (eq_ok_of_toOption h) rfl

/-- A sequence goes on with what its first command gave, unless that failed. -/
theorem run_bind {σ : Type} (command : ExceptT CommandError (StateM σ) α)
    (next : α → ExceptT CommandError (StateM σ) β) (s : σ) :
    (command >>= next).run.run s =
      match command.run.run s with
      | (.ok a, between) => (next a).run.run between
      | (.error e, between) => (.error e, between) := by
  rw [ExceptT.run_bind, StateT.run_bind]
  change (match command.run.run s with | (a, s) => _) = _
  rcases command.run.run s with ⟨_ | a, between⟩ <;> rfl

/-- A sequence succeeds if its first command does and then the rest does. -/
theorem gives_bind {command : Command α} {next : α → Command β} {b : β} :
    (command >>= next).Gives w b w' ↔ ∃ a between, command.Gives w a between ∧ (next a).Gives between b w' := by
  rw [Gives, run_bind]
  simp only [Gives]
  rcases command.run.run w with ⟨e | a, between⟩
  · constructor
    · intro h
      cases h
    · rintro ⟨a, between, h, -⟩
      cases h
  · constructor
    · exact fun h => ⟨a, between, rfl, h⟩
    · rintro ⟨a, between, h, hNext⟩
      cases h
      exact hNext

theorem gives_pure {b : α} : (pure a : Command α).Gives w b w' ↔ a = b ∧ w = w' := by
  constructor
  · intro h
    cases h
    exact ⟨rfl, rfl⟩
  · rintro ⟨rfl, rfl⟩
    rfl

theorem not_gives_throw {e : CommandError} : ¬(throw e : Command α).Gives w a w' := by
  intro h
  cases h

theorem gives_store {s : Store} : store.Gives w s w' ↔ w.store = s ∧ w = w' := by
  constructor
  · intro h
    cases h
    exact ⟨rfl, rfl⟩
  · rintro ⟨rfl, rfl⟩
    rfl

/-- A log may grow without anything else changing. -/
theorem store_of_gives_debug {messages : List Text} (h : (debug messages).Gives w () w') :
    w'.store = w.store := by
  cases h
  rfl

/-- What succeeds in the registry succeeds as a command, with the workspace as it was. -/
theorem gives_ofRegistry {result : Except Registry.RegistryError α} :
    (ofRegistry result).Gives w a w' ↔ result = .ok a ∧ w = w' := by
  cases result with
  | ok found => simp [ofRegistry, gives_pure]
  | error e => simp [ofRegistry, not_gives_throw]

theorem gives_change {context : Text} {operation : Store → Except FileError Store}
    (h : (change context operation).Gives w () w') : operation w.store = .ok w'.store := by
  rw [change, gives_bind] at h
  obtain ⟨s, between, hStore, h⟩ := h
  obtain ⟨rfl, rfl⟩ := gives_store.mp hStore
  split at h
  · rename_i changed hChanged
    cases h
    exact hChanged
  · exact absurd h not_gives_throw

/-- Making directories adds directories to a store at most, whether or not it succeeds. -/
theorem addsDirectories_makeDirectories (context path : Text) (w : Workspace) :
    w.store.AddsDirectories ((makeDirectories context path).run.run w).2.store := by
  have hMade := Store.makeDirectories_addsDirectories w.store path
  have hStore : store.run.run w = (.ok w.store, w) := rfl
  rw [makeDirectories, run_bind, hStore]
  rcases hResult : w.store.makeDirectories path with ⟨made, e | done⟩
  all_goals
    rw [hResult] at hMade
    simp only [hResult]
    exact hMade

theorem addsDirectories_of_gives_makeDirectories {context path : Text}
    (h : (makeDirectories context path).Gives w () w') : w.store.AddsDirectories w'.store := by
  have hMade := addsDirectories_makeDirectories context path w
  rw [Gives] at h
  rwa [h] at hMade

/-- A file is written into a store to which directories may have been added. -/
theorem exists_addsDirectories_of_gives_writeFile {path text : Text} (h : (writeFile path text).Gives w () w') :
    ∃ made, w.store.AddsDirectories made ∧ made.writeText path text = .ok w'.store := by
  rw [writeFile] at h
  split at h
  · split at h
    · obtain ⟨done, between, hMade, h⟩ := gives_bind.mp h
      exact ⟨between.store, addsDirectories_of_gives_makeDirectories hMade, gives_change h⟩
    · exact ⟨w.store, .refl w.store, gives_change h⟩
  · exact ⟨w.store, .refl w.store, gives_change h⟩

/-- A file reads as it was written. -/
theorem readText_of_gives_writeFile {path text : Text} (h : (writeFile path text).Gives w () w') :
    w'.store.readText path = .ok text := by
  obtain ⟨made, -, hWrite⟩ := exists_addsDirectories_of_gives_writeFile h
  exact Store.readText_of_writeText hWrite

/-- What a command reads of the registry is what the registry file holds. -/
theorem readText_of_gives_readRegistry {settings : Settings} {text : Text}
    (h : (readRegistry settings).Gives w text w') :
    w.store.readText settings.registryPath = .ok text ∧ w' = w := by
  rw [readRegistry, gives_bind] at h
  obtain ⟨s, between, hStore, h⟩ := h
  obtain ⟨rfl, rfl⟩ := gives_store.mp hStore
  split at h
  · rename_i found hRead
    obtain ⟨rfl, rfl⟩ := gives_pure.mp h
    exact ⟨hRead, rfl⟩
  · exact absurd h not_gives_throw

theorem get_of_gives_framework {settings : Settings} {found : Framework}
    (h : (framework settings).Gives w found w') :
    Framework.Catalogue.builtin.get settings.framework = .ok found ∧ w' = w := by
  rw [framework] at h
  split at h
  · rename_i known hKnown
    obtain ⟨rfl, rfl⟩ := gives_pure.mp h
    exact ⟨hKnown, rfl⟩
  · exact absurd h not_gives_throw

end

/-- A command that leaves the store as it is, whether it succeeds or fails. -/
def KeepsStore {α : Type} (command : Command α) : Prop :=
  ∀ w, (command.run.run w).2.store = w.store

namespace KeepsStore

variable {α β : Type}

theorem pure (a : α) : KeepsStore (Pure.pure a : Command α) :=
  fun _ => rfl

theorem store : KeepsStore Command.store :=
  fun _ => rfl

theorem debug (messages : List Text) : KeepsStore (Command.debug messages) :=
  fun _ => rfl

theorem throw (e : CommandError) : KeepsStore (MonadExcept.throw e : Command α) :=
  fun _ => rfl

theorem ofRegistry (result : Except Registry.RegistryError α) : KeepsStore (Command.ofRegistry result) := by
  cases result <;> exact fun _ => rfl

theorem framework (settings : Settings) : KeepsStore (Command.framework settings) := by
  rw [Command.framework]
  split <;> exact fun _ => rfl

/-- Commands in a row keep the store if each of them does. -/
theorem bind {command : Command α} {next : α → Command β} (h : KeepsStore command)
    (hNext : ∀ a, KeepsStore (next a)) : KeepsStore (command >>= next) := by
  intro w
  have hFirst := h w
  rw [run_bind]
  rcases hRun : command.run.run w with ⟨e | a, between⟩
  · rwa [hRun] at hFirst
  · rw [hRun] at hFirst
    exact (hNext a between).trans hFirst

end KeepsStore

end Command

end IconRegistry
