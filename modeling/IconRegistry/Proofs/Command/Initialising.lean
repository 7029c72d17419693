import IconRegistry.Command.Init
import IconRegistry.Proofs.Command.Stepping

/-! Projects that are set up: the registry file holds the text of an empty registry, or the directory of component
files is there. -/
namespace IconRegistry.Command

open Config Component

section

variable {settings : Settings} {framework : Framework} {configPath : Text} {yes : Bool} {w w' : Workspace}

theorem store_of_gives_note {severity : Severity} {message : Text} (h : (note severity message).Gives w () w') :
    w'.store = w.store := by
  cases h
  rfl

theorem store_of_gives_notes {severity : Severity} {message closing : Text}
    (h : (note severity message >>= fun _ => note severity closing).Gives w () w') : w'.store = w.store := by
  obtain ⟨⟨⟩, between, hFirst, hSecond⟩ := gives_bind.mp h
  exact (store_of_gives_note hSecond).trans (store_of_gives_note hFirst)

/-- The configuration file of a project is there, or it is made. -/
inductive Configured (configPath : Text) (store : Store) : Store → Prop
  | kept : store.contains configPath = true → Configured configPath store store
  | made {store' : Store} : store.contains configPath = false → Writes configPath defaultConfig store store' →
    Configured configPath store store'

/-- A configuration that was missing is written before the rest runs. -/
theorem exists_configured_of_gives {rest : Command Unit}
    (h : (if !w.store.contains configPath then
        writeFile configPath defaultConfig >>= fun _ => noteCreated configPath >>= fun _ => rest
      else rest).Gives w () w') :
    ∃ between, Configured configPath w.store between.store ∧ rest.Gives between () w' := by
  cases hThere : w.store.contains configPath with
  | true =>
      rw [hThere] at h
      exact ⟨w, .kept hThere, h⟩
  | false =>
      rw [hThere] at h
      obtain ⟨⟨⟩, written, hWrite, h⟩ := gives_bind.mp h
      obtain ⟨⟨⟩, noted, hNoted, h⟩ := gives_bind.mp h
      refine ⟨noted, ?_, h⟩
      rw [store_of_gives_note hNoted]
      exact .made hThere (writes_of_gives hWrite).1

/-- Where the output is set up, the rest adds to the store at most; and where it is not, nothing more happens. -/
theorem exists_gives_initOutput (hFramework : Framework.Catalogue.builtin.get settings.framework = .ok framework)
    (h : (init settings configPath yes).Gives w () w') :
    ∃ first second done, Configured configPath w.store first.store ∧
      (initOutput settings framework yes).Gives first done second ∧
      if done then second.store.Extends w'.store else w' = second := by
  rw [init] at h
  obtain ⟨⟨⟩, start, hStart, h⟩ := gives_bind.mp h
  obtain ⟨files, same, hFiles, h⟩ := gives_bind.mp h
  obtain ⟨rfl, rfl⟩ := gives_store.mp hFiles
  obtain ⟨configured, hConfigured, h⟩ := exists_configured_of_gives h
  rw [store_of_gives_note hStart] at hConfigured
  obtain ⟨known, first, hKnown, h⟩ := gives_bind.mp h
  obtain ⟨hSame, rfl⟩ := gives_framework.mp hKnown
  obtain rfl : framework = known := Except.ok.inj (hFramework.symm.trans hSame)
  obtain ⟨done, second, hOutput, h⟩ := gives_bind.mp h
  refine ⟨_, second, done, hConfigured, hOutput, ?_⟩
  cases done with
  | false => exact (gives_pure.mp h).2.symm
  | true =>
      simp only [if_true] at h ⊢
      obtain ⟨files, same, hStore, h⟩ := gives_bind.mp h
      obtain ⟨rfl, rfl⟩ := gives_store.mp hStore
      split at h
      · obtain ⟨⟨⟩, made, hMade, h⟩ := gives_bind.mp h
        obtain ⟨⟨⟩, noted, hNoted, h⟩ := gives_bind.mp h
        rw [store_of_gives_notes h, store_of_gives_note hNoted]
        exact (addsDirectories_of_gives_makeDirectories hMade).toExtends
      · rw [store_of_gives_notes h]
        exact .refl _

/-- A registry file is set up as one without entries, unless there is one to be kept. -/
theorem readText_or_kept_of_gives_init (hInline : settings.placement = .inline)
    (hFramework : Framework.Catalogue.builtin.get settings.framework = .ok framework)
    (h : (init settings configPath yes).Gives w () w') :
    w'.store.readText settings.registryPath = .ok (template settings framework) ∨
      yes = false ∧ (∃ configured, Configured configPath w.store configured ∧
        configured.contains settings.registryPath = true) ∧ ∃ line ∈ w'.log, line.severity = .warning := by
  obtain ⟨first, second, done, hConfigured, hOutput, hRest⟩ := exists_gives_initOutput hFramework h
  simp only [initOutput, hInline] at hOutput
  obtain ⟨files, same, hStore, hOutput⟩ := gives_bind.mp hOutput
  obtain ⟨rfl, rfl⟩ := gives_store.mp hStore
  split at hOutput
  · rename_i hKept
    obtain ⟨hThere, hYes⟩ := Bool.and_eq_true_iff.mp hKept
    obtain ⟨⟨⟩, noted, hNoted, hOutput⟩ := gives_bind.mp hOutput
    obtain ⟨rfl, rfl⟩ := gives_pure.mp hOutput
    obtain rfl : w' = noted := hRest
    cases hNoted
    exact .inr ⟨by simpa using hYes, ⟨_, hConfigured, hThere⟩, ⟨.warning, _⟩,
      List.mem_append_right _ (List.mem_singleton_self _), rfl⟩
  · obtain ⟨⟨⟩, written, hWrite, hOutput⟩ := gives_bind.mp hOutput
    obtain ⟨⟨⟩, noted, hNoted, hOutput⟩ := gives_bind.mp hOutput
    obtain ⟨rfl, rfl⟩ := gives_pure.mp hOutput
    have hExtends : noted.store.Extends w'.store := hRest
    rw [store_of_gives_note hNoted] at hExtends
    exact .inl (hExtends.readText (readText_of_gives_writeFile hWrite))

/-- A registry file that is set up without a warning holds the text of an empty registry. -/
theorem readText_of_gives_init (hInline : settings.placement = .inline)
    (hFramework : Framework.Catalogue.builtin.get settings.framework = .ok framework)
    (h : (init settings configPath yes).Gives w () w') (hQuiet : ∀ line ∈ w'.log, line.severity ≠ .warning) :
    w'.store.readText settings.registryPath = .ok (template settings framework) := by
  refine (readText_or_kept_of_gives_init hInline hFramework h).resolve_right ?_
  rintro ⟨-, -, line, hLine, hWarning⟩
  exact hQuiet line hLine hWarning

/-- A directory for component files that is set up is there, unless its path is empty. -/
theorem hasDirectory_of_gives_init (hStandalone : settings.placement = .standalone)
    (hFramework : Framework.Catalogue.builtin.get settings.framework = .ok framework)
    (hNonempty : settings.registryPath ≠ [])
    (h : (init settings configPath yes).Gives w () w') : w'.store.hasDirectory settings.registryPath = true := by
  obtain ⟨first, second, done, -, hOutput, hRest⟩ := exists_gives_initOutput hFramework h
  simp only [initOutput, hStandalone] at hOutput
  obtain ⟨⟨⟩, between, hMake, hOutput⟩ := gives_bind.mp hOutput
  obtain ⟨⟨⟩, noted, hNoted, hOutput⟩ := gives_bind.mp hOutput
  obtain ⟨rfl, rfl⟩ := gives_pure.mp hOutput
  obtain ⟨made, hMade, rfl⟩ := gives_makeDirectories.mp hMake
  have hExtends : noted.store.Extends w'.store := hRest
  rw [store_of_gives_note hNoted] at hExtends
  obtain ⟨here, hLocate, hNode⟩ :=
    Store.hasDirectory_iff.mp (Store.hasDirectory_of_makeDirectories hMade hNonempty)
  exact Store.hasDirectory_iff.mpr ⟨here, hExtends.locate hLocate, hExtends.node _ _ hNode⟩

end

end IconRegistry.Command
