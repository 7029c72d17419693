import IconRegistry.Command.List
import IconRegistry.Proofs.Command.Failing
import IconRegistry.Proofs.Store.Enumerating

/-! What a listing reports. It changes no file: it tells the entries of the registry file, or the components that have
files of their own. -/
namespace IconRegistry.Command

open Config Component

variable {editor : Registry.Editor} {settings : Settings} {w w' : Workspace} {names : List Text} {text : Text}
  {view : Registry.View}

/-- A registry file that is read is listed, with a warning if it has no collection. -/
theorem exists_gives_list_inline (hInline : settings.placement = .inline)
    (hRead : w.store.readText settings.registryPath = .ok text) (hView : editor.view text = .ok view) :
    ∃ w', (list editor settings false).Gives w view.names w' ∧ w'.store = w.store := by
  obtain ⟨noted, hNoted, hStore⟩ := gives_debug (editor.notes text fun _ => []) w
  obtain ⟨warned, hWarned, hSame⟩ := gives_note .warning ("No `".toList ++ settings.collection ++
    "` collection in ".toList ++ settings.registryPath) noted
  have hRest : ∃ w', (do
      if view.interior?.isNone then
        note .warning ("No `".toList ++ settings.collection ++ "` collection in ".toList ++ settings.registryPath)
      return view.names : Command (List Text)).Gives noted view.names w' ∧ w'.store = w.store := by
    cases view.interior?.isNone with
    | true => exact ⟨warned, gives_bind.mpr ⟨(), warned, hWarned, gives_pure.mpr ⟨rfl, rfl⟩⟩, hSame.trans hStore⟩
    | false => exact ⟨noted, gives_pure.mpr ⟨rfl, rfl⟩, hStore⟩
  obtain ⟨w', hGives, hKept⟩ := hRest
  refine ⟨w', ?_, hKept⟩
  rw [list]
  simp only [Bool.false_eq_true, if_false, hInline]
  exact gives_bind.mpr ⟨text, w, gives_readRegistry.mpr ⟨hRead, rfl⟩, gives_bind.mpr ⟨(), noted, hNoted,
    gives_bind.mpr ⟨view, noted, gives_ofRegistry.mpr ⟨hView, rfl⟩, hGives⟩⟩⟩

/-- A registry file that cannot be read as a script is not listed. -/
theorem exists_fails_list_inline {cause : Registry.RegistryError} (hInline : settings.placement = .inline)
    (hRead : w.store.readText settings.registryPath = .ok text) (hView : editor.view text = .error cause) :
    ∃ w', (list editor settings false).Fails w (.registry cause) w' := by
  obtain ⟨noted, hNoted, -⟩ := gives_debug (editor.notes text fun _ => []) w
  refine ⟨noted, ?_⟩
  rw [list]
  simp only [Bool.false_eq_true, if_false, hInline]
  exact fails_bind.mpr (.inr ⟨text, w, gives_readRegistry.mpr ⟨hRead, rfl⟩, fails_bind.mpr (.inr ⟨(), noted, hNoted,
    fails_bind.mpr (.inl (fails_ofRegistry.mpr ⟨⟨cause, hView, rfl⟩, rfl⟩))⟩)⟩)

/-- What is listed of a registry file are the entries that are read there. -/
theorem exists_view_of_gives_list (hInline : settings.placement = .inline)
    (h : (list editor settings false).Gives w names w') :
    ∃ text view, w.store.readText settings.registryPath = .ok text ∧ editor.view text = .ok view ∧
      names = view.names ∧ w'.store = w.store := by
  have hAll := h
  rw [list] at h
  simp only [Bool.false_eq_true, if_false, hInline] at h
  obtain ⟨text, between, hRegistry, hRest⟩ := gives_bind.mp h
  obtain ⟨hRead, rfl⟩ := gives_readRegistry.mp hRegistry
  obtain ⟨done, noted, -, hRest⟩ := gives_bind.mp hRest
  obtain ⟨view, viewed, hViewed, -⟩ := gives_bind.mp hRest
  obtain ⟨hView, -⟩ := gives_ofRegistry.mp hViewed
  obtain ⟨kept, hGives, hStore⟩ := exists_gives_list_inline hInline hRead hView
  obtain ⟨rfl, rfl⟩ := hAll.unique hGives
  exact ⟨text, view, hRead, hView, rfl, hStore⟩

/-- Files of their own are listed by what components they hold. -/
theorem gives_list_standalone (hStandalone : settings.placement = .standalone) :
    (list editor settings false).Gives w names w' ↔
      ∃ framework, Framework.Catalogue.builtin.get settings.framework = .ok framework ∧
        names = ComponentFile.componentsIn w.store settings.registryPath (framework.extension settings.typescript) ∧
        w' = w := by
  have hPaths : ∀ framework, (componentPaths settings framework).Gives w
      (ComponentFile.all w.store settings.registryPath (framework.extension settings.typescript)) w :=
    fun _ => gives_bind.mpr ⟨w.store, w, gives_store.mpr ⟨rfl, rfl⟩, gives_pure.mpr ⟨rfl, rfl⟩⟩
  rw [list]
  simp only [Bool.false_eq_true, if_false, hStandalone]
  constructor
  · intro h
    obtain ⟨framework, between, hFramework, hRest⟩ := gives_bind.mp h
    obtain ⟨hKnown, rfl⟩ := gives_framework.mp hFramework
    obtain ⟨paths, left, hAll, hNames⟩ := gives_bind.mp hRest
    obtain ⟨rfl, rfl⟩ := hAll.unique (hPaths framework)
    obtain ⟨rfl, rfl⟩ := gives_pure.mp hNames
    exact ⟨framework, hKnown, rfl, rfl⟩
  · rintro ⟨framework, hKnown, rfl, rfl⟩
    exact gives_bind.mpr ⟨framework, w', gives_framework.mpr ⟨hKnown, rfl⟩,
      gives_bind.mpr ⟨_, w', hPaths framework, gives_pure.mpr ⟨rfl, rfl⟩⟩⟩

end IconRegistry.Command
