import IconRegistry.Command.Remove
import IconRegistry.Proofs.Command.Initialising
import IconRegistry.Proofs.Command.Listing
import IconRegistry.Proofs.Component.EmptyRegistry

/-! Registry files without entries, as they are set up for a project and as they are left when all icons are removed.
What is written there follows from the framework and from whether types are wanted; how it is read follows from the
extension of the file. Both fit, but for types in a file whose dialect has none. -/
namespace IconRegistry

namespace Script

/-- The extensions of files whose dialect has no types. -/
def untypedExtensions : List Text :=
  ["js", "jsx", "mjs", "cjs"].map String.toList

/-- A path tells of a dialect without types by its extension. -/
theorem Dialect.hasTypes_ofPath?_iff (path : Text) :
    ((Dialect.ofPath? path).getD .tsx).hasTypes = true ↔
      ∀ extension ∈ untypedExtensions, Path.extension? path ≠ some extension := by
  cases hName : Path.fileName? path with
  | none =>
      have hExtension : Path.extension? path = none := by simp [Path.extension?, hName]
      have hNone : Dialect.ofPath? path = none := by simp [Dialect.ofPath?, hName]
      rw [hNone, hExtension]
      exact iff_of_true rfl (by simp)
  | some name =>
      cases hExtension : Path.extension? path with
      | none =>
          have hNone : Dialect.ofPath? path = none := by simp [Dialect.ofPath?, hName, hExtension]
          rw [hNone]
          exact iff_of_true rfl (by simp)
      | some extension =>
          have hWord : ∀ word : String, String.ofList extension = word → extension = word.toList := by
            rintro word rfl
            exact String.toList_ofList.symm
          simp only [Dialect.ofPath?, hName, hExtension, Option.bind_eq_bind, Option.bind_some]
          split
          case h_9 =>
            rename_i hJsx hJs hMjs hCjs
            refine iff_of_true rfl ?_
            rintro other hOther ⟨rfl⟩
            simp only [untypedExtensions, List.map_cons, List.map_nil, List.mem_cons, List.not_mem_nil,
              or_false] at hOther
            rcases hOther with rfl | rfl | rfl | rfl
            · exact hJs String.ofList_toList
            · exact hJsx String.ofList_toList
            · exact hMjs String.ofList_toList
            · exact hCjs String.ofList_toList
          all_goals
            rename_i h
            obtain rfl := hWord _ h
          iterate 4 exact iff_of_true rfl (by decide)
          all_goals exact iff_of_false (by decide) fun hOther => hOther _ (by decide) rfl

end Script

namespace Command

open Config Component Script

def dialectOf (settings : Settings) : Dialect :=
  (Dialect.ofPath? settings.registryPath).getD .tsx

/-- A run that leaves a registry without entries: a project is set up with a registry of its own, which was missing or
is written anew, or all icons are removed. -/
inductive Empties (settings : Settings) (w w' : Workspace) : Prop
  | init {configPath : Text} {yes : Bool} (h : (init settings configPath yes).Gives w () w')
      (hOwn : yes = true ∨ ∀ configured, Configured configPath w.store configured →
        configured.contains settings.registryPath = false)
  | clear (h : (clear settings true).Gives w () w')

section

variable {settings : Settings} {framework : Framework} {w w' : Workspace}

/-- A registry that was cleared is the template. -/
theorem readText_of_gives_clear (hInline : settings.placement = .inline)
    (hFramework : Framework.Catalogue.builtin.get settings.framework = .ok framework)
    (h : (clear settings true).Gives w () w') :
    w'.store.readText settings.registryPath = .ok (template settings framework) := by
  rw [clear] at h
  simp only [Bool.not_true, Bool.false_eq_true, if_false, hInline] at h
  obtain ⟨known, found, hKnown, h⟩ := gives_bind.mp h
  obtain ⟨hSame, rfl⟩ := gives_framework.mp hKnown
  obtain rfl : framework = known := Except.ok.inj (hFramework.symm.trans hSame)
  obtain ⟨⟨⟩, written, hWrite, hNoted⟩ := gives_bind.mp h
  rw [store_of_gives_note hNoted]
  exact readText_of_gives_writeFile hWrite

/-- What a run leaves of the registry is the file of an empty one. -/
theorem Empties.readText (h : Empties settings w w') (hInline : settings.placement = .inline)
    (hFramework : Framework.Catalogue.builtin.get settings.framework = .ok framework) :
    w'.store.readText settings.registryPath = .ok (template settings framework) := by
  cases h with
  | init h hOwn =>
      refine (readText_or_kept_of_gives_init hInline hFramework h).resolve_right ?_
      rintro ⟨hKept, ⟨configured, hConfigured, hThere⟩, -⟩
      rcases hOwn with hYes | hMissing
      · rw [hKept] at hYes
        cases hYes
      · rw [hMissing configured hConfigured] at hThere
        cases hThere
  | clear h => exact readText_of_gives_clear hInline hFramework h

/-- Types are not read where the dialect has none, so the registry that was just emptied is not listed. -/
theorem Empties.exists_fails_list (h : Empties settings w w') (hInline : settings.placement = .inline)
    (hFramework : Framework.Catalogue.builtin.get settings.framework = .ok framework)
    (hTypescript : settings.typescript = true) (hTypes : (dialectOf settings).hasTypes = false) :
    ∃ v, (list settings.editor settings false).Fails w' (.registry .unreadable) v := by
  refine exists_fails_list_inline hInline (h.readText hInline hFramework) ?_
  rw [template, hTypescript]
  exact Framework.view_registryTemplate_eq_error hTypes

/-- A registry that was just emptied is listed as one without entries, exactly if no types are written in it or the
dialect of its file has types. -/
theorem lists_emptied_iff (hInline : settings.placement = .inline)
    (hFramework : Framework.Catalogue.builtin.get settings.framework = .ok framework)
    (hCollection : Rule.IsBindable (dialectOf settings) settings.collection) (h : Empties settings w w') :
    (∃ text view v, w'.store.readText settings.registryPath = .ok text ∧ settings.editor.view text = .ok view ∧
        view.interior?.isSome = true ∧ (list settings.editor settings false).Gives w' [] v) ↔
      settings.typescript = false ∨
        ∀ extension ∈ untypedExtensions, Path.extension? settings.registryPath ≠ some extension := by
  have hRead := h.readText hInline hFramework
  rw [← Dialect.hasTypes_ofPath?_iff]
  constructor
  · rintro ⟨-, -, v, -, -, -, hList⟩
    by_contra hNeither
    rw [not_or, Bool.not_eq_false, Bool.not_eq_true] at hNeither
    obtain ⟨u, hFails⟩ := h.exists_fails_list hInline hFramework hNeither.1 hNeither.2
    exact hList.not_fails hFails
  · intro hFits
    have hTypes : settings.typescript = true → (dialectOf settings).hasTypes = true := by
      intro hTypescript
      exact hFits.resolve_left (by simp [hTypescript])
    obtain ⟨view, hView, hInterior, hNames, -⟩ := Framework.view_registryTemplate hCollection hTypes
    obtain ⟨v, hList, -⟩ := exists_gives_list_inline hInline hRead hView
    rw [hNames] at hList
    exact ⟨_, view, v, hRead, hView, hInterior, hList⟩

end

/-- A project is set up as usual beside a configuration file that is there. -/
theorem lists_emptied_project :
    let settings : Settings := {}
    let w : Workspace := ⟨⟨[], [(["iconsmith.toml".toList], .file [])]⟩, []⟩
    ∃ w', Empties settings w w' ∧ ∃ text view v, w'.store.readText settings.registryPath = .ok text ∧
      settings.editor.view text = .ok view ∧ view.interior?.isSome = true ∧
      (list settings.editor settings false).Gives w' [] v := by
  intro settings w
  have hInit : (init settings "iconsmith.toml".toList false).Gives w ()
      ((init settings "iconsmith.toml".toList false).run.run w).2 := gives_of_result (by decide +kernel)
  have hMissing : ∀ configured, Configured "iconsmith.toml".toList w.store configured →
      configured.contains settings.registryPath = false := by
    rintro configured (- | ⟨hNone, -⟩)
    · decide +kernel
    · exact absurd hNone (by decide +kernel)
  have hEmpties := Empties.init hInit (.inr hMissing)
  have hCollection : Rule.IsBindable (dialectOf settings) settings.collection :=
    ⟨by decide +kernel, by decide +kernel, fun _ => by decide +kernel⟩
  exact ⟨_, hEmpties, (lists_emptied_iff rfl (by rfl) hCollection hEmpties).mpr (.inr (by decide +kernel))⟩

/-- A registry with types in a file of a script without them is set up, and then it cannot be listed. -/
theorem init_writes_unreadable :
    let settings : Settings := { registryPath := "src/icons.js".toList }
    let w : Workspace := ⟨⟨[], [(["iconsmith.toml".toList], .file [])]⟩, []⟩
    ∃ w', (init settings "iconsmith.toml".toList false).Gives w () w' ∧
      (list settings.editor settings false).Fails w' (.registry .unreadable)
        ((list settings.editor settings false).run.run w').2 := by
  intro settings w
  exact ⟨_, gives_of_result (by decide +kernel), fails_of_result (by decide +kernel)⟩

end Command

end IconRegistry
