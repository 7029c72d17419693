import IconRegistry.Proofs.Command.Answering
import IconRegistry.Proofs.Command.Listing
import IconRegistry.Proofs.Component.EmptyRegistry
import IconRegistry.Proofs.Registry.Lines
import IconRegistry.Proofs.Registry.ModuleTaking

/-! Requests served by a registry file. The file lists the registered names, one line for each, between texts that no
request changes. -/
namespace IconRegistry.Command

open Component Registry Config

/-- An editor reads the file of an empty registry, and all that a grammar derives in the place of its empty collection. The
constructor is imported where components call it. -/
structure ReadsTemplate (editor : Editor) (grammar : Grammar) (settings : Settings) (framework : Framework)
    (before after : Text) (imports : List (Text × List Text × Bool)) : Prop where
  text : template settings framework = before ++ "\x7b\x7d".toList ++ after
  takes : editor.Takes grammar before after imports
  constructor : ∀ module, CallsConstructor settings framework module → ImportsValue imports Framework.refConstructor module

/-- The file of an empty registry is read where it is of types and JSX, and where the collection has a name that a constant
may have. -/
theorem exists_readsTemplate {settings : Settings}
    (hPath : (Script.Dialect.ofPath? settings.registryPath).getD .tsx = .tsx)
    (hCollection : Script.Rule.IsBindable .tsx settings.collection) (framework : Framework) :
    ∃ before after imports, ReadsTemplate settings.editor .members settings framework before after imports := by
  let written := framework.importLines settings.typescript settings.forwardRef
  have hModule : IsModule (Script.emptyLead written) (Script.spaced written) settings.collection ['\n'] := by
    refine ⟨Script.isGap_emptyLead _, fun item hItem => ?_, hCollection, by decide⟩
    obtain ⟨hLine, hGap⟩ := Script.mem_spaced hItem
    exact ⟨⟨(Framework.isImportable_importLines hLine).1, fun _ => rfl⟩, hGap⟩
  refine ⟨_, _, _, ?_, settings.editor_eq_ofDialect hPath ▸ hModule.takes settings.typescript, ?_⟩
  · have hObject : Script.emptyObject settings.typescript = "\x7b\x7d".toList ++ backOf settings.typescript ['\n'] := rfl
    rw [template, Framework.registryTemplate_eq, Script.emptyRegistry_eq, hObject, ← frontOf_append, List.append_assoc]
  · rintro module ⟨hForward, hModule⟩
    refine ⟨[Framework.refConstructor], List.mem_singleton_self _, ?_⟩
    rw [Script.content_spaced]
    refine List.mem_map.mpr ⟨⟨false, Framework.refConstructor, module⟩, List.mem_append_left _ ?_, rfl⟩
    cases framework <;> simp_all [Framework.constructorLines, Framework.refModule?]

/-- A store whose registry file lists certain names and nothing else. -/
structure Entered (grammar : Grammar) (settings : Settings) (framework : Framework)
    (before after : Text) (icons : List Text) (first : Store) (names : Names) (now : Store) : Prop where
  kept : Kept settings framework icons first now
  listed : ∃ text, now.readText settings.registryPath = .ok text ∧ grammar.Lines before after names text

section

variable {editor : Editor} {grammar : Grammar} {settings : Settings} {framework : Framework} {before after : Text}
  {mode : AddMode} {files first : Store} {icons batch : List Text} {text icon : Text} {names : Names} {w : Workspace}
  {made : Text → Except IconError Text} {imports : List (Text × List Text × Bool)}

/-- The file of an empty registry lists no names. -/
theorem ReadsTemplate.lines (reads : ReadsTemplate editor grammar settings framework before after imports) :
    grammar.Lines before after (fun _ => false) (template settings framework) :=
  reads.text ▸ grammar.lines_nothing before after

/-- The file of an empty registry imports the constructor already, whatever entries it gets. -/
theorem ReadsTemplate.constructorImported
    (reads : ReadsTemplate editor grammar settings framework before after imports)
    (h : grammar.Lines before after names text) : ConstructorImported editor settings framework text text := by
  by_cases hForward : settings.forwardRef = true
  · cases hModule : framework.refModule? with
    | none => exact .unneeded (.inl hModule)
    | some module =>
        exact .ensured hModule hForward (h.ensureImport reads.takes (reads.constructor module ⟨hForward, hModule⟩))
  · exact .unneeded (.inr (by simpa using hForward))

/-- An icon whose component, if it can be made, is a property with its name takes the step that the names tell. -/
theorem exists_entryStep_of_lines (mode : AddMode)
    (reads : ReadsTemplate editor grammar settings framework before after imports)
    (hMade : ∀ component, componentOf settings framework files icon = .ok component →
      grammar.property (some (nameOf icon)) component)
    (h : grammar.Lines before after names text) :
    ∃ result, EntryStep editor settings framework mode files text icon result
        (outcomeOf mode (names (nameOf icon)) icon (componentOf settings framework files icon)) ∧
      grammar.Lines before after
        (names.after (outcomeOf mode (names (nameOf icon)) icon (componentOf settings framework files icon))) result := by
  obtain ⟨view, hView, -⟩ := h.exists_view reads.takes
  have hContains := h.contains reads.takes hView (nameOf icon)
  rw [← hContains]
  cases hSkip : mode.skipReason? (view.contains (nameOf icon)) with
  | some reason =>
      simp only [outcomeOf, hSkip]
      exact ⟨text, .skipped hView hSkip, h⟩
  | none =>
      cases hComponent : componentOf settings framework files icon with
      | error e =>
          simp only [outcomeOf, hSkip]
          exact ⟨text, .failed hView hSkip hComponent, h⟩
      | ok component =>
          have hProperty := hMade component hComponent
          simp only [outcomeOf, hSkip]
          cases hRegistered : view.contains (nameOf icon) with
          | true =>
              obtain ⟨changed, hReplace, hChanged⟩ := h.replace reads.takes (hContains.symm.trans hRegistered) hProperty
              exact ⟨changed, .replaced hView hSkip hRegistered hComponent hReplace
                (reads.constructorImported hChanged), hChanged⟩
          | false =>
              obtain ⟨more, hInsert, hMore⟩ := h.insert reads.takes (hContains.symm.trans hRegistered) hProperty
              exact ⟨more, .added hView hSkip hRegistered hComponent hInsert
                (reads.constructorImported hMore), hMore⟩

/-- So do any number of icons. -/
theorem exists_entrySteps_of_lines (mode : AddMode)
    (reads : ReadsTemplate editor grammar settings framework before after imports)
    (hSame : ∀ icon ∈ batch, componentOf settings framework files icon = made icon)
    (hMade : ∀ icon ∈ batch, ∀ component, made icon = .ok component →
      grammar.property (some (nameOf icon)) component)
    (h : grammar.Lines before after names text) :
    ∃ result, EntrySteps editor settings framework mode files text batch result
        (tellAdded made mode names batch).1 ∧
      grammar.Lines before after (tellAdded made mode names batch).2 result := by
  induction batch generalizing names text with
  | nil => exact ⟨text, .nil, h⟩
  | cons icon rest ih =>
      obtain ⟨hFirstSame, hRestSame⟩ := List.forall_mem_cons.mp hSame
      obtain ⟨hFirst, hRest⟩ := List.forall_mem_cons.mp hMade
      rw [← hFirstSame] at hFirst
      obtain ⟨between, step, hBetween⟩ := exists_entryStep_of_lines mode reads hFirst h
      rw [hFirstSame] at step hBetween
      obtain ⟨result, steps, hResult⟩ := ih hRestSame hRest hBetween
      exact ⟨result, .cons step steps, hResult⟩

/-- A registry file that is written holds the text, and all else stays. -/
theorem Entered.write (h : Entered grammar settings framework before after icons first names w.store)
    (hInline : settings.placement = .inline) {others : Names}
    (hText : grammar.Lines before after others text) :
    ∃ store, (writeFile settings.registryPath text).Gives w () { w with store } ∧
      Entered grammar settings framework before after icons first others store := by
  obtain ⟨old, hRead, -⟩ := h.listed
  obtain ⟨here, hLocate, hNode, hWrite⟩ := gives_writeFile_of_readText hRead text
  have hFile : w.store.node? here ≠ some .directory := by simp [hNode]
  refine ⟨_, hWrite, h.kept.put (by simp [outputs, hInline]) hLocate hFile text, text, ?_, hText⟩
  exact readText_of_gives_writeFile hWrite

/-- An addition is answered as told, and the registry file lists what was told. -/
theorem Entered.add (hInline : settings.placement = .inline)
    (hFramework : Framework.Catalogue.builtin.get settings.framework = .ok framework)
    (reads : ReadsTemplate editor grammar settings framework before after imports)
    (hApart : IconsApart settings framework icons first) (hBatch : ∀ icon ∈ batch, icon ∈ icons)
    (hMade : ∀ icon ∈ icons, ∀ component, componentOf settings framework first icon = .ok component →
      grammar.property (some (nameOf icon)) component)
    (h : Entered grammar settings framework before after icons first names w.store) :
    ∃ w', (Command.add editor settings batch mode).Gives w
        (tellAdded (componentOf settings framework first) mode names batch).1 w' ∧
      Entered grammar settings framework before after icons first
        (tellAdded (componentOf settings framework first) mode names batch).2 w'.store := by
  obtain ⟨text, hRead, hText⟩ := h.listed
  obtain ⟨result, steps, hResult⟩ := exists_entrySteps_of_lines mode reads
    (fun icon hIcon => h.kept.componentOf_eq hApart (hBatch icon hIcon))
    (fun icon hIcon => hMade icon (hBatch icon hIcon)) hText
  obtain ⟨w', hGives, hWritten⟩ := exists_gives_add_inline hInline hFramework hRead steps
  refine ⟨w', hGives, ?_, result, hWritten.readText hRead, hResult⟩
  rw [RegistryWritten] at hWritten
  split at hWritten
  · exact hWritten ▸ h.kept
  · obtain ⟨here, hLocate, hStore⟩ := hWritten
    obtain ⟨here', hLocate', hNode⟩ := Store.readText_eq_ok.mp hRead
    obtain rfl : here = here' := Except.ok.inj (hLocate.symm.trans hLocate')
    rw [hStore]
    exact h.kept.put (by simp [outputs, hInline]) hLocate (by simp [hNode]) result

/-- Entries are removed together, or none of them and the store stays as it is. -/
theorem Entered.remove (hInline : settings.placement = .inline)
    (reads : ReadsTemplate editor grammar settings framework before after imports)
    (h : Entered grammar settings framework before after icons first names w.store) (batch : List Text) :
    ∃ w', (Command.remove editor settings batch).run.run w = ((tellRemoved names batch).1, w') ∧
      Entered grammar settings framework before after icons first (tellRemoved names batch).2 w'.store := by
  obtain ⟨text, hRead, hText⟩ := h.listed
  obtain ⟨noted, hNoted, hStore⟩ := gives_debug (editor.notes text fun _ => []) w
  have hBoth : ∀ result w', (ofRegistry (editor.removeMany text (mentioned batch)) >>=
      writeFile settings.registryPath).run.run noted = (result, w') →
      (removeInline editor settings (mentioned batch)).run.run w = (result, w') := by
    intro result w' hRun
    have hRegistry : (readRegistry settings).Gives w text w := gives_readRegistry.mpr ⟨hRead, rfl⟩
    rw [Gives] at hRegistry hNoted
    rw [removeInline, run_bind, hRegistry]
    simp only
    rw [run_bind, hNoted]
    exact hRun
  rw [Command.remove, map_nameOf_distinctIcons, hInline, tellRemoved]
  by_cases hMissing : (mentioned batch).filter (fun name => !names name) = []
  · have hAll : ∀ name ∈ mentioned batch, names name = true := by simpa using hMissing
    obtain ⟨less, hRemove, hLess⟩ := hText.removeMany reads.takes (nodup_mentioned batch) hAll
    rw [← hStore] at h
    obtain ⟨store, hWrite, hEntered⟩ := h.write hInline hLess
    refine ⟨{ noted with store }, ?_, by simpa [hMissing] using hEntered⟩
    have hRemoved := hBoth (.ok ()) { noted with store } (gives_bind.mpr ⟨less, noted,
      gives_ofRegistry.mpr ⟨hRemove, rfl⟩, hWrite⟩)
    simp only [hMissing, List.isEmpty_nil, if_true]
    exact gives_bind.mpr ⟨(), _, hRemoved, gives_pure.mpr ⟨rfl, rfl⟩⟩
  · have hRefused := hText.removeMany_missing reads.takes hMissing
    have hFails := hBoth _ noted (fails_bind.mpr (.inl (fails_ofRegistry.mpr ⟨⟨_, hRefused, rfl⟩, rfl⟩)))
    refine ⟨noted, ?_, by simpa [hMissing, hStore] using h⟩
    simp only [List.isEmpty_iff, hMissing, if_false]
    exact fails_bind.mpr (.inl hFails)

theorem Entered.clear (hInline : settings.placement = .inline)
    (hFramework : Framework.Catalogue.builtin.get settings.framework = .ok framework)
    (reads : ReadsTemplate editor grammar settings framework before after imports)
    (h : Entered grammar settings framework before after icons first names w.store) :
    ∃ w', (Command.clear settings true).Gives w () w' ∧
      Entered grammar settings framework before after icons first (fun _ => false) w'.store := by
  obtain ⟨store, hWrite, hEntered⟩ := h.write hInline reads.lines
  obtain ⟨w', hNoted, hStore⟩ := gives_note .info ("Cleared ".toList ++ settings.registryPath) { w with store }
  refine ⟨w', ?_, hStore ▸ hEntered⟩
  rw [Command.clear]
  simp only [Bool.not_true, Bool.false_eq_true, if_false]
  refine gives_bind.mpr ⟨framework, w, gives_framework.mpr ⟨hFramework, rfl⟩, ?_⟩
  simp only [hInline]
  exact gives_bind.mpr ⟨(), _, hWrite, hNoted⟩

theorem Entered.list (hInline : settings.placement = .inline)
    (reads : ReadsTemplate editor grammar settings framework before after imports)
    (h : Entered grammar settings framework before after icons first names w.store) :
    ∃ listed w', (Command.list editor settings false).Gives w listed w' ∧ w'.store = w.store ∧ listed.Nodup ∧
      ∀ name, name ∈ listed ↔ names name = true := by
  obtain ⟨text, hRead, hText⟩ := h.listed
  obtain ⟨view, hView, -, hNodup, hNames, -⟩ := hText.exists_view reads.takes
  obtain ⟨w', hGives, hStore⟩ := exists_gives_list_inline hInline hRead hView
  exact ⟨view.names, w', hGives, hStore, hNodup, hNames⟩

/-- A registry file serves all requests about icons whose components are properties with their names. -/
theorem serves_entries (hInline : settings.placement = .inline)
    (hFramework : Framework.Catalogue.builtin.get settings.framework = .ok framework)
    (reads : ReadsTemplate editor grammar settings framework before after imports)
    (hApart : IconsApart settings framework icons first)
    (hMade : ∀ icon ∈ icons, ∀ component, componentOf settings framework first icon = .ok component →
      grammar.property (some (nameOf icon)) component) :
    Serves (componentOf settings framework first) editor settings icons (fun _ => False)
      (Entered grammar settings framework before after icons first) where
  answered {names w request} h hIcons := by
    refine .inl ?_
    cases request with
    | add mode batch => exact h.add hInline hFramework reads hApart hIcons hMade
    | remove batch => exact h.remove hInline reads batch
    | clear =>
        obtain ⟨w', hGives, hAfter⟩ := h.clear hInline hFramework reads
        exact ⟨w', gives_bind.mpr ⟨(), w', hGives, gives_pure.mpr ⟨rfl, rfl⟩⟩, hAfter⟩
  listed h := h.list hInline reads

end

end IconRegistry.Command
