import IconRegistry.Proofs.Registry.StatementLines

/-! Making sure of an import, in any script: it is there afterwards, once, and nothing else has changed. This is so unless
the import goes in front of a decorated statement: where such a statement is reported to start, its decorators have
been before. -/
namespace IconRegistry.Registry

open Script

/-- What a text has to be that an import was made sure of: it has the import, by one more if it was missing; the
collection is what it was; and another time changes nothing. -/
structure Editor.Establishes (editor : Editor) (view : View) (name module text : Text) (changed : View) : Prop where
  viewed : editor.view text = .ok changed
  imported : changed.importsValue name module = true
  imports : changed.imports.map importContent = view.imports.map importContent ++
    if view.importsValue name module then [] else [(module, [name], false)]
  found : changed.interior?.isSome = view.interior?.isSome
  items : changed.items = view.items
  names : changed.names = view.names
  again : editor.ensureImport text name module = .ok text

section Placing

variable {lead name module : Text} {front rest : List Passage} {p : Passage} {s : ScriptText}

@[simp] theorem Passage.importContent?_importing (name module behind : Text) :
    (Passage.importing name module behind).importContent? = some (module, [name], false) := rfl

@[simp] theorem Passage.exportContent?_importing (name module behind : Text) :
    (Passage.importing name module behind).exportContent? = none := rfl

/-- Where the last import of a script ends. -/
theorem ScriptText.exists_last {last : Import} (h : s.outline.imports.getLast? = some last) :
    ∃ front p rest, s.passages = front ++ p :: rest ∧ p.importContent?.isSome = true ∧
      last.stop = (s.lead ++ (writtenPassages front ++ (p.decorators ++ p.text))).length ∧
      rest.filterMap Passage.importContent? = [] := by
  obtain ⟨front, p, rest, hPassages, hLast, hRest⟩ := getLast?_keptFrom h
  refine ⟨front, p, rest, hPassages, ?_, ?_, ?_⟩
  · rw [← map_importContent, hLast]
    rfl
  · cases hDeclaration : p.declaration with
    | imports content =>
        simp only [Passage.import?, hDeclaration, Option.some.injEq] at hLast
        rw [← hLast]
        simp only [List.length_append]
        omega
    | exports | other => simp [Passage.import?, hDeclaration] at hLast
  · rw [← map_keptFrom map_importContent, hRest]
    rfl

end Placing

section Editor

variable {editor : Editor} {modules : ModuleGrammar} {s : ScriptText} {name module text source : Text}

/-- A script of the grammar is viewed by its outline. -/
theorem ReadsModules.view (reads : ReadsModules editor modules) (hs : modules.derives s) :
    editor.view s.text = .ok (View.ofOutline editor.collection s.text s.outline) := by
  rw [Editor.view, reads.complete hs]

/-- An import that is there already is established. -/
theorem Editor.Establishes.of_importsValue {view : View} (hView : editor.view source = .ok view)
    (hImports : view.importsValue name module = true) : editor.Establishes view name module source view where
  viewed := hView
  imported := hImports
  imports := by simp [hImports]
  found := rfl
  items := rfl
  names := rfl
  again := Editor.ensureImport_of_importsValue hView hImports

end Editor

end IconRegistry.Registry
