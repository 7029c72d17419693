import IconRegistry.Proofs.Registry.Importing
import IconRegistry.Proofs.Registry.ModuleTaking

/-! Imports that an editor adds to modules. The module with a further import is a module again, so the reader takes it. -/
namespace IconRegistry.Registry

open Script
open Component (stringLiteral)

section Importing

variable {lead collection ending : Text} {imports : List (ImportLine × Text)} {line last : ImportLine} {gap : Text}

/-- The imports with a further one: behind the last of them, or in front of the export. -/
def withImport (line : ImportLine) (imports : List (ImportLine × Text)) : List (ImportLine × Text) :=
  match imports.getLast? with
  | some (last, gap) => imports.dropLast ++ [(last, ['\n']), (line, gap)]
  | none => [(line, "\n\n".toList)]

theorem withImport_concat (line : ImportLine) (front : List (ImportLine × Text)) (last : ImportLine) (gap : Text) :
    withImport line (front ++ [(last, gap)]) = front ++ [(last, ['\n']), (line, gap)] := by
  simp [withImport]

/-- A module with a further import imports that one last. -/
theorem content_withImport (line : ImportLine) (imports : List (ImportLine × Text)) :
    (withImport line imports).map (·.1.content) = imports.map (·.1.content) ++ [line.content] := by
  rcases List.eq_nil_or_concat imports with rfl | ⟨front, ⟨last, gap⟩, rfl⟩
  · rfl
  · rw [List.concat_eq_append, withImport_concat]
    simp

/-- A module stays one with a further import. -/
theorem IsModule.importing (h : IsModule lead imports collection ending) (hLine : line.IsReadable .tsx) :
    IsModule lead (withImport line imports) collection ending where
  lead := h.lead
  collection := h.collection
  ending := h.ending
  imports := by
    have hBreak : isGap ['\n'] = true ∧ isGap "\n\n".toList = true := by decide
    rcases List.eq_nil_or_concat imports with rfl | ⟨front, ⟨last, gap⟩, rfl⟩
    · rintro item hItem
      obtain rfl := List.mem_singleton.mp hItem
      exact ⟨hLine, hBreak.2⟩
    · have hItems := h.imports
      rw [List.concat_eq_append, List.forall_mem_append, List.forall_mem_singleton] at hItems
      rw [List.concat_eq_append, withImport_concat, List.forall_mem_append]
      exact ⟨hItems.1, List.forall_mem_cons.mpr ⟨⟨hItems.2.1, hBreak.1⟩, List.forall_mem_singleton.mpr
        ⟨hLine, hItems.2.2⟩⟩⟩

theorem importsFrom_concat (position : Nat) (front : List (ImportLine × Text)) (last : ImportLine) (gap : Text) :
    importsFrom position (front ++ [(last, gap)]) =
      importsFrom position front ++ [last.declaration (position + (importsText front).length)] := by
  induction front generalizing position with
  | nil => rfl
  | cons item front ih =>
      have hPosition : position + (importsText (item :: front)).length =
          position + item.1.text.length + item.2.length + (importsText front).length := by
        rw [importsText_cons, List.length_append, List.length_append]
        omega
      rw [List.cons_append, importsFrom, ih, hPosition]
      rfl

/-- The text that an editor writes for an import is a line of one. -/
theorem text_importLine {name module : Text} (hPlain : stringLiteral module = '"' :: (module ++ ['"'])) :
    (⟨false, name, module⟩ : ImportLine).text = importLine name module := by
  have hFront : ∀ s : Text, "import \x7b ".toList ++ s = "import".toList ++ ' ' :: '\x7b' :: ' ' :: s := fun _ => rfl
  have hFrom : ∀ s : Text, " \x7d from \"".toList ++ s =
      ' ' :: '\x7d' :: ' ' :: ("from".toList ++ ' ' :: '"' :: s) := fun _ => rfl
  have hEnd : "\";".toList = ['"', ';'] := rfl
  unfold importLine
  rw [List.append_assoc, List.append_assoc, List.append_assoc, hFront, hFrom, hEnd]
  unfold ImportLine.text ImportLine.marked ImportLine.bindings
  rw [hPlain]
  simp only [Bool.false_eq_true, if_false, List.nil_append, List.cons_append, List.append_assoc]

variable {name module : Text} {view : View} {layout : Layout}

/-- The import that an editor adds to a module is the last one of the module with a further import. -/
theorem importInsertion_frontOf (hPlain : stringLiteral module = '"' :: (module ++ ['"'])) {rest : Text}
    (hImports : view.imports = importsFrom lead.length imports)
    (hStart : imports = [] → view.bodyStart = lead.length) :
    (view.importInsertion name module).apply (frontOf lead imports collection ++ rest) =
      frontOf lead (withImport ⟨false, name, module⟩ imports) collection ++ rest := by
  have hLine : importLine name module = "import \x7b ".toList ++ name ++ " \x7d from \"".toList ++ module ++ "\";".toList :=
    rfl
  rw [View.importInsertion, hImports, ← hLine, ← text_importLine hPlain]
  rcases List.eq_nil_or_concat imports with rfl | ⟨front, ⟨last, gap⟩, rfl⟩
  · have hFront : frontOf lead [] collection ++ rest = lead ++ (exportOf collection [] ++ rest) := by
      simp [frontOf, moduleOf, importsText]
    simp only [importsFrom, List.getLast?_nil, hStart rfl, hFront, Edit.insertAt_apply]
    simp [frontOf, withImport, moduleOf, importsText]
  · have hLast : (importsFrom lead.length (front ++ [(last, gap)])).getLast? =
        some (last.declaration (lead.length + (importsText front).length)) := by
      rw [importsFrom_concat, List.getLast?_concat]
    have hStop : (last.declaration (lead.length + (importsText front).length)).stop =
        (lead ++ (importsText front ++ last.text)).length := by
      simp only [ImportLine.declaration, List.length_append, Nat.add_assoc]
    have hFront : frontOf lead (front ++ [(last, gap)]) collection ++ rest =
        lead ++ (importsText front ++ last.text) ++ (gap ++ (exportOf collection [] ++ rest)) := by
      simp [frontOf, moduleOf, importsText]
    simp only [List.concat_eq_append, hLast, hStop, hFront, Edit.insertAt_apply, withImport_concat]
    simp [frontOf, moduleOf, importsText]

/-- The reader takes a further import in a module. -/
theorem IsModule.takesImport (h : IsModule lead imports collection ending) (typed : Bool)
    (hName : Rule.IsImportable name) (hPlain : stringLiteral module = '"' :: (module ++ ['"'])) :
    (Editor.ofDialect collection .tsx).TakesImport .members (frontOf lead imports collection) (backOf typed ending)
      (imports.map (·.1.content)) name module (frontOf lead (withImport ⟨false, name, module⟩ imports) collection)
      (backOf typed ending) where
  placed {layout view} hLayout hView := by
    obtain ⟨shown, hShown, -, hImports, hStart⟩ := (h.reads typed hLayout).view
    cases hView.symm.trans hShown
    refine importInsertion_frontOf hPlain hImports ?_
    rintro rfl
    rw [hStart]
    simp [outlineOf, importsFrom, importsText]
  takes := by
    have hMore : IsModule lead (withImport ⟨false, name, module⟩ imports) collection ending :=
      h.importing ⟨hName, by rintro ⟨⟩⟩
    have hTakes := hMore.takes typed
    rw [content_withImport] at hTakes
    exact .inl hTakes

/-- What the reader takes around the collection of a view is admitted there. -/
theorem Editor.TakesImport.admitsImport {editor : Editor} {grammar : Grammar}
    {before after before' after' : Text} {contents : List (Text × List Text × Bool)}
    (h : editor.TakesImport grammar before after contents name module before' after')
    (hShows : view.Shows before layout after) (hImports : view.imports.map importContent = contents) :
    editor.AdmitsImport grammar name module view := by
  intro front back hAround _
  rw [hShows.surroundings, Option.some.injEq, Prod.mk.injEq] at hAround
  obtain rfl := List.append_cancel_right hAround.1
  obtain rfl := (List.cons_eq_cons.mp hAround.2).2
  exact ⟨before', after', hImports ▸ h⟩

/-- A module admits further imports, and each has its place. -/
theorem IsModule.admitsImport (h : IsModule lead imports collection ending) (typed : Bool)
    (hLayout : layout.WellFormed .members)
    (hView : (Editor.ofDialect collection .tsx).view
      (layout.between (frontOf lead imports collection) (backOf typed ending)) = .ok view)
    (hName : Rule.IsImportable name) (hPlain : stringLiteral module = '"' :: (module ++ ['"'])) :
    (Editor.ofDialect collection .tsx).AdmitsImport .members name module view ∧
      (Editor.ofDialect collection .tsx).Importable view name module := by
  obtain ⟨shown, hShown, hShows, hImports, -⟩ := h.exists_view typed hLayout
  cases hView.symm.trans hShown
  have hTakes := h.takesImport typed hName hPlain
  have hMore : IsModule lead (withImport ⟨false, name, module⟩ imports) collection ending :=
    h.importing ⟨hName, by rintro ⟨⟩⟩
  refine ⟨hTakes.admitsImport hShows hImports, fun _ => ?_⟩
  obtain ⟨changed, hChanged, -⟩ := (hMore.takes typed).exists_view hLayout
  exact ⟨changed, by rw [Editor.view_source hView, hTakes.placed hLayout hView, hChanged]⟩

end Importing

end IconRegistry.Registry
