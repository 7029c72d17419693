import IconRegistry.Framework
import IconRegistry.Proofs.Script.ModuleReading

/-! The file of an empty registry as a script: a comment, the imports that components need, and the export of an empty
object. It is read in every dialect that has what is written there, and its collection is there without entries. -/
namespace IconRegistry

open Component (emptyRegistry lines)

namespace Script

section Export

variable {dialect : Dialect} {collection : Text} {typescript : Bool}

/-- The value of an empty collection, with the end of its statement. -/
def emptyObject (typescript : Bool) : Text :=
  "\x7b\x7d".toList ++ ((if typescript then " as const".toList else []) ++ ";\n".toList)

/-- The value is read as an object without properties where there are types, and elsewhere if it needs none. -/
theorem exists_goal_emptyObject (hTypes : typescript = true → dialect.hasTypes = true) (level position : Nat) :
    ∃ operand start stop position', operand.object? = some ⟨start, stop, []⟩ ∧
      readGoal dialect (level + 8) (.assignment true) (topMode dialect)
          (.before dialect position (' ' :: emptyObject typescript)) =
        some (operand, .before dialect position' [';', '\n']) := by
  have hRead : ∃ start stop position', (readGoal dialect (level + 8) (.assignment true) (topMode dialect)
        (.before dialect position (' ' :: emptyObject typescript))).map (fun r => (r.1.object?, r.2)) =
      some (some ⟨start, stop, []⟩, .before dialect position' [';', '\n']) := by
    obtain ⟨hasTypes, hasJsx, isModule, isAmbient⟩ := dialect
    cases typescript with
    | false =>
        refine ⟨position + 1, position + 3, position + 3, ?_⟩
        cases hasTypes <;> cases hasJsx <;> cases isModule <;> rfl
    | true =>
        obtain rfl : hasTypes = true := hTypes rfl
        refine ⟨position + 1, position + 3, position + 12, ?_⟩
        cases hasJsx <;> cases isModule <;> rfl
  obtain ⟨start, stop, position', hRead⟩ := hRead
  obtain ⟨⟨operand, s⟩, hGoal, hResult⟩ := Option.map_eq_some_iff.mp hRead
  obtain ⟨hObject, rfl⟩ := Prod.mk.inj hResult
  exact ⟨operand, start, stop, position', hObject, hGoal⟩

def registryComment : Text :=
  "// Generated by iconsmith. Entries are kept in alphabetical order.\n".toList

/-- Lines of imports as a module has them: the last one is followed by an empty line. -/
def spaced : List ImportLine → List (ImportLine × Text)
  | [] => []
  | [line] => [(line, "\n\n".toList)]
  | line :: rest => (line, "\n".toList) :: spaced rest

/-- What stands in front of the imports of an empty registry, or of its export where it imports nothing. -/
def emptyLead (imports : List ImportLine) : Text :=
  registryComment ++ if imports.isEmpty then ['\n'] else []

/-- Imports on lines are imports with line breaks between them and a blank line behind them. -/
theorem lines_spaced (line : ImportLine) (rest : List ImportLine) :
    lines ((line :: rest).map ImportLine.text) ++ ['\n'] = importsText (spaced (line :: rest)) := by
  induction rest generalizing line with
  | nil => simp [lines, spaced, importsText]
  | cons next rest ih =>
      rw [spaced, importsText_cons, ← ih]
      · simp [lines]
      · rintro ⟨⟩

/-- Spaced imports are the imports, each with a gap behind it. -/
theorem mem_spaced {item : ImportLine × Text} {imports : List ImportLine} (h : item ∈ spaced imports) :
    item.1 ∈ imports ∧ isGap item.2 = true := by
  induction imports with
  | nil => cases h
  | cons line rest ih =>
      cases rest with
      | nil =>
          obtain rfl := List.mem_singleton.mp h
          exact ⟨List.mem_singleton_self line, rfl⟩
      | cons next rest =>
          rcases List.mem_cons.mp h with rfl | hRest
          · exact ⟨List.mem_cons_self, rfl⟩
          · exact ⟨List.mem_cons_of_mem _ (ih hRest).1, (ih hRest).2⟩

theorem map_spaced (imports : List ImportLine) : (spaced imports).map (·.1) = imports := by
  induction imports with
  | nil => rfl
  | cons line rest ih =>
      cases rest with
      | nil => rfl
      | cons next rest =>
          rw [spaced, List.map_cons, ih]
          rintro ⟨⟩

theorem content_spaced (imports : List ImportLine) :
    (spaced imports).map (·.1.content) = imports.map ImportLine.content := by
  conv => rhs; rw [← map_spaced imports, List.map_map]
  rfl

theorem isGap_emptyLead (imports : List ImportLine) : isGap (emptyLead imports) = true := by
  cases imports <;> exact (by decide +kernel : ∀ b : Bool, isGap (registryComment ++ if b then ['\n'] else []) = true) _

/-- The file of an empty registry is a module of imports and an empty object. -/
theorem emptyRegistry_eq (imports : List ImportLine) (collection : Text) (typescript : Bool) :
    emptyRegistry (imports.map ImportLine.text) collection typescript =
      emptyLead imports ++ moduleOf (spaced imports) collection (emptyObject typescript) := by
  have hLead : ∀ rest, emptyLead imports ++ (importsText (spaced imports) ++ rest) =
      registryComment ++ (lines (imports.map ImportLine.text) ++ '\n' :: rest) := by
    intro rest
    cases imports with
    | nil => simp [emptyLead, spaced, importsText, lines]
    | cons line more =>
        rw [← lines_spaced]
        simp [emptyLead]
  have hExport : ∀ s : Text, "\nexport const ".toList ++ s =
      '\n' :: ("export".toList ++ ' ' :: ("const".toList ++ ' ' :: s)) := fun _ => rfl
  have hObject : ∀ s : Text, " = \x7b\x7d".toList ++ s = " = ".toList ++ ("\x7b\x7d".toList ++ s) := fun _ => rfl
  unfold emptyRegistry moduleOf
  rw [hLead]
  unfold exportOf emptyObject
  rewrite [← hObject]
  rewrite [List.append_assoc, List.append_assoc, List.append_assoc, List.append_assoc, List.append_assoc, hExport]
  rfl

variable {imports : List ImportLine}

/-- The file of an empty registry is a module whose constant is an object without properties. -/
theorem statements?_emptyRegistry (h : Rule.IsBindable dialect collection)
    (hLines : ∀ line ∈ imports, line.IsReadable dialect) (hTypes : typescript = true → dialect.hasTypes = true) :
    ∃ start stop, statements? dialect (emptyRegistry (imports.map ImportLine.text) collection typescript) =
      some ((importsFrom (emptyLead imports).length (spaced imports)).map Import.statement ++
        [⟨(emptyLead imports).length + (importsText (spaced imports)).length,
          .exportsVariables [⟨some collection, some ⟨start, stop, []⟩⟩]⟩]) := by
  obtain ⟨level, hLevel⟩ : ∃ level, levelFor
      (emptyLead imports ++ moduleOf (spaced imports) collection (emptyObject typescript)) = level + 8 := by
    refine ⟨levelFor (emptyLead imports ++ moduleOf (spaced imports) collection (emptyObject typescript)) - 8, ?_⟩
    rw [levelFor]
    omega
  obtain ⟨operand, start, stop, close, hObject, hValue⟩ := exists_goal_emptyObject hTypes level
    ((emptyLead imports).length + (importsText (spaced imports)).length + 13 + collection.length + 2)
  rw [← hLevel] at hValue
  refine ⟨start, stop, ?_⟩
  rw [emptyRegistry_eq, ← hObject]
  exact statements?_moduleOf (isGap_emptyLead imports)
    (fun item hItem => ⟨hLines item.1 (mem_spaced hItem).1, (mem_spaced hItem).2⟩) h hValue (by decide)

/-- Where there are no types, no file that imports one can be read. -/
theorem statements?_emptyRegistry_eq_none (hTypes : dialect.hasTypes = false)
    (h : ∀ line ∈ imports, Rule.IsImportable line.name) {marked : ImportLine} (hMarked : marked ∈ imports)
    (hType : marked.typeOnly = true) :
    statements? dialect (emptyRegistry (imports.map ImportLine.text) collection typescript) = none := by
  obtain ⟨item, hItem, rfl⟩ : ∃ item ∈ spaced imports, item.1 = marked := by
    rw [← map_spaced imports] at hMarked
    exact List.mem_map.mp hMarked
  rw [emptyRegistry_eq]
  exact statements?_moduleOf_eq_none hTypes (isGap_emptyLead imports)
    (fun item hItem => ⟨h item.1 (mem_spaced hItem).1, (mem_spaced hItem).2⟩) hItem hType

end Export

end Script

namespace Registry

open Script

variable {dialect : Dialect} {collection : Text} {typescript : Bool} {imports : List ImportLine}

/-- An empty registry is viewed as one: its collection is there, and it has no entries. -/
theorem Editor.view_emptyRegistry (h : Rule.IsBindable dialect collection)
    (hLines : ∀ line ∈ imports, line.IsReadable dialect) (hTypes : typescript = true → dialect.hasTypes = true) :
    ∃ view, (Editor.ofDialect collection dialect).view
        (emptyRegistry (imports.map ImportLine.text) collection typescript) = .ok view ∧
      view.interior?.isSome = true ∧ view.names = [] ∧
      view.imports.map importContent = imports.map ImportLine.content := by
  obtain ⟨start, stop, hRead⟩ := statements?_emptyRegistry h hLines hTypes
  have hOutline := Outline.read_of_statements hRead
  refine ⟨_, by simp only [Editor.view, Editor.ofDialect, hOutline]; rfl, ?_⟩
  simp only [View.ofOutline, collectionIn?, List.findSome?_cons, beq_self_eq_true, if_true, View.names, entriesFrom,
    List.map_nil, Option.isSome_some, importContent_importsFrom, content_spaced, and_self]

/-- Where there are no types, an empty registry that imports one cannot be read. -/
theorem Editor.view_emptyRegistry_eq_error (hTypes : dialect.hasTypes = false)
    (h : ∀ line ∈ imports, Rule.IsImportable line.name) {marked : ImportLine} (hMarked : marked ∈ imports)
    (hType : marked.typeOnly = true) :
    (Editor.ofDialect collection dialect).view (emptyRegistry (imports.map ImportLine.text) collection typescript) =
      .error .unreadable := by
  have hOutline : Outline.read dialect (emptyRegistry (imports.map ImportLine.text) collection typescript) = none := by
    rw [Outline.read, statements?_emptyRegistry_eq_none hTypes h hMarked hType]
    rfl
  simp only [Editor.view, Editor.ofDialect, hOutline]

end Registry

namespace Framework

open Script

def constructorLines (framework : Framework) (forwardRef : Bool) : List ImportLine :=
  match framework with
  | vue => [⟨false, callConstructor, "vue".toList⟩]
  | _ =>
    match framework.refModule? with
    | some source => if forwardRef then [⟨false, refConstructor, source⟩] else []
    | none => []

def propsLine : Framework → ImportLine
  | react => ⟨true, "SVGProps".toList, "react".toList⟩
  | preact => ⟨true, "JSX".toList, "preact".toList⟩
  | solid => ⟨true, "JSX".toList, "solid-js".toList⟩
  | vue => ⟨true, "SVGAttributes".toList, "vue".toList⟩

def importLines (framework : Framework) (typescript forwardRef : Bool) : List ImportLine :=
  framework.constructorLines forwardRef ++ if typescript then [framework.propsLine] else []

variable {framework : Framework} {typescript forwardRef : Bool} {dialect : Dialect} {collection : Text}

theorem imports_eq (framework : Framework) (typescript forwardRef : Bool) :
    framework.imports typescript forwardRef = (framework.importLines typescript forwardRef).map ImportLine.text := by
  cases framework <;> cases typescript <;> cases forwardRef <;> decide +kernel

def importedNames : List Text :=
  ["h", "forwardRef", "SVGProps", "JSX", "SVGAttributes"].map String.toList

/-- All names that frameworks import can be imported. -/
theorem isImportable_of_mem {name : Text} (h : name ∈ importedNames) : Rule.IsImportable name := by
  have hAll : ∀ name ∈ importedNames,
      IsIdentifier name ∧ isReserved name = false ∧ name ≠ "type".toList ∧ name ≠ "await".toList := by decide +kernel
  obtain ⟨hIdentifier, hFree, hType, hAwait⟩ := hAll name h
  exact ⟨hIdentifier, hFree, hType, hAwait⟩

/-- Types are imported where there are types, and nowhere else. -/
theorem isImportable_importLines {line : ImportLine} (h : line ∈ framework.importLines typescript forwardRef) :
    Rule.IsImportable line.name ∧ (line.typeOnly = true → typescript = true) := by
  have hAll : ∀ line ∈ framework.importLines typescript forwardRef,
      line.name ∈ importedNames ∧ (line.typeOnly = true → typescript = true) := by
    cases framework <;> cases typescript <;> cases forwardRef <;> decide +kernel
  exact ⟨isImportable_of_mem (hAll line h).1, (hAll line h).2⟩

/-- Where there are types, the type of the properties is imported. -/
theorem propsLine_mem (framework : Framework) (forwardRef : Bool) :
    framework.propsLine ∈ framework.importLines true forwardRef :=
  List.mem_append_right _ (List.mem_singleton_self _)

/-- The template of a framework is the file of an empty registry. -/
theorem registryTemplate_eq (framework : Framework) (collection : Text) (typescript forwardRef : Bool) :
    framework.registryTemplate collection typescript forwardRef =
      emptyRegistry ((framework.importLines typescript forwardRef).map ImportLine.text) collection typescript := by
  rw [registryTemplate, imports_eq]

/-- The file of an empty registry can be read where there are types or none are written. -/
theorem view_registryTemplate (h : Rule.IsBindable dialect collection)
    (hTypes : typescript = true → dialect.hasTypes = true) :
    ∃ view, (Registry.Editor.ofDialect collection dialect).view
        (framework.registryTemplate collection typescript forwardRef) = .ok view ∧
      view.interior?.isSome = true ∧ view.names = [] ∧
      view.imports.map Registry.importContent =
        (framework.importLines typescript forwardRef).map ImportLine.content := by
  rw [registryTemplate_eq]
  refine Registry.Editor.view_emptyRegistry h (fun line hLine => ?_) hTypes
  obtain ⟨hImportable, hType⟩ := isImportable_importLines hLine
  exact ⟨hImportable, fun hMarked => hTypes (hType hMarked)⟩

/-- Where there are no types, the file of an empty registry that has some cannot be read. -/
theorem view_registryTemplate_eq_error (hTypes : dialect.hasTypes = false) :
    (Registry.Editor.ofDialect collection dialect).view (framework.registryTemplate collection true forwardRef) =
      .error .unreadable := by
  rw [registryTemplate_eq]
  exact Registry.Editor.view_emptyRegistry_eq_error hTypes (fun _ hLine => (isImportable_importLines hLine).1)
    (framework.propsLine_mem forwardRef) (by cases framework <;> rfl)

end Framework

end IconRegistry
