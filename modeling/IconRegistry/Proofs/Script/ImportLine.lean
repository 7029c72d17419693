import IconRegistry.Component.SourceFile
import IconRegistry.Proofs.Registry.Reading
import IconRegistry.Proofs.Script.TopLevel

/-! Imports of one name each, with gaps behind them. A dialect reads them one after the other, until one imports a type
and the dialect has none. -/
namespace IconRegistry.Script

open Component (lines stringLiteral)

/-- An import of one name, on a line of its own. -/
structure ImportLine where
  typeOnly : Bool
  name : Text
  source : Text

namespace ImportLine

def bindings (line : ImportLine) (rest : Text) : Text :=
  ' ' :: '\x7b' :: ' ' :: (line.name ++ ' ' :: '\x7d' :: ' ' :: ("from".toList ++ ' ' :: (stringLiteral line.source ++
    ';' :: rest)))

/-- The line behind its first word, in front of a text. -/
def marked (line : ImportLine) (rest : Text) : Text :=
  (if line.typeOnly then ' ' :: "type".toList else []) ++ line.bindings rest

def text (line : ImportLine) : Text :=
  "import".toList ++ line.marked []

variable {dialect : Dialect} {level position previousStop : Nat} {line : ImportLine} {rest : Text}

theorem bindings_append (line : ImportLine) (rest : Text) : line.bindings [] ++ rest = line.bindings rest := by
  simp only [bindings, List.cons_append, List.append_assoc, List.nil_append]

theorem text_append (line : ImportLine) (rest : Text) :
    line.text ++ rest = "import".toList ++ line.marked rest := by
  unfold text marked
  rw [List.append_assoc, List.append_assoc, bindings_append]

def declaration (line : ImportLine) (position : Nat) : Import :=
  ⟨line.source, [line.name], line.typeOnly, position, position + line.text.length⟩

theorem length_text (line : ImportLine) :
    line.text.length = 6 + (if line.typeOnly then 5 else 0) + (line.bindings []).length := by
  have hImport : "import".toList.length = 6 := rfl
  rw [text, marked, List.length_append, List.length_append, hImport, Nat.add_assoc]
  cases line.typeOnly <;> simp

/-- In front of the names of a line, the rest of the line is read. -/
theorem importStatement_bindings {s s₁ : State} (h : Rule.IsImportable line.name) (rest : Text)
    (hImport : s.Meets dialect (.name "import".toList false) s₁)
    (hHead : Rule.importHead (Env.outer dialect (level + 2)) s₁ =
      some ((line.typeOnly, false), .before dialect position (line.bindings rest))) :
    Rule.importStatement (Env.outer dialect (level + 2)) s =
      some (.imports ⟨line.source, [line.name], line.typeOnly, s.lexeme.start, position + (line.bindings []).length⟩,
        .before dialect (position + (line.bindings []).length) rest) := by
  have hStop : position + (line.bindings []).length =
      position + 2 + 1 + line.name.length + 2 + 1 + "from".toList.length + 1 + (stringLiteral line.source).length + 1 := by
    simp only [bindings, List.length_cons, List.length_append, List.length_nil]
    omega
  rw [hStop]
  exact Rule.importStatement_of_head h hImport hHead (meets_spaced (by decide) _)
    (meets_word h.isIdentifier (endsWord_blank _)) (meets_spaced (by decide) _)
    (meets_word (by decide) (endsWord_blank _)) (meets_string _) (meets_semicolon _)

/-- A dialect has what the line is written with. -/
structure IsReadable (dialect : Dialect) (line : ImportLine) : Prop where
  importable : Rule.IsImportable line.name
  hasTypes : line.typeOnly = true → dialect.hasTypes = true

def content (line : ImportLine) : Text × List Text × Bool :=
  (line.source, [line.name], line.typeOnly)

theorem endsWord_marked (line : ImportLine) (rest : Text) : EndsWord (line.marked rest) := by
  unfold marked
  cases line.typeOnly <;> exact endsWord_blank _

/-- The brace in front of the name. -/
theorem meets_bindings (dialect : Dialect) (position : Nat) (line : ImportLine) (rest : Text) :
    ∃ s, (State.before dialect position (line.bindings rest)).Meets dialect (.punct .leftBrace) s :=
  ⟨_, meets_spaced (by decide) _⟩

/-- A line that imports a type tells so behind that word. -/
theorem meets_type (h : line.typeOnly = true) (rest : Text) :
    (State.before dialect position (line.marked rest)).Meets dialect (.name "type".toList false)
      (.before dialect (position + 5) (line.bindings rest)) := by
  have hMarked : line.marked rest = ' ' :: ("type".toList ++ line.bindings rest) := by
    unfold marked
    rw [h]
    rfl
  rw [hMarked]
  exact meets_word (by decide) (endsWord_blank _)

/-- Behind its first word a line has neither the parenthesis of a call nor a dot. -/
theorem marked_ne (line : ImportLine) (rest : Text) :
    ∀ p ∈ [Punct.leftParen, .dot], (State.before dialect position (line.marked rest)).lexeme.token ≠ .punct p := by
  cases hTypeOnly : line.typeOnly with
  | false =>
      obtain ⟨s, hOpen⟩ := meets_bindings dialect position line rest
      unfold marked
      rw [hTypeOnly]
      simp only [Bool.false_eq_true, if_false, List.nil_append, hOpen.token]
      decide
  | true =>
      intro p _
      exact (meets_type hTypeOnly rest).token_ne (by rintro ⟨⟩)

/-- The head of a line tells whether it imports a type. -/
theorem importHead_line (h : line.IsReadable dialect) (position level : Nat) (rest : Text) :
    Rule.importHead (Env.outer dialect level) (.before dialect position (line.marked rest)) =
      some ((line.typeOnly, false), .before dialect (position + if line.typeOnly then 5 else 0) (line.bindings rest)) := by
  cases hTypeOnly : line.typeOnly with
  | false =>
      obtain ⟨s, hOpen⟩ := meets_bindings dialect position line rest
      unfold marked
      rw [hTypeOnly]
      exact Rule.importHead_brace hOpen.token
  | true =>
      obtain ⟨s, hOpen⟩ := meets_bindings dialect (position + 5) line rest
      rw [Rule.importHead_type (meets_type hTypeOnly rest) hOpen.token, h.hasTypes hTypeOnly]
      rfl

/-- A line is met by its first word. -/
theorem meets_import (dialect : Dialect) (newline : Bool) (position previousStop : Nat) (line : ImportLine)
    (rest : Text) :
    (State.opening dialect newline position previousStop (line.text ++ rest)).Meets dialect
      (.name "import".toList false) (.before dialect (position + 6) (line.marked rest)) := by
  rw [text_append]
  exact meets_opening (by decide) (line.endsWord_marked rest) newline previousStop

theorem start_opening (dialect : Dialect) (newline : Bool) (position previousStop : Nat) (line : ImportLine)
    (rest : Text) :
    (State.opening dialect newline position previousStop (line.text ++ rest)).lexeme.start = position := by
  rw [text_append, opening_word (by decide) (line.endsWord_marked rest)]
  rfl

/-- A line that can be read is a statement that imports what it says. -/
theorem IsReadable.statement_line (h : line.IsReadable dialect) (level : Nat) (newline : Bool)
    (position previousStop : Nat) (rest : Text) :
    Rule.statement .list (Env.outer dialect (level + 2))
        (.opening dialect newline position previousStop (line.text ++ rest)) =
      some (⟨position, .imports (line.declaration position)⟩, .before dialect (position + line.text.length) rest) := by
  have hImport := meets_import dialect newline position previousStop line rest
  have hStatement := importStatement_bindings h.importable rest hImport (importHead_line h (position + 6) (level + 2) rest)
  have hStop : position + 6 + (if line.typeOnly then 5 else 0) + (line.bindings []).length =
      position + line.text.length := by
    rw [length_text]
    omega
  rw [Rule.statement_import hImport (line.marked_ne rest), hStatement, hStop, start_opening]
  rfl

/-- Where there are no types, a line that imports one is no statement. -/
theorem statement_line_eq_none (hTypes : dialect.hasTypes = false) (h : line.typeOnly = true) (newline : Bool)
    (rest : Text) :
    Rule.statement .list (Env.outer dialect (level + 1))
      (.opening dialect newline position previousStop (line.text ++ rest)) = none := by
  have hImport := meets_import dialect newline position previousStop line rest
  obtain ⟨s, hOpen⟩ := meets_bindings dialect (position + 6 + 5) line rest
  rw [Rule.statement_import hImport (line.marked_ne rest),
    Rule.importStatement_type_eq_none hTypes hImport (meets_type h rest) hOpen.token]
  rfl

end ImportLine

section Lines

variable {dialect : Dialect} {imports : List (ImportLine × Text)} {name value : Text}

/-- A line is one turn of the statements. -/
theorem statementItem_line (dialect : Dialect) (level : Nat) (newline : Bool) (position previousStop : Nat)
    (line : ImportLine) (rest : Text) :
    statementItem (Env.outer dialect level) (.opening dialect newline position previousStop (line.text ++ rest)) =
      (Rule.statement .list (Env.outer dialect level)
        (.opening dialect newline position previousStop (line.text ++ rest))).map fun r => (some r.1, r.2) := by
  refine statementItem_of_ne ?_
  exact (line.meets_import dialect newline position previousStop rest).token_ne (by rintro ⟨⟩)

/-- Imports, each with the gap behind it. -/
def importsText (imports : List (ImportLine × Text)) : Text :=
  imports.flatMap fun item => item.1.text ++ item.2

theorem importsText_cons (line : ImportLine) (gap : Text) (imports : List (ImportLine × Text)) :
    importsText ((line, gap) :: imports) = line.text ++ (gap ++ importsText imports) := by
  simp [importsText]

/-- Imports in front of the export of a constant. -/
def moduleOf (imports : List (ImportLine × Text)) (name value : Text) : Text :=
  importsText imports ++ exportOf name value

theorem moduleOf_cons (line : ImportLine) (gap : Text) (imports : List (ImportLine × Text)) (name value : Text) :
    moduleOf ((line, gap) :: imports) name value = line.text ++ (gap ++ moduleOf imports name value) := by
  simp [moduleOf, importsText_cons]

/-- What imports declare, the first of which stands at a position. -/
def importsFrom : (position : Nat) → List (ImportLine × Text) → List Import
  | _, [] => []
  | position, (line, gap) :: rest =>
    line.declaration position :: importsFrom (position + line.text.length + gap.length) rest

def Import.statement (declaration : Import) : Statement :=
  ⟨declaration.start, .imports declaration⟩

/-- Wherever they stand, imports import what their lines say. -/
theorem importContent_importsFrom (position : Nat) (imports : List (ImportLine × Text)) :
    (importsFrom position imports).map Registry.importContent = imports.map (·.1.content) := by
  induction imports generalizing position with
  | nil => rfl
  | cons item rest ih =>
      rw [importsFrom, List.map_cons, ih]
      rfl

/-- Nothing is skipped in front of an import or an export. -/
theorem unskipped_moduleOf (legacy : Bool) (imports : List (ImportLine × Text)) (name value : Text) :
    Unskipped legacy (moduleOf imports name value) := by
  have hLetters : beginsUnmarked 'i' = true ∧ beginsUnmarked 'e' = true := by decide
  cases imports with
  | nil => exact unskipped_of_unmarked hLetters.2 legacy _
  | cons item rest => exact unskipped_of_unmarked hLetters.1 legacy _

/-- Imports that a dialect can read are read one after the other. -/
theorem manyWithin_moduleOf (h : ∀ item ∈ imports, item.1.IsReadable dialect ∧ isGap item.2 = true) (level : Nat)
    (name value : Text) (newline : Bool) (position previousStop : Nat) :
    ∃ newline' previousStop', ∀ fuel,
      Rule.manyWithin (fuel + imports.length) statementItem (Env.outer dialect (level + 2))
          (.opening dialect newline position previousStop (moduleOf imports name value)) =
        (Rule.manyWithin fuel statementItem (Env.outer dialect (level + 2))
          (.opening dialect newline' (position + (importsText imports).length) previousStop'
            (exportOf name value))).map fun r => ((importsFrom position imports).map Import.statement ++ r.1, r.2) := by
  induction imports generalizing newline position previousStop with
  | nil => exact ⟨newline, previousStop, fun fuel => by simp [moduleOf, importsText, importsFrom]⟩
  | cons item imports ih =>
      obtain ⟨line, gap⟩ := item
      obtain ⟨⟨hReadable, hGap⟩, hRest⟩ := List.forall_mem_cons.mp h
      obtain ⟨found, hOpening⟩ := exists_opening_gap hGap (unskipped_moduleOf (!dialect.isModule) imports name value)
        false (position + line.text.length) (position + line.text.length)
      obtain ⟨newline', previousStop', hMore⟩ := ih hRest found (position + line.text.length + gap.length)
        (position + line.text.length)
      have hItem := statementItem_line dialect (level + 2) newline position previousStop line
        (gap ++ moduleOf imports name value)
      rw [hReadable.statement_line, Option.map_some, before_eq_opening, hOpening] at hItem
      have hPosition : position + (importsText ((line, gap) :: imports)).length =
          position + line.text.length + gap.length + (importsText imports).length := by
        simp only [importsText_cons, List.length_append]
        omega
      refine ⟨newline', previousStop', fun fuel => ?_⟩
      rw [moduleOf_cons, List.length_cons, ← Nat.add_assoc, manyWithin_more hItem, hMore, Option.map_map, hPosition]
      rfl

/-- Where there are no types, nothing is read if one import is of a type. -/
theorem manyWithin_moduleOf_eq_none (hTypes : dialect.hasTypes = false)
    (h : ∀ item ∈ imports, Rule.IsImportable item.1.name ∧ isGap item.2 = true)
    {marked : ImportLine × Text} (hMarked : marked ∈ imports) (hType : marked.1.typeOnly = true) (level : Nat)
    (name value : Text) (newline : Bool) (position previousStop fuel : Nat) :
    Rule.manyWithin fuel statementItem (Env.outer dialect (level + 2))
      (.opening dialect newline position previousStop (moduleOf imports name value)) = none := by
  induction imports generalizing newline position previousStop fuel with
  | nil => cases hMarked
  | cons item imports ih =>
      obtain ⟨line, gap⟩ := item
      obtain ⟨⟨hImportable, hGap⟩, hRest⟩ := List.forall_mem_cons.mp h
      have hItem := statementItem_line dialect (level + 2) newline position previousStop line
        (gap ++ moduleOf imports name value)
      rw [moduleOf_cons]
      cases fuel with
      | zero => rfl
      | succ fuel =>
          cases hLine : line.typeOnly with
          | true =>
              rw [line.statement_line_eq_none hTypes hLine, Option.map_none] at hItem
              rw [Rule.manyWithin, Rule.bind_run, hItem, Option.bind_none]
          | false =>
              have hReadable : line.IsReadable dialect := ⟨hImportable, fun hTrue => absurd hTrue (by simp [hLine])⟩
              obtain ⟨found, hOpening⟩ := exists_opening_gap hGap
                (unskipped_moduleOf (!dialect.isModule) imports name value) false (position + line.text.length)
                (position + line.text.length)
              rw [hReadable.statement_line, Option.map_some, before_eq_opening, hOpening] at hItem
              have hLater : marked ∈ imports := by
                refine (List.mem_cons.mp hMarked).resolve_left ?_
                rintro rfl
                exact absurd hType (by simp [hLine])
              rw [manyWithin_more hItem, ih hRest hLater, Option.map_none]

end Lines

end IconRegistry.Script
