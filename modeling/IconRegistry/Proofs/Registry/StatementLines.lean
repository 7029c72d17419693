import IconRegistry.Proofs.Path.Pieces
import IconRegistry.Proofs.Registry.Passages
import IconRegistry.Proofs.Text.Trim

/-! A small reader of modules. It knows imports of one value and a few other statements, each on a line of its own; all
that is assumed of readers of modules holds of it. -/
namespace IconRegistry.Registry.StatementLines

open Script

/-- Whether a name may be imported: here it has to be a name of letters. -/
def isBinding (name : Text) : Bool :=
  !name.isEmpty && name.all Char.isAlpha

def importOf? (line : Text) : Option (Text × Text) :=
  (Text.dropFront? "import \x7b ".toList line).bind fun bindings =>
    let name := bindings.takeWhile Char.isAlpha
    (Text.dropFront? " \x7d from \"".toList (bindings.dropWhile Char.isAlpha)).bind fun specifier =>
      let module := specifier.takeWhile (· != '"')
      if line = importLine name module ∧ isBinding name = true ∧ IsSpecifier module then some (name, module) else none

/-- The other statements: each with its decorators, its text and what is kept of it. -/
def others : List (Text × Text × Declaration) :=
  [("@icon ".toList, "export class Icon \x7b\x7d".toList, .other),
    ([], "export class Icon \x7b\x7d".toList, .other),
    ([], "export const Icons = \x7b A: 1 \x7d;".toList,
      .exports [⟨some "Icons".toList, some ⟨21, 29, [⟨23, 27, some ['A']⟩]⟩⟩])]

def passage? (line behind : Text) : Option Passage :=
  match importOf? line with
  | some (name, module) => some (.importing name module behind)
  | none => (others.find? fun other => other.1 ++ other.2.1 == line).map fun other =>
      ⟨other.1, other.2.1, other.2.2, behind⟩

/-- The script that lines are. The last line is empty, so that each statement is ended by a line break. -/
def script? : List Text → Option ScriptText
  | [] => none
  | [line] => if line = [] then some ⟨[], []⟩ else none
  | line :: lines => (script? lines).bind fun s =>
    if line = [] then some ⟨'\n' :: s.lead, s.passages⟩
    else (passage? line ('\n' :: s.lead)).map fun p => ⟨[], p :: s.passages⟩

/-- The scripts that can be read. -/
inductive Derives : ScriptText → Prop
  | nil : Derives ⟨[], []⟩
  | blank {s} : Derives s → Derives ⟨'\n' :: s.lead, s.passages⟩
  | statement {line s p} : passage? line ('\n' :: s.lead) = some p → Derives s → Derives ⟨[], p :: s.passages⟩

def editor (collection : Text) : Editor :=
  ⟨collection, fun source => (script? (Text.splitAtChar '\n' source)).map ScriptText.outline⟩

section Lines

variable {line behind name module : Text} {lines : List Text} {p : Passage} {s : ScriptText}

theorem importOf?_importLine (hName : isBinding name = true) (hModule : IsSpecifier module) :
    importOf? (importLine name module) = some (name, module) := by
  have hLetters : ∀ c ∈ name, c.isAlpha = true := List.all_eq_true.mp (Bool.and_eq_true_iff.mp hName).2
  have hQuote : ∀ c ∈ module, (c != '"') = true := fun c hc => by
    rw [bne_iff_ne]
    rintro rfl
    exact hModule _ hc (by decide)
  have hLine : importLine name module =
      "import \x7b ".toList ++ (name ++ (" \x7d from \"".toList ++ (module ++ "\";".toList))) := by
    unfold importLine
    simp only [List.append_assoc]
  have hTake (s : Text) : (name ++ (" \x7d from \"".toList ++ s)).takeWhile Char.isAlpha = name := by
    rw [List.takeWhile_append_of_pos hLetters]
    simp
  have hDrop (s : Text) : (name ++ (" \x7d from \"".toList ++ s)).dropWhile Char.isAlpha =
      " \x7d from \"".toList ++ s := by
    rw [List.dropWhile_append_of_pos hLetters]
    simp
  have hSpecifier : (module ++ "\";".toList).takeWhile (· != '"') = module := by
    rw [List.takeWhile_append_of_pos hQuote]
    simp
  have hBindings : Text.dropFront? "import \x7b ".toList (importLine name module) =
      some (name ++ (" \x7d from \"".toList ++ (module ++ "\";".toList))) := by
    rw [hLine, Text.dropFront?_append]
  rw [importOf?, hBindings, Option.bind_some, hTake, hDrop, Text.dropFront?_append, Option.bind_some, hSpecifier]
  exact if_pos ⟨rfl, hName, hModule⟩

/-- A line that is an import is written as imports are. -/
theorem eq_of_importOf? (h : importOf? line = some (name, module)) :
    line = importLine name module ∧ isBinding name = true ∧ IsSpecifier module := by
  obtain ⟨bindings, -, h⟩ := Option.bind_eq_some_iff.mp h
  obtain ⟨specifier, -, h⟩ := Option.bind_eq_some_iff.mp h
  dsimp only at h
  split at h
  · rename_i hLine
    cases h
    exact hLine
  · cases h

theorem passage?_importLine (hName : isBinding name = true) (hModule : IsSpecifier module) (behind : Text) :
    passage? (importLine name module) behind = some (.importing name module behind) := by
  rw [passage?, importOf?_importLine hName hModule]

/-- A passage is an import or one of the other statements. -/
theorem passage?_cases (h : passage? line behind = some p) :
    (∃ name module, line = importLine name module ∧ isBinding name = true ∧ IsSpecifier module ∧
      p = .importing name module behind) ∨
    ∃ other ∈ others, line = other.1 ++ other.2.1 ∧ p = ⟨other.1, other.2.1, other.2.2, behind⟩ := by
  rw [passage?] at h
  cases hImport : importOf? line with
  | some found =>
      obtain ⟨name, module⟩ := found
      rw [hImport] at h
      obtain ⟨hLine, hName, hModule⟩ := eq_of_importOf? hImport
      exact .inl ⟨name, module, hLine, hName, hModule, (Option.some.inj h).symm⟩
  | none =>
      rw [hImport] at h
      obtain ⟨other, hFound, rfl⟩ := Option.map_eq_some_iff.mp h
      refine .inr ⟨other, List.mem_of_find?_eq_some hFound, ?_, rfl⟩
      have hLine := List.find?_some hFound
      exact (beq_iff_eq.mp hLine).symm

/-- A passage is the line and what stands behind it. -/
theorem written_of_passage? (h : passage? line behind = some p) : p.written = line ++ behind := by
  rcases passage?_cases h with ⟨name, module, rfl, -, -, rfl⟩ | ⟨other, -, rfl, rfl⟩
  · rfl
  · simp [Passage.written]

theorem passage?_decorators (h : passage? line behind = some p) : p.decorators <+: line := by
  rcases passage?_cases h with ⟨name, module, rfl, -, -, rfl⟩ | ⟨other, -, rfl, rfl⟩
  · exact List.nil_prefix
  · exact List.prefix_append _ _

/-- What stands behind a line does not matter. -/
theorem passage?_behind (h : passage? line behind = some p) (other : Text) :
    p.behind = behind ∧ passage? line other = some { p with behind := other } := by
  rw [passage?] at h ⊢
  cases hImport : importOf? line with
  | some found =>
      rw [hImport] at h
      cases h
      exact ⟨rfl, rfl⟩
  | none =>
      rw [hImport] at h
      obtain ⟨found, hFound, rfl⟩ := Option.map_eq_some_iff.mp h
      exact ⟨rfl, by rw [hFound]; rfl⟩

theorem isLine_of_passage? (h : passage? line behind = some p) : line ≠ [] ∧ '\n' ∉ line := by
  rcases passage?_cases h with ⟨name, module, rfl, hName, hModule, -⟩ | ⟨other, hOther, rfl, -⟩
  · have hLetters : '\n' ∉ name := fun hMem =>
      absurd (List.all_eq_true.mp (Bool.and_eq_true_iff.mp hName).2 _ hMem) (by decide)
    have hBreak : '\n' ∉ module := fun hMem => hModule _ hMem (by decide)
    unfold importLine
    simp [hLetters, hBreak]
  · have hOthers : ∀ other ∈ others, other.1 ++ other.2.1 ≠ [] ∧ '\n' ∉ other.1 ++ other.2.1 := by decide
    exact hOthers other hOther

theorem holdsProperties_of_passage? (h : passage? line behind = some p) : p.HoldsProperties := by
  rcases passage?_cases h with ⟨name, module, -, -, -, rfl⟩ | ⟨other, hOther, -, rfl⟩
  · intro declarators hDeclaration
    cases hDeclaration
  · simp only [others, List.mem_cons, List.not_mem_nil, or_false] at hOther
    rcases hOther with rfl | rfl | rfl
    all_goals
      intro declarators hDeclaration
      cases hDeclaration
    simp

/-- Behind decorators there is no import. -/
theorem passage?_decorated (h : passage? line behind = some p) (hDecorators : p.decorators ≠ []) (other : Text) :
    passage? (p.decorators ++ importLine name module) other = none := by
  rcases passage?_cases h with ⟨_, _, -, -, -, rfl⟩ | ⟨statement, hStatement, -, rfl⟩
  · exact absurd rfl hDecorators
  · simp only [others, List.mem_cons, List.not_mem_nil, or_false] at hStatement
    rcases hStatement with rfl | rfl | rfl
    · rfl
    · exact absurd rfl hDecorators
    · exact absurd rfl hDecorators

/-- A line more in front is a passage more, or a line break more in front. -/
theorem script?_cons (hLines : lines ≠ []) (line : Text) :
    script? (line :: lines) = (script? lines).bind fun s =>
      if line = [] then some ⟨'\n' :: s.lead, s.passages⟩
      else (passage? line ('\n' :: s.lead)).map fun p => ⟨[], p :: s.passages⟩ := by
  cases lines with
  | nil => exact absurd rfl hLines
  | cons => rfl

end Lines

section Scripts

variable {name module lead : Text} {lines : List Text} {front rest : List Passage} {p : Passage} {s : ScriptText}

/-- A script that is derived is read from its lines. -/
theorem Derives.script?_text (h : Derives s) : script? (Text.splitAtChar '\n' s.text) = some s := by
  induction h with
  | nil => rfl
  | @blank s hs ih =>
      have hText : ScriptText.text ⟨'\n' :: s.lead, s.passages⟩ = [] ++ '\n' :: s.text := by
        simp [ScriptText.text]
      rw [hText, Text.splitAtChar_append, Text.splitAtChar_of_not_mem (by simp), List.singleton_append,
        script?_cons (Text.splitAtChar_ne_nil _ _), ih]
      rfl
  | @statement line s p hLine hs ih =>
      obtain ⟨hSome, hBreak⟩ := isLine_of_passage? hLine
      have hText : ScriptText.text ⟨[], p :: s.passages⟩ = line ++ '\n' :: s.text := by
        have hWritten := written_of_passage? hLine
        simp only [ScriptText.text, writtenPassages, List.flatMap_cons, hWritten]
        simp
      rw [hText, Text.splitAtChar_append, Text.splitAtChar_of_not_mem hBreak, List.singleton_append,
        script?_cons (Text.splitAtChar_ne_nil _ _), ih]
      simp [hSome, hLine]

/-- All lines of a script but the empty ones are passages. -/
theorem passage?_of_mem {line : Text} (h : script? lines = some s) (hLine : line ∈ lines) (hSome : line ≠ []) :
    ∃ behind p, passage? line behind = some p := by
  induction lines generalizing s with
  | nil => cases hLine
  | cons first lines ih =>
      by_cases hLines : lines = []
      · subst hLines
        obtain rfl : line = first := by simpa using hLine
        simp [script?, hSome] at h
      · rw [script?_cons hLines, Option.bind_eq_some_iff] at h
        obtain ⟨t, ht, h⟩ := h
        rcases List.mem_cons.mp hLine with rfl | hLine
        · rw [if_neg hSome] at h
          obtain ⟨p, hp, -⟩ := Option.map_eq_some_iff.mp h
          exact ⟨_, p, hp⟩
        · exact ih ht hLine

theorem Derives.holdsProperties (h : Derives s) : ∀ p ∈ s.passages, p.HoldsProperties := by
  induction h with
  | nil => simp
  | blank _ ih => exact ih
  | statement hLine _ ih => exact List.forall_mem_cons.mpr ⟨holdsProperties_of_passage? hLine, ih⟩

/-- A script with statements begins with line breaks and the line of the first one. -/
theorem Derives.exists_first (h : Derives ⟨lead, p :: rest⟩) :
    (∀ c ∈ lead, c = '\n') ∧
      ∃ line t, passage? line ('\n' :: t.lead) = some p ∧ Derives t ∧ t.passages = rest := by
  generalize hs : ScriptText.mk lead (p :: rest) = s at h
  induction h generalizing lead with
  | nil => simp at hs
  | blank _ ih =>
      obtain ⟨rfl, hPassages⟩ := ScriptText.mk.inj hs
      obtain ⟨hBreaks, hFirst⟩ := ih (by rw [hPassages])
      exact ⟨List.forall_mem_cons.mpr ⟨rfl, hBreaks⟩, hFirst⟩
  | @statement line t q hLine ht _ =>
      obtain ⟨rfl, hPassages⟩ := ScriptText.mk.inj hs
      obtain ⟨rfl, rfl⟩ := List.cons_eq_cons.mp hPassages
      exact ⟨by simp, line, t, hLine, ht, rfl⟩

theorem Derives.blanks (hLead : ∀ c ∈ lead, c = '\n') (h : Derives ⟨[], rest⟩) : Derives ⟨lead, rest⟩ := by
  induction lead with
  | nil => exact h
  | cons c lead ih =>
      obtain ⟨rfl, hRest⟩ := List.forall_mem_cons.mp hLead
      exact (ih hRest).blank

/-- An import may follow another one on a line of its own. -/
theorem Derives.behind (hName : isBinding name = true) (hModule : IsSpecifier module)
    (h : Derives ⟨lead, front ++ p :: rest⟩) :
    Derives ⟨lead, front ++ { p with behind := ['\n'] } :: .importing name module p.behind :: rest⟩ := by
  induction front generalizing lead with
  | nil =>
      obtain ⟨hLead, line, t, hLine, ht, rfl⟩ := h.exists_first
      obtain ⟨hBehind, hAgain⟩ := passage?_behind hLine ['\n']
      rw [hBehind]
      exact .blanks hLead (.statement (s := ⟨[], _ :: t.passages⟩) hAgain
        (.statement (passage?_importLine hName hModule _) ht))
  | cons first front ih =>
      obtain ⟨hLead, line, t, hLine, ht, hRest⟩ := h.exists_first
      have hHere : Derives ⟨t.lead, front ++ p :: rest⟩ := by
        rw [List.append_eq] at hRest
        rwa [← hRest]
      exact .blanks hLead (.statement (s := ⟨t.lead, _⟩) hLine (ih hHere))

theorem Derives.inFront (hName : isBinding name = true) (hModule : IsSpecifier module)
    (h : Derives ⟨lead, p :: rest⟩) : Derives ⟨lead, .importing name module "\n\n".toList :: p :: rest⟩ := by
  obtain ⟨hLead, line, t, hLine, ht, rfl⟩ := h.exists_first
  exact .blanks hLead (.statement (passage?_importLine hName hModule _) (.blank (.statement hLine ht)))

/-- Behind line breaks stands a line. -/
theorem mem_splitAtChar_behind {line : Text} (hLead : ∀ c ∈ lead, c = '\n') (hLine : '\n' ∉ line) (after : Text) :
    line ∈ Text.splitAtChar '\n' (lead ++ (line ++ '\n' :: after)) := by
  induction lead with
  | nil =>
      rw [List.nil_append, Text.splitAtChar_append, Text.splitAtChar_of_not_mem hLine]
      simp
  | cons c lead ih =>
      obtain ⟨rfl, hRest⟩ := List.forall_mem_cons.mp hLead
      have hText : '\n' :: lead ++ (line ++ '\n' :: after) = [] ++ '\n' :: (lead ++ (line ++ '\n' :: after)) := rfl
      rw [hText, Text.splitAtChar_append]
      exact List.mem_append_right _ (ih hRest)

/-- Where the first statement is reported to start, behind decorators, an import would be on their line. -/
theorem Derives.decorated {t : ScriptText} (hName : isBinding name = true) (hModule : IsSpecifier module)
    (h : Derives ⟨lead, p :: rest⟩) (hDecorators : p.decorators ≠ []) (ht : Derives t) :
    t.text ≠ (lead ++ p.decorators) ++ (importLine name module ++ "\n\n".toList ++
      (p.text ++ (p.behind ++ writtenPassages rest))) := by
  intro hText
  obtain ⟨hLead, line, after, hLine, -, -⟩ := h.exists_first
  have hImport := (isLine_of_passage? (passage?_importLine hName hModule [])).2
  have hTorn : '\n' ∉ p.decorators ++ importLine name module := by
    rw [List.mem_append, not_or]
    exact ⟨fun hMem => (isLine_of_passage? hLine).2 ((passage?_decorators hLine).subset hMem), hImport⟩
  have hSplit : t.text = lead ++ ((p.decorators ++ importLine name module) ++ '\n' :: ('\n' ::
      (p.text ++ (p.behind ++ writtenPassages rest)))) := by
    rw [hText]
    simp
  have hMem := mem_splitAtChar_behind hLead hTorn ('\n' :: (p.text ++ (p.behind ++ writtenPassages rest)))
  rw [← hSplit] at hMem
  obtain ⟨behind', q, hq⟩ := passage?_of_mem ht.script?_text hMem (by simp [hDecorators])
  rw [passage?_decorated hLine hDecorators] at hq
  cases hq

end Scripts

def modules : ModuleGrammar where
  derives := Derives
  binding name := isBinding name = true
  inside h := h.holdsProperties
  behindImport h _ hName hModule := h.behind hName hModule
  inFront h hName hModule := h.inFront hName hModule
  decorated h hDecorators hName hModule ht := h.decorated hName hModule hDecorators ht

end IconRegistry.Registry.StatementLines
