import IconRegistry.Proofs.Registry.Importing

/-! Scripts as passages: the statements of a script with what stands around them. What an outline keeps of a script can
be told from its passages, and a passage more moves what stands behind it and changes nothing else. What is assumed of
readers of modules is stated of passages. -/
namespace IconRegistry.Registry

open Script

/-- What an outline keeps of a statement, with places counted from where the statement is reported to start. -/
inductive Declaration
  | imports (content : Text × List Text × Bool)
  | exports (declarators : List Declarator)
  | other

/-- A statement as it stands in a script. In front of where it is reported to start, it may have decorators; behind it
stands what is in front of the next statement. -/
structure Passage where
  decorators : Text
  text : Text
  declaration : Declaration
  behind : Text

/-- A script with what stands in front of its first statement, such as directives, and its statements. -/
structure ScriptText where
  lead : Text
  passages : List Passage

def movedLiteral (position : Nat) (object : ObjectLiteral) : ObjectLiteral :=
  ⟨object.start + position, object.stop + position,
    object.properties.map fun p => ⟨p.start + position, p.stop + position, p.name?⟩⟩

def movedDeclarator (position : Nat) (d : Declarator) : Declarator :=
  ⟨d.name?, d.object?.map (movedLiteral position)⟩

namespace Passage

def written (p : Passage) : Text :=
  p.decorators ++ (p.text ++ p.behind)

def import? (p : Passage) (start : Nat) : Option Import :=
  match p.declaration with
  | .imports (source, locals, typeOnly) => some ⟨source, locals, typeOnly, start, start + p.text.length⟩
  | _ => none

def exported? (p : Passage) (start : Nat) : Option (List Declarator) :=
  match p.declaration with
  | .exports declarators => some (declarators.map (movedDeclarator start))
  | _ => none

/-- What a statement imports, wherever it stands. -/
def importContent? (p : Passage) : Option (Text × List Text × Bool) :=
  match p.declaration with
  | .imports content => some content
  | _ => none

/-- What a statement exports, wherever it stands. -/
def exportContent? (p : Passage) : Option (List (Option Text × Option (List (Option Text × Text)))) :=
  match p.declaration with
  | .exports declarators => some (declarators.map (declared p.text))
  | _ => none

/-- The properties of the literals that a statement exports stand in its text. -/
def HoldsProperties (p : Passage) : Prop :=
  ∀ declarators, p.declaration = .exports declarators → ∀ d ∈ declarators, ∀ object, d.object? = some object →
    ∀ property ∈ object.properties, property.stop ≤ p.text.length

def importing (name module behind : Text) : Passage :=
  ⟨[], importLine name module, .imports (module, [name], false), behind⟩

end Passage

def writtenPassages (passages : List Passage) : Text :=
  passages.flatMap Passage.written

/-- What is kept of passages that begin at a position. -/
def keptFrom {α : Type} (keep : Passage → Nat → Option α) : (position : Nat) → List Passage → List α
  | _, [] => []
  | position, p :: rest =>
    (keep p (position + p.decorators.length)).toList ++ keptFrom keep (position + p.written.length) rest

namespace ScriptText

def text (s : ScriptText) : Text :=
  s.lead ++ writtenPassages s.passages

/-- The decorators of the first statement in front of where it is reported to start. -/
def decorators (s : ScriptText) : Text :=
  (s.passages.head?.map (·.decorators)).getD []

/-- What a reader reports that gives exact places. -/
def outline (s : ScriptText) : Outline where
  imports := keptFrom Passage.import? s.lead.length s.passages
  exports := keptFrom Passage.exported? s.lead.length s.passages
  bodyStart := (s.lead ++ s.decorators).length

end ScriptText

section Written

variable {ps qs : List Passage} {p : Passage}

@[simp] theorem writtenPassages_nil : writtenPassages [] = [] := rfl

@[simp] theorem writtenPassages_cons (p : Passage) (ps : List Passage) :
    writtenPassages (p :: ps) = p.decorators ++ (p.text ++ (p.behind ++ writtenPassages ps)) := by
  simp [writtenPassages, Passage.written]

@[simp] theorem writtenPassages_append (ps qs : List Passage) :
    writtenPassages (ps ++ qs) = writtenPassages ps ++ writtenPassages qs := by
  simp [writtenPassages]

end Written

section Kept

variable {α β : Type} {keep : Passage → Nat → Option α} {position : Nat} {ps qs : List Passage} {p : Passage}

/-- What is kept wherever a passage stands does not depend on the positions. -/
theorem map_keptFrom {f : α → β} {content? : Passage → Option β}
    (h : ∀ p start, (keep p start).map f = content? p) (position : Nat) (ps : List Passage) :
    (keptFrom keep position ps).map f = ps.filterMap content? := by
  induction ps generalizing position with
  | nil => rfl
  | cons p ps ih =>
      rw [keptFrom, List.map_append, ih, ← Option.toList_map, h]
      cases hContent : content? p with
      | none => rw [List.filterMap_cons_none hContent]; rfl
      | some content => rw [List.filterMap_cons_some hContent]; rfl

/-- The last that is kept comes from a passage behind which nothing is kept. -/
theorem getLast?_keptFrom {last : α} (h : (keptFrom keep position ps).getLast? = some last) :
    ∃ front p rest, ps = front ++ p :: rest ∧
      keep p (position + (writtenPassages front ++ p.decorators).length) = some last ∧
      keptFrom keep (position + (writtenPassages front ++ p.written).length) rest = [] := by
  induction ps generalizing position with
  | nil => cases h
  | cons p ps ih =>
      cases hRest : (keptFrom keep (position + p.written.length) ps).getLast? with
      | none =>
          rw [List.getLast?_eq_none_iff] at hRest
          refine ⟨[], p, ps, rfl, ?_, by simpa using hRest⟩
          rw [keptFrom, hRest, List.append_nil] at h
          cases hKept : keep p (position + p.decorators.length) with
          | none => simp [hKept] at h
          | some x => simpa [hKept] using h
      | some x =>
          rw [keptFrom, List.getLast?_append, hRest, Option.some_or] at h
          obtain ⟨front, q, rest, rfl, hKept, hNone⟩ := ih (hRest.trans h)
          refine ⟨p :: front, q, rest, rfl, ?_, ?_⟩
          · simpa [Passage.written, Nat.add_assoc] using hKept
          · simpa [Passage.written, Nat.add_assoc] using hNone

end Kept

section Contents

variable {before after : Text} {p : Passage} {ps : List Passage} {s : ScriptText}

/-- A passage imports the same, wherever it stands. -/
theorem map_importContent (p : Passage) (start : Nat) : (p.import? start).map importContent = p.importContent? := by
  cases hDeclaration : p.declaration <;>
    simp [Passage.import?, Passage.importContent?, hDeclaration, importContent]

end Contents

/-- Whether a text may stand between the quotes of an import as it is. -/
def IsSpecifier (module : Text) : Prop :=
  ∀ c ∈ module, c ∉ ['"', '\'', '\\', '\n', '\r']

instance (module : Text) : Decidable (IsSpecifier module) :=
  List.decidableBAll (fun c => c ∉ ['"', '\'', '\\', '\n', '\r']) module

/-- What is assumed of the grammar of modules. An import may follow another one on a line of its own, and it may stand
in front of a statement with all its decorators, but never between the two. -/
structure ModuleGrammar where
  derives : ScriptText → Prop
  binding : Text → Prop
  inside : ∀ {s}, derives s → ∀ p ∈ s.passages, p.HoldsProperties
  behindImport : ∀ {lead front p rest name module}, derives ⟨lead, front ++ p :: rest⟩ → p.importContent?.isSome = true →
    binding name → IsSpecifier module →
    derives ⟨lead, front ++ { p with behind := ['\n'] } :: .importing name module p.behind :: rest⟩
  inFront : ∀ {lead p rest name module}, derives ⟨lead, p :: rest⟩ → binding name → IsSpecifier module →
    derives ⟨lead, .importing name module "\n\n".toList :: p :: rest⟩
  decorated : ∀ {lead p rest name module s}, derives ⟨lead, p :: rest⟩ → p.decorators ≠ [] → binding name →
    IsSpecifier module → derives s →
    s.text ≠ (lead ++ p.decorators) ++ (importLine name module ++ "\n\n".toList ++
      (p.text ++ (p.behind ++ writtenPassages rest)))

/-- The reader of an editor accepts exactly what the grammar of modules derives, and its places are exact. -/
structure ReadsModules (editor : Editor) (modules : ModuleGrammar) : Prop where
  complete : ∀ {s}, modules.derives s → editor.read s.text = some s.outline
  sound : ∀ {source outline}, editor.read source = some outline → ∃ s, modules.derives s ∧ source = s.text

end IconRegistry.Registry
