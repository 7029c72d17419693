import IconRegistry.Proofs.Script.Gap
import IconRegistry.Registry.View

/-! Layouts: the text between the braces of a collection as properties, the gaps around them and their
commas. A layout tells where its properties stand, and which of them are entries. -/
namespace IconRegistry.Registry

open Script

/-- A property as it stands in a literal: its plain name if it has one, its text, the gap behind it, and
the gap behind its comma if it has a comma. -/
structure Property where
  name? : Option Text
  text : Text
  gap : Text
  afterComma? : Option Text
  deriving DecidableEq

namespace Property

/-- What stands between a property and the next one. -/
def tail (p : Property) : Text :=
  tailText p.gap p.afterComma?

def written (p : Property) : Text :=
  p.text ++ p.tail

def shown (p : Property) : Option Text × Text :=
  (p.name?, p.text)

end Property

def writtenAll (properties : List Property) : Text :=
  properties.flatMap Property.written

@[simp] theorem writtenAll_nil : writtenAll [] = [] := rfl

@[simp] theorem writtenAll_cons (p : Property) (rest : List Property) :
    writtenAll (p :: rest) = p.text ++ (p.tail ++ writtenAll rest) := by
  simp [writtenAll, Property.written]

@[simp] theorem writtenAll_append (ps qs : List Property) :
    writtenAll (ps ++ qs) = writtenAll ps ++ writtenAll qs := by
  simp [writtenAll]

/-- The layout of a literal: the gap behind its opening brace, and its properties. -/
structure Layout where
  front : Text
  properties : List Property

namespace Layout

def text (layout : Layout) : Text :=
  layout.front ++ writtenAll layout.properties

def between (layout : Layout) (before after : Text) : Text :=
  before ++ '{' :: (layout.text ++ '}' :: after)

end Layout

/-- The spans of properties, the first of which stands at `position`. -/
def spansFrom : (position : Nat) → List Property → List PropertySpan
  | _, [] => []
  | position, p :: rest =>
    ⟨position, position + p.text.length, p.name?⟩ :: spansFrom (position + p.written.length) rest

@[simp] theorem length_spansFrom (position : Nat) (properties : List Property) :
    (spansFrom position properties).length = properties.length := by
  induction properties generalizing position with
  | nil => rfl
  | cons p rest ih => simp [spansFrom, ih]

/-- The places of properties follow one another. -/
theorem spansFrom_append (position : Nat) (ps qs : List Property) :
    spansFrom position (ps ++ qs) =
      spansFrom position ps ++ spansFrom (position + (writtenAll ps).length) qs := by
  induction ps generalizing position with
  | nil => rfl
  | cons p rest ih => simp [spansFrom, ih, Property.written, Nat.add_assoc]

/-- The literal of a layout whose opening brace stands at `start`. -/
def Layout.literalAt (layout : Layout) (start : Nat) : ObjectLiteral :=
  ⟨start, start + layout.text.length + 2, spansFrom (start + 1 + layout.front.length) layout.properties⟩

/-- The entry that a property is, given the properties in front of it. -/
def entryBehind (index position : Nat) (before : List Property) (p : Property) (name : Text) : Entry :=
  let start := position + (writtenAll before).length
  ⟨name, ⟨start, start + p.text.length⟩, index + before.length⟩

/-- An entry has its place behind the properties in front of it. -/
theorem entryBehind_cons (index position : Nat) (p q : Property) (before : List Property) (name : Text) :
    entryBehind index position (p :: before) q name =
      entryBehind (index + 1) (position + p.written.length) before q name := by
  have hPosition : position + (writtenAll (p :: before)).length =
      position + p.written.length + (writtenAll before).length := by
    simp only [writtenAll_cons, Property.written, List.length_append]
    omega
  have hIndex : index + (p :: before).length = index + 1 + before.length := by
    rw [List.length_cons]
    omega
  simp only [entryBehind, hPosition, hIndex]

/-- The entries of the properties behind a first one, and that one if it has a plain name. -/
theorem entriesFrom_cons (index position : Nat) (p : Property) (rest : List Property) :
    entriesFrom index (spansFrom position (p :: rest)) =
      (p.name?.map (entryBehind index position [] p)).toList ++
        entriesFrom (index + 1) (spansFrom (position + p.written.length) rest) := by
  cases hName : p.name? <;> simp [spansFrom, entriesFrom, hName, entryBehind]

def namesOf (properties : List Property) : List Text :=
  properties.filterMap (·.name?)

@[simp] theorem namesOf_nil : namesOf [] = [] := rfl

@[simp] theorem namesOf_append (ps qs : List Property) : namesOf (ps ++ qs) = namesOf ps ++ namesOf qs := by
  simp [namesOf]

theorem namesOf_cons (p : Property) (rest : List Property) :
    namesOf (p :: rest) = p.name?.toList ++ namesOf rest := by
  cases hName : p.name? <;> simp [namesOf, hName]

theorem mem_namesOf_of_mem {properties : List Property} {p : Property} {name : Text} (h : p ∈ properties)
    (hName : p.name? = some name) : name ∈ namesOf properties :=
  List.mem_filterMap.mpr ⟨p, h, hName⟩

/-- The first property with a name splits properties in one way. -/
theorem split_eq_of_first {ps qs ps' qs' : List Property} {p p' : Property} {name : Text}
    (h : ps ++ p :: qs = ps' ++ p' :: qs') (hName : p.name? = some name) (hName' : p'.name? = some name)
    (hFirst : name ∉ namesOf ps) (hFirst' : name ∉ namesOf ps') : ps = ps' ∧ p = p' ∧ qs = qs' := by
  rcases List.append_eq_append_iff.mp h with ⟨more, rfl, hRest⟩ | ⟨more, rfl, hRest⟩
  · cases more with
    | nil => simpa using hRest
    | cons q more =>
        obtain ⟨rfl, -⟩ := List.cons_eq_cons.mp hRest
        exact absurd (mem_namesOf_of_mem (by simp) hName) hFirst'
  · cases more with
    | nil => simpa [eq_comm] using hRest
    | cons q more =>
        obtain ⟨rfl, -⟩ := List.cons_eq_cons.mp hRest
        exact absurd (mem_namesOf_of_mem (by simp) hName') hFirst

/-- The entries of properties are called as the properties are. -/
theorem names_entriesFrom (index position : Nat) (properties : List Property) :
    (entriesFrom index (spansFrom position properties)).map (·.name) = namesOf properties := by
  induction properties generalizing index position with
  | nil => rfl
  | cons p rest ih =>
      rw [entriesFrom_cons, List.map_append, ih, namesOf_cons]
      cases p.name? <;> rfl

/-- Where the entries are split, the properties are split, too. -/
theorem entriesFrom_eq_append {index position : Nat} {properties : List Property} {front rest : List Entry}
    {entry : Entry} (h : entriesFrom index (spansFrom position properties) = front ++ entry :: rest) :
    ∃ before p after, properties = before ++ p :: after ∧ p.name? = some entry.name ∧
      entry = entryBehind index position before p entry.name ∧
      namesOf before = front.map (·.name) ∧ namesOf after = rest.map (·.name) := by
  induction properties generalizing index position front with
  | nil => simp [spansFrom, entriesFrom] at h
  | cons p others ih =>
      rw [entriesFrom_cons] at h
      cases hName : p.name? with
      | none =>
          simp only [hName, Option.map_none, Option.toList_none, List.nil_append] at h
          obtain ⟨before, q, after, rfl, hq, hEntry, hFront, hRest⟩ := ih h
          refine ⟨p :: before, q, after, rfl, hq, ?_, ?_, hRest⟩
          · rw [entryBehind_cons]
            exact hEntry
          · simpa [namesOf_cons, hName] using hFront
      | some name =>
          simp only [hName, Option.map_some, Option.toList_some, List.singleton_append] at h
          cases front with
          | nil =>
              obtain ⟨rfl, rfl⟩ := List.cons_eq_cons.mp h
              exact ⟨[], p, others, rfl, hName, rfl, rfl, (names_entriesFrom ..).symm⟩
          | cons first front =>
              obtain ⟨rfl, hOthers⟩ := List.cons_eq_cons.mp h
              obtain ⟨before, q, after, rfl, hq, hEntry, hFront, hRest⟩ := ih hOthers
              refine ⟨p :: before, q, after, rfl, hq, ?_, ?_, hRest⟩
              · rw [entryBehind_cons]
                exact hEntry
              · simp [namesOf_cons, hName, hFront, entryBehind]

/-- The first entry with a name of a certain kind is the first property with such a name. -/
theorem find?_entriesFrom (kind : Text → Bool) {index position : Nat} {properties : List Property}
    {entry : Entry}
    (h : (entriesFrom index (spansFrom position properties)).find? (fun e => kind e.name) = some entry) :
    ∃ before p after, properties = before ++ p :: after ∧ p.name? = some entry.name ∧
      entry = entryBehind index position before p entry.name ∧ kind entry.name = true ∧
      ∀ name ∈ namesOf before, kind name = false := by
  obtain ⟨hKind, front, rest, hSplit, hFront⟩ := List.find?_eq_some_iff_append.mp h
  obtain ⟨before, p, after, hProperties, hName, hEntry, hBefore, -⟩ := entriesFrom_eq_append hSplit
  refine ⟨before, p, after, hProperties, hName, hEntry, hKind, ?_⟩
  intro name hMember
  rw [hBefore, List.mem_map] at hMember
  obtain ⟨e, hMember, rfl⟩ := hMember
  simpa using hFront e hMember

/-- If no entry of a kind is found, no name is of that kind. -/
theorem find?_entriesFrom_eq_none (kind : Text → Bool) {index position : Nat}
    {properties : List Property}
    (h : (entriesFrom index (spansFrom position properties)).find? (fun e => kind e.name) = none) :
    ∀ name ∈ namesOf properties, kind name = false := by
  intro name hMember
  rw [← names_entriesFrom index position, List.mem_map] at hMember
  obtain ⟨e, hMember, rfl⟩ := hMember
  simpa using List.find?_eq_none.mp h e hMember

/-- The last entry is the last property with a plain name. -/
theorem getLast?_entriesFrom {index position : Nat} {properties : List Property} {entry : Entry}
    (h : (entriesFrom index (spansFrom position properties)).getLast? = some entry) :
    ∃ before p after, properties = before ++ p :: after ∧ p.name? = some entry.name ∧
      entry = entryBehind index position before p entry.name ∧ namesOf after = [] := by
  obtain ⟨front, hSplit⟩ := List.getLast?_eq_some_iff.mp h
  obtain ⟨before, p, after, hProperties, hName, hEntry, -, hAfter⟩ := entriesFrom_eq_append hSplit
  exact ⟨before, p, after, hProperties, hName, hEntry, hAfter⟩

/-- Entries count the properties in front of them. -/
theorem le_property_of_mem_entriesFrom {index : Nat} {spans : List PropertySpan} {entry : Entry}
    (h : entry ∈ entriesFrom index spans) : index ≤ entry.property := by
  induction spans generalizing index with
  | nil => cases h
  | cons p rest ih =>
      cases hName : p.name? with
      | none =>
          simp only [entriesFrom, hName] at h
          exact Nat.le_of_succ_le (ih h)
      | some name =>
          simp only [entriesFrom, hName, List.mem_cons] at h
          rcases h with rfl | h
          · exact Nat.le_refl index
          · exact Nat.le_of_succ_le (ih h)

/-- The property of an index is an entry if it has a plain name. -/
theorem find?_index_entriesFrom (index i : Nat) (spans : List PropertySpan) :
    ((entriesFrom index spans).find? (·.property == index + i)).map (·.name) = spans[i]?.bind (·.name?) := by
  induction spans generalizing index i with
  | nil => rfl
  | cons p rest ih =>
      cases i with
      | zero =>
          have hLater : (entriesFrom (index + 1) rest).find? (·.property == index) = none := by
            rw [List.find?_eq_none]
            intro e hMember
            have := le_property_of_mem_entriesFrom hMember
            simp only [beq_iff_eq]
            omega
          cases hName : p.name? <;> simp [entriesFrom, hName, hLater]
      | succ i =>
          have hIndex : index + (i + 1) = index + 1 + i := by omega
          have hFirst : ¬index = index + 1 + i := by omega
          rw [hIndex, List.getElem?_cons_succ, ← ih (index + 1) i]
          cases hName : p.name? <;> simp [entriesFrom, hName, hFirst]

end IconRegistry.Registry
