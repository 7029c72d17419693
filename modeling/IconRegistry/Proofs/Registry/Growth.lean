import IconRegistry.Proofs.Registry.Layout

/-! Growth of a collection: properties among which entries with certain names have been put. As long as the gaps
around the commas are kept as insertions leave them, the other properties can be had back. -/
namespace IconRegistry.Registry

namespace Property

/-- Whether a property is an entry with one of certain names. -/
def isAmong (names : List Text) (p : Property) : Bool :=
  p.name?.any names.contains

/-- A property with what stands behind another one. -/
def closedLike (p other : Property) : Property :=
  { p with gap := other.gap, afterComma? := other.afterComma? }

/-- A property is among the names if it is called by one of them. -/
theorem isAmong_iff {names : List Text} {p : Property} :
    p.isAmong names = true ↔ ∃ name ∈ names, p.name? = some name := by
  cases hName : p.name? <;> simp [isAmong, hName]

@[simp] theorem isAmong_closedLike (names : List Text) (p other : Property) :
    (p.closedLike other).isAmong names = p.isAmong names := rfl

@[simp] theorem name?_closedLike (p other : Property) : (p.closedLike other).name? = p.name? := rfl

@[simp] theorem closedLike_closedLike (p q r : Property) : (p.closedLike q).closedLike r = p.closedLike r := rfl

end Property

/-- Properties with what stands behind another one in the place of what stood behind the last of them. -/
def closedLike (other : Property) : List Property → List Property
  | [] => []
  | [p] => [p.closedLike other]
  | p :: q :: rest => p :: closedLike other (q :: rest)

/-- Whether no gap is left in front of a comma behind which all properties are entries with certain names. -/
def Tight (names : List Text) : List Property → Prop
  | [] => True
  | p :: rest => (rest ≠ [] → (∀ q ∈ rest, q.isAmong names = true) → p.gap = []) ∧ Tight names rest

def addedNames (names : List Text) (properties : List Property) : List Text :=
  (namesOf properties).filter names.contains

section Added

variable {names : List Text} {name : Text} {p : Property} {ps qs properties : List Property}

/-- A property with a new name adds it, wherever it stands. -/
theorem perm_addedNames (hp : p.name? = some name) (hName : name ∈ names) :
    (addedNames names (ps ++ p :: qs)).Perm (name :: addedNames names (ps ++ qs)) := by
  simp only [addedNames, namesOf_append, namesOf_cons, hp, Option.toList_some, List.filter_append,
    List.singleton_append]
  rw [List.filter_cons_of_pos (by simpa using hName)]
  exact List.perm_middle

/-- The names that were added depend on the names only. -/
theorem addedNames_congr (same : ps.map (·.name?) = qs.map (·.name?)) :
    addedNames names ps = addedNames names qs := by
  have hNames : ∀ properties : List Property, namesOf properties = (properties.map (·.name?)).filterMap id := by
    intro properties
    rw [List.filterMap_map]
    rfl
  rw [addedNames, addedNames, hNames, hNames, same]

/-- A new last property adds its name, whatever becomes of the gaps. -/
theorem perm_addedNames_behind (hName : name ∈ names) (text : Text) (afterComma? : Option Text) :
    (addedNames names (ps ++ [{ p with gap := [], afterComma? }, { p with name? := some name, text }])).Perm
      (name :: addedNames names (ps ++ [p])) := by
  have hSame : addedNames names (ps ++ [{ p with gap := [], afterComma? }]) = addedNames names (ps ++ [p]) :=
    addedNames_congr (by simp)
  rw [List.append_cons]
  refine (perm_addedNames rfl hName).trans ?_
  rw [List.append_nil, hSame]

/-- A property among the names is one that was added. -/
theorem exists_addedName (hp : p ∈ properties) (hAmong : p.isAmong names = true) :
    ∃ name ∈ addedNames names properties, p.name? = some name := by
  obtain ⟨name, hName, hSame⟩ := Property.isAmong_iff.mp hAmong
  exact ⟨name, List.mem_filter.mpr ⟨mem_namesOf_of_mem hp hSame, by simpa using hName⟩, hSame⟩

/-- If no names were added, no property is among them. -/
theorem none_isAmong (h : addedNames names properties = []) : ∀ p ∈ properties, p.isAmong names = false := by
  intro p hp
  rw [← Bool.not_eq_true]
  intro hAmong
  obtain ⟨name, hName, -⟩ := exists_addedName hp hAmong
  rw [h] at hName
  cases hName

end Added

section Closed

variable {other p : Property} {ps qs qs' : List Property}

theorem closedLike_eq_nil : closedLike other ps = [] ↔ ps = [] := by
  rcases ps with _ | ⟨p, _ | ⟨q, rest⟩⟩ <;> simp [closedLike]

theorem closedLike_cons (h : qs ≠ []) : closedLike other (p :: qs) = p :: closedLike other qs := by
  obtain ⟨q, rest, rfl⟩ := List.exists_cons_of_ne_nil h
  rfl

/-- What stands behind the last property is all that changes. -/
theorem closedLike_append (h : qs ≠ []) : closedLike other (ps ++ qs) = ps ++ closedLike other qs := by
  induction ps with
  | nil => rfl
  | cons p rest ih => rw [List.cons_append, closedLike_cons (by simp [h]), ih, List.cons_append]

theorem closedLike_append_congr (h : closedLike other qs = closedLike other qs') :
    closedLike other (ps ++ qs) = closedLike other (ps ++ qs') := by
  have hSame : qs = [] ↔ qs' = [] := by
    simpa only [closedLike_eq_nil, eq_iff_iff] using congrArg (· = []) h
  by_cases hNil : qs = []
  · rw [hNil, hSame.mp hNil]
  · rw [closedLike_append hNil, closedLike_append (mt hSame.mpr hNil), h]

end Closed

section Tight

variable {names : List Text} {ps qs qs' : List Property}

theorem Tight.behind (h : Tight names (ps ++ qs)) : Tight names qs := by
  induction ps with
  | nil => exact h
  | cons p rest ih => exact ih h.2

/-- What stands at the end may be exchanged if there were only certain entries wherever there now are. -/
theorem Tight.exchange (h : Tight names (ps ++ qs)) (hNil : qs ≠ []) (hTight : Tight names qs')
    (hAmong : (∀ q ∈ qs', q.isAmong names = true) → ∀ q ∈ qs, q.isAmong names = true) :
    Tight names (ps ++ qs') := by
  induction ps with
  | nil => exact hTight
  | cons p rest ih =>
      refine ⟨fun _ hAll => h.1 (by simp [hNil]) ?_, ih h.2⟩
      obtain ⟨hRest, hAll⟩ := List.forall_mem_append.mp hAll
      exact List.forall_mem_append.mpr ⟨hRest, hAmong hAll⟩

/-- Properties of other names are tight. -/
theorem tight_of_none (h : ∀ p ∈ ps, p.isAmong names = false) : Tight names ps := by
  induction ps with
  | nil => trivial
  | cons p rest ih =>
      obtain ⟨-, hRest⟩ := List.forall_mem_cons.mp h
      refine ⟨fun hNil hAll => ?_, ih hRest⟩
      obtain ⟨q, qs, rfl⟩ := List.exists_cons_of_ne_nil hNil
      simpa [hRest q (by simp)] using hAll q (by simp)

end Tight

/-- Properties that have grown out of others by entries with certain names. Whichever of them is the last, what stands
behind it is what has always stood at the end. -/
structure Grown (names : List Text) (last : Property) (original properties : List Property) : Prop where
  closed : closedLike last properties = properties
  kept : closedLike last (properties.filter (!·.isAmong names)) = original
  tight : Tight names properties

namespace Grown

variable {names : List Text} {last p q r new : Property} {original properties ps qs qs' : List Property}

/-- What stands at the end may be exchanged for something else that leaves the same behind. -/
theorem exchange (h : Grown names last original (ps ++ qs)) (hNil : qs ≠ []) (hNil' : qs' ≠ [])
    (hClosed : closedLike last qs = qs → closedLike last qs' = qs')
    (hKept : closedLike last (qs'.filter (!·.isAmong names)) = closedLike last (qs.filter (!·.isAmong names)))
    (hTight : Tight names qs → Tight names qs') : Grown names last original (ps ++ qs') where
  closed := by
    have hOld := h.closed
    rw [closedLike_append hNil, List.append_right_inj] at hOld
    rw [closedLike_append hNil', hClosed hOld]
  kept := by
    rw [List.filter_append, closedLike_append_congr hKept, ← List.filter_append, h.kept]
  tight := by
    refine h.tight.exchange hNil (hTight h.tight.behind) fun hAll => ?_
    -- an end of such entries only leaves nothing behind, and neither did the end before it
    have hNone : qs'.filter (!·.isAmong names) = [] := by simpa using hAll
    rw [hNone, eq_comm, closedLike, closedLike_eq_nil] at hKept
    simpa using hKept

/-- An entry in front of a property lets the original ones grow. -/
theorem insertBefore (h : Grown names last original (ps ++ p :: qs)) (hNew : new.isAmong names = true)
    (hGap : new.gap = []) : Grown names last original (ps ++ new :: p :: qs) := by
  refine h.exchange (by simp) (by simp) ?_ (by simp [hNew]) fun hTight => ⟨fun _ _ => hGap, hTight⟩
  intro hClosed
  rw [closedLike_cons (by simp), hClosed]

/-- A new last property takes over what stands behind the one that was the last. -/
theorem insertBehind (h : Grown names last original (ps ++ [p])) {name : Text} (hName : name ∈ names)
    (text : Text) (afterComma? : Option Text) :
    Grown names last original (ps ++ [{ p with gap := [], afterComma? }, { p with name? := some name, text }]) := by
  have hNew : ({ p with name? := some name, text } : Property).isAmong names = true := by
    simpa [Property.isAmong] using hName
  refine h.exchange (by simp) (by simp) ?_ ?_ fun _ => ⟨fun _ _ => rfl, by simp [Tight]⟩
  · intro hClosed
    have hSame : p.closedLike last = p := List.head_eq_of_cons_eq hClosed
    have hTaken : ({ p with name? := some name, text } : Property).closedLike last =
        { p.closedLike last with name? := some name, text } := rfl
    rw [closedLike_cons (by simp), closedLike, hTaken, hSame]
  · have hOld : ({ p with gap := [], afterComma? } : Property).isAmong names = p.isAmong names := rfl
    cases hAmong : p.isAmong names
    · simp [hNew, hOld, hAmong, closedLike, Property.closedLike]
    · simp [hNew, hOld, hAmong]

/-- An entry in front of a property can be taken away again. -/
theorem removeNext (h : Grown names last original (ps ++ p :: q :: qs)) (hp : p.isAmong names = true) :
    Grown names last original (ps ++ q :: qs) := by
  refine h.exchange (by simp) (by simp) ?_ (by simp [hp]) fun hTight => hTight.2
  intro hClosed
  rw [closedLike_cons (by simp)] at hClosed
  exact (List.cons.inj hClosed).2

/-- Where the last property goes, what stands behind it is taken over by the one before, which has no gap in front
of its comma. -/
theorem removeLast (h : Grown names last original (ps ++ [r, p])) (hp : p.isAmong names = true) :
    r.gap = [] ∧ Grown names last original (ps ++ [r.closedLike p]) := by
  have hGap := h.tight.behind.1 (by simp) (by simpa using hp)
  refine ⟨hGap, h.exchange (by simp) (by simp) ?_ ?_ fun _ => by simp [Tight]⟩
  · intro hClosed
    have hSame : p.closedLike last = p := by simpa [closedLike] using hClosed
    have hTaken : (r.closedLike p).closedLike last = r.closedLike (p.closedLike last) := rfl
    rw [closedLike, hTaken, hSame]
  · cases hAmong : r.isAmong names <;> simp [hp, hAmong, closedLike]

/-- The original properties have not grown. -/
theorem refl (h : ∀ p ∈ ps ++ [last], p.isAmong names = false) :
    Grown names last (ps ++ [last]) (ps ++ [last]) where
  closed := closedLike_append (by simp)
  kept := by
    rw [List.filter_eq_self.mpr (by simpa using h)]
    exact closedLike_append (by simp)
  tight := tight_of_none h

/-- Where none of the entries are left, the properties are the original ones. -/
theorem eq_of_none (h : Grown names last original properties) (hNone : ∀ p ∈ properties, p.isAmong names = false) :
    properties = original := by
  rw [← h.kept, List.filter_eq_self.mpr (by simpa using hNone), h.closed]

/-- The last property is an entry if that was so at the beginning. -/
theorem exists_last (h : Grown names last (qs ++ [last]) properties) (hLast : last.name?.isSome = true) :
    ∃ ps p, properties = ps ++ [p] ∧ p.name?.isSome = true := by
  rcases List.eq_nil_or_concat properties with rfl | ⟨ps, p, rfl⟩
  · simpa [closedLike] using h.kept
  · rw [List.concat_eq_append] at *
    refine ⟨ps, p, rfl, ?_⟩
    cases hAmong : p.isAmong names with
    | true => exact Option.isSome_of_any hAmong
    | false =>
        have hKept : closedLike last (ps.filter (!·.isAmong names) ++ [p]) = qs ++ [last] := by
          simpa [hAmong] using h.kept
        rw [closedLike_append (by simp)] at hKept
        have hSame : p.closedLike last = last := List.head_eq_of_cons_eq (List.append_inj' hKept rfl).2
        rw [← hSame] at hLast
        exact hLast

end Grown

end IconRegistry.Registry
