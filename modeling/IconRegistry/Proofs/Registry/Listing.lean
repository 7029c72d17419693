import IconRegistry.Proofs.Registry.NameOrder

/-! Listings: the contents of a collection as rows in the order of names. A listing is determined by the contents,
whatever the changes were that led to them. -/
namespace IconRegistry.Registry

open Std

abbrev Row := Text × Text

abbrev Contents := Text → Option Text

def Contents.set (contents : Contents) (name : Text) (component? : Option Text) : Contents :=
  fun other => if other = name then component? else contents other

abbrev Names := Text → Bool

/-- Names of which one is registered or not, and the others are as they were. -/
def Names.set (names : Names) (name : Text) (registered : Bool) : Names :=
  fun other => if other = name then registered else names other

@[simp] theorem Names.set_same (names : Names) (name : Text) (registered : Bool) :
    names.set name registered name = registered :=
  if_pos rfl

/-- Registering a name changes nothing about others. -/
theorem Names.set_of_ne (names : Names) {name other : Text} (h : other ≠ name) (registered : Bool) :
    names.set name registered other = names other :=
  if_neg h

/-- What is registered after a change is the name that was changed, or it was registered before. -/
theorem Names.of_set {names : Names} {name other : Text} {registered : Bool}
    (h : names.set name registered other = true) :
    other = name ∧ registered = true ∨ other ≠ name ∧ names other = true := by
  by_cases hOther : other = name
  · subst hOther
    exact .inl ⟨rfl, by rwa [set_same] at h⟩
  · exact .inr ⟨hOther, by rwa [set_of_ne names hOther] at h⟩

/-- Where different names are registered, the others still are when the first is taken away. -/
theorem Names.registered_behind {names : Names} {first : Text} {rest : List Text} (hNodup : (first :: rest).Nodup)
    (h : ∀ name ∈ rest, names name = true) : ∀ name ∈ rest, names.set first false name = true := by
  intro name hName
  have hOther : name ≠ first := ne_of_mem_of_not_mem hName (List.nodup_cons.mp hNodup).1
  rw [set_of_ne names hOther, h name hName]

def Names.without (names : Names) (removed : List Text) : Names :=
  fun name => names name && !removed.contains name

@[simp] theorem Names.without_nil (names : Names) : names.without [] = names := by
  funext name
  simp [Names.without]

/-- Names are taken away one after the other. -/
theorem Names.without_cons (names : Names) (first : Text) (rest : List Text) :
    names.without (first :: rest) = (names.set first false).without rest := by
  funext name
  by_cases hName : name = first <;> simp [Names.without, Names.set, hName]

/-- The names under which components are registered. -/
def Contents.names (contents : Contents) : Names :=
  fun name => (contents name).isSome

/-- Setting a component registers its name, and taking it away does not. -/
theorem Contents.names_set (contents : Contents) (name : Text) (component? : Option Text) :
    (contents.set name component?).names = contents.names.set name component?.isSome := by
  funext other
  by_cases hOther : other = name <;> simp [Contents.names, Contents.set, Names.set, hOther]

/-- Rows in the order of names, one for each name of the contents. -/
structure IsListing (contents : Contents) (rows : List Row) : Prop where
  sorted : rows.Pairwise fun a b => compareNames a.1 b.1 = .lt
  mem_iff : ∀ name component, (name, component) ∈ rows ↔ contents name = some component

theorem ne_of_compareNames_lt {a b : Text} (h : compareNames a b = .lt) : a ≠ b := by
  rintro rfl
  simp [ReflCmp.compare_self] at h

/-- Different names are before or behind each other. -/
theorem compareNames_lt_of_ne_gt {a b : Text} (h : compareNames a b ≠ .gt) (hNe : a ≠ b) :
    compareNames a b = .lt := by
  cases hOrder : compareNames a b with
  | lt => rfl
  | eq => exact absurd (LawfulEqCmp.eq_of_compare hOrder) hNe
  | gt => exact absurd hOrder h

namespace IsListing

variable {contents : Contents} {rows rs ss : List Row} {name component old : Text}

/-- Contents have one listing. -/
theorem unique {rows' : List Row} (h : IsListing contents rows) (h' : IsListing contents rows') :
    rows = rows' := by
  have hNodup : ∀ {rows}, IsListing contents rows → rows.Nodup := fun h =>
    h.sorted.imp fun hLess hSame => ne_of_compareNames_lt hLess (congrArg Prod.fst hSame)
  have hPerm : rows.Perm rows' := by
    rw [List.perm_ext_iff_of_nodup (hNodup h) (hNodup h')]
    rintro ⟨name, component⟩
    rw [h.mem_iff, h'.mem_iff]
  refine hPerm.eq_of_pairwise ?_ h.sorted h'.sorted
  intro a b _ _ hLess hGreater
  exact absurd (TransCmp.lt_trans hLess hGreater) (by simp [ReflCmp.compare_self])

theorem empty : IsListing (fun _ => none) [] :=
  ⟨List.Pairwise.nil, by simp⟩

/-- The rows around a row have other names. -/
theorem name_ne_of_split (h : IsListing contents (rs ++ (name, old) :: ss)) :
    ∀ row ∈ rs ++ ss, row.1 ≠ name := by
  have hSorted := h.sorted
  simp only [List.pairwise_append, List.pairwise_cons, List.forall_mem_cons] at hSorted
  obtain ⟨-, ⟨hBehind, -⟩, hAcross⟩ := hSorted
  simp only [List.forall_mem_append]
  exact ⟨fun row hRow => ne_of_compareNames_lt (hAcross row hRow).1,
    fun row hRow => (ne_of_compareNames_lt (hBehind row hRow)).symm⟩

/-- Where only the rows under one name change, the rest of the contents stays listed. -/
theorem mem_set_iff (component? : Option Text) (hOther : ∀ row ∈ rs ++ ss, row.1 ≠ name)
    (hKept : ∀ other text, other ≠ name → ((other, text) ∈ rs ++ ss ↔ contents other = some text))
    (other text : Text) :
    (other, text) ∈ rs ++ (component?.toList.map (name, ·) ++ ss) ↔
      contents.set name component? other = some text := by
  by_cases hName : other = name
  · subst hName
    have hAbsent : (other, text) ∉ rs ∧ (other, text) ∉ ss := by
      simpa using fun h => hOther (other, text) h rfl
    cases component? <;> simp [Contents.set, hAbsent, eq_comm]
  · have := hKept other text hName
    cases component? <;> simpa [Contents.set, hName] using this

/-- A row under a new name, between the rows with lesser names and those with greater ones. -/
theorem insert (h : IsListing contents (rs ++ ss)) (hLess : ∀ row ∈ rs, compareNames row.1 name = .lt)
    (hGreater : ∀ row ∈ ss, compareNames name row.1 = .lt) :
    IsListing (contents.set name (some component)) (rs ++ (name, component) :: ss) where
  sorted := by
    have hSorted := h.sorted
    simp only [List.pairwise_append, List.pairwise_cons, List.forall_mem_cons] at hSorted ⊢
    exact ⟨hSorted.1, ⟨hGreater, hSorted.2.1⟩, fun row hRow => ⟨hLess row hRow, hSorted.2.2 row hRow⟩⟩
  mem_iff := by
    refine mem_set_iff (some component) ?_ fun other text _ => h.mem_iff other text
    rw [List.forall_mem_append]
    exact ⟨fun row hRow => ne_of_compareNames_lt (hLess row hRow),
      fun row hRow => (ne_of_compareNames_lt (hGreater row hRow)).symm⟩

/-- Around a row, the others are listed. -/
theorem mem_split_iff (h : IsListing contents (rs ++ (name, old) :: ss)) (other text : Text)
    (hName : other ≠ name) : (other, text) ∈ rs ++ ss ↔ contents other = some text := by
  rw [← h.mem_iff]
  simp [hName]

/-- A row with another component lists the changed contents. -/
theorem replace (h : IsListing contents (rs ++ (name, old) :: ss)) :
    IsListing (contents.set name (some component)) (rs ++ (name, component) :: ss) where
  sorted := by
    have hSorted := h.sorted
    simp only [List.pairwise_append, List.pairwise_cons, List.forall_mem_cons] at hSorted ⊢
    exact hSorted
  mem_iff := mem_set_iff (some component) h.name_ne_of_split h.mem_split_iff

/-- Without the row, the others are listed. -/
theorem remove (h : IsListing contents (rs ++ (name, old) :: ss)) :
    IsListing (contents.set name none) (rs ++ ss) where
  sorted := h.sorted.sublist (by simp)
  mem_iff := mem_set_iff none h.name_ne_of_split h.mem_split_iff

/-- A registered name has a row. -/
theorem exists_split (h : IsListing contents rows) (hName : contents name ≠ none) :
    ∃ rs old ss, rows = rs ++ (name, old) :: ss := by
  obtain ⟨old, hOld⟩ := Option.ne_none_iff_exists'.mp hName
  obtain ⟨rs, ss, hSplit⟩ := List.append_of_mem ((h.mem_iff name old).mpr hOld)
  exact ⟨rs, old, ss, hSplit⟩

/-- A name without a component has no row. -/
theorem name_ne_of_none (h : IsListing contents rows) (hName : contents name = none) :
    ∀ row ∈ rows, row.1 ≠ name := by
  rintro ⟨other, component⟩ hRow rfl
  rw [h.mem_iff, hName] at hRow
  cases hRow

end IsListing

end IconRegistry.Registry
