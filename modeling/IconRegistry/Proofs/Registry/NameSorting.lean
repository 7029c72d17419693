import Mathlib.Data.List.TakeWhile
import IconRegistry.Proofs.Registry.NameOrder
import IconRegistry.Registry.Edit

/-! Names have one sorted form. Their order is total, so sorting finds that form from whatever order the names come in,
and an insertion in front of the first greater name leads from one such form to the next. -/
namespace IconRegistry.Registry

open Std

variable {names others : List Text} {name : Text}

/-- Names in the order that listings use. -/
def NamesSorted (names : List Text) : Prop :=
  names.Pairwise fun a b => compareNames a b ≠ .gt

instance (names : List Text) : Decidable (NamesSorted names) :=
  inferInstanceAs (Decidable (names.Pairwise fun a b => compareNames a b ≠ .gt))

/-- Names are ordered transitively. -/
theorem compareNames_trans {a b c : Text} (hab : compareNames a b ≠ .gt) (hbc : compareNames b c ≠ .gt) :
    compareNames a c ≠ .gt := by
  simp only [ne_eq, Ordering.ne_gt_iff_isLE] at *
  exact TransCmp.isLE_trans hab hbc

theorem compareNames_of_gt {a b : Text} (h : compareNames a b = .gt) : compareNames b a ≠ .gt := by
  rw [OrientedCmp.gt_iff_lt.mp h]
  decide

/-- Names neither of which is greater than the other one are the same. -/
theorem eq_of_compareNames_ne_gt {a b : Text} (hab : compareNames a b ≠ .gt) (hba : compareNames b a ≠ .gt) :
    a = b := by
  have hSwap : compareNames b a = (compareNames a b).swap := OrientedCmp.eq_swap
  rw [hSwap, ne_eq, Ordering.swap_eq_gt] at hba
  cases hOrder : compareNames a b with
  | lt => exact absurd hOrder hba
  | eq => exact LawfulEqCmp.eq_of_compare hOrder
  | gt => exact absurd hOrder hab

/-- Where lower-case forms differ, they alone decide. -/
theorem compareNames_of_toLower_ne {a b : Text} (h : Text.toLower a ≠ Text.toLower b) :
    compareNames a b = Text.order (Text.toLower a) (Text.toLower b) := by
  have hForms : Text.order (Text.toLower a) (Text.toLower b) ≠ .eq := fun hEq =>
    h (LawfulEqCmp.eq_of_compare hEq)
  rw [compareNames]
  cases hOrder : Text.order (Text.toLower a) (Text.toLower b) with
  | lt => rfl
  | eq => exact absurd hOrder hForms
  | gt => rfl

theorem sortNames_perm (names : List Text) : (sortNames names).Perm names :=
  List.mergeSort_perm names _

theorem namesSorted_sortNames (names : List Text) : NamesSorted (sortNames names) := by
  have hTrans : ∀ a b c : Text, (compareNames a b != .gt) = true → (compareNames b c != .gt) = true →
      (compareNames a c != .gt) = true := by
    intro a b c hab hbc
    exact bne_iff_ne.mpr (compareNames_trans (bne_iff_ne.mp hab) (bne_iff_ne.mp hbc))
  have hTotal : ∀ a b : Text, (compareNames a b != .gt || compareNames b a != .gt) = true := by
    intro a b
    cases hOrder : compareNames a b with
    | lt | eq => rfl
    | gt => simpa using compareNames_of_gt hOrder
  exact (List.pairwise_mergeSort hTrans hTotal names).imp bne_iff_ne.mp

/-- The sorted form of names is the only one. -/
theorem NamesSorted.eq_of_perm (h : NamesSorted names) (h' : NamesSorted others) (hPerm : names.Perm others) :
    names = others :=
  hPerm.eq_of_pairwise (fun _ _ _ _ => eq_of_compareNames_ne_gt) h h'

/-- There is one order that names can be sorted in. -/
theorem NamesSorted.eq_sortNames (h : NamesSorted names) (hPerm : names.Perm others) : names = sortNames others :=
  h.eq_of_perm (namesSorted_sortNames others) (hPerm.trans (sortNames_perm others).symm)

/-- Whether a new name goes behind one that is there. -/
def goesBehind (name other : Text) : Bool :=
  compareNames other name != .gt

/-- Names with a new one in front of the first greater one, or else behind them all. -/
def placeName (name : Text) (names : List Text) : List Text :=
  names.takeWhile (goesBehind name) ++ name :: names.dropWhile (goesBehind name)

/-- A name goes behind those that are not greater. -/
theorem goesBehind_iff {other : Text} : goesBehind name other = true ↔ compareNames other name ≠ .gt :=
  bne_iff_ne

/-- A name that is placed is there with the others. -/
theorem placeName_perm (name : Text) (names : List Text) : (placeName name names).Perm (name :: names) := by
  have hMiddle : (placeName name names).Perm
      (name :: (names.takeWhile (goesBehind name) ++ names.dropWhile (goesBehind name))) := List.perm_middle
  rwa [List.takeWhile_append_dropWhile] at hMiddle

/-- Names behind the place of a new one are not less: the first of them is greater, and the others follow it. -/
theorem NamesSorted.of_mem_dropWhile (h : NamesSorted names) {other : Text}
    (hOther : other ∈ names.dropWhile (goesBehind name)) : compareNames name other ≠ .gt := by
  have hFirst := List.head?_dropWhile_not (goesBehind name) names
  have hBehind : NamesSorted (names.dropWhile (goesBehind name)) := h.sublist (List.dropWhile_sublist _)
  cases hRest : names.dropWhile (goesBehind name) with
  | nil => simp [hRest] at hOther
  | cons next rest =>
      rw [hRest] at hFirst hBehind hOther
      have hNext : compareNames name next ≠ .gt := by
        have hStop : goesBehind name next = false := hFirst
        refine compareNames_of_gt (Classical.not_not.mp fun hLess => ?_)
        rw [goesBehind_iff.mpr hLess] at hStop
        cases hStop
      rcases List.mem_cons.mp hOther with rfl | hOther
      · exact hNext
      · exact compareNames_trans hNext ((List.pairwise_cons.mp hBehind).1 other hOther)

/-- A new name in its place keeps names in order. -/
theorem NamesSorted.placeName (h : NamesSorted names) (name : Text) : NamesSorted (placeName name names) := by
  have hSplit : NamesSorted (names.takeWhile (goesBehind name) ++ names.dropWhile (goesBehind name)) := by
    rwa [List.takeWhile_append_dropWhile]
  obtain ⟨hFront, hBehind, hAcross⟩ := List.pairwise_append.mp hSplit
  refine List.pairwise_append.mpr ⟨hFront, List.pairwise_cons.mpr ⟨fun _ => h.of_mem_dropWhile, hBehind⟩, ?_⟩
  intro a ha b hb
  rcases List.mem_cons.mp hb with rfl | hb
  · exact goesBehind_iff.mp (List.mem_takeWhile_imp ha)
  · exact hAcross a ha b hb

/-- The entry that an insertion goes in front of stands where its name has its place among the names. -/
theorem View.following?_placeName (view : View) (name : Text) :
    ∃ front behind, view.entries = front ++ behind ∧ view.following? name = behind.head? ∧
      placeName name view.names = front.map (·.name) ++ name :: behind.map (·.name) := by
  refine ⟨view.entries.takeWhile (goesBehind name ∘ (·.name)), view.entries.dropWhile (goesBehind name ∘ (·.name)),
    List.takeWhile_append_dropWhile.symm, ?_, ?_⟩
  · rw [View.following?, List.find?_eq_head?_dropWhile_not]
    rfl
  · rw [placeName, View.names, List.takeWhile_map, List.dropWhile_map]

theorem placeName_append (hFront : ∀ other ∈ names, compareNames other name ≠ .gt)
    (hRest : ∀ other ∈ others.head?, compareNames other name = .gt) :
    placeName name (names ++ others) = names ++ name :: others := by
  have hBehind : ∀ other ∈ names, goesBehind name other = true := fun other hOther =>
    goesBehind_iff.mpr (hFront other hOther)
  rw [placeName, List.takeWhile_append_of_pos hBehind, List.dropWhile_append_of_pos hBehind]
  cases others with
  | nil => simp
  | cons other others =>
      have hStop : goesBehind name other = false := by simp [goesBehind, hRest other rfl]
      simp [hStop]

/-- The order of names is total, whatever their letters: lower-case forms decide, and the names themselves where these
are the same. So names have one sorted form, which sorting finds from any order and which placing a new name in front
of the first greater one keeps. -/
theorem compareNames_sorts_canonically :
    (∀ a b, compareNames a b = .eq ↔ a = b) ∧
    (∀ a b, compareNames b a = (compareNames a b).swap) ∧
    (∀ a b c, (compareNames a b).isLE = true → (compareNames b c).isLE = true → (compareNames a c).isLE = true) ∧
    (∀ a b, Text.toLower a ≠ Text.toLower b →
      compareNames a b = Text.order (Text.toLower a) (Text.toLower b)) ∧
    (∀ names, NamesSorted (sortNames names) ∧ (sortNames names).Perm names) ∧
    (∀ names others, names.Perm others → sortNames names = sortNames others) ∧
    (∀ names name, NamesSorted names → placeName name names = sortNames (name :: names)) ∧
    ∀ (view : View) (name : Text), ∃ front behind, view.entries = front ++ behind ∧
      view.following? name = behind.head? ∧
      placeName name view.names = front.map (·.name) ++ name :: behind.map (·.name) := by
  refine ⟨fun a b => LawfulEqCmp.compare_eq_iff_eq, fun a b => OrientedCmp.eq_swap,
    fun a b c => TransCmp.isLE_trans, fun a b => compareNames_of_toLower_ne,
    fun names => ⟨namesSorted_sortNames names, sortNames_perm names⟩, ?_, ?_, View.following?_placeName⟩
  · intro names others hPerm
    exact (namesSorted_sortNames names).eq_sortNames ((sortNames_perm names).trans hPerm)
  · intro names name hSorted
    exact (hSorted.placeName name).eq_sortNames (placeName_perm name names)

/-- The Kelvin sign has the lower case of the letter K, and the dotted capital I a longer one than the letter I. -/
theorem compareNames_sorts_lookalikes :
    let names := ["\u212A".toList, "K".toList]
    let lower := Text.order (Text.toLower "\u0130".toList) (Text.toLower "I".toList)
    NamesSorted names ∧ Text.toLower "\u0130".toList ≠ Text.toLower "I".toList ∧
      compareNames "\u0130".toList "I".toList = lower ∧ lower = .gt ∧
      sortNames names.reverse = sortNames names ∧
      placeName "k".toList names = sortNames ("k".toList :: names) ∧
      placeName "k".toList names = ["\u212A".toList, "k".toList, "K".toList] := by
  intro names lower
  obtain ⟨-, -, -, hLower, -, hSame, hPlace, -⟩ := compareNames_sorts_canonically
  have hSorted : NamesSorted names := by decide +kernel
  have hDiffer : Text.toLower "\u0130".toList ≠ Text.toLower "I".toList := by decide +kernel
  exact ⟨hSorted, hDiffer, hLower _ _ hDiffer, by decide +kernel, hSame _ _ (List.reverse_perm names),
    hPlace names "k".toList hSorted, by decide +kernel⟩

end IconRegistry.Registry
