import IconRegistry.Text.Case

/-! Upper case: the characters that the table brings in are in upper case themselves. -/
namespace IconRegistry.Text

/-- The image of a number in mapping runs is that of one of the runs. -/
theorem exists_run_of_imageInRuns? {n m : Nat} {runs : List (Nat × Nat × Nat × Nat)}
    (h : imageInRuns? n runs = some m) :
    ∃ run ∈ runs, ∃ distance ≤ run.2.1 - run.1, distance % run.2.2.1 = 0 ∧ m = run.2.2.2 + distance := by
  induction runs with
  | nil => cases h
  | cons run rest ih =>
      obtain ⟨first, last, step, image⟩ := run
      rw [imageInRuns?] at h
      split at h
      · cases h
      · split at h
        · rename_i hRun
          simp only [Bool.and_eq_true, decide_eq_true_eq, beq_iff_eq] at hRun
          exact ⟨_, List.mem_cons_self, n - first, Nat.sub_le_sub_right hRun.1 first, hRun.2, (Option.some.inj h).symm⟩
        · obtain ⟨run, hRun, hImage⟩ := ih h
          exact ⟨run, List.mem_cons_of_mem _ hRun, hImage⟩

/-- Whether sorted mapping runs have none of the numbers from `first` to `last` in steps of `step`, as far as bounds
and the difference of odd and even tell. -/
def misses (first last step : Nat) : List (Nat × Nat × Nat × Nat) → Bool
  | [] => true
  | (first', last', step', _) :: rest =>
    last.blt first' ||
      (last'.blt first || (first == last || step % 2 == 0) && step' % 2 == 0 && (first + first') % 2 == 1) &&
        misses first last step rest

/-- A code in a range that all runs miss has no image. -/
theorem imageInRuns?_of_misses {first last step distance : Nat} {runs : List (Nat × Nat × Nat × Nat)}
    (h : misses first last step runs = true) (hLast : first + distance ≤ last) (hStep : distance % step = 0) :
    imageInRuns? (first + distance) runs = none := by
  induction runs with
  | nil => rfl
  | cons run rest ih =>
      obtain ⟨first', last', step', image⟩ := run
      simp only [misses, Bool.or_eq_true, Bool.and_eq_true, Nat.blt_eq, beq_iff_eq] at h
      rw [imageInRuns?]
      split
      · rfl
      · rename_i hReached
        obtain ⟨hApart, hRest⟩ := h.resolve_left (by omega)
        rw [if_neg, ih hRest]
        simp only [Bool.and_eq_true, decide_eq_true_eq, beq_iff_eq]
        rintro ⟨hLast', hStep'⟩
        have even_of_mod : ∀ {k d : Nat}, k % 2 = 0 → d % k = 0 → d % 2 = 0 := fun hk hd =>
          Nat.mod_eq_zero_of_dvd (Nat.dvd_trans (Nat.dvd_of_mod_eq_zero hk) (Nat.dvd_of_mod_eq_zero hd))
        rcases hApart with hBehind | ⟨⟨hEven, hEven'⟩, hOdd⟩
        · omega
        · -- both distances are even, so the two runs begin with numbers that are both odd or both even
          have hDistance' : (first + distance - first') % 2 = 0 := even_of_mod hEven' hStep'
          have hDistance : distance % 2 = 0 := by
            rcases hEven with rfl | hEven
            · obtain rfl : distance = 0 := by omega
              rfl
            · exact even_of_mod hEven hStep
          omega

/-- What the upper case of a character is taken from. -/
theorem upperOf_cases (c : Char) :
    c.toNat < 128 ∧ upperOf c = [c.toUpper] ∨
      128 ≤ c.toNat ∧
        ((∃ e ∈ upperExpansions, e.1 = c.toNat ∧ upperOf c = e.2.map Char.ofNat) ∨
          (∃ run ∈ upperMapRuns, ∃ distance ≤ run.2.1 - run.1,
            distance % run.2.2.1 = 0 ∧ upperOf c = [Char.ofNat (run.2.2.2 + distance)]) ∨
          upperOf c = [c]) := by
  rw [upperOf]
  split
  · rename_i hSmall
    exact .inl ⟨hSmall, rfl⟩
  · rename_i hLarge
    refine .inr ⟨by omega, ?_⟩
    split
    · rename_i e hFound
      exact .inl ⟨_, List.mem_of_find?_eq_some hFound, by simpa using List.find?_some hFound, rfl⟩
    · split
      · rename_i hImage
        obtain ⟨run, hRun, distance, hDistance, hStep, rfl⟩ := exists_run_of_imageInRuns? hImage
        exact .inr (.inl ⟨run, hRun, distance, hDistance, hStep, rfl⟩)
      · exact .inr (.inr rfl)

/-- Apart from the code 0, which stands in for those that are none, a code is that of its own character only. -/
theorem eq_of_toNat_ofNat {m n : Nat} (h : (Char.ofNat m).toNat = n) (hn : n ≠ 0) : m = n := by
  by_cases hValid : m.isValidChar
  · rw [Char.ofNat, dif_pos hValid] at h
    exact h
  · rw [Char.ofNat, dif_neg hValid] at h
    exact absurd h.symm hn

/-- What the table of expansions brings in of ASCII are capital letters. -/
theorem isUpper_of_mem_expansion :
    ∀ e ∈ upperExpansions, ∀ n ∈ e.2, n < 128 → (Char.ofNat n).isUpper = true := by
  decide

/-- What the mapping runs bring in of ASCII are capital letters, each with a run of its own. -/
theorem isUpper_of_image :
    ∀ run ∈ upperMapRuns, run.2.2.2 < 128 → run.2.1 - run.1 = 0 ∧ (Char.ofNat run.2.2.2).isUpper = true := by
  decide +kernel

/-- A number that no table of upper case maps elsewhere. -/
structure IsUpperCode (n : Nat) : Prop where
  ascii : n < 128 → (Char.ofNat n).isUpper = true
  unexpanded : ∀ e ∈ upperExpansions, e.1 ≠ n
  unmapped : imageInRuns? n upperMapRuns = none

/-- The first code of an expansion is one of an upper-case letter. -/
theorem isUpperCode_of_head {e : Nat × List Nat} {n : Nat} (he : e ∈ upperExpansions) (hn : n ∈ e.2.head?) :
    IsUpperCode n := by
  have hExpansions : ∀ e ∈ upperExpansions, ∀ n ∈ e.2.head?, ∀ e' ∈ upperExpansions, e'.1 ≠ n := by decide +kernel
  have hRuns : ∀ e ∈ upperExpansions, ∀ n ∈ e.2.head?, misses n n 1 upperMapRuns = true := by decide +kernel
  have hUnmapped : imageInRuns? (n + 0) upperMapRuns = none :=
    imageInRuns?_of_misses (hRuns e he n hn) (Nat.le_refl n) rfl
  exact ⟨isUpper_of_mem_expansion e he n (List.mem_of_mem_head? hn), hExpansions e he n hn, hUnmapped⟩

theorem isUpperCode_of_image {run : Nat × Nat × Nat × Nat} {distance : Nat} (hRun : run ∈ upperMapRuns)
    (hDistance : distance ≤ run.2.1 - run.1) (hStep : distance % run.2.2.1 = 0) :
    IsUpperCode (run.2.2.2 + distance) := by
  have hExpansions : (upperMapRuns.all fun run => upperExpansions.all fun e =>
      e.1.blt run.2.2.2 || (run.2.2.2 + (run.2.1 - run.1)).blt e.1) = true := by decide +kernel
  have hRuns : (upperMapRuns.all fun run =>
      misses run.2.2.2 (run.2.2.2 + (run.2.1 - run.1)) run.2.2.1 upperMapRuns) = true := by decide +kernel
  refine ⟨fun hAscii => ?_, fun e he hSame => ?_,
    imageInRuns?_of_misses (List.all_eq_true.mp hRuns run hRun) (Nat.add_le_add_left hDistance _) hStep⟩
  · obtain ⟨hOne, hUpper⟩ := isUpper_of_image run hRun (by omega)
    obtain rfl : distance = 0 := by omega
    exact hUpper
  · have hApart := List.all_eq_true.mp (List.all_eq_true.mp hExpansions run hRun) e he
    simp only [Bool.or_eq_true, Nat.blt_eq] at hApart
    omega

/-- The character of such a number is its own upper case. -/
theorem IsUpperCode.upperOf_eq {n : Nat} (h : IsUpperCode n) : upperOf (Char.ofNat n) = [Char.ofNat n] := by
  have hAscii : ∀ m < 128, (Char.ofNat m).isUpper = true → (Char.ofNat m).toUpper = Char.ofNat m := by decide
  by_cases hZero : (Char.ofNat n).toNat = 0
  · have hNull : Char.ofNat n = '\x00' := Char.toNat_inj.mp hZero
    rw [hNull]
    decide
  · have hSame : n = (Char.ofNat n).toNat := eq_of_toNat_ofNat rfl hZero
    rw [upperOf, ← hSame]
    split
    · rename_i hSmall
      rw [hAscii n hSmall (h.ascii hSmall)]
    · rw [List.find?_eq_none.mpr (by simpa using fun code image hMember => h.unexpanded (code, image) hMember),
        h.unmapped]

/-- No character vanishes in upper case. -/
theorem upperOf_ne_nil (c : Char) : upperOf c ≠ [] := by
  have hExpansions : ∀ e ∈ upperExpansions, e.2 ≠ [] := by decide
  rcases upperOf_cases c with ⟨-, h⟩ | ⟨-, ⟨e, he, -, h⟩ | ⟨_, -, _, -, -, h⟩ | h⟩
  · simp [h]
  · simp [h, hExpansions e he]
  · simp [h]
  · simp [h]

/-- The first character of an upper case is its own upper case. -/
theorem upperOf_of_mem_head? {c d : Char} (h : d ∈ (upperOf c).head?) : upperOf d = [d] := by
  have hAscii : ∀ n < 128, upperOf (Char.ofNat n).toUpper = [(Char.ofNat n).toUpper] := by decide +kernel
  rcases upperOf_cases c with ⟨hSmall, hCase⟩ |
    ⟨-, ⟨e, he, -, hCase⟩ | ⟨run, hRun, distance, hDistance, hStep, hCase⟩ | hCase⟩
  · obtain rfl : c.toUpper = d := by simpa [hCase] using h
    have hUpper := hAscii c.toNat hSmall
    rwa [Char.ofNat_toNat] at hUpper
  · rw [hCase, List.head?_map] at h
    obtain ⟨n, hn, rfl⟩ := Option.map_eq_some_iff.mp h
    exact (isUpperCode_of_head he hn).upperOf_eq
  · obtain rfl : Char.ofNat (run.2.2.2 + distance) = d := by simpa [hCase] using h
    exact (isUpperCode_of_image hRun hDistance hStep).upperOf_eq
  · obtain rfl : c = d := by simpa [hCase] using h
    exact hCase

end IconRegistry.Text
