import IconRegistry.Text.Basic

/-! What trimming and the dropping of a front leave of a text, and what they take off. -/
namespace IconRegistry.Text

theorem dropFront?_append (front s : Text) : dropFront? front (front ++ s) = some s := by
  induction front with
  | nil => cases s <;> rfl
  | cons c front ih => simp [dropFront?, ih]

/-- What a front was dropped from is the front and the rest. -/
theorem eq_append_of_dropFront? {front s rest : Text} (h : dropFront? front s = some rest) :
    s = front ++ rest := by
  induction front generalizing s with
  | nil => cases s <;> simpa [dropFront?] using h
  | cons c front ih =>
      cases s with
      | nil => simp [dropFront?] at h
      | cons d s =>
          rw [dropFront?] at h
          split at h
          · rename_i hSame
            rw [ih h, beq_iff_eq.mp hSame, List.cons_append]
          · cases h

/-- What is said of the characters of a text is decided one by one, not for all characters that there are. -/
instance (priority := high) decidableForallMem (kind : Char → Prop) [DecidablePred kind] (s : Text) :
    Decidable (∀ c ∈ s, kind c) :=
  List.decidableBAll kind s

abbrev Blanks (s : Text) : Prop :=
  ∀ c ∈ s, isBlank c = true

/-- No blanks at either end. -/
structure Trimmed (s : Text) : Prop where
  head : ∀ c, s.head? = some c → isBlank c = false
  last : ∀ c, s.getLast? = some c → isBlank c = false

theorem trimStart_suffix (s : Text) : trimStart s <:+ s :=
  List.dropWhile_suffix _

@[simp] theorem trimStart_nil : trimStart [] = [] := rfl

theorem trimStart_eq_nil {s : Text} (h : ∀ c ∈ s, isBlank c = true) : trimStart s = [] := by
  have hAll : (s ++ []).dropWhile isBlank = [].dropWhile isBlank := List.dropWhile_append_of_pos h
  simpa [trimStart] using hAll

theorem trimEnd_eq_nil {s : Text} (h : ∀ c ∈ s, isBlank c = true) : trimEnd s = [] := by
  have hReverse : trimStart s.reverse = [] := trimStart_eq_nil fun c hc => h c (List.mem_reverse.mp hc)
  rw [trimEnd, ← trimStart, hReverse, List.reverse_nil]

/-- Trimming stops at the first character that is no blank. -/
theorem trimStart_append_cons {blanks s : Text} {c : Char} (h : ∀ d ∈ blanks, isBlank d = true)
    (hc : isBlank c = false) : trimStart (blanks ++ c :: s) = c :: s := by
  rw [trimStart, List.dropWhile_append_of_pos h, List.dropWhile_cons_of_neg (by simp [hc])]

theorem trimStart_blanks_append {blanks : Text} (h : Blanks blanks) (s : Text) :
    trimStart (blanks ++ s) = trimStart s :=
  List.dropWhile_append_of_pos h

/-- A text that begins with no blank is left as it is. -/
theorem trimStart_eq_self {s : Text} (h : ∀ c, s.head? = some c → isBlank c = false) : trimStart s = s := by
  cases s with
  | nil => rfl
  | cons c s => exact List.dropWhile_cons_of_neg (by simp [h c rfl])

theorem trimEnd_append_blanks {blanks : Text} (h : Blanks blanks) (s : Text) :
    trimEnd (s ++ blanks) = trimEnd s := by
  rw [trimEnd, List.reverse_append, List.dropWhile_append_of_pos fun c hc => h c (List.mem_reverse.mp hc)]
  rfl

/-- A text that ends in no blank is left as it is. -/
theorem trimEnd_eq_self {s : Text} (h : ∀ c, s.getLast? = some c → isBlank c = false) : trimEnd s = s := by
  have hReverse : trimStart s.reverse = s.reverse := trimStart_eq_self (by simpa using h)
  rw [trimEnd, ← trimStart, hReverse, List.reverse_reverse]

/-- A character that is no blank is kept with all that is in front of it. -/
theorem trimEnd_append_cons (s t : Text) {c : Char} (hc : isBlank c = false) :
    trimEnd (s ++ c :: t) = s ++ c :: trimEnd t := by
  have hKept : (s ++ [c]).reverse.dropWhile isBlank = (s ++ [c]).reverse := by
    rw [List.reverse_concat, List.dropWhile_cons_of_neg (by simp [hc])]
  rw [trimEnd, List.append_cons, List.reverse_append, List.dropWhile_append]
  split
  · rename_i hNone
    rw [hKept, List.reverse_reverse, trimEnd, List.isEmpty_iff.mp hNone]
    simp
  · rw [List.reverse_append, List.reverse_reverse, trimEnd]
    simp

/-- Trimming at the end does not reach over a character that is no blank. -/
theorem trimEnd_append_of_last {s : Text} {c : Char} (hLast : s.getLast? = some c) (hc : isBlank c = false) (t : Text) :
    trimEnd (s ++ t) = s ++ trimEnd t := by
  obtain ⟨front, rfl⟩ := List.getLast?_eq_some_iff.mp hLast
  rw [List.append_assoc, List.singleton_append, trimEnd_append_cons _ _ hc, List.append_assoc, List.singleton_append]

/-- What trimming takes from the front is blanks. -/
theorem exists_trimStart (s : Text) : ∃ blanks, s = blanks ++ trimStart s ∧ Blanks blanks :=
  ⟨s.takeWhile isBlank, (List.takeWhile_append_dropWhile).symm, List.all_eq_true.mp List.all_takeWhile⟩

/-- What is left does not begin with a blank. -/
theorem isBlank_of_trimStart {s rest : Text} {c : Char} (h : trimStart s = c :: rest) : isBlank c = false := by
  have hStop := List.head?_dropWhile_not isBlank s
  rw [← trimStart, h] at hStop
  simpa using hStop

/-- What trimming takes from the end is blanks. -/
theorem exists_trimEnd (s : Text) : ∃ blanks, s = trimEnd s ++ blanks ∧ Blanks blanks := by
  refine ⟨(s.reverse.takeWhile isBlank).reverse, ?_, ?_⟩
  · rw [trimEnd, ← List.reverse_append, List.takeWhile_append_dropWhile, List.reverse_reverse]
  · intro c hc
    exact List.all_eq_true.mp List.all_takeWhile c (List.mem_reverse.mp hc)

theorem trimEnd_trimEnd (s : Text) : trimEnd (trimEnd s) = trimEnd s := by
  obtain ⟨blanks, hParts, hBlanks⟩ := exists_trimEnd s
  have hSame := trimEnd_append_blanks hBlanks (trimEnd s)
  rw [← hParts] at hSame
  exact hSame.symm

theorem trimEnd_prefix (s : Text) : trimEnd s <+: s := by
  rw [trimEnd, ← List.reverse_suffix, List.reverse_reverse]
  exact List.dropWhile_suffix _

/-- A text has blanks around what is left of it by trimming. -/
theorem exists_trimmed (s : Text) :
    ∃ front content back, s = front ++ (content ++ back) ∧ Blanks front ∧ Trimmed content ∧ Blanks back := by
  obtain ⟨back, hParts, hBack⟩ := exists_trimEnd (trimStart s)
  refine ⟨s.takeWhile isBlank, trimEnd (trimStart s), back, ?_, ?_, ⟨?_, ?_⟩, hBack⟩
  · rw [← hParts, trimStart, List.takeWhile_append_dropWhile]
  · exact fun c hc => List.all_eq_true.mp List.all_takeWhile c hc
  · intro c hc
    obtain ⟨rest, hRest⟩ := List.head?_eq_some_iff.mp hc
    rw [hRest] at hParts
    exact isBlank_of_trimStart hParts
  · intro c hc
    rw [trimEnd, List.getLast?_reverse] at hc
    obtain ⟨rest, hRest⟩ := List.head?_eq_some_iff.mp hc
    exact isBlank_of_trimStart (s := (trimStart s).reverse) hRest

/-- Trimming takes exactly the blanks around a trimmed text. -/
theorem trim_around {front content back : Text} (hFront : Blanks front) (h : Trimmed content) (hBack : Blanks back) :
    trim (front ++ (content ++ back)) = content := by
  rw [trim, trimStart_blanks_append hFront]
  cases content with
  | nil => rw [List.nil_append, trimStart_eq_nil hBack]; rfl
  | cons c rest =>
      rw [trimStart_eq_self (by simpa using h.head c rfl), trimEnd_append_blanks hBack, trimEnd_eq_self h.last]

/-- What trimming leaves is trimmed. -/
theorem trimmed_trim (s : Text) : Trimmed (trim s) := by
  obtain ⟨front, content, back, rfl, hFront, hContent, hBack⟩ := exists_trimmed s
  rwa [trim_around hFront hContent hBack]

theorem trim_subset (s : Text) : trim s ⊆ s := by
  have hEnd := trimEnd_prefix (trimStart s)
  exact fun c hc => (trimStart_suffix s).subset (hEnd.subset hc)

/-- A front that is dropped if it is there leaves an end of the text. -/
theorem dropFront?_getD_suffix (front s : Text) : (dropFront? front s).getD s <:+ s := by
  cases h : dropFront? front s with
  | none => exact List.suffix_rfl
  | some rest => exact ⟨front, (eq_append_of_dropFront? h).symm⟩

end IconRegistry.Text
