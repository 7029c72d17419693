import IconRegistry.Text.Substitution

/-! Searches for the place where a text is to be split: what they pass over, whatever follows it, joins the part in
front of that place. -/
namespace IconRegistry.Text

variable {split : Text → Option (Text × Text)} {s t : Text} {c : Char}

/-- A search goes on behind a text as if it began there. -/
def PassesOver (split : Text → Option (Text × Text)) (s : Text) : Prop :=
  ∀ rest, split (s ++ rest) = (split rest).map fun parts => (s ++ parts.1, parts.2)

theorem PassesOver.nil : PassesOver split [] := by
  intro rest
  simp

theorem PassesOver.append (h : PassesOver split s) (h' : PassesOver split t) : PassesOver split (s ++ t) := by
  intro rest
  rw [List.append_assoc, h, h', Option.map_map]
  congr 1
  funext parts
  simp

/-- A search that passes over each of some pieces passes over them all in a row. -/
theorem PassesOver.flatten {pieces : List Text} (h : ∀ piece ∈ pieces, PassesOver split piece) :
    PassesOver split pieces.flatten := by
  induction pieces with
  | nil => exact .nil
  | cons piece pieces ih =>
      obtain ⟨hHere, hRest⟩ := List.forall_mem_cons.mp h
      exact hHere.append (ih hRest)

/-- A search that passes over single characters passes over a text of them. -/
theorem PassesOver.of_forall (h : ∀ c ∈ s, PassesOver split [c]) : PassesOver split s := by
  induction s with
  | nil => exact .nil
  | cons c s ih =>
      obtain ⟨hHere, hRest⟩ := List.forall_mem_cons.mp h
      exact hHere.append (ih hRest)

/-- What is found behind a text that the search passes over is found with that text in front. -/
theorem PassesOver.split_eq (h : PassesOver split s) {parts : Text × Text} (hRest : split t = some parts) :
    split (s ++ t) = some (s ++ parts.1, parts.2) := by
  rw [h, hRest]
  rfl

/-- A text that ends with a character occurs at no other place if that character does not. -/
theorem not_infix_append {needle : Text} (h : ¬needle ++ [c] <:+: s) (hc : c ∉ t) : ¬needle ++ [c] <:+: s ++ t := by
  rintro ⟨front, back, hParts⟩
  rcases List.append_eq_append_iff.mp hParts with ⟨more, hFront, -⟩ | ⟨more, hFront, hBehind⟩
  · exact h ⟨front, more, hFront.symm⟩
  · rcases List.eq_nil_or_concat more with rfl | ⟨more, d, rfl⟩
    · exact h ⟨front, [], by simpa using hFront⟩
    · rw [List.concat_eq_append, ← List.append_assoc, ← List.append_assoc] at hFront
      obtain rfl : c = d := by simpa using (List.append_inj' hFront rfl).2
      exact hc (by simp [hBehind])

/-- What does not begin in a text stands behind it. -/
theorem infix_of_append {needle : Text} (hc : c ∉ s) (h : c :: needle <:+: s ++ t) : c :: needle <:+: t := by
  induction s with
  | nil => exact h
  | cons d s ih =>
      obtain ⟨hHere, hRest⟩ : c ≠ d ∧ c ∉ s := by simpa using hc
      rcases List.infix_cons_iff.mp h with hPrefix | hInfix
      · exact absurd (List.cons_prefix_cons.mp hPrefix).1 hHere
      · exact ih hRest hInfix

/-- A text does not begin in another one and go on behind it with a character it does not have. -/
theorem not_prefix_append {needle u : Text} (h : ¬needle <:+: s) (hc : c ∉ needle) (hu : u <:+ s) (rest : Text) :
    ¬needle <+: u ++ c :: rest := by
  rintro ⟨more, hParts⟩
  rcases List.append_eq_append_iff.mp hParts with ⟨within, rfl, -⟩ | ⟨within, rfl, hBehind⟩
  · exact h ((List.prefix_append _ _).isInfix.trans hu.isInfix)
  · cases within with
    | nil => exact h (by simpa using hu.isInfix)
    | cons d within =>
        obtain ⟨rfl, -⟩ := List.cons_eq_cons.mp hBehind
        exact hc (by simp)

/-- A text is found where it first stands. -/
theorem splitAtText?_append {needle : Text} (hNeedle : needle ≠ []) (h : ¬needle <:+: s ++ needle.dropLast)
    (rest : Text) : splitAtText? needle (s ++ (needle ++ rest)) = some (s, rest) := by
  induction s with
  | nil =>
      obtain ⟨c, needle, rfl⟩ := List.exists_cons_of_ne_nil hNeedle
      simp [splitAtText?]
  | cons c s ih =>
      have hHere : ¬needle <+: c :: (s ++ (needle ++ rest)) := by
        intro hPrefix
        have hParts : needle ++ rest = needle.dropLast ++ (needle.getLast hNeedle :: rest) := by
          rw [List.append_cons, List.dropLast_concat_getLast]
        rw [hParts, ← List.cons_append, ← List.append_assoc] at hPrefix
        refine h (List.prefix_of_prefix_length_le hPrefix (List.prefix_append _ _) ?_).isInfix
        simp only [List.cons_append, List.length_cons, List.length_append, List.length_dropLast]
        omega
      have hRest : ¬needle <:+: s ++ needle.dropLast := fun hInfix => h (hInfix.trans (List.suffix_cons _ _).isInfix)
      rw [List.cons_append, splitAtText?, if_neg (by simpa using hHere), ih hRest]
      rfl

/-- A character is found where it first occurs. -/
theorem splitAtText?_char (h : c ∉ s) (rest : Text) : splitAtText? [c] (s ++ c :: rest) = some (s, rest) :=
  splitAtText?_append (by simp) (fun hInfix => h (by simpa using hInfix.subset)) rest

/-- A text is split at its first occurrence of another one. -/
theorem eq_append_of_splitAtText? {needle after : Text} (h : splitAtText? needle t = some (s, after)) :
    t = s ++ (needle ++ after) := by
  induction t generalizing s with
  | nil =>
      rw [splitAtText?] at h
      split at h
      · rename_i hNone
        cases h
        simp [List.isEmpty_iff.mp hNone]
      · cases h
  | cons c t ih =>
      rw [splitAtText?] at h
      split at h
      · rename_i hPrefix
        obtain ⟨rest, hRest⟩ := List.isPrefixOf_iff_prefix.mp hPrefix
        cases h
        rw [← hRest, List.drop_left, List.nil_append]
      · obtain ⟨parts, hParts, hSame⟩ := Option.map_eq_some_iff.mp h
        cases hSame
        rw [ih hParts, List.cons_append]

/-- A text that is found is found there whatever follows. -/
theorem splitAtText?_append_right {needle front after : Text} (h : splitAtText? needle s = some (front, after))
    (rest : Text) : splitAtText? needle (s ++ rest) = some (front, after ++ rest) := by
  induction s generalizing front with
  | nil =>
      rw [splitAtText?] at h
      split at h
      · rename_i hNone
        cases h
        cases rest <;> simp [splitAtText?, List.isEmpty_iff.mp hNone]
      · cases h
  | cons c s ih =>
      have hFound := eq_append_of_splitAtText? h
      rw [splitAtText?] at h
      rw [List.cons_append, splitAtText?]
      by_cases hHere : needle <+: c :: s
      · rw [if_pos (List.isPrefixOf_iff_prefix.mpr hHere)] at h
        cases h
        have hPrefix : needle <+: c :: (s ++ rest) := hHere.trans (List.prefix_append (c :: s) rest)
        rw [if_pos (List.isPrefixOf_iff_prefix.mpr hPrefix), ← List.drop_append_of_le_length hHere.length_le]
        rfl
      · have hBeyond : ¬needle <+: c :: (s ++ rest) := by
          intro hPrefix
          refine hHere (List.prefix_of_prefix_length_le hPrefix (List.prefix_append (c :: s) rest) ?_)
          rw [hFound]
          simp only [List.length_append]
          omega
        rw [if_neg (by simpa using hHere)] at h
        obtain ⟨parts, hParts, hSame⟩ := Option.map_eq_some_iff.mp h
        cases hSame
        rw [if_neg (by simpa using hBeyond), ih hParts]
        rfl

theorem not_infix_of_splitAtText? {needle : Text} (h : splitAtText? needle s = none) : ¬needle <:+: s := by
  induction s with
  | nil =>
      intro hInfix
      simp [splitAtText?, List.infix_nil.mp hInfix] at h
  | cons c s ih =>
      rw [splitAtText?] at h
      split at h
      · cases h
      · rename_i hHere
        rw [List.infix_cons_iff]
        rintro (hPrefix | hInfix)
        · exact hHere (List.isPrefixOf_iff_prefix.mpr hPrefix)
        · exact ih (Option.map_eq_none_iff.mp h) hInfix

/-- Where a text does not occur, the search for it goes on behind, if it cannot reach over the next character. -/
theorem splitAtText?_before {needle : Text} (h : ¬needle <:+: s) (hc : c ∉ needle) (rest : Text) :
    splitAtText? needle (s ++ c :: rest) =
      (splitAtText? needle (c :: rest)).map fun parts => (s ++ parts.1, parts.2) := by
  induction s with
  | nil => simp
  | cons d s ih =>
      have hHere : ¬needle <+: d :: s ++ c :: rest := not_prefix_append h hc List.suffix_rfl rest
      have hRest : ¬needle <:+: s := fun hInfix => h (hInfix.trans (List.suffix_cons d s).isInfix)
      rw [List.cons_append] at hHere ⊢
      rw [splitAtText?, if_neg (by simpa using hHere), ih hRest, Option.map_map]
      rfl

/-- The first separator splits a text, whatever follows it. -/
theorem splitOnce?_append {separator : Char} (h : separator ∉ s) (rest : Text) :
    splitOnce? separator (s ++ separator :: rest) = some (s, rest) := by
  induction s with
  | nil => simp [splitOnce?]
  | cons c s ih =>
      obtain ⟨hHere, hRest⟩ : separator ≠ c ∧ separator ∉ s := by simpa using h
      simp [splitOnce?, Ne.symm hHere, ih hRest]

end IconRegistry.Text
