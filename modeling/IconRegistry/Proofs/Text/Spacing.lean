import IconRegistry.Proofs.Text.Trim

/-! Texts in which single spaces stand for runs of blanks. -/
namespace IconRegistry.Text

/-- A text with single spaces for its runs of blanks; `behind` says whether a blank is in front of it. -/
def singleSpacedFrom : (behind : Bool) → Text → Text
  | _, [] => []
  | behind, c :: rest =>
    if isBlank c then (if behind then [] else [' ']) ++ singleSpacedFrom true rest
    else c :: singleSpacedFrom false rest

def singleSpaced (s : Text) : Text :=
  singleSpacedFrom false s

variable {s t : Text} {c : Char}

/-- Behind a blank that was already taken, further blanks are passed over. -/
theorem singleSpacedFrom_true (s : Text) : singleSpacedFrom true s = singleSpaced (s.dropWhile isBlank) := by
  induction s with
  | nil => rfl
  | cons c s ih =>
      cases hc : isBlank c with
      | true => simpa [singleSpacedFrom, hc] using ih
      | false => simp [singleSpacedFrom, singleSpaced, hc]

theorem singleSpaced_cons_of_blank (hc : isBlank c = true) (s : Text) :
    singleSpaced (c :: s) = ' ' :: singleSpaced (s.dropWhile isBlank) := by
  rw [singleSpaced, singleSpacedFrom, if_pos hc, singleSpacedFrom_true]
  rfl

theorem singleSpaced_cons_of_not_blank (hc : isBlank c = false) (s : Text) :
    singleSpaced (c :: s) = c :: singleSpaced s := by
  rw [singleSpaced, singleSpacedFrom, if_neg (by simp [hc])]
  rfl

/-- A character that is no blank sets the runs in front of it apart from those behind it. -/
theorem singleSpaced_append_cons (hc : isBlank c = false) (s t : Text) :
    singleSpaced (s ++ c :: t) = singleSpaced s ++ c :: singleSpaced t := by
  have hFrom : ∀ behind, singleSpacedFrom behind (s ++ c :: t) = singleSpacedFrom behind s ++ c :: singleSpaced t := by
    induction s with
    | nil =>
        intro behind
        simp [singleSpacedFrom, singleSpaced, hc]
    | cons d s ih =>
        intro behind
        rw [List.cons_append, singleSpacedFrom, singleSpacedFrom, ih, ih]
        split <;> simp
  exact hFrom false

/-- A text without blanks in front stays as it is. -/
theorem singleSpaced_append_of_not_blank (h : ∀ d ∈ s, isBlank d = false) (t : Text) :
    singleSpaced (s ++ t) = s ++ singleSpaced t := by
  induction s with
  | nil => rfl
  | cons d s ih =>
      obtain ⟨hd, hs⟩ := List.forall_mem_cons.mp h
      rw [List.cons_append, singleSpaced_cons_of_not_blank hd, ih hs, List.cons_append]

/-- Blanks alone become one space. -/
theorem singleSpaced_of_blanks (h : Blanks s) : singleSpaced s = if s = [] then [] else [' '] := by
  cases s with
  | nil => rfl
  | cons d s =>
      obtain ⟨hd, hs⟩ := List.forall_mem_cons.mp h
      have hRest : s.dropWhile isBlank = [] := trimStart_eq_nil hs
      rw [singleSpaced_cons_of_blank hd, hRest]
      rfl

theorem singleSpaced_eq_or (h : Blanks s) : singleSpaced s = [] ∨ singleSpaced s = [' '] := by
  rw [singleSpaced_of_blanks h]
  split
  · exact .inl rfl
  · exact .inr rfl

theorem blanks_singleSpaced (h : Blanks s) : Blanks (singleSpaced s) := by
  rw [singleSpaced_of_blanks h]
  split <;> decide

/-- A blank at the end is a space afterwards. -/
theorem singleSpaced_concat (hc : isBlank c = true) (s : Text) : ∃ t, singleSpaced (s ++ [c]) = t ++ [' '] := by
  obtain ⟨front, content, back, rfl, hFront, hTrimmed, hBack⟩ := exists_trimmed s
  have hEnd : Blanks (back ++ [c]) := List.forall_mem_append.mpr ⟨hBack, by simpa using hc⟩
  rcases List.eq_nil_or_concat content with rfl | ⟨content, d, rfl⟩
  · have hAll : Blanks (front ++ (back ++ [c])) := List.forall_mem_append.mpr ⟨hFront, hEnd⟩
    exact ⟨[], by simpa using singleSpaced_of_blanks hAll⟩
  · rw [List.concat_eq_append] at *
    have hd : isBlank d = false := hTrimmed.last d (by simp)
    have hParts : front ++ (content ++ [d] ++ back) ++ [c] = (front ++ content) ++ d :: (back ++ [c]) := by simp
    rw [hParts, singleSpaced_append_cons hd, singleSpaced_of_blanks hEnd, if_neg (by simp)]
    exact ⟨singleSpaced (front ++ content) ++ [d], by simp⟩

/-- Single spacing brings in no character but the space. -/
theorem mem_singleSpaced (h : c ∈ singleSpaced s) : c ∈ s ∨ c = ' ' := by
  have hFrom : ∀ behind, c ∈ singleSpacedFrom behind s → c ∈ s ∨ c = ' ' := by
    clear h
    induction s with
    | nil =>
        intro behind h
        cases h
    | cons d s ih =>
        intro behind h
        rw [singleSpacedFrom] at h
        split at h
        · rcases List.mem_append.mp h with h | h
          · split at h
            · cases h
            · exact .inr (List.mem_singleton.mp h)
          · exact (ih true h).imp_left (List.mem_cons_of_mem d)
        · rcases List.mem_cons.mp h with rfl | h
          · exact .inl List.mem_cons_self
          · exact (ih false h).imp_left (List.mem_cons_of_mem d)
  exact hFrom false h

end IconRegistry.Text
