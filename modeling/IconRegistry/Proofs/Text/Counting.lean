import IconRegistry.Proofs.Text.Substitution
import IconRegistry.Proofs.Text.Trim

/-! How many characters of a kind there are in a text: what substitutions and trimming do to that number. -/
namespace IconRegistry.Text

variable {step : Text → Option (Text × Nat)} {kind : Char → Bool} {s t needle replacement : Text}

/-- What a step puts in the place of a text has as many characters of a kind. -/
def Conserves (step : Text → Option (Text × Nat)) (kind : Char → Bool) : Prop :=
  ∀ s out covered, step s = some (out, covered) → out.countP kind = (s.take (covered + 1)).countP kind

/-- A substitution whose steps conserve a kind of characters leaves as many of them as there were. -/
theorem Conserves.countP_substitute (h : Conserves step kind) (s : Text) :
    (substitute step s).countP kind = s.countP kind := by
  have hSkip : ∀ skip, (substituteSkipping step skip s).countP kind = (s.drop skip).countP kind := by
    induction s with
    | nil => intro skip; cases skip <;> rfl
    | cons c s ih =>
        intro skip
        cases skip with
        | succ skip => exact ih skip
        | zero =>
            rw [substituteSkipping]
            cases hStep : step (c :: s) with
            | none => simp [ih 0, List.countP_cons]
            | some found =>
                obtain ⟨out, covered⟩ := found
                have hOut := h _ _ _ hStep
                rw [List.drop_zero, ← List.take_append_drop (covered + 1) (c :: s), List.countP_append, List.countP_append,
                  hOut, List.drop_succ_cons, ih covered]
  exact hSkip 0

/-- A step that only takes away leaves some of the characters. -/
theorem sublist_substitute (h : ∀ s out covered, step s = some (out, covered) → out = []) (s : Text) :
    (substitute step s).Sublist s := by
  have hSkip : ∀ skip, (substituteSkipping step skip s).Sublist s := by
    induction s with
    | nil => intro skip; cases skip <;> exact List.nil_sublist _
    | cons c s ih =>
        intro skip
        cases skip with
        | succ skip => exact (ih skip).cons c
        | zero =>
            rw [substituteSkipping]
            cases hStep : step (c :: s) with
            | none => exact (ih 0).cons_cons c
            | some found =>
                obtain ⟨out, covered⟩ := found
                obtain rfl := h _ _ _ hStep
                exact (ih covered).cons c
  exact hSkip 0

/-- Replacing a text by one with as many characters of a kind conserves that kind. -/
theorem conserves_replacing (hSome : needle ≠ []) (h : replacement.countP kind = needle.countP kind) :
    Conserves (replacing needle replacement) kind := by
  intro s out covered hStep
  rw [replacing] at hStep
  split at hStep
  · rename_i hPrefix
    obtain ⟨rfl, rfl⟩ := Prod.mk.inj (Option.some.inj hStep)
    obtain ⟨rest, rfl⟩ := List.isPrefixOf_iff_prefix.mp hPrefix
    rw [Nat.sub_add_cancel (List.length_pos_iff.mpr hSome), List.take_left, h]
  · cases hStep

theorem countP_replaceAll (hSome : needle ≠ []) (h : replacement.countP kind = needle.countP kind) (s : Text) :
    (replaceAll needle replacement s).countP kind = s.countP kind := by
  rw [replaceAll_eq]
  exact (conserves_replacing hSome h).countP_substitute s

/-- Blanks hold no character of a kind that no blank is of. -/
theorem countP_blanks (hKind : ∀ c, isBlank c = true → kind c = false) (h : Blanks s) : s.countP kind = 0 :=
  List.countP_eq_zero.mpr fun c hc => by simp [hKind c (h c hc)]

/-- Trimming takes off blanks only. -/
theorem countP_trim (hKind : ∀ c, isBlank c = true → kind c = false) (s : Text) :
    (trim s).countP kind = s.countP kind := by
  obtain ⟨front, hFront, hFrontBlanks⟩ := exists_trimStart s
  obtain ⟨back, hBack, hBackBlanks⟩ := exists_trimEnd (trimStart s)
  calc (trim s).countP kind
      = front.countP kind + ((trim s).countP kind + back.countP kind) := by
        rw [countP_blanks hKind hFrontBlanks, countP_blanks hKind hBackBlanks, Nat.zero_add, Nat.add_zero]
    _ = s.countP kind := by
        rw [← List.countP_append, trim, ← hBack, ← List.countP_append, ← hFront]

end IconRegistry.Text
