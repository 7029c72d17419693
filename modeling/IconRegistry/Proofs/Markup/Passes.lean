import IconRegistry.Proofs.Markup.Layout
import IconRegistry.Proofs.Text.Counting

/-! The passes that drop prologs, document types and comments, in front of a root. What stands there a pass takes as a
whole, or it takes the beginning of the root with it, up to the first end of what it drops. -/
namespace IconRegistry.Markup

open Text (isBlank substitute splitAtText?)

/-- The step of dropping what begins with a mark of a certain width and runs to the first `closing` behind it. -/
def droppingMarked (isMark : Text → Bool) (width : Nat) (closing s : Text) : Option (Text × Nat) := do
  let inside ← if isMark (s.take width) then some (s.drop width) else none
  let (_, after) ← splitAtText? closing inside
  return ([], s.length - after.length - 1)

/-- A pass: what it drops, from a mark to an end. A mark begins with its only `<`, and an end has its only `>` last. -/
structure Pass where
  isMark : Text → Bool
  width : Nat
  ending : Text
  mark : ∀ {t}, isMark t = true → t.length = width ∧ ∃ rest, t = '<' :: rest ∧ '<' ∉ rest
  ending_free : '<' ∉ ending ∧ '>' ∉ ending

namespace Pass

def closing (pass : Pass) : Text :=
  pass.ending ++ ['>']

theorem closing_free (pass : Pass) : '<' ∉ pass.closing := by
  simp [closing, pass.ending_free.1]

theorem closing_nonempty (pass : Pass) : pass.closing ≠ [] := by
  simp [closing]

def step (pass : Pass) : Text → Option (Text × Nat) :=
  droppingMarked pass.isMark pass.width pass.closing

/-- A pass takes a text as a whole, whatever root follows. -/
def Leaves (pass : Pass) (s out : Text) : Prop :=
  ∀ root, root.head? = some '<' → substitute pass.step (s ++ root) = out ++ substitute pass.step root

/-- A pass begins in a text what may go on in the root that follows. -/
def Swallows (pass : Pass) (s : Text) : Prop :=
  ∃ out, out.length ≤ s.length ∧ ∀ root front rest, root.head? = some '<' →
    splitAtText? pass.closing root = some (front, rest) →
      substitute pass.step (s ++ root) = out ++ substitute pass.step rest

/-- What a pass begins in a text is ended there, or it may go on behind. -/
def Settles (pass : Pass) (s : Text) : Prop :=
  (∃ out, out.length ≤ s.length ∧ pass.Leaves s out) ∨ pass.Swallows s

variable {pass : Pass} {s t out root : Text} {c : Char}

/-- A pass takes a step only where its mark stands. -/
theorem step_of_not_mark (h : pass.isMark (s.take pass.width) = false) : pass.step s = none := by
  rw [step, droppingMarked, h]
  rfl

/-- From a mark on, a pass covers all up to the end of what closes it. -/
theorem step_of_mark {mark inside front after : Text} (hMark : pass.isMark mark = true)
    (h : splitAtText? pass.closing inside = some (front, after)) :
    pass.step (mark ++ inside) = some ([], (mark ++ inside).length - after.length - 1) := by
  obtain ⟨hWidth, -⟩ := pass.mark hMark
  rw [step, droppingMarked, ← hWidth, List.take_left, hMark, List.drop_left]
  simp only [bind, if_true, Option.bind_some, h]
  rfl

/-- The step of a pass only takes away. -/
theorem eq_nil_of_step {covered : Nat} (h : pass.step s = some (out, covered)) : out = [] := by
  rw [step, droppingMarked] at h
  split at h
  · obtain ⟨inside, -, h⟩ := Option.bind_eq_some_iff.mp h
    obtain ⟨parts, -, h⟩ := Option.bind_eq_some_iff.mp h
    cases h
    rfl
  · cases h

/-- A pass takes characters away and brings in none. -/
theorem sublist (pass : Pass) (s : Text) : (substitute pass.step s).Sublist s :=
  Text.sublist_substitute (fun _ _ _ h => eq_nil_of_step h) s

/-- Dropping a whole piece. -/
theorem substitute_of_mark {mark inside front after : Text} (hMark : pass.isMark mark = true)
    (h : splitAtText? pass.closing inside = some (front, after)) :
    substitute pass.step (mark ++ inside) = substitute pass.step after := by
  have hStep := step_of_mark hMark h
  obtain ⟨-, rest, rfl, -⟩ := pass.mark hMark
  have hText : '<' :: rest ++ inside = '<' :: (rest ++ (front ++ pass.closing) ++ after) := by
    rw [Text.eq_append_of_splitAtText? h]
    simp
  have hCovered : ('<' :: rest ++ inside).length - after.length - 1 = (rest ++ (front ++ pass.closing)).length := by
    rw [hText]
    simp only [List.length_append, List.length_cons]
    omega
  rw [hCovered, hText] at hStep
  rw [hText, Text.substitute_of_match hStep, List.nil_append]

/-- A mark does not reach into a root. -/
theorem isMark_append (hs : s ≠ []) (hRoot : root.head? = some '<')
    (h : pass.isMark ((s ++ root).take pass.width) = true) : pass.isMark (s.take pass.width) = true := by
  obtain ⟨-, rest, hRest, hFree⟩ := pass.mark h
  by_cases hShort : pass.width ≤ s.length
  · rwa [List.take_append_of_le_length hShort] at h
  · obtain ⟨c, s, rfl⟩ := List.exists_cons_of_ne_nil hs
    obtain ⟨root, rfl⟩ := List.head?_eq_some_iff.mp hRoot
    obtain ⟨n, hn⟩ : ∃ n, pass.width - (c :: s).length = n + 1 := Nat.exists_eq_succ_of_ne_zero (by omega)
    rw [List.take_append, hn, List.take_of_length_le (by omega), List.cons_append] at hRest
    obtain ⟨-, rfl⟩ := List.cons_eq_cons.mp hRest
    exact absurd (by simp) hFree

/-- A character that begins no mark stays, whatever root follows. -/
theorem step_append_of_not_mark (h : pass.isMark ((c :: s).take pass.width) = false) (hRoot : root.head? = some '<') :
    substitute pass.step (c :: s ++ root) = c :: substitute pass.step (s ++ root) := by
  refine Text.substitute_cons_of_none (step_of_not_mark (Bool.eq_false_iff.mpr fun hMark => ?_))
  rw [isMark_append (List.cons_ne_nil c s) hRoot hMark] at h
  cases h

/-- What settles still does with a character in front that begins no mark. -/
theorem Settles.cons (hMark : pass.isMark ((c :: s).take pass.width) = false) (h : pass.Settles s) :
    pass.Settles (c :: s) := by
  rcases h with ⟨out, hOut, hLeaves⟩ | ⟨out, hOut, hSwallows⟩
  · refine .inl ⟨c :: out, by simpa using hOut, fun root hRoot => ?_⟩
    rw [step_append_of_not_mark hMark hRoot, hLeaves root hRoot, List.cons_append]
  · refine .inr ⟨c :: out, by simpa using hOut, fun root front rest hRoot hSplit => ?_⟩
    rw [step_append_of_not_mark hMark hRoot, hSwallows root front rest hRoot hSplit, List.cons_append]

/-- What is the same for every root once a part is dropped settles if the rest does. -/
theorem Settles.of_dropped (hSame : ∀ root, substitute pass.step (s ++ root) = substitute pass.step (t ++ root))
    (hLength : t.length ≤ s.length) (h : pass.Settles t) : pass.Settles s := by
  rcases h with ⟨out, hOut, hLeaves⟩ | ⟨out, hOut, hSwallows⟩
  · exact .inl ⟨out, Nat.le_trans hOut hLength, fun root hRoot => (hSame root).trans (hLeaves root hRoot)⟩
  · exact .inr ⟨out, Nat.le_trans hOut hLength, fun root front rest hRoot hEnd =>
      (hSame root).trans (hSwallows root front rest hRoot hEnd)⟩

/-- What is begun and not ended goes on in the root. -/
theorem swallows_of_mark {mark inside : Text} (hMark : pass.isMark mark = true)
    (h : splitAtText? pass.closing inside = none) : pass.Swallows (mark ++ inside) := by
  refine ⟨[], Nat.zero_le _, fun root front rest hRoot hEnd => ?_⟩
  obtain ⟨root, rfl⟩ := List.head?_eq_some_iff.mp hRoot
  have hBehind := Text.splitAtText?_before (Text.not_infix_of_splitAtText? h) pass.closing_free root
  rw [hEnd] at hBehind
  rw [List.append_assoc, substitute_of_mark hMark hBehind, List.nil_append]

/-- Every text settles: from some point on, a pass keeps what it holds. -/
theorem settles (pass : Pass) (s : Text) : pass.Settles s := by
  induction hLength : s.length using Nat.strongRecOn generalizing s with
  | _ n ih =>
    subst hLength
    cases s with
    | nil => exact .inl ⟨[], Nat.le_refl _, fun _ _ => rfl⟩
    | cons c s =>
        cases hMark : pass.isMark ((c :: s).take pass.width) with
        | false => exact .cons hMark (ih s.length (by simp) s rfl)
        | true =>
            have hParts := List.take_append_drop pass.width (c :: s)
            cases hSplit : splitAtText? pass.closing ((c :: s).drop pass.width) with
            | none =>
                rw [← hParts]
                exact .inr (swallows_of_mark hMark hSplit)
            | some found =>
                obtain ⟨front, after⟩ := found
                have hShorter : after.length < (c :: s).length := by
                  have hDrop := congrArg List.length (Text.eq_append_of_splitAtText? hSplit)
                  have hClosing := List.length_pos_iff.mpr pass.closing_nonempty
                  simp only [List.length_drop, List.length_append] at hDrop
                  omega
                refine .of_dropped (fun root => ?_) (Nat.le_of_lt hShorter) (ih after.length hShorter after rfl)
                rw [← hParts, List.append_assoc, substitute_of_mark hMark (Text.splitAtText?_append_right hSplit root)]

end Pass

end IconRegistry.Markup
