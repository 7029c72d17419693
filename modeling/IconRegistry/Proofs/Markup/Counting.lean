import IconRegistry.Proofs.Markup.Canonical
import IconRegistry.Proofs.Text.Counting

/-! What the canonical layout keeps of a text without prolog, document type and comments: all characters but blanks and
quotation marks. -/
namespace IconRegistry.Markup

open Text (isBlank substitute splitAtText? Conserves)

/-- Kinds of characters that the canonical layout keeps. -/
structure IsKept (kind : Char → Bool) : Prop where
  blank : ∀ c, isBlank c = true → kind c = false
  quote : ∀ c ∈ "\"'&quot;".toList, kind c = false

/-- A character that is no blank, no quote and not part of a spelled quote is kept. -/
theorem isKept_eq {c : Char} (hc : isBlank c = false) (hQuote : c ∉ "\"'&quot;".toList) : IsKept (· == c) where
  blank d hd := by
    rw [beq_eq_false_iff_ne]
    rintro rfl
    rw [hc] at hd
    cases hd
  quote d hd := by
    rw [beq_eq_false_iff_ne]
    rintro rfl
    exact hQuote hd

section Kept

variable {kind : Char → Bool}

theorem conserves_collapsing (h : IsKept kind) : Conserves collapsing kind := by
  intro s out covered hStep
  cases s with
  | nil => cases hStep
  | cons c rest =>
      rw [collapsing] at hStep
      split at hStep
      · rename_i hc
        cases hStep
        have hRun : Text.Blanks (c :: rest.takeWhile isBlank) :=
          List.forall_mem_cons.mpr ⟨hc, List.all_eq_true.mp List.all_takeWhile⟩
        rw [List.take_succ_cons, List.prefix_iff_eq_take.mp (List.takeWhile_prefix isBlank) |>.symm,
          Text.countP_blanks h.blank hRun]
        exact Text.countP_blanks h.blank (by decide)
      · cases hStep

/-- Spelling out double quotes leaves the characters of a kept kind. -/
theorem IsKept.requoted (h : IsKept kind) (content : Text) :
    (Text.replaceAll ['"'] "&quot;".toList content).countP kind = content.countP kind := by
  refine Text.countP_replaceAll (by simp) ?_ content
  have hNone : ∀ s : Text, (∀ c ∈ s, c ∈ "\"'&quot;".toList) → s.countP kind = 0 :=
    fun s hs => List.countP_eq_zero.mpr fun c hc => by simp [h.quote c (hs c hc)]
  rw [hNone _ (by decide), hNone _ (by decide)]

/-- What canonicalization makes of an attribute: it stays, or it was in single quotes. -/
theorem exists_of_requotedAttribute? {s out : Text} {covered : Nat} (h : requotedAttribute? s = some (out, covered)) :
    out = s.take (covered + 1) ∨ ∃ b key before after content rest, Text.Blanks before ∧ Text.Blanks after ∧
      s = b :: (key ++ (before ++ '=' :: (after ++ '\'' :: (content ++ ['\''])))) ++ rest ∧
      covered = (key ++ (before ++ '=' :: (after ++ '\'' :: (content ++ ['\''])))).length ∧
      out = b :: key ++ "=\"".toList ++ Text.replaceAll ['"'] "&quot;".toList content ++ ['"'] := by
  cases s with
  | nil => cases h
  | cons b s =>
      rw [requotedAttribute?] at h
      dsimp only at h
      split at h
      · cases h
      · obtain ⟨value, hValue, h⟩ := Option.bind_eq_some_iff.mp h
        split at h
        · rename_i rest hOpen
          obtain ⟨⟨content, behind⟩, hSplit, h⟩ := Option.bind_eq_some_iff.mp h
          obtain ⟨before, hBefore, hBeforeBlanks⟩ :=
            Text.exists_trimStart (s.drop (s.takeWhile isRequotedKeyChar).length)
          obtain ⟨after, hAfter, hAfterBlanks⟩ := Text.exists_trimStart value
          rw [Text.eq_append_of_dropFront? hValue, hAfter, hOpen, Text.eq_append_of_splitAtText? hSplit] at hBefore
          have hText : s = s.takeWhile isRequotedKeyChar ++
              (before ++ '=' :: (after ++ '\'' :: (content ++ ['\'']))) ++ behind := by
            have hKey := List.prefix_iff_eq_append.mp (List.takeWhile_prefix isRequotedKeyChar (l := s))
            rw [hBefore] at hKey
            exact hKey.symm.trans (by simp)
          have hCovered := congrArg List.length hText
          rw [List.length_append] at hCovered
          obtain ⟨rfl, rfl⟩ := Prod.mk.inj (Option.some.inj h)
          exact .inr ⟨b, s.takeWhile isRequotedKeyChar, before, after, content, behind, hBeforeBlanks, hAfterBlanks,
            congrArg (b :: ·) hText, by rw [hCovered]; exact Nat.add_sub_cancel _ _, rfl⟩
        · obtain ⟨_, -, h⟩ := Option.bind_eq_some_iff.mp h
          cases h
          exact .inl rfl
        · cases h

/-- An attribute in double quotes has the characters that it had before. -/
theorem conserves_requoting (h : IsKept kind) : Conserves requotedAttribute? kind := by
  intro s out covered hStep
  have hApostrophe : kind '\'' = false := h.quote _ (by decide)
  have hQuote : kind '"' = false := h.quote _ (by decide)
  rcases exists_of_requotedAttribute? hStep with rfl | ⟨b, key, before, after, content, rest, hBefore, hAfter, rfl, rfl, rfl⟩
  · rfl
  · have hTaken : ((b :: (key ++ (before ++ '=' :: (after ++ '\'' :: (content ++ ['\'']))))) ++ rest).take
        ((key ++ (before ++ '=' :: (after ++ '\'' :: (content ++ ['\''])))).length + 1) =
        b :: (key ++ (before ++ '=' :: (after ++ '\'' :: (content ++ ['\''])))) :=
      List.take_left' rfl
    have hRequoted := h.requoted content
    generalize Text.replaceAll ['"'] "&quot;".toList content = requoted at hRequoted
    rw [hTaken]
    simp [List.countP_cons, hRequoted, Text.countP_blanks h.blank hBefore, Text.countP_blanks h.blank hAfter,
      hApostrophe, hQuote]

/-- A canonical tag has as many characters of a kept kind as the tag had. -/
theorem countP_canonicalTag (h : IsKept kind) (tag : Text) : (canonicalTag tag).countP kind = tag.countP kind := by
  have hSpace : kind ' ' = false := h.blank ' ' (by decide)
  rw [canonicalTag, Text.countP_replaceAll (by decide) (by simp [hSpace]),
    Text.countP_replaceAll (by decide) (by simp [hSpace]), collapseBlanks_eq, ← substitute_collapsing,
    (conserves_collapsing h).countP_substitute, (conserves_requoting h).countP_substitute]

theorem eq_append_of_splitTagEnd {quote : Option Char} {s content after : Text}
    (h : splitTagEndAnyQuote? quote s = some (content, after)) : s = content ++ '>' :: after := by
  induction s generalizing quote content with
  | nil => cases quote <;> cases h
  | cons c s ih =>
      have hRest : ∀ quote', (splitTagEndAnyQuote? quote' s).map (fun parts => (c :: parts.1, parts.2)) =
          some (content, after) → c :: s = content ++ '>' :: after := by
        intro quote' h
        obtain ⟨parts, hParts, hSame⟩ := Option.map_eq_some_iff.mp h
        cases hSame
        rw [ih hParts, List.cons_append]
      cases quote with
      | none =>
          rw [splitTagEndAnyQuote?] at h
          split at h
          · rename_i hc
            cases h
            rw [beq_iff_eq.mp hc]
            rfl
          · exact hRest _ h
      | some q => exact hRest _ h

/-- Canonical tags conserve every kept kind. -/
theorem conserves_canonicalizing (h : IsKept kind) : Conserves canonicalizing kind := by
  intro s out covered hStep
  obtain ⟨inside, hInside, hStep⟩ := Option.bind_eq_some_iff.mp hStep
  obtain ⟨⟨content, after⟩, hSplit, hStep⟩ := Option.bind_eq_some_iff.mp hStep
  dsimp only at hStep
  split at hStep
  · cases hStep
  · cases hStep
    have hText : s = ('<' :: content ++ ['>']) ++ after := by
      rw [Text.eq_append_of_dropFront? hInside, eq_append_of_splitTagEnd hSplit]
      simp
    have hLength : content.length + 1 + 1 = ('<' :: content ++ ['>']).length := by simp
    rw [countP_canonicalTag h, hText, hLength, List.take_left]

/-- Where tags are joined, only blanks between two of them are covered. -/
theorem exists_of_joining {s out : Text} {covered : Nat} (h : joining s = some (out, covered)) :
    ∃ blanks rest, Text.Blanks blanks ∧ s = '>' :: (blanks ++ ['<']) ++ rest ∧ covered = blanks.length + 1 ∧
      out = ['>', '<'] := by
  cases s with
  | nil => cases h
  | cons c s =>
      by_cases hc : c = '>'
      · subst hc
        rw [joining] at h
        split at h
        · rename_i hJoins
          obtain ⟨-, hNext⟩ := Bool.and_eq_true_iff.mp hJoins
          obtain ⟨rest, hRest⟩ := List.head?_eq_some_iff.mp (beq_iff_eq.mp hNext)
          have hParts := List.prefix_iff_eq_append.mp (List.takeWhile_prefix isBlank (l := s))
          rw [hRest] at hParts
          obtain ⟨rfl, rfl⟩ := Prod.mk.inj (Option.some.inj h)
          exact ⟨s.takeWhile isBlank, rest, List.all_eq_true.mp List.all_takeWhile,
            congrArg ('>' :: ·) (hParts.symm.trans (by simp)), rfl, rfl⟩
        · cases h
      · rw [joining_of_ne hc] at h
        cases h

theorem conserves_joining (h : IsKept kind) : Conserves joining kind := by
  intro s out covered hStep
  obtain ⟨blanks, rest, hBlanks, rfl, rfl, rfl⟩ := exists_of_joining hStep
  have hTaken : ('>' :: (blanks ++ ['<']) ++ rest).take (blanks.length + 1 + 1) = '>' :: (blanks ++ ['<']) :=
    List.take_left' (by simp)
  rw [hTaken]
  simp [List.countP_cons, Text.countP_blanks h.blank hBlanks]

/-- The layout of tags keeps all characters of such a kind. -/
theorem countP_laidOut (h : IsKept kind) (s : Text) :
    (Text.trim (canonicalTags (joinTags s))).countP kind = s.countP kind := by
  rw [Text.countP_trim h.blank, canonicalTags_eq, (conserves_canonicalizing h).countP_substitute, joinTags_eq,
    (conserves_joining h).countP_substitute]

end Kept

end IconRegistry.Markup
