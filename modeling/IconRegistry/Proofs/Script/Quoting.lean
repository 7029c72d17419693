import IconRegistry.Component.StringLiteral
import IconRegistry.Proofs.Script.Denoting

/-! Strings of the script language: what is written for a text is one token, and the token denotes the text, whatever
stands behind it. -/
namespace IconRegistry.Script

open Component (literalChar stringLiteral)

variable {s body behind : Text} {codes : List Nat}

/-- A character of a literal stands for itself. -/
theorem Quoted.literalChar (c : Char) (h : Quoted '"' body codes behind) :
    Quoted '"' (literalChar c ++ body) (c.toNat :: codes) behind := by
  unfold Component.literalChar
  split
  case h_1 => exact .escape (.itself (by decide) (by decide) (by decide)) h
  case h_2 => exact .escape (.itself (by decide) (by decide) (by decide)) h
  case h_3 => exact .escape (.letter (by decide)) h
  case h_4 => exact .escape (.letter (by decide)) h
  case h_5 => exact .escape (.letter (by decide)) h
  case h_6 hQuote hBackslash hFeed hReturn _ => exact .plain hQuote hBackslash hFeed hReturn h

/-- What is written as a string literal is one, of the same characters. -/
theorem isStringLiteral_stringLiteral (s behind : Text) :
    IsStringLiteral (stringLiteral s) (s.map Char.toNat) behind := by
  refine ⟨s.flatMap literalChar ++ ['"'], rfl, ?_⟩
  induction s with
  | nil => exact .close
  | cons c s ih =>
      rw [List.flatMap_cons, List.append_assoc]
      exact ih.literalChar c

/-- No other literal stands where one was written. -/
theorem isStringLiteral_iff {literal rest : Text} (hText : literal ++ behind = stringLiteral s ++ rest) :
    IsStringLiteral literal codes behind ↔ literal = stringLiteral s ∧ codes = s.map Char.toNat := by
  constructor
  · rintro ⟨body, rfl, hBody⟩
    obtain ⟨written, hWritten, hQuoted⟩ := isStringLiteral_stringLiteral s rest
    rw [hWritten] at hText ⊢
    obtain ⟨rfl, rfl⟩ := hBody.unique (by decide) hQuoted (List.cons.inj hText).2
    exact ⟨rfl, rfl⟩
  · rintro ⟨rfl, rfl⟩
    exact isStringLiteral_stringLiteral s behind

/-- No character is half of a pair of surrogates. -/
theorem not_surrogate (c : Char) : ¬(0xD800 ≤ c.toNat ∧ c.toNat < 0xE000) := by
  have hValid := c.valid
  simp only [UInt32.isValidChar, Nat.isValidChar] at hValid
  have hCode : c.toNat = c.val.toNat := rfl
  omega

/-- Characters are no surrogates, so none are joined. -/
theorem joinSurrogates_map_toNat (s : Text) : joinSurrogates (s.map Char.toNat) = s := by
  have hAlone : ∀ c : Char, (decide (0xD800 ≤ c.toNat) && decide (c.toNat < 0xE000)) = false := by
    intro c
    simpa using not_surrogate c
  have hPair : ∀ c d : Char, (decide (0xD800 ≤ c.toNat) && decide (c.toNat < 0xDC00) && decide (0xDC00 ≤ d.toNat) &&
      decide (d.toNat < 0xE000)) = false := by
    intro c d
    have := not_surrogate c
    simp only [Bool.and_eq_false_iff, decide_eq_false_iff_not]
    omega
  induction s with
  | nil => rfl
  | cons c s ih =>
      cases s with
      | nil => simp [joinSurrogates, hAlone]
      | cons d s =>
          rw [List.map_cons] at ih
          simp only [List.map_cons, joinSurrogates, hPair, hAlone, ih, Char.ofNat_toNat]
          rfl

/-- What is written for a text is one token, which denotes the text. -/
theorem scanToken_stringLiteral (s rest : Text) :
    scanToken (stringLiteral s ++ rest) = (.string s, (stringLiteral s).length) :=
  scanToken_eq_string_iff.mpr ⟨stringLiteral s, s.map Char.toNat, rest, rfl, isStringLiteral_stringLiteral s rest,
    joinSurrogates_map_toNat s, rfl⟩

/-- Strings are scanned by the grammar of literals. The literal of a text ends where it was closed and denotes the text,
whatever stands behind it, so texts have different literals, and none of them begins another one. -/
theorem stringLiteral_delimits_itself :
    (∀ s text n, scanToken ('"' :: s) = (.string text, n) ↔
      ∃ literal codes behind, '"' :: s = literal ++ behind ∧ IsStringLiteral literal codes behind ∧
        joinSurrogates codes = text ∧ literal.length = n) ∧
    (∀ s rest, scanToken (stringLiteral s ++ rest) = (.string s, (stringLiteral s).length)) ∧
    (∀ s rest literal codes behind, literal ++ behind = stringLiteral s ++ rest →
      (IsStringLiteral literal codes behind ↔ literal = stringLiteral s ∧ codes = s.map Char.toNat)) ∧
    Function.Injective stringLiteral ∧
    ∀ s t, stringLiteral s <+: stringLiteral t → s = t := by
  have hPrefix : ∀ s t, stringLiteral s <+: stringLiteral t → s = t := by
    rintro s t ⟨rest, hText⟩
    have hFirst : stringLiteral s ++ rest = stringLiteral t ++ [] := by rw [hText, List.append_nil]
    have hCodes := ((isStringLiteral_iff hFirst).mp (isStringLiteral_stringLiteral s rest)).2
    exact (List.map_inj_right fun _ _ => Char.toNat_inj.mp).mp hCodes
  exact ⟨fun _ _ _ => scanToken_eq_string_iff, scanToken_stringLiteral, fun _ _ _ _ _ => isStringLiteral_iff,
    fun s t hSame => hPrefix s t (hSame ▸ List.prefix_refl _), hPrefix⟩

/-- The literal of a backslash in front of a quote ends with its own quote, which the backslashes in it do not
escape. -/
theorem stringLiteral_delimits_backslash :
    let s := "\\".toList
    let rest := "\"".toList
    let literal := "\"\\\\\"".toList
    literal ++ rest = stringLiteral s ++ rest ∧ IsStringLiteral literal [92] rest ∧
      (literal ++ rest) ++ [] = stringLiteral s ++ rest ∧ ¬IsStringLiteral (literal ++ rest) [92, 34] [] := by
  intro s rest literal
  obtain ⟨-, -, hLiteral, -, -⟩ := stringLiteral_delimits_itself
  have hText : literal ++ rest = stringLiteral s ++ rest := by decide
  have hLonger : (literal ++ rest) ++ [] = stringLiteral s ++ rest := by decide
  refine ⟨hText, (hLiteral s rest literal [92] rest hText).mpr (by decide), hLonger, fun h => ?_⟩
  exact absurd ((hLiteral s rest _ _ [] hLonger).mp h).1 (by decide)

end IconRegistry.Script
