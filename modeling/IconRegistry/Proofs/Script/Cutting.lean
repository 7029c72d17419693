import IconRegistry.Proofs.Script.Gap
import IconRegistry.Proofs.Script.Quoting

/-! Where the tokens of a script are cut: names, strings, and the pieces of JSX. -/
namespace IconRegistry.Script

open Component (stringLiteral)

/-- A text is a name of the script language. -/
def IsIdentifier : Text → Prop
  | [] => False
  | c :: rest => isNameStart c = true ∧ ∀ d ∈ rest, isNamePart d = true

instance : DecidablePred IsIdentifier
  | [] => inferInstanceAs (Decidable False)
  | c :: rest => inferInstanceAs (Decidable (isNameStart c = true ∧ ∀ d ∈ rest, isNamePart d = true))

/-- A name that ends in front of a text ends there: the text does not go on with it. -/
def EndsWord (rest : Text) : Prop :=
  ∀ c ∈ rest.head?, isNamePart c = false ∧ c ≠ '\\'

/-- A character that is no part of a name ends a word, unless it begins an escape. -/
theorem endsWord_cons {c : Char} (hPart : isNamePart c = false) (hEscape : c ≠ '\\') (rest : Text) :
    EndsWord (c :: rest) := by
  rintro d ⟨rfl⟩
  exact ⟨hPart, hEscape⟩

section Characters

variable {c : Char}

def gapBlankCodes : List Nat :=
  [9, 10, 11, 12, 13, 32, 0x85, 0xA0, 0x1680, 0x2000, 0x2001, 0x2002, 0x2003, 0x2004, 0x2005, 0x2006, 0x2007, 0x2008,
    0x2009, 0x200A, 0x200B, 0x2028, 0x2029, 0x202F, 0x205F, 0x3000, 0xFEFF]

theorem mem_gapBlankCodes (h : isGapBlank c = true) : c.toNat ∈ gapBlankCodes := by
  have hCode : ∀ d : Char, c = d ↔ c.toNat = d.toNat := fun d => Char.toNat_inj.symm
  simp only [gapBlankCodes, List.mem_cons, List.not_mem_nil, or_false]
  by_cases hAscii : c.toNat < 128
  · simp only [isGapBlank, isSpace, isLineBreak, hAscii, if_true, Bool.or_eq_true, beq_iff_eq, hCode,
      Char.reduceToNat] at h
    omega
  · simp only [isGapBlank, isSpace, isLineBreak, hAscii, if_false, Bool.or_eq_true, Bool.and_eq_true, beq_iff_eq,
      decide_eq_true_eq, hCode, Char.reduceToNat] at h
    omega

theorem not_isNamePart_of_isGapBlank (h : isGapBlank c = true) : isNamePart c = false := by
  have hNever : ∀ d ∈ gapBlankCodes.map Char.ofNat, isNamePart d = false := by decide +kernel
  exact hNever c (List.mem_map.mpr ⟨_, mem_gapBlankCodes h, Char.ofNat_toNat c⟩)

/-- A word ends where a gap begins. -/
theorem endsWord_gap {gap rest : Text} (hGap : isGap gap = true) (h : EndsWord rest) : EndsWord (gap ++ rest) := by
  cases gap with
  | nil => exact h
  | cons d gap =>
      obtain ⟨next, hStep, -⟩ := Option.bind_eq_some_iff.mp (isGap_iff.mp hGap)
      by_cases hBlank : isGapBlank d = true
      · refine endsWord_cons (not_isNamePart_of_isGapBlank hBlank) ?_ _
        rintro rfl
        exact absurd hBlank (by decide)
      · by_cases hSlash : d = '/'
        · exact hSlash ▸ endsWord_cons (by decide) (by decide) _
        · simp [GapState.step, hBlank, hSlash] at hStep

/-- A character that starts a name is no blank and no slash. -/
theorem beginsToken_of_isNameStart (h : isNameStart c = true) : beginsToken c = true := by
  have hNever : ∀ d ∈ gapBlankCodes.map Char.ofNat, isNameStart d = false := by decide +kernel
  have hSlash : c ≠ '/' := by
    rintro rfl
    exact absurd h (by decide)
  cases hBlank : isGapBlank c with
  | false => simp [beginsToken, hBlank, hSlash]
  | true =>
      have hMember : c ∈ gapBlankCodes.map Char.ofNat :=
        List.mem_map.mpr ⟨_, mem_gapBlankCodes hBlank, Char.ofNat_toNat c⟩
      rw [hNever c hMember] at h
      cases h

theorem not_isDigit_of_isNameStart (h : isNameStart c = true) : c.isDigit = false := by
  have hNever : ∀ n < 58, 48 ≤ n → isNameStart (Char.ofNat n) = false := by decide
  cases hDigit : c.isDigit with
  | false => rfl
  | true =>
      have hRange : 48 ≤ c.toNat ∧ c.toNat ≤ 57 := by
        simpa [Char.isDigit, UInt32.le_iff_toNat_le] using hDigit
      have hNot := hNever c.toNat (by omega) hRange.1
      rw [Char.ofNat_toNat, h] at hNot
      cases hNot

/-- A character that starts a name may go on with one. -/
theorem isNamePart_of_isNameStart (h : isNameStart c = true) : isNamePart c = true := by
  simp only [isNameStart, Bool.or_eq_true, beq_iff_eq] at h
  simp only [isNamePart, Bool.or_eq_true, beq_iff_eq]
  rcases h with (rfl | rfl) | h
  · decide
  · decide
  · refine .inr ?_
    rw [Text.isIdentifierStart] at h
    rw [Text.isIdentifierPart]
    by_cases hAscii : c.toNat < 128
    · simp only [hAscii, if_true] at h ⊢
      simp [Char.isAlphanum, h]
    · simp only [hAscii, if_false] at h ⊢
      simp [h]

end Characters

namespace IsIdentifier

variable {word : Text}

/-- An identifier begins as names do and goes on with parts of them. -/
theorem exists_cons (h : IsIdentifier word) : ∃ c rest, word = c :: rest ∧ isNameStart c = true ∧
    ∀ d ∈ rest, isNamePart d = true := by
  cases word with
  | nil => exact h.elim
  | cons c rest => exact ⟨c, rest, rfl, h.1, h.2⟩

theorem of_mem (h : IsIdentifier word) {c : Char} (hc : c ∈ word) : isNameStart c = true ∨ isNamePart c = true := by
  obtain ⟨d, rest, rfl, hStart, hParts⟩ := h.exists_cons
  rcases List.mem_cons.mp hc with rfl | hc
  · exact .inl hStart
  · exact .inr (hParts c hc)

/-- Every character of an identifier is a part of names. -/
theorem parts (h : IsIdentifier word) {c : Char} (hc : c ∈ word) : isNamePart c = true := by
  rcases h.of_mem hc with hStart | hPart
  · exact isNamePart_of_isNameStart hStart
  · exact hPart

/-- Punctuation does not occur in a name. -/
theorem not_mem (h : IsIdentifier word) {c : Char} (hc : (isNameStart c || isNamePart c) = false) : c ∉ word := by
  intro hMember
  have hNever := Bool.or_eq_false_iff.mp hc
  rcases h.of_mem hMember with hStart | hPart
  · simp [hNever.1] at hStart
  · simp [hNever.2] at hPart

/-- A name ends where a character of punctuation stands. -/
theorem takeWhile_append (h : IsIdentifier word) {rest : Text}
    (hRest : rest = [] ∨ ∃ c more, rest = c :: more ∧ isNamePart c = false) :
    (word ++ rest).takeWhile isNamePart = word := by
  rw [List.takeWhile_append_of_pos fun c hc => h.parts hc]
  rcases hRest with rfl | ⟨c, more, rfl, hc⟩
  · simp
  · rw [List.takeWhile_cons_of_neg (by simp [hc]), List.append_nil]

end IsIdentifier

section Tokens

variable {c : Char} {word rest : Text}

/-- Parts of a name are taken up to where the word ends. -/
theorem nameFrom?_parts (hParts : ∀ d ∈ word, isNamePart d = true) (hEnds : EndsWord rest) :
    nameFrom? false 0 (word ++ rest) = some (word, word.length, false) := by
  induction word with
  | nil =>
      cases rest with
      | nil => rfl
      | cons c rest =>
          obtain ⟨hPart, hEscape⟩ := hEnds c rfl
          simp [nameFrom?, hPart, hEscape]
  | cons c word ih =>
      obtain ⟨hPart, hRest⟩ := List.forall_mem_cons.mp hParts
      simp [nameFrom?, hPart, ih hRest]

/-- An identifier is scanned as a name. -/
theorem scanToken_word (h : IsIdentifier word) (hEnds : EndsWord rest) :
    scanToken (word ++ rest) = (.name word false, word.length) := by
  obtain ⟨c, parts, rfl, hStart, hParts⟩ := h.exists_cons
  simp [scanToken, nameFrom?, hStart, nameFrom?_parts hParts hEnds]

/-- A comma is read from a comma only, and an assignment from an equals sign. -/
theorem head?_of_punct? {s : Text} {p : Punct} {length : Nat} (h : punct? s = some (p, length))
    (hp : p = .comma ∨ p = .assign) : s.head? = some ',' ∨ s.head? = some '=' := by
  cases s with
  | nil => cases h
  | cons c s =>
      simp only [punct?] at h
      split at h
      all_goals
        first
        | exact .inl rfl
        | exact .inr rfl
        | (try split at h)
          all_goals cases h
          all_goals exact absurd hp (by decide)

/-- A punctuator is scanned by the table of them. -/
theorem exists_punct?_of_scanToken {s : Text} {p : Punct} (h : (scanToken s).1 = .punct p) :
    ∃ length, punct? s = some (p, length) := by
  cases s with
  | nil => cases h
  | cons c s =>
      simp only [scanToken] at h
      repeat' split at h
      all_goals first | cases h; done | skip
      rename_i hPunct
      cases h
      exact ⟨_, hPunct⟩

/-- What is scanned as a name begins as names do, or with an escape. -/
theorem isNameStart_of_scanToken {s name : Text} {escaped : Bool} (h : (scanToken (c :: s)).1 = .name name escaped) :
    (isNameStart c || c == '\\') = true := by
  simp only [scanToken] at h
  split at h
  · assumption
  · repeat' split at h
    all_goals cases h

variable (position : Nat) (newline : Bool)

/-- Nothing is skipped in front of a character that begins a token. -/
theorem next_of_beginsToken (h : beginsToken c = true) (s : Text) :
    Lexeme.next false position newline (c :: s) =
      Lexeme.cut (scanToken (c :: s)).1 position (scanToken (c :: s)).2 (c :: s) newline := by
  simp only [beginsToken, isGapBlank, Bool.and_eq_true, Bool.not_eq_true', Bool.or_eq_false_iff, bne_iff_ne] at h
  simp [Lexeme.next, skipTrivia?, h]

/-- No punctuation begins where a name may start. -/
theorem next_ne_punct (h : isNameStart c = true) (s : Text) (p : Punct) :
    (Lexeme.next false position newline (c :: s)).token ≠ .punct p := by
  rw [next_of_beginsToken _ _ (beginsToken_of_isNameStart h), scanToken]
  simp only [h, Bool.true_or, if_true]
  split
  all_goals rintro ⟨⟩

/-- A blank in front of a token is skipped. -/
theorem next_blank (h : beginsToken c = true) (s : Text) :
    Lexeme.next false position newline (' ' :: c :: s) = Lexeme.next false (position + 1) newline (c :: s) := by
  have hSpace : isSpace ' ' = true := by decide
  rw [next_of_beginsToken _ _ h]
  simp only [beginsToken, isGapBlank, Bool.and_eq_true, Bool.not_eq_true', Bool.or_eq_false_iff, bne_iff_ne] at h
  simp [Lexeme.next, skipTrivia?, h, hSpace]

/-- A dot in front of a name is one, and no number begins with it. -/
theorem next_dot (h : isNameStart c = true) (s : Text) :
    Lexeme.next false position newline ('.' :: c :: s) = Lexeme.cut (.punct .dot) position 1 ('.' :: c :: s) newline := by
  have hDot : c ≠ '.' := by
    rintro rfl
    exact absurd h (by decide)
  have hStart : isNameStart '.' = false := by decide
  have hScan : scanToken ('.' :: c :: s) = (.punct .dot, 1) := by
    simp [scanToken, hStart, not_isDigit_of_isNameStart h, punct?, hDot]
  rw [next_of_beginsToken _ _ (by decide), hScan]

/-- A slash in front of a name begins no comment. -/
theorem next_slash (h : isNameStart c = true) (s : Text) :
    Lexeme.next false position newline ('/' :: c :: s) =
      Lexeme.cut (.punct .slash) position 1 ('/' :: c :: s) newline := by
  have hOther : ∀ d : Char, isNameStart d = false → c ≠ d := by
    rintro d hd rfl
    rw [h] at hd
    cases hd
  have hSlash := hOther '/' (by decide)
  have hStar := hOther '*' (by decide)
  have hEquals := hOther '=' (by decide)
  have hStart : isNameStart '/' = false := by decide
  have hBlank : isSpace '/' = false ∧ isLineBreak '/' = false := by decide
  simp [Lexeme.next, skipTrivia?, hSlash, hStar, hBlank, scanToken, hStart, punct?, hEquals]

/-- An angle bracket in front of a name is one. -/
theorem next_less (h : isNameStart c = true) (s : Text) :
    Lexeme.next false position newline ('<' :: c :: s) =
      Lexeme.cut (.punct .less) position 1 ('<' :: c :: s) newline := by
  have hOther : ∀ d : Char, isNameStart d = false → c ≠ d := by
    rintro d hd rfl
    rw [h] at hd
    cases hd
  have hAngle := hOther '<' (by decide)
  have hEquals := hOther '=' (by decide)
  have hStart : isNameStart '<' = false := by decide
  have hScan : scanToken ('<' :: c :: s) = (.punct .less, 1) := by
    simp [scanToken, hStart, punct?, hAngle, hEquals]
  rw [next_of_beginsToken _ _ (by decide), hScan]

/-- An identifier is the next token. -/
theorem next_word (h : IsIdentifier word) (hEnds : EndsWord rest) :
    Lexeme.next false position newline (word ++ rest) =
      Lexeme.cut (.name word false) position word.length (word ++ rest) newline := by
  have hScan := scanToken_word h hEnds
  obtain ⟨c, parts, rfl, hStart, -⟩ := h.exists_cons
  rw [List.cons_append] at hScan ⊢
  rw [next_of_beginsToken _ _ (beginsToken_of_isNameStart hStart), hScan]

theorem next_stringLiteral (s rest : Text) :
    Lexeme.next false position newline (stringLiteral s ++ rest) =
      Lexeme.cut (.string s) position (stringLiteral s).length (stringLiteral s ++ rest) newline := by
  have hScan := scanToken_stringLiteral s rest
  rw [stringLiteral, List.cons_append, List.cons_append] at hScan ⊢
  rw [next_of_beginsToken _ _ (by decide), hScan]

end Tokens

section Jsx

variable {c : Char} {run value rest : Text}

def isRunChar (c : Char) : Bool :=
  c != '{' && c != '}' && c != '<' && c != '>'

/-- Between tags, a run of text is one token up to a tag or a brace. -/
theorem nextJsx_run (hSome : run ≠ []) (hRun : ∀ d ∈ run, isRunChar d = true) (hEnd : c = '<' ∨ c = '{')
    (position : Nat) :
    Lexeme.nextJsx position (run ++ c :: rest) =
      Lexeme.cut .jsxText position run.length (run ++ c :: rest) false := by
  have hTake : (run ++ c :: rest).takeWhile (fun d => d != '<' && d != '{') = run := by
    have hStop : (c != '<' && c != '{') = false := by
      rcases hEnd with rfl | rfl <;> rfl
    rw [List.takeWhile_append_of_pos, List.takeWhile_cons_of_neg (by simp [hStop]), List.append_nil]
    intro d hd
    have hPlain := hRun d hd
    simp only [isRunChar, Bool.and_eq_true] at hPlain
    simp [hPlain]
  have hValid : run.any (fun d => d == '>' || d == '}') = false := by
    rw [List.any_eq_false]
    intro d hd
    have hPlain := hRun d hd
    simp only [isRunChar, Bool.and_eq_true, bne_iff_ne] at hPlain
    simp [hPlain]
  obtain ⟨d, more, rfl⟩ := List.exists_cons_of_ne_nil hSome
  have hFirst := hRun d List.mem_cons_self
  simp only [isRunChar, Bool.and_eq_true, bne_iff_ne] at hFirst
  rw [List.cons_append] at hTake ⊢
  unfold Lexeme.nextJsx
  split
  · contradiction
  · simp_all
  · simp_all
  · rw [hTake]
    dsimp only
    rw [hValid]
    rfl

/-- The quoted value of an attribute is one token, whatever is in it but its quote. -/
theorem nextJsxValue_quoted (hValue : '"' ∉ value) (position : Nat) :
    Lexeme.nextJsxValue false position ('"' :: (value ++ '"' :: rest)) =
      Lexeme.cut (.string value) position (value.length + 2) ('"' :: (value ++ '"' :: rest)) false := by
  have hTake : (value ++ '"' :: rest).takeWhile (· != '"') = value := by
    rw [List.takeWhile_append_of_pos, List.takeWhile_cons_of_neg (by decide), List.append_nil]
    intro d hd
    have hOther : d ≠ '"' := fun h => hValue (h ▸ hd)
    simpa using hOther
  have hSource : (Lexeme.next false position false ('"' :: (value ++ '"' :: rest))).source =
      '"' :: (value ++ '"' :: rest) := by
    rw [next_of_beginsToken _ _ (by decide)]
    rfl
  have hStart : (Lexeme.next false position false ('"' :: (value ++ '"' :: rest))).start = position := by
    rw [next_of_beginsToken _ _ (by decide)]
    rfl
  simp [Lexeme.nextJsxValue, hSource, hStart, hTake]

end Jsx

end IconRegistry.Script
