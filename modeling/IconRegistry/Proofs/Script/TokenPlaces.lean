import IconRegistry.Proofs.Script.Cutting
import IconRegistry.Proofs.Script.Running

/-! Where tokens stand. A token is cut from the text where it starts, and what is skipped in front of it is a gap. Of
what it is cut from, only as much is told as the layout of an object literal depends on. -/
namespace IconRegistry.Script

/-- The state of a gap's scan at which a scan over blanks and comments stands. -/
def Trivia.gapState : Trivia → GapState
  | .blanks => .clear
  | .lineComment => .line
  | .blockComment => .block

/-- Behind a star that ends no comment, the scan of a gap goes on as in front of it. -/
theorem GapState.run_star {s : Text} (h : ∀ more, s ≠ '/' :: more) (hs : s ≠ []) :
    GapState.star.run s = GapState.block.run s := by
  obtain ⟨c, more, rfl⟩ := List.exists_cons_of_ne_nil hs
  have hSlash : c ≠ '/' := by
    rintro rfl
    exact h more rfl
  simp [GapState.step, hSlash]

/-- What is skipped is a gap, unless the text ends there, maybe in a comment that a line break would end. -/
theorem exists_gap_of_skipTrivia? {kind : Trivia} {skipped stop : Nat} {newline found : Bool} {s rest : Text}
    (h : skipTrivia? false kind skipped newline s = some (stop, found, rest)) :
    ∃ gap, s = gap ++ rest ∧ stop = skipped + gap.length ∧
      (rest ≠ [] → kind.gapState.run gap = some .clear) := by
  fun_induction skipTrivia? false kind skipped newline s
  case case1 => cases h
  case case2 =>
    cases h
    exact ⟨[], rfl, rfl, fun hRest => absurd rfl hRest⟩
  case case3 hBreak ih =>
    obtain ⟨gap, rfl, rfl, hGap⟩ := ih h
    refine ⟨_ :: gap, rfl, by simp; omega, fun hRest => ?_⟩
    simpa [Trivia.gapState, GapState.step, hBreak] using hGap hRest
  case case4 hBreak ih =>
    obtain ⟨gap, rfl, rfl, hGap⟩ := ih h
    refine ⟨_ :: gap, rfl, by simp; omega, fun hRest => ?_⟩
    simpa [Trivia.gapState, GapState.step, hBreak] using hGap hRest
  case case5 ih =>
    obtain ⟨gap, rfl, rfl, hGap⟩ := ih h
    exact ⟨'*' :: '/' :: gap, rfl, by simp; omega, hGap⟩
  case case6 c more hEnds ih =>
    obtain ⟨gap, rfl, rfl, hGap⟩ := ih h
    refine ⟨c :: gap, rfl, by simp; omega, fun hRest => ?_⟩
    replace hGap := hGap hRest
    by_cases hStar : c = '*'
    · have hSome : gap ≠ [] := by
        rintro rfl
        cases hGap
      have hSlash : ∀ more, gap ≠ '/' :: more := by
        rintro more rfl
        exact hEnds _ hStar rfl
      simpa [Trivia.gapState, GapState.step, hStar, GapState.run_star hSlash hSome] using hGap
    · simpa [Trivia.gapState, GapState.step, hStar] using hGap
  case case7 ih =>
    obtain ⟨gap, rfl, rfl, hGap⟩ := ih h
    exact ⟨'/' :: '/' :: gap, rfl, by simp; omega, hGap⟩
  case case8 ih =>
    obtain ⟨gap, rfl, rfl, hGap⟩ := ih h
    exact ⟨'/' :: '*' :: gap, rfl, by simp; omega, hGap⟩
  case case9 hSpace ih =>
    obtain ⟨gap, rfl, rfl, hGap⟩ := ih h
    refine ⟨_ :: gap, rfl, by simp; omega, fun hRest => ?_⟩
    simpa [Trivia.gapState, GapState.step, isGapBlank, hSpace] using hGap hRest
  case case10 hBreak ih =>
    obtain ⟨gap, rfl, rfl, hGap⟩ := ih h
    refine ⟨_ :: gap, rfl, by simp; omega, fun hRest => ?_⟩
    simpa [Trivia.gapState, GapState.step, isGapBlank, hBreak] using hGap hRest
  case case11 hMarkup _ => simp at hMarkup
  case case12 =>
    cases h
    exact ⟨[], rfl, rfl, fun _ => rfl⟩

/-- Whether a token may begin a property of an object literal. -/
def Token.leads : Token → Bool
  | .name _ _ | .string _ | .number => true
  | .punct p => [.star, .ellipsis, .leftBracket].contains p
  | _ => false

/-- The punctuators between the properties of an object literal and around them. -/
def delimiters : List (Char × Punct) :=
  [('\x7b', .leftBrace), ('\x7d', .rightBrace), (',', .comma)]

/-- What the layout of an object literal depends on, for a token of a length at the front of a text: a token that may
begin a property takes characters from the first one on, which is in no gap; delimiters are read as they are; and names
are names. -/
structure Token.Heads (t : Token) (length : Nat) (s : Text) : Prop where
  begins : t.leads = true → 0 < length ∧ BeginsToken s
  delimits : ∀ {c p}, t = .punct p → (c, p) ∈ delimiters → length = 1 ∧ ∃ rest, s = c :: rest
  name : ∀ {word escaped}, t = .name word escaped → IsIdentifier word

/-- Whether the layout of an object literal depends on where a token stands. -/
def Token.matters (t : Token) : Bool :=
  t.leads || delimiters.any fun d => t == .punct d.2

section Scanners

variable {c : Char} {s word : Text} {n skip : Nat} {escaped : Bool}

/-- A name goes on with the characters that may go on with one, also where they are escaped. -/
theorem isNamePart_of_nameFrom? (h : nameFrom? false skip s = some (word, n, escaped)) :
    ∀ d ∈ word, isNamePart d = true := by
  generalize hFirst : false = first at h
  fun_induction nameFrom? first skip s generalizing word n escaped
  case case1 => simp_all
  case case2 ih =>
    simp only [Option.map_eq_some_iff, Prod.exists, Prod.mk.injEq] at h
    obtain ⟨_, _, _, hMore, rfl, rfl, rfl⟩ := h
    exact ih rfl hMore
  case case3 hAllowed ih =>
    subst hFirst
    simp only [Option.map_eq_some_iff, Prod.exists, Prod.mk.injEq] at h
    obtain ⟨_, _, _, hMore, rfl, rfl, rfl⟩ := h
    exact List.forall_mem_cons.mpr ⟨hAllowed, ih rfl hMore⟩
  case case4 hAllowed ih =>
    subst hFirst
    simp only [Option.map_eq_some_iff, Prod.exists, Prod.mk.injEq] at h
    obtain ⟨_, _, _, hMore, rfl, rfl, rfl⟩ := h
    exact List.forall_mem_cons.mpr ⟨hAllowed, ih rfl hMore⟩
  all_goals simp_all

/-- What is read as a name is one. -/
theorem isIdentifier_of_nameFrom? (hStart : (isNameStart c || c == '\\') = true)
    (h : nameFrom? true 0 (c :: s) = some (word, n, escaped)) : IsIdentifier word ∧ 0 < n := by
  simp only [nameFrom?, if_true] at h
  split at h
  · rename_i hc
    simp only [Option.map_eq_some_iff, Prod.exists, Prod.mk.injEq] at h
    obtain ⟨_, _, _, hMore, rfl, rfl, rfl⟩ := h
    exact ⟨⟨hc, isNamePart_of_nameFrom? hMore⟩, Nat.succ_pos _⟩
  · split at h
    · split at h
      · split at h
        · split at h
          · rename_i hc
            simp only [Option.map_eq_some_iff, Prod.exists, Prod.mk.injEq] at h
            obtain ⟨_, _, _, hMore, rfl, rfl, rfl⟩ := h
            exact ⟨⟨hc, isNamePart_of_nameFrom? hMore⟩, Nat.succ_pos _⟩
          · cases h
        · cases h
      · cases h
    · simp_all

/-- Digits that have to come come. -/
theorem pos_of_digitRun? {isDigit : Char → Bool} (h : digitRun? isDigit true s = some n) : 0 < n := by
  cases s with
  | nil => cases h
  | cons c s =>
      simp only [digitRun?] at h
      split at h
      · simp only [Option.map_eq_some_iff] at h
        obtain ⟨_, -, rfl⟩ := h
        exact Nat.succ_pos _
      · cases h

theorem le_of_decimalLength? {digits : Nat} (h : decimalLength? s digits = some n) : digits ≤ n := by
  unfold decimalLength? at h
  split at h
  · cases h
    omega
  all_goals
    simp only [Option.map_eq_some_iff] at h
    obtain ⟨_, -, rfl⟩ := h
    omega

theorem pos_of_basedLength? {isDigit : Char → Bool} (h : basedLength? isDigit s = some n) : 0 < n := by
  obtain ⟨_, -, hn⟩ := Option.bind_eq_some_iff.mp h
  cases hn
  omega

/-- A number takes characters. -/
theorem pos_of_numberLength? (h : numberLength? s = some n) : 0 < n := by
  have hKept : ∀ {x : Option Nat} {p : Nat → Prop} [DecidablePred p],
      (x.bind fun m => if p m then none else some m) = some n → x = some n := by
    intro x p _ hx
    obtain ⟨m, hm, hx⟩ := Option.bind_eq_some_iff.mp hx
    split at hx
    · cases hx
    · rw [hm, hx]
  simp only [numberLength?, Option.bind_eq_bind] at h
  split at h
  · rename_i c digits
    repeat' split at h
    all_goals replace h := hKept h
    · exact pos_of_basedLength? h
    · exact pos_of_basedLength? h
    · exact pos_of_basedLength? h
    · cases h
    · cases h
      simp [List.takeWhile_cons]
    · refine Nat.lt_of_lt_of_le ?_ (le_of_decimalLength? h)
      simp [List.takeWhile_cons]
    · exact le_of_decimalLength? h
  · obtain ⟨_, -, rfl⟩ := Option.map_eq_some_iff.mp (hKept h)
    exact Nat.succ_pos _
  · obtain ⟨digits, hDigits, hLength⟩ := Option.bind_eq_some_iff.mp h
    exact Nat.lt_of_lt_of_le (pos_of_digitRun? hDigits) (le_of_decimalLength? (hKept hLength))

/-- How punctuators are cut: each takes characters; all but a slash begin with a character that is in no gap; and each
delimiter is one character. -/
theorem heads_of_punct? {p : Punct} (h : punct? s = some (p, n)) :
    0 < n ∧ (∃ c rest, s = c :: rest ∧ (p ≠ .slash → p ≠ .slashAssign → beginsToken c = true)) ∧
      ∀ c, (c, p) ∈ delimiters → n = 1 ∧ ∃ rest, s = c :: rest := by
  cases s with
  | nil => cases h
  | cons c s =>
      simp only [punct?] at h
      split at h
      all_goals
        (try split at h)
        all_goals cases h
        all_goals refine ⟨by decide, ⟨_, _, rfl, by decide⟩, ?_⟩
        all_goals
          intro d hd
          simp [delimiters] at hd
          try exact ⟨rfl, _, by rw [hd]⟩

theorem beginsToken_of_isDigit (h : c.isDigit = true) : beginsToken c = true := by
  have hAll : ∀ n < 58, 48 ≤ n → beginsToken (Char.ofNat n) = true := by decide
  have hRange : 48 ≤ c.toNat ∧ c.toNat ≤ 57 := by
    simpa [Char.isDigit, UInt32.le_iff_toNat_le] using h
  have hBegins := hAll c.toNat (by omega) hRange.1
  rwa [Char.ofNat_toNat] at hBegins

/-- A token that does not matter may stand anywhere. -/
theorem Token.Heads.of_other {t : Token} (h : t.matters = false) (length : Nat) (s : Text) : t.Heads length s := by
  obtain ⟨hLeads, hDelimits⟩ := Bool.or_eq_false_iff.mp h
  refine ⟨fun hTrue => ?_, fun hPunct hMember => ?_, fun hName => ?_⟩
  · simp [hLeads] at hTrue
  · simpa [hPunct] using List.any_eq_false.mp hDelimits _ hMember
  · simp [hName, Token.leads] at hLeads

/-- A string or a number. -/
theorem Token.Heads.of_literal {t : Token} {length : Nat} (hLength : 0 < length) (hc : beginsToken c = true)
    (hPunct : ∀ p, t ≠ .punct p) (hName : ∀ word escaped, t ≠ .name word escaped) : t.Heads length (c :: s) where
  begins _ := ⟨hLength, c, s, rfl, hc⟩
  delimits h := absurd h (hPunct _)
  name h := absurd h (hName _ _)

/-- A name stands at the front of what it was scanned from. -/
theorem Token.Heads.of_name {length : Nat} (hLength : 0 < length) (hc : beginsToken c = true) (hWord : IsIdentifier word) :
    Token.Heads (.name word escaped) length (c :: s) where
  begins _ := ⟨hLength, c, s, rfl, hc⟩
  delimits := by rintro _ _ ⟨⟩
  name := by rintro _ _ ⟨⟩; exact hWord

theorem Token.Heads.of_punct {p : Punct} (h : punct? s = some (p, n)) : Token.Heads (.punct p) n s where
  begins hLeads := by
    obtain ⟨hLength, ⟨c, rest, rfl, hBegins⟩, -⟩ := heads_of_punct? h
    refine ⟨hLength, c, rest, rfl, hBegins ?_ ?_⟩
    all_goals
      rintro rfl
      cases hLeads
  delimits := by
    rintro c _ ⟨⟩ hDelimits
    exact (heads_of_punct? h).2.2 c hDelimits
  name := by rintro _ _ ⟨⟩

/-- What is read of a run of `>` and `=` does not matter. -/
theorem not_matters_of_greaterOperator? {p : Punct} (h : greaterOperator? s = some (p, n)) :
    (Token.punct p).matters = false := by
  unfold greaterOperator? at h
  split at h
  all_goals cases h
  all_goals rfl

/-- Every token heads the text that it is cut from. -/
theorem heads_scanToken (s : Text) : (scanToken s).1.Heads (scanToken s).2 s := by
  have hInvalid : Token.Heads .invalid 0 s := .of_other rfl 0 s
  cases s with
  | nil => exact .of_other rfl 0 []
  | cons c rest =>
      simp only [scanToken]
      split
      · rename_i hStart
        split
        · rename_i hName
          obtain ⟨hWord, hLength⟩ := isIdentifier_of_nameFrom? hStart hName
          rw [Bool.or_eq_true, beq_iff_eq] at hStart
          refine .of_name hLength ?_ hWord
          rcases hStart with hc | rfl
          · exact beginsToken_of_isNameStart hc
          · decide
        · exact hInvalid
      · split
        · rename_i hDigit
          split
          · rename_i hNumber
            rw [Bool.or_eq_true, Bool.and_eq_true, beq_iff_eq] at hDigit
            refine .of_literal (pos_of_numberLength? hNumber) ?_ (by rintro _ ⟨⟩) (by rintro _ _ ⟨⟩)
            rcases hDigit with hc | ⟨rfl, -⟩
            · exact beginsToken_of_isDigit hc
            · decide
          · exact hInvalid
        · split
          · rename_i hQuote
            rw [Bool.or_eq_true, beq_iff_eq, beq_iff_eq] at hQuote
            split
            · refine .of_literal (Nat.succ_pos _) ?_ (by rintro _ ⟨⟩) (by rintro _ _ ⟨⟩)
              rcases hQuote with rfl | rfl <;> decide
            · exact hInvalid
          · split
            · split
              · exact .of_other rfl _ _
              · exact hInvalid
            · split
              · split
                · exact .of_other rfl _ _
                · exact hInvalid
              · split
                · rename_i hPunct
                  exact .of_punct hPunct
                · exact hInvalid

end Scanners

/-- A token stands in a text: it was cut where it starts, and what is behind it begins where it stops. -/
structure Lexeme.StandsIn (l : Lexeme) (text : Text) : Prop where
  source : l.source = text.drop l.start
  rest : l.rest = text.drop l.stop
  le : l.start ≤ l.stop
  heads : l.token.Heads (l.stop - l.start) l.source

namespace Lexeme

variable {text s : Text} {t : Token} {position length : Nat}

theorem StandsIn.cut (hs : s = text.drop position) (heads : t.Heads length s) (newline : Bool) :
    (Lexeme.cut t position length s newline).StandsIn text where
  source := hs
  rest := by rw [Lexeme.cut, hs, List.drop_drop]
  le := Nat.le_add_right ..
  heads := by simpa [Lexeme.cut] using heads

/-- A token that does not matter may take no characters. -/
theorem StandsIn.of_other (hs : s = text.drop position) (h : t.matters = false) (newline : Bool) :
    (⟨t, position, position, s, s, newline⟩ : Lexeme).StandsIn text where
  source := hs
  rest := hs
  le := Nat.le_refl _
  heads := .of_other h _ _

/-- A token stands behind a position, with a gap in front of it, unless the text ends there. -/
structure StandsBehind (l : Lexeme) (text : Text) (position : Nat) : Prop where
  standsIn : l.StandsIn text
  le : position ≤ l.start
  gap : l.source ≠ [] → ∃ gap, isGap gap = true ∧ text.drop position = gap ++ l.source ∧
    l.start = position + gap.length

/-- A token that stands where a position is has no gap in front of it. -/
theorem StandsIn.behind_start {l : Lexeme} (h : l.StandsIn text) : l.StandsBehind text l.start where
  standsIn := h
  le := Nat.le_refl _
  gap _ := ⟨[], rfl, h.source.symm, rfl⟩

/-- The next token stands behind what was read. -/
theorem next_standsBehind (hs : s = text.drop position) (newline : Bool) :
    (Lexeme.next false position newline s).StandsBehind text position := by
  cases hSkip : skipTrivia? false .blanks 0 newline s with
  | none =>
      rw [Lexeme.next, hSkip]
      exact (StandsIn.of_other hs rfl newline).behind_start
  | some found =>
      obtain ⟨skipped, newline', rest⟩ := found
      obtain ⟨gap, hGap, hSkipped, hClear⟩ := exists_gap_of_skipTrivia? hSkip
      obtain rfl : skipped = gap.length := by omega
      have hRest : rest = text.drop (position + gap.length) := by
        rw [← List.drop_drop, ← hs, hGap, List.drop_left]
      rw [Lexeme.next, hSkip]
      refine ⟨.cut hRest (heads_scanToken rest) newline', Nat.le_add_right .., fun hSource => ?_⟩
      exact ⟨gap, isGap_iff.mpr (hClear hSource), by rw [← hs]; exact hGap, rfl⟩

theorem nextJsx_standsBehind (hs : s = text.drop position) : (Lexeme.nextJsx position s).StandsBehind text position := by
  unfold Lexeme.nextJsx
  split
  · exact (StandsIn.of_other hs rfl false).behind_start
  · exact (StandsIn.cut hs (.of_other rfl _ _) false).behind_start
  · refine (StandsIn.cut hs ⟨by rintro ⟨⟩, ?_, by rintro _ _ ⟨⟩⟩ false).behind_start
    rintro c p ⟨⟩ hDelimits
    obtain rfl : c = '\x7b' := by simpa [delimiters] using hDelimits
    exact ⟨rfl, _, rfl⟩
  · refine (StandsIn.cut hs (.of_other ?_ _ _) false).behind_start
    split <;> rfl

theorem nextJsxValue_standsBehind (hs : s = text.drop position) :
    (Lexeme.nextJsxValue false position s).StandsBehind text position := by
  have hNext := next_standsBehind hs false
  unfold Lexeme.nextJsxValue
  generalize Lexeme.next false position false s = l at hNext
  dsimp only
  split
  · exact hNext
  · rename_i quote rest hSource
    split
    · rename_i hQuote
      have hBegins : beginsToken quote = true := by
        rw [Bool.or_eq_true, beq_iff_eq, beq_iff_eq] at hQuote
        rcases hQuote with rfl | rfl <;> decide
      split
      · refine ⟨.cut hNext.standsIn.source ?_ false, hNext.le, hNext.gap⟩
        rw [hSource]
        exact .of_literal (Nat.succ_pos _) hBegins (by rintro _ ⟨⟩) (by rintro _ _ ⟨⟩)
      · have hIn := hNext.standsIn
        exact ⟨⟨hIn.source, hIn.rest, hIn.le, .of_other rfl _ _⟩, hNext.le, hNext.gap⟩
    · exact hNext

end Lexeme

end IconRegistry.Script
