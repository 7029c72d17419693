import IconRegistry.Script.Lexeme

/-! Gaps: what may stand between two tokens of a script. A gap is scanned one character at a time, so a
comment that is cut in two is told apart from one that ends. -/
namespace IconRegistry.Script

/-- Whether a character is a blank of the script language or breaks a line there. -/
def isGapBlank (c : Char) : Bool :=
  isSpace c || isLineBreak c

/-- Every blank of a text is one of the script language. -/
theorem isGapBlank_of_isBlank {c : Char} (h : Text.isBlank c = true) : isGapBlank c = true := by
  have hCode : ∀ d : Char, c = d ↔ c.toNat = d.toNat := fun d => Char.toNat_inj.symm
  by_cases hAscii : c.toNat < 128
  · simp only [Text.isBlank, hAscii, if_true, Bool.or_eq_true, Bool.and_eq_true, beq_iff_eq, decide_eq_true_eq] at h
    simp only [isGapBlank, isSpace, isLineBreak, hAscii, if_true, Bool.or_eq_true, beq_iff_eq, hCode,
      Char.reduceToNat]
    omega
  · simp only [Text.isBlank, hAscii, if_false, Bool.or_eq_true, Bool.and_eq_true, beq_iff_eq,
      decide_eq_true_eq] at h
    simp only [isGapBlank, isSpace, isLineBreak, hAscii, if_false, Bool.or_eq_true, Bool.and_eq_true, beq_iff_eq,
      decide_eq_true_eq, hCode, Char.reduceToNat]
    omega

/-- Where the scan of a gap stands: between its pieces, behind the slash that begins a comment, in a
comment that a line break ends, in one that `*/` ends, or behind a star in such a comment. -/
inductive GapState
  | clear
  | slash
  | line
  | block
  | star
  deriving DecidableEq

namespace GapState

/-- What one more character does to the scan; nothing if no gap goes on with it. -/
def step : GapState → Char → Option GapState
  | clear, c => if isGapBlank c then some clear else if c = '/' then some slash else none
  | slash, c => if c = '/' then some line else if c = '*' then some block else none
  | line, c => some (if isLineBreak c then clear else line)
  | block, c => some (if c = '*' then star else block)
  | star, c => some (if c = '/' then clear else if c = '*' then star else block)

def run (state : GapState) (s : Text) : Option GapState :=
  s.foldlM step state

@[simp] theorem run_nil (state : GapState) : state.run [] = some state := rfl

@[simp] theorem run_cons (state : GapState) (c : Char) (s : Text) :
    state.run (c :: s) = (state.step c).bind (·.run s) := rfl

/-- A scan goes through texts in a row one after the other. -/
theorem run_append (state : GapState) (s t : Text) :
    state.run (s ++ t) = (state.run s).bind (·.run t) := by
  simp [run, List.foldlM_append]

end GapState

/-- Whether a text is a gap: blanks and comments, all of which end in it. -/
def isGap (s : Text) : Bool :=
  GapState.clear.run s == some .clear

/-- Whether a character begins a token wherever no gap is open: it is no blank and no slash. -/
def beginsToken (c : Char) : Bool :=
  !isGapBlank c && c != '/'

/-- A text begins where a token does. -/
def BeginsToken (text : Text) : Prop :=
  ∃ c rest, text = c :: rest ∧ beginsToken c = true

/-- Where a text begins a token, it does so whatever follows it. -/
theorem BeginsToken.append {text : Text} (h : BeginsToken text) (rest : Text) : BeginsToken (text ++ rest) := by
  obtain ⟨c, more, rfl, hc⟩ := h
  exact ⟨c, more ++ rest, rfl, hc⟩

theorem isGap_iff {s : Text} : isGap s = true ↔ GapState.clear.run s = some .clear := by
  simp [isGap]

@[simp] theorem isGap_nil : isGap [] = true := rfl

theorem step_of_beginsToken {c : Char} (h : beginsToken c = true) : GapState.clear.step c = none := by
  simp only [beginsToken, Bool.and_eq_true, Bool.not_eq_true', bne_iff_ne] at h
  simp [GapState.step, h]

theorem step_comma : GapState.clear.step ',' = none := by decide

/-- Gaps in a row are a gap. -/
theorem isGap_append {s t : Text} (hs : isGap s = true) (ht : isGap t = true) :
    isGap (s ++ t) = true := by
  rw [isGap_iff] at *
  rw [GapState.run_append, hs]
  exact ht

/-- Blanks alone are a gap. -/
theorem isGap_of_all_blank {s : Text} (h : ∀ c ∈ s, isGapBlank c = true) : isGap s = true := by
  rw [isGap_iff]
  induction s with
  | nil => rfl
  | cons c rest ih =>
      have hStep : GapState.clear.step c = some .clear := by
        simp [GapState.step, h c (by simp)]
      simpa [hStep] using ih fun d hd => h d (by simp [hd])

/-- A gap does not go on over a character that begins a token. -/
theorem isGap_append_cons {g s : Text} {c : Char} (hg : isGap g = true) (hc : beginsToken c = true) :
    isGap (g ++ c :: s) = false := by
  rw [isGap_iff] at hg
  simp [isGap, GapState.run_append, hg, step_of_beginsToken hc]

/-- Where a token begins, the gap in front of it is determined. -/
theorem gap_cancel {g g' s s' : Text} {c c' : Char} (hg : isGap g = true) (hg' : isGap g' = true)
    (hc : beginsToken c = true) (hc' : beginsToken c' = true) (h : g ++ c :: s = g' ++ c' :: s') :
    g = g' ∧ c :: s = c' :: s' := by
  rcases List.append_eq_append_iff.mp h with ⟨more, hMore, hRest⟩ | ⟨more, hMore, hRest⟩
  · cases more with
    | nil => exact ⟨by simpa using hMore.symm, by simpa using hRest⟩
    | cons d more =>
        obtain ⟨rfl, -⟩ := List.cons_eq_cons.mp hRest
        rw [hMore, isGap_append_cons hg hc] at hg'
        cases hg'
  · cases more with
    | nil => exact ⟨by simpa using hMore, by simpa using hRest.symm⟩
    | cons d more =>
        obtain ⟨rfl, -⟩ := List.cons_eq_cons.mp hRest
        rw [hMore, isGap_append_cons hg' hc'] at hg
        cases hg

/-- In front of a token the gap is determined. -/
theorem BeginsToken.gap_eq {g g' s s' : Text} (hs : BeginsToken s) (hs' : BeginsToken s') (hg : isGap g = true)
    (hg' : isGap g' = true) (h : g ++ s = g' ++ s') : g = g' ∧ s = s' := by
  obtain ⟨c, rest, rfl, hc⟩ := hs
  obtain ⟨c', rest', rfl, hc'⟩ := hs'
  exact gap_cancel hg hg' hc hc' h

/-- What stands behind a property: a gap, and a comma with another gap unless the literal ends there. -/
def tailText (gap : Text) (afterComma? : Option Text) : Text :=
  match afterComma? with
  | some after => gap ++ ',' :: after
  | none => gap

theorem tailText_cons (c : Char) (gap : Text) (after? : Option Text) :
    tailText (c :: gap) after? = c :: tailText gap after? := by
  cases after? <;> rfl

/-- Whether a text may stand between the last property of a literal and its closing brace, where the scan
of a gap stands at its front. -/
def isEndingFrom : GapState → Text → Bool
  | state, [] => state == .clear
  | state, c :: rest =>
    if state = .clear && c = ',' then isGap rest
    else
      match state.step c with
      | some next => isEndingFrom next rest
      | none => false

/-- Whether a text may stand between the last property of a literal and its closing brace: a gap that may
hold one comma outside of its comments. -/
def isEnding (s : Text) : Bool :=
  isEndingFrom .clear s

/-- What behind a property stands in front of the closing brace, where the scan of the gap stands at its front. -/
def IsTail (state : GapState) (s : Text) : Prop :=
  ∃ gap after?, state.run gap = some .clear ∧ (∀ after, after? = some after → isGap after = true) ∧
    s = tailText gap after?

theorem isTail_nil {state : GapState} : IsTail state [] ↔ state = .clear := by
  constructor
  · rintro ⟨gap, after?, hGap, -, hText⟩
    cases after? with
    | none =>
        obtain rfl : [] = gap := hText
        simpa using hGap
    | some after => simp [tailText] at hText
  · rintro rfl
    exact ⟨[], none, rfl, by simp, rfl⟩

/-- A comma outside of a comment ends the gap. -/
theorem isTail_comma {rest : Text} : IsTail .clear (',' :: rest) ↔ isGap rest = true := by
  constructor
  · rintro ⟨gap, after?, hGap, hAfter, hText⟩
    cases gap with
    | nil =>
        cases after? with
        | none => simp [tailText] at hText
        | some after =>
            obtain rfl : rest = after := by simpa [tailText] using hText
            exact hAfter rest rfl
    | cons d gap =>
        rw [tailText_cons] at hText
        obtain ⟨rfl, -⟩ := List.cons_eq_cons.mp hText
        simp [step_comma] at hGap
  · intro hRest
    exact ⟨[], some rest, rfl, by simpa using hRest, rfl⟩

/-- Outside of a gap's end, a tail is scanned character by character. -/
theorem isTail_cons {state : GapState} {c : Char} {rest : Text} (hComma : ¬(state = .clear ∧ c = ',')) :
    IsTail state (c :: rest) ↔ ∃ next, state.step c = some next ∧ IsTail next rest := by
  constructor
  · rintro ⟨gap, after?, hGap, hAfter, hText⟩
    cases gap with
    | nil =>
        obtain rfl : state = .clear := by simpa using hGap
        cases after? <;> simp_all [tailText]
    | cons d gap =>
        rw [tailText_cons] at hText
        obtain ⟨rfl, rfl⟩ := List.cons_eq_cons.mp hText
        obtain ⟨next, hStep, hRest⟩ := Option.bind_eq_some_iff.mp hGap
        exact ⟨next, hStep, gap, after?, hRest, hAfter, rfl⟩
  · rintro ⟨next, hStep, gap, after?, hGap, hAfter, rfl⟩
    exact ⟨c :: gap, after?, by simpa [hStep] using hGap, hAfter, (tailText_cons ..).symm⟩

/-- What may end a literal is recognized by a scan. -/
theorem isEndingFrom_iff (state : GapState) (s : Text) : isEndingFrom state s = true ↔ IsTail state s := by
  induction s generalizing state with
  | nil => rw [isEndingFrom, beq_iff_eq, isTail_nil]
  | cons c rest ih =>
      by_cases hComma : state = .clear ∧ c = ','
      · obtain ⟨rfl, rfl⟩ := hComma
        rw [isTail_comma, isEndingFrom, if_pos (by decide)]
      · rw [isTail_cons hComma, isEndingFrom, if_neg (by simpa using hComma)]
        cases state.step c with
        | none => simp
        | some next => simp [ih]

/-- What may end a literal is a gap with at most one comma in it. -/
theorem isEnding_iff {s : Text} :
    isEnding s = true ↔ ∃ gap after?, isGap gap = true ∧
      (∀ after, after? = some after → isGap after = true) ∧ s = tailText gap after? := by
  simp only [isEnding, isEndingFrom_iff, IsTail, isGap_iff]

/-- The part of a comment's scan that the reader of tokens keeps, and the character it has not taken yet. -/
def GapState.trivia : GapState → Trivia
  | clear | slash => .blanks
  | line => .lineComment
  | block | star => .blockComment

def GapState.pending : GapState → Text
  | slash => ['/']
  | star => ['*']
  | _ => []

/-- One character of a gap takes the reader of tokens as far as it takes the scan. -/
theorem skipTrivia?_step {state next : GapState} {d : Char} (h : state.step d = some next)
    (legacy : Bool) (skipped : Nat) (newline : Bool) (s : Text) :
    ∃ found, skipTrivia? legacy state.trivia skipped newline (state.pending ++ d :: s) =
      skipTrivia? legacy next.trivia (skipped + state.pending.length + 1 - next.pending.length) found
        (next.pending ++ s) := by
  cases state with
  | clear =>
      simp only [GapState.step] at h
      split at h
      · rename_i hBlank
        obtain rfl := Option.some.inj h
        have hSlash : d ≠ '/' := by
          rintro rfl
          exact absurd hBlank (by decide)
        by_cases hSpace : isSpace d = true
        · exact ⟨newline, by simp [GapState.trivia, GapState.pending, skipTrivia?, hSlash, hSpace]⟩
        · have hBreak : isLineBreak d = true := by simpa [isGapBlank, hSpace] using hBlank
          exact ⟨true, by simp [GapState.trivia, GapState.pending, skipTrivia?, hSlash, hSpace, hBreak]⟩
      · split at h <;> cases h
        rename_i hSlash
        subst hSlash
        exact ⟨newline, rfl⟩
  | slash =>
      simp only [GapState.step] at h
      split at h
      · cases h
        rename_i hSlash
        subst hSlash
        exact ⟨newline, by simp [GapState.trivia, GapState.pending, skipTrivia?]⟩
      · split at h <;> cases h
        rename_i hStar
        subst hStar
        exact ⟨newline, by simp [GapState.trivia, GapState.pending, skipTrivia?]⟩
  | line =>
      obtain rfl := Option.some.inj h
      by_cases hBreak : isLineBreak d = true
      · exact ⟨true, by simp [GapState.trivia, GapState.pending, skipTrivia?, hBreak]⟩
      · exact ⟨newline, by simp [GapState.trivia, GapState.pending, skipTrivia?, hBreak]⟩
  | block =>
      obtain rfl := Option.some.inj h
      by_cases hStar : d = '*'
      · subst hStar
        exact ⟨newline, by simp [GapState.trivia, GapState.pending]⟩
      · exact ⟨newline || isLineBreak d, by simp [GapState.trivia, GapState.pending, skipTrivia?, hStar]⟩
  | star =>
      obtain rfl := Option.some.inj h
      have hKeep : isLineBreak '*' = false := by decide
      by_cases hSlash : d = '/'
      · subst hSlash
        exact ⟨newline, by simp [GapState.trivia, GapState.pending, skipTrivia?]⟩
      · by_cases hStar : d = '*'
        · subst hStar
          exact ⟨newline, by simp [GapState.trivia, GapState.pending, skipTrivia?, hKeep]⟩
        · exact ⟨newline || isLineBreak d,
            by simp [GapState.trivia, GapState.pending, skipTrivia?, hSlash, hStar, hKeep]⟩

/-- A text is at its end or begins with a character that begins a token. Where the comments of markup are skipped, none
of those begins there, either. -/
def Unskipped (legacy : Bool) (rest : Text) : Prop :=
  ∀ c ∈ rest.head?, beginsToken c = true ∧ (legacy = true → c ≠ '<' ∧ c ≠ '-')

theorem BeginsToken.unskipped {rest : Text} (h : BeginsToken rest) : Unskipped false rest := by
  obtain ⟨c, more, rfl, hc⟩ := h
  rintro d ⟨rfl⟩
  exact ⟨hc, nofun⟩

section Skipping

variable {legacy : Bool} {rest : Text} (hRest : Unskipped legacy rest)

include hRest in
/-- Nothing is skipped there. -/
theorem skipTrivia?_unskipped (skipped : Nat) (newline : Bool) :
    skipTrivia? legacy .blanks skipped newline rest = some (skipped, newline, rest) := by
  cases rest with
  | nil => rfl
  | cons c rest =>
      obtain ⟨hToken, hMarkup⟩ := hRest c rfl
      simp only [beginsToken, isGapBlank, Bool.and_eq_true, Bool.not_eq_true', Bool.or_eq_false_iff, bne_iff_ne] at hToken
      cases legacy with
      | false => simp [skipTrivia?, hToken]
      | true =>
          obtain ⟨hAngle, hDash⟩ := hMarkup rfl
          simp [skipTrivia?, hToken, hAngle.symm, hDash.symm]

include hRest in
/-- The reader of tokens skips what the scan of a gap goes through. -/
theorem skipTrivia?_of_run {state : GapState} {s : Text} (h : state.run s = some .clear) (skipped : Nat)
    (newline : Bool) :
    ∃ found, skipTrivia? legacy state.trivia skipped newline (state.pending ++ s ++ rest) =
      some (skipped + state.pending.length + s.length, found, rest) := by
  induction s generalizing state skipped newline with
  | nil =>
      obtain rfl : state = .clear := by simpa using h
      exact ⟨newline, skipTrivia?_unskipped hRest skipped newline⟩
  | cons d s ih =>
      obtain ⟨next, hStep, hMore⟩ := Option.bind_eq_some_iff.mp h
      obtain ⟨found, hFound⟩ := skipTrivia?_step hStep legacy skipped newline (s ++ rest)
      obtain ⟨last, hLast⟩ := ih hMore (skipped + state.pending.length + 1 - next.pending.length) found
      refine ⟨last, ?_⟩
      have hPending : next.pending.length ≤ 1 := by cases next <;> simp [GapState.pending]
      rw [List.append_assoc, List.cons_append, hFound, ← List.append_assoc, hLast, List.length_cons]
      congr 2
      omega

include hRest in
/-- The reader of tokens steps over a gap as a whole, and over nothing behind it. -/
theorem skipTrivia?_gap {gap : Text} (h : isGap gap = true) (newline : Bool) :
    ∃ found, skipTrivia? legacy .blanks 0 newline (gap ++ rest) = some (gap.length, found, rest) := by
  obtain ⟨found, hFound⟩ := skipTrivia?_of_run hRest (isGap_iff.mp h) 0 newline
  refine ⟨found, ?_⟩
  simpa only [GapState.trivia, GapState.pending, List.nil_append, List.length_nil, Nat.zero_add] using hFound

include hRest in
/-- The token behind a gap is cut as if it stood there alone, but for the line break that the gap may have. -/
theorem exists_next_gap {gap : Text} (h : isGap gap = true) (position : Nat) (newline : Bool) :
    ∃ found, Lexeme.next legacy position newline (gap ++ rest) =
      Lexeme.next legacy (position + gap.length) found rest := by
  obtain ⟨found, hGap⟩ := skipTrivia?_gap hRest h newline
  refine ⟨found, ?_⟩
  rw [Lexeme.next, hGap, Lexeme.next, skipTrivia?_unskipped hRest]
  rfl

end Skipping

end IconRegistry.Script
