import IconRegistry.Proofs.Script.Expression

/-! Tokens that a reading meets at the top of a script, in any dialect. Dialects differ in the comments that they skip;
in front of a character that begins none, a token is cut the same in all of them. -/
namespace IconRegistry.Script

open Component (stringLiteral)

/-- What surrounds the rules at the top of a script. -/
def Env.outer (dialect : Dialect) (level : Nat) : Env :=
  ⟨dialect, topMode dialect, level, readGoal dialect level⟩

@[simp] theorem Env.outer_level (dialect : Dialect) (level : Nat) : (Env.outer dialect level).level = level := rfl

/-- A reading without flaws in front of a text that stands at a position. -/
def State.before (dialect : Dialect) (position : Nat) (s : Text) : State :=
  .on (Lexeme.next (!dialect.isModule) position false s) position

/-- A reading without flaws in front of the text of a statement, which may begin a line. -/
def State.opening (dialect : Dialect) (newline : Bool) (position previousStop : Nat) (s : Text) : State :=
  .on (Lexeme.next (!dialect.isModule) position newline s) previousStop

/-- A reading is at a token, and a step leads behind it. -/
structure State.Meets (dialect : Dialect) (s : State) (t : Token) (s' : State) : Prop where
  token : s.lexeme.token = t
  step : ∀ env : Env, env.dialect = dialect → Rule.step env s = some ((), s')

/-- Stepping over a token that is met leads behind it. -/
theorem State.Meets.step_outer {dialect : Dialect} {s s' : State} {t : Token} (h : s.Meets dialect t s') (level : Nat) :
    Rule.step (Env.outer dialect level) s = some ((), s') :=
  h.step _ rfl

theorem State.Meets.token_ne {dialect : Dialect} {s s' : State} {t other : Token} (h : s.Meets dialect t s')
    (hOther : t ≠ other) : s.lexeme.token ≠ other :=
  fun hToken => hOther (h.token.symm.trans hToken)

/-- A character begins a token, and no comment of markup. -/
def beginsUnmarked (c : Char) : Bool :=
  beginsToken c && c != '<' && c != '-'

theorem beginsUnmarked_of_isNameStart {c : Char} (h : isNameStart c = true) : beginsUnmarked c = true := by
  have hAngle : c ≠ '<' := by
    rintro rfl
    exact absurd h (by decide)
  have hDash : c ≠ '-' := by
    rintro rfl
    exact absurd h (by decide)
  simp [beginsUnmarked, beginsToken_of_isNameStart h, hAngle, hDash]

section Tokens

variable {dialect : Dialect} {position : Nat} {c : Char} {rest : Text}

/-- Nothing is skipped in front of a character that begins no comment of markup. -/
theorem unskipped_of_unmarked (h : beginsUnmarked c = true) (legacy : Bool) (s : Text) : Unskipped legacy (c :: s) := by
  simp only [beginsUnmarked, Bool.and_eq_true, bne_iff_ne] at h
  rintro d ⟨rfl⟩
  exact ⟨h.1.1, fun _ => ⟨h.1.2, h.2⟩⟩

/-- A gap in front of a statement is not part of the text that a rule faces. -/
theorem exists_opening_gap {gap : Text} (hGap : isGap gap = true) (hRest : Unskipped (!dialect.isModule) rest)
    (newline : Bool) (position previousStop : Nat) :
    ∃ found, State.opening dialect newline position previousStop (gap ++ rest) =
      .opening dialect found (position + gap.length) previousStop rest := by
  obtain ⟨found, hNext⟩ := exists_next_gap hRest hGap position newline
  exact ⟨found, congrArg (State.on · previousStop) hNext⟩

/-- What is read behind a token may be the next statement. -/
theorem before_eq_opening (dialect : Dialect) (position : Nat) (s : Text) :
    State.before dialect position s = .opening dialect false position position s := rfl

theorem next_unmarked (h : beginsUnmarked c = true) (legacy : Bool) (position : Nat) (newline : Bool) (s : Text) :
    Lexeme.next legacy position newline (c :: s) = Lexeme.next false position newline (c :: s) := by
  simp only [beginsUnmarked, Bool.and_eq_true, bne_iff_ne] at h
  obtain ⟨⟨hc, hAngle⟩, hDash⟩ := h
  rw [next_of_beginsToken _ _ hc]
  simp only [beginsToken, isGapBlank, Bool.and_eq_true, Bool.not_eq_true', Bool.or_eq_false_iff, bne_iff_ne] at hc
  simp [Lexeme.next, skipTrivia?, hc, hAngle.symm, hDash.symm]

/-- A blank in front of a token is skipped. -/
theorem next_spaced (h : beginsUnmarked c = true) (legacy : Bool) (position : Nat) (newline : Bool) (s : Text) :
    Lexeme.next legacy position newline (' ' :: c :: s) = Lexeme.next false (position + 1) newline (c :: s) := by
  simp only [beginsUnmarked, Bool.and_eq_true, bne_iff_ne] at h
  obtain ⟨⟨hc, hAngle⟩, hDash⟩ := h
  have hBlank : isSpace ' ' = true := by decide
  rw [next_of_beginsToken _ _ hc]
  simp only [beginsToken, isGapBlank, Bool.and_eq_true, Bool.not_eq_true', Bool.or_eq_false_iff, bne_iff_ne] at hc
  simp [Lexeme.next, skipTrivia?, hc, hBlank, hAngle.symm, hDash.symm]

theorem endsWord_blank (s : Text) : EndsWord (' ' :: s) :=
  endsWord_cons (by decide) (by decide) s

/-- A step over a token that is a text leads to what stands behind the text. -/
theorem meets_cut (t : Token) (text : Text) (newline : Bool) (previousStop : Nat) :
    (State.on (Lexeme.cut t position text.length (text ++ rest) newline) previousStop).Meets dialect t
      (.before dialect (position + text.length) rest) := by
  refine ⟨rfl, ?_⟩
  rintro env rfl
  have hRest : (text ++ rest).drop text.length = rest := List.drop_left ..
  have hStep : ∀ l : Lexeme, Rule.step env (.on l previousStop) =
      some ((), .on (Lexeme.next (!env.dialect.isModule) l.stop false l.rest) l.stop) := fun _ => rfl
  rw [hStep, Lexeme.cut, hRest]
  rfl

/-- At the opening of a text, an identifier is cut. -/
theorem opening_word {word : Text} (h : IsIdentifier word) (hEnds : EndsWord rest) (newline : Bool)
    (previousStop : Nat) :
    State.opening dialect newline position previousStop (word ++ rest) =
      .on (Lexeme.cut (.name word false) position word.length (word ++ rest) newline) previousStop := by
  obtain ⟨c, more, hWord, hc, -⟩ := h.exists_cons
  rw [← next_word _ _ h hEnds, State.opening, hWord, List.cons_append, next_unmarked (beginsUnmarked_of_isNameStart hc)]

/-- The first word of a statement. -/
theorem meets_opening {word : Text} (h : IsIdentifier word) (hEnds : EndsWord rest) (newline : Bool)
    (previousStop : Nat) :
    (State.opening dialect newline position previousStop (word ++ rest)).Meets dialect (.name word false)
      (.before dialect (position + word.length) rest) := by
  rw [opening_word h hEnds]
  exact meets_cut ..

/-- A word behind a blank. -/
theorem meets_word {word : Text} (h : IsIdentifier word) (hEnds : EndsWord rest) :
    (State.before dialect position (' ' :: (word ++ rest))).Meets dialect (.name word false)
      (.before dialect (position + 1 + word.length) rest) := by
  obtain ⟨c, more, hWord, hc, -⟩ := h.exists_cons
  have hBefore : State.before dialect position (' ' :: (word ++ rest)) =
      .on (Lexeme.cut (.name word false) (position + 1) word.length (word ++ rest) false) position := by
    rw [← next_word _ _ h hEnds, State.before, hWord, List.cons_append, next_spaced (beginsUnmarked_of_isNameStart hc)]
  rw [hBefore]
  exact meets_cut ..

/-- A string behind a space is met. -/
theorem meets_string (s : Text) :
    (State.before dialect position (' ' :: (stringLiteral s ++ rest))).Meets dialect (.string s)
      (.before dialect (position + 1 + (stringLiteral s).length) rest) := by
  have hBefore : State.before dialect position (' ' :: (stringLiteral s ++ rest)) =
      .on (Lexeme.cut (.string s) (position + 1) (stringLiteral s).length (stringLiteral s ++ rest) false)
        position := by
    rw [← next_stringLiteral, State.before, stringLiteral, List.cons_append, List.cons_append, next_spaced (by decide)]
  rw [hBefore]
  exact meets_cut ..

theorem beginsUnmarked_of_alone {p : Punct} (h : (c, p) ∈ alone) : beginsUnmarked c = true :=
  (by decide : ∀ entry ∈ alone, beginsUnmarked entry.1 = true) _ h

/-- A punctuator behind a blank. -/
theorem meets_spaced {p : Punct} (h : (c, p) ∈ alone) (s : Text) :
    (State.before dialect position (' ' :: c :: s)).Meets dialect (.punct p) (.before dialect (position + 2) s) := by
  have hBefore : State.before dialect position (' ' :: c :: s) =
      .on (Lexeme.cut (.punct p) (position + 1) 1 ([c] ++ s) false) position := by
    rw [State.before, next_spaced (beginsUnmarked_of_alone h)]
    exact facing_alone h (position + 1) position s
  rw [hBefore]
  exact meets_cut (.punct p) [c] false position

theorem meets_semicolon (s : Text) :
    (State.before dialect position (';' :: s)).Meets dialect (.punct .semicolon)
      (.before dialect (position + 1) s) := by
  have hBefore : State.before dialect position (';' :: s) =
      .on (Lexeme.cut (.punct .semicolon) position 1 ([';'] ++ s) false) position := by
    rw [State.before, next_unmarked (by decide)]
    rfl
  rw [hBefore]
  exact meets_cut (.punct .semicolon) [';'] false position

theorem meets_assign (s : Text) :
    (State.before dialect position (" = ".toList ++ s)).Meets dialect (.punct .assign)
      (.before dialect (position + 2) (' ' :: s)) := by
  have hText : " = ".toList ++ s = ' ' :: '=' :: ' ' :: s := rfl
  have hBefore : State.before dialect position (" = ".toList ++ s) =
      .on (Lexeme.cut (.punct .assign) (position + 1) 1 (['='] ++ ' ' :: s) false) position := by
    rw [hText, State.before, next_spaced (by decide)]
    rfl
  rw [hBefore]
  exact meets_cut (.punct .assign) ['='] false position

end Tokens

namespace Rule

variable {dialect : Dialect} {level : Nat} {s s' : State} {p : Punct} {word : String}

theorem eat_of_meets (h : s.Meets dialect (.punct p) s') : eat p (Env.outer dialect level) s = some (true, s') := by
  simp [eat, h.token, h.step_outer]

theorem expect_of_meets (h : s.Meets dialect (.punct p) s') : expect p (Env.outer dialect level) s = some ((), s') := by
  simp [expect, eat_of_meets h]

theorem eatWord_of_meets (h : s.Meets dialect (.name word.toList false) s') :
    eatWord word (Env.outer dialect level) s = some (true, s') := by
  simp [eatWord, h.token, h.step_outer]

theorem expectWord_of_meets (h : s.Meets dialect (.name word.toList false) s') :
    expectWord word (Env.outer dialect level) s = some ((), s') := by
  simp [expectWord, eatWord_of_meets h]

theorem string_of_meets {value : Text} (h : s.Meets dialect (.string value) s') :
    string (Env.outer dialect level) s = some (value, s') := by
  simp [string, h.token, h.step_outer]

/-- A name is an identifier unless it is reserved. -/
theorem atIdentifier_of_name {env : Env} {word : Text} {escaped : Bool} (h : s.lexeme.token = .name word escaped) :
    atIdentifier env s = some (!isReserved word, s) := by
  simp only [atIdentifier, bind_run, token_run, h, Option.bind_some, pure_run]

theorem atIdentifier_of_punct {env : Env} (h : s.lexeme.token = .punct p) : atIdentifier env s = some (false, s) := by
  simp only [atIdentifier, bind_run, token_run, h, Option.bind_some, pure_run]

/-- A name that is met is an identifier, if it is not reserved and does not wait in a module. -/
theorem identifier_of_meets {env : Env} {word : Text} (h : s.Meets dialect (.name word false) s')
    (hDialect : env.dialect = dialect) (hMode : env.mode = topMode dialect) (hFree : isReserved word = false)
    (hAwait : dialect.isModule = true → word ≠ "await".toList) : identifier env s = some (word, s') := by
  have hOperator : ((topMode dialect).allowsAwait && word == "await".toList) = false := by
    simpa [topMode] using hAwait
  have hYield : (topMode dialect).allowsYield = false := rfl
  simp only [identifier, bind_run, token_run, h.token, Option.bind_some, hFree, Bool.false_eq_true, if_false, mode_run,
    hMode, hOperator, hYield, Bool.false_and, flawIf_false, h.step env hDialect, pure_run]

/-- What tells whether a statement may end reads nothing. -/
theorem exists_canEndStatement (env : Env) (s : State) : ∃ answer, canEndStatement env s = some (answer, s) := by
  simp only [canEndStatement, bind_run, token_run, Option.bind_some]
  generalize s.lexeme.token = t
  cases t with
  | punct p => cases p <;> exact ⟨_, rfl⟩
  | _ => exact ⟨_, rfl⟩

theorem endStatement_of_meets (h : s.Meets dialect (.punct .semicolon) s') :
    endStatement (Env.outer dialect level) s = some ((), s') := by
  obtain ⟨answer, hAnswer⟩ := exists_canEndStatement (Env.outer dialect level) s'
  simp [endStatement, eat_of_meets h, hAnswer]

end Rule

end IconRegistry.Script
