import IconRegistry.Proofs.Script.Gap
import IconRegistry.Script.Outline

/-! How the rules of the grammar run, in a module with types and JSX. A reading that meets no flaw has only a place in
its state: what stands behind an expression decides where the expression ends, and here nothing that could go on with
it does. -/
namespace IconRegistry.Script

/-- What may stand behind a whole expression without commas. -/
def closers : List Punct :=
  [.comma, .rightParen, .rightBracket, .rightBrace, .semicolon]

/-- Whether a token stands behind a whole expression without commas, so that nothing goes on with it. -/
def Token.closes : Token → Bool
  | .punct p => closers.contains p
  | _ => false

/-- Words that have a meaning of their own in front of an operand. -/
def operatorWords : List Text :=
  ["async", "await", "delete", "new", "typeof", "void"].map String.toList

/-- Whether a token begins an operand that has no operators in front of it. -/
def Token.opens : Token → Bool
  | .string _ => true
  | .name word escaped => !escaped && !operatorWords.contains word
  | .punct p => [.leftBrace, .leftBracket, .leftParen].contains p
  | _ => false

/-- A reading without flaws whose current token is `lexeme`. -/
def State.on (lexeme : Lexeme) (previousStop : Nat) : State :=
  ⟨lexeme, previousStop, false, [], [], []⟩

/-- A reading without flaws whose current token is the first one of a text that stands at a position. -/
def State.facing (position : Nat) (s : Text) (previousStop : Nat) : State :=
  .on (Lexeme.next false position false s) previousStop

/-- What surrounds the rule of a goal in a module with types and JSX. -/
def Env.tsx (mode : Mode) (level : Nat) : Env :=
  ⟨.tsx, mode, level + 1, readGoal .tsx level⟩

section Tokens

variable {t : Token}

/-- What closes an expression is one of the closing punctuators. -/
theorem exists_punct_of_closes (h : t.closes = true) : ∃ p ∈ closers, t = .punct p := by
  cases t with
  | punct p => exact ⟨p, by simpa [Token.closes] using h, rfl⟩
  | _ => cases h

theorem punct_ne_of_closes (h : t.closes = true) {p : Punct} (hOther : p ∉ closers) : t ≠ .punct p := by
  obtain ⟨found, hFound, rfl⟩ := exists_punct_of_closes h
  rintro ⟨rfl⟩
  exact hOther hFound

/-- What opens an expression is no operator. -/
theorem name_ne_of_opens (h : t.opens = true) {word : Text} (hWord : word ∈ operatorWords) : t ≠ .name word false := by
  rintro rfl
  simp only [Token.opens, Bool.not_false, Bool.true_and, Bool.not_eq_true', List.contains_eq_mem,
    decide_eq_false_iff_not] at h
  exact h hWord

theorem punct_ne_of_opens (h : t.opens = true) {p : Punct} (hOther : p ∉ [Punct.leftBrace, .leftBracket, .leftParen]) :
    t ≠ .punct p := by
  rintro rfl
  exact hOther (by simpa [Token.opens] using h)

end Tokens

@[simp] theorem State.on_lexeme (l : Lexeme) (previousStop : Nat) : (State.on l previousStop).lexeme = l := rfl

@[simp] theorem State.on_previousStop (l : Lexeme) (previousStop : Nat) :
    (State.on l previousStop).previousStop = previousStop := rfl

@[simp] theorem State.facing_lexeme (position : Nat) (s : Text) (previousStop : Nat) :
    (State.facing position s previousStop).lexeme = Lexeme.next false position false s := rfl

@[simp] theorem State.facing_previousStop (position : Nat) (s : Text) (previousStop : Nat) :
    (State.facing position s previousStop).previousStop = previousStop := rfl

/-- The punctuators that are read as they are, whatever stands behind them. -/
def alone : List (Char × Punct) :=
  [('\x7b', .leftBrace), ('\x7d', .rightBrace), ('(', .leftParen), (')', .rightParen), ('[', .leftBracket),
    (']', .rightBracket), (';', .semicolon), (',', .comma), (':', .colon), ('>', .greater)]

/-- A punctuator that stands alone is the next token, whatever follows it. -/
theorem next_alone {c : Char} {p : Punct} (h : (c, p) ∈ alone) (position : Nat) (newline : Bool) (rest : Text) :
    Lexeme.next false position newline (c :: rest) = Lexeme.cut (.punct p) position 1 (c :: rest) newline := by
  simp only [alone, List.mem_cons, List.not_mem_nil, or_false, Prod.mk.injEq] at h
  rcases h with ⟨rfl, rfl⟩ | ⟨rfl, rfl⟩ | ⟨rfl, rfl⟩ | ⟨rfl, rfl⟩ | ⟨rfl, rfl⟩ | ⟨rfl, rfl⟩ | ⟨rfl, rfl⟩ | ⟨rfl, rfl⟩ |
    ⟨rfl, rfl⟩ | ⟨rfl, rfl⟩
  all_goals rfl

theorem facing_alone {c : Char} {p : Punct} (h : (c, p) ∈ alone) (position previousStop : Nat) (rest : Text) :
    State.facing position (c :: rest) previousStop =
      .on (Lexeme.cut (.punct p) position 1 (c :: rest) false) previousStop :=
  congrArg (State.on · previousStop) (next_alone h position false rest)

theorem beginsToken_of_alone {c : Char} {p : Punct} (h : (c, p) ∈ alone) : beginsToken c = true :=
  (by decide : ∀ entry ∈ alone, beginsToken entry.1 = true) _ h

/-- A gap in front of a token is not part of the text that a rule faces. -/
theorem exists_facing_gap {gap s : Text} (hToken : BeginsToken s) (hGap : isGap gap = true)
    (position previousStop : Nat) :
    ∃ newline, State.facing position (gap ++ s) previousStop =
      .on (Lexeme.next false (position + gap.length) newline s) previousStop := by
  obtain ⟨newline, hNext⟩ := exists_next_gap hToken.unskipped hGap position false
  exact ⟨newline, congrArg (State.on · previousStop) hNext⟩

/-- Such a punctuator is met behind any gap, and a step leads behind it. -/
theorem exists_next_alone {c : Char} {p : Punct} (h : (c, p) ∈ alone) {gap : Text} (hGap : isGap gap = true)
    (position : Nat) (newline : Bool) (rest : Text) :
    ∃ found, Lexeme.next false position newline (gap ++ c :: rest) =
      Lexeme.cut (.punct p) (position + gap.length) 1 (c :: rest) found := by
  have hToken : BeginsToken (c :: rest) := ⟨c, rest, rfl, beginsToken_of_alone h⟩
  obtain ⟨found, hNext⟩ := exists_next_gap hToken.unskipped hGap position newline
  exact ⟨found, hNext.trans (next_alone h _ found rest)⟩

/-- Texts that close the expression in front of them: a gap, and a punctuator behind it that ends an expression. -/
inductive Closes : Text → Prop
  | behind {gap : Text} {c : Char} {p : Punct} (rest : Text) : isGap gap = true → (c, p) ∈ alone → p ∈ closers →
      Closes (gap ++ c :: rest)

namespace Closes

/-- A closing punctuator that stands alone closes an expression. -/
theorem of_alone {c : Char} {p : Punct} (h : (c, p) ∈ alone) (hCloser : p ∈ closers) (rest : Text) :
    Closes (c :: rest) :=
  .behind rest isGap_nil h hCloser

theorem comma (rest : Text) : Closes (',' :: rest) := of_alone (p := .comma) (by decide) (by decide) rest

theorem paren (rest : Text) : Closes (')' :: rest) := of_alone (p := .rightParen) (by decide) (by decide) rest

theorem bracket (rest : Text) : Closes (']' :: rest) := of_alone (p := .rightBracket) (by decide) (by decide) rest

theorem brace (rest : Text) : Closes ('}' :: rest) := of_alone (p := .rightBrace) (by decide) (by decide) rest

theorem semicolon (rest : Text) : Closes (';' :: rest) := of_alone (p := .semicolon) (by decide) (by decide) rest

/-- What closes an expression is a token that does. -/
theorem token {rest : Text} (h : Closes rest) (position : Nat) :
    (Lexeme.next false position false rest).token.closes = true := by
  obtain ⟨rest, hGap, hAlone, hCloser⟩ := h
  obtain ⟨found, hNext⟩ := exists_next_alone hAlone hGap position false rest
  rw [hNext]
  simpa [Lexeme.cut, Token.closes] using hCloser

end Closes

/-- A step over a token that is a text leads to what stands behind the text. -/
theorem facing_cut (t : Token) (text rest : Text) (position : Nat) (newline : Bool) :
    let l := Lexeme.cut t position text.length (text ++ rest) newline
    State.facing l.stop l.rest l.stop = .facing (position + text.length) rest (position + text.length) := by
  simp [Lexeme.cut]

section Env

variable (mode : Mode) (level : Nat)

@[simp] theorem Env.tsx_dialect : (Env.tsx mode level).dialect = .tsx := rfl

@[simp] theorem Env.tsx_mode : (Env.tsx mode level).mode = mode := rfl

@[simp] theorem Env.tsx_level : (Env.tsx mode level).level = level + 1 := rfl

@[simp] theorem Env.tsx_deeper : (Env.tsx mode level).deeper = readGoal .tsx level := rfl

@[simp] theorem readGoal_succ (wanted : Goal) (s : State) :
    readGoal .tsx (level + 1) wanted mode s = Rule.ofGoal wanted (Env.tsx mode level) s := rfl

end Env

namespace Rule

section Primitives

variable {α β : Type} (env : Env) (s : State)

@[simp] theorem bind_run (x : Rule α) (f : α → Rule β) : (x >>= f) env s = (x env s).bind fun r => f r.1 env r.2 := rfl

/-- A rule that goes on with what is read first reads that, and then the rest. -/
theorem bind_eq_some {env : Env} {s t : State} {x : Rule α} {f : α → Rule β} {b : β} :
    (x >>= f) env s = some (b, t) ↔ ∃ a u, x env s = some (a, u) ∧ f a env u = some (b, t) := by
  rw [bind_run, Option.bind_eq_some_iff]
  exact Prod.exists

@[simp] theorem map_run (f : α → β) (x : Rule α) : (f <$> x) env s = (x env s).bind fun r => some (f r.1, r.2) := rfl

@[simp] theorem pure_run (a : α) : (pure a : Rule α) env s = some (a, s) := rfl

@[simp] theorem ite_run (c : Prop) [Decidable c] (x y : Rule α) :
    (if c then x else y : Rule α) env s = if c then x env s else y env s := by
  split <;> rfl

@[simp] theorem goal_run (wanted : Goal) : goal wanted env s = env.deeper wanted env.mode s := rfl

@[simp] theorem withMode_tsx (change : Mode → Mode) (rule : Rule α) (mode : Mode) (level : Nat) :
    withMode change rule (Env.tsx mode level) s = rule (Env.tsx (change mode) level) s := rfl

@[simp] theorem get_run : (get : Rule State) env s = some (s, s) := rfl

@[simp] theorem mode_run : mode env s = some (env.mode, s) := rfl

@[simp] theorem dialect_run : dialect env s = some (env.dialect, s) := rfl

@[simp] theorem lexeme_run : lexeme env s = some (s.lexeme, s) := rfl

@[simp] theorem token_run : token env s = some (s.lexeme.token, s) := rfl

@[simp] theorem position_run : position env s = some (s.lexeme.start, s) := rfl

@[simp] theorem previousStop_run : previousStop env s = some (s.previousStop, s) := rfl

@[simp] theorem onNewLine_run : onNewLine env s = some (s.lexeme.newline, s) := rfl

@[simp] theorem atPunct_run (p : Punct) : atPunct p env s = some (s.lexeme.token == .punct p, s) := rfl

@[simp] theorem atWord_run (word : String) : atWord word env s = some (s.lexeme.token == .name word.toList false, s) :=
  rfl

@[simp] theorem flawIf_false : flawIf false env s = some ((), s) := rfl

@[simp] theorem many_run (rule : Rule (Option α)) : many rule env s = manyWithin env.level rule env s := rfl

@[simp] theorem extend_run (a : α) (rule : α → Rule (Option α)) :
    extend a rule env s = extendWithin env.level a rule env s := rfl

/-- A look ahead reads nothing. -/
theorem exists_ahead (rule : Rule Bool) : ∃ answer, ahead rule env s = some (answer, s) := by
  rw [ahead]
  cases rule env s with
  | none => exact ⟨false, rfl⟩
  | some r => exact ⟨r.1, rfl⟩

/-- What tells whether an arrow function begins reads nothing. -/
theorem prospect_of_rule {rule : Rule Prospect} {answer : Prospect} (h : ∃ s', rule env s = some (answer, s')) :
    prospect rule env s = some (answer, s) := by
  obtain ⟨s', h⟩ := h
  rw [prospect, h]

/-- Looking ahead leaves the state as it was. -/
theorem ahead_run {rule : Rule Bool} {answer : Bool} {s' : State} (h : rule env s = some (answer, s')) :
    ahead rule env s = some (answer, s) := by
  rw [ahead, h]

end Primitives

section Repetition

variable {α : Type} {env : Env} {s s' s'' : State} {fuel : Nat}

theorem manyWithin_none {rule : Rule (Option α)} (h : rule env s = some (none, s')) :
    manyWithin (fuel + 1) rule env s = some ([], s') := by
  simp [manyWithin, h]

theorem manyWithin_some {rule : Rule (Option α)} {a : α} {found : List α} (h : rule env s = some (some a, s'))
    (hMore : manyWithin fuel rule env s' = some (found, s'')) :
    manyWithin (fuel + 1) rule env s = some (a :: found, s'') := by
  simp [manyWithin, h, hMore]

theorem extendWithin_none {a : α} {rule : α → Rule (Option α)} (h : rule a env s = some (none, s')) :
    extendWithin (fuel + 1) a rule env s = some (a, s') := by
  simp [extendWithin, h]

theorem extendWithin_some {a b : α} {rule : α → Rule (Option α)} (h : rule a env s = some (some b, s')) :
    extendWithin (fuel + 1) a rule env s = extendWithin fuel b rule env s' := by
  simp [extendWithin, h]

end Repetition

section Steps

variable {mode : Mode} {level previousStop : Nat} {l : Lexeme} {p : Punct}

@[simp] theorem step_tsx :
    step (Env.tsx mode level) (.on l previousStop) = some ((), .facing l.stop l.rest l.stop) := rfl

/-- What stands behind a token is looked at without taking it. -/
theorem afterToken_cut {rule : Rule Bool} {answer newline : Bool} {position : Nat} (t : Token) (text : Text) {more : Text}
    (h : rule (Env.tsx mode level) (.facing (position + text.length) more (position + text.length)) =
      some (answer, .facing (position + text.length) more (position + text.length))) :
    afterToken rule (Env.tsx mode level) (.on (Lexeme.cut t position text.length (text ++ more) newline) previousStop) =
      some (answer, .on (Lexeme.cut t position text.length (text ++ more) newline) previousStop) := by
  rw [← facing_cut t text more position newline] at h
  exact ahead_run _ _ h

theorem eat_of_eq (h : l.token = .punct p) :
    eat p (Env.tsx mode level) (.on l previousStop) = some (true, .facing l.stop l.rest l.stop) := by
  simp [eat, h]

theorem eat_of_ne {env : Env} {s : State} (h : s.lexeme.token ≠ .punct p) : eat p env s = some (false, s) := by
  simp [eat, h]

theorem eat_facing_of_ne {env : Env} {position : Nat} {s : Text}
    (h : (Lexeme.next false position false s).token ≠ .punct p) :
    eat p env (.facing position s previousStop) = some (false, .facing position s previousStop) :=
  eat_of_ne h

theorem atWord_of_ne {env : Env} {s : State} {word : String} (h : s.lexeme.token ≠ .name word.toList false) :
    atWord word env s = some (false, s) := by
  rw [atWord_run, beq_eq_false_iff_ne.mpr h]

theorem eatWord_of_ne {env : Env} {s : State} {word : String} (h : s.lexeme.token ≠ .name word.toList false) :
    eatWord word env s = some (false, s) := by
  rw [eatWord, bind_run, atWord_of_ne h]
  rfl

theorem expect_of_eq (h : l.token = .punct p) :
    expect p (Env.tsx mode level) (.on l previousStop) = some ((), .facing l.stop l.rest l.stop) := by
  simp [expect, eat_of_eq h]

theorem eat_alone {c : Char} (h : (c, p) ∈ alone) (position : Nat) (rest : Text) :
    eat p (Env.tsx mode level) (.facing position (c :: rest) previousStop) =
      some (true, .facing (position + 1) rest (position + 1)) := by
  rw [facing_alone h, eat_of_eq rfl]
  rfl

theorem expect_alone {c : Char} (h : (c, p) ∈ alone) (position : Nat) (rest : Text) :
    expect p (Env.tsx mode level) (.facing position (c :: rest) previousStop) =
      some ((), .facing (position + 1) rest (position + 1)) := by
  rw [facing_alone h, expect_of_eq rfl]
  rfl

/-- A punctuator that is read as it is may stand behind any gap. -/
theorem eat_behind {c : Char} (h : (c, p) ∈ alone) {gap : Text} (hGap : isGap gap = true) (position : Nat)
    (newline : Bool) (rest : Text) :
    eat p (Env.tsx mode level) (.on (Lexeme.next false position newline (gap ++ c :: rest)) previousStop) =
      some (true, .facing (position + gap.length + 1) rest (position + gap.length + 1)) := by
  obtain ⟨found, hNext⟩ := exists_next_alone h hGap position newline rest
  rw [hNext, eat_of_eq rfl]
  rfl

/-- Behind a gap, it is taken together with the gap. -/
theorem expect_behind {c : Char} (h : (c, p) ∈ alone) {gap : Text} (hGap : isGap gap = true) (position : Nat)
    (newline : Bool) (rest : Text) :
    expect p (Env.tsx mode level) (.on (Lexeme.next false position newline (gap ++ c :: rest)) previousStop) =
      some ((), .facing (position + gap.length + 1) rest (position + gap.length + 1)) := by
  obtain ⟨found, hNext⟩ := exists_next_alone h hGap position newline rest
  rw [hNext, expect_of_eq rfl]
  rfl

/-- None of some punctuators is found if each is not there. -/
theorem atAnyPunct_of_forall_ne {env : Env} {s : State} {ps : List Punct} (h : ∀ p ∈ ps, s.lexeme.token ≠ .punct p) :
    atAnyPunct ps env s = some (false, s) := by
  simp only [atAnyPunct, bind_run, token_run, Option.bind_some]
  cases hToken : s.lexeme.token with
  | punct p =>
      have hOther : p ∉ ps := fun hMember => h p hMember hToken
      simp [hOther]
  | _ => rfl

theorem atAnyWord_of_forall_ne {env : Env} {s : State} {words : List String}
    (h : ∀ word ∈ words, s.lexeme.token ≠ .name word.toList false) : atAnyWord words env s = some (false, s) := by
  simp only [atAnyWord, bind_run, token_run, Option.bind_some]
  cases hToken : s.lexeme.token with
  | name found escaped =>
      cases escaped with
      | true => rfl
      | false =>
          have hOther : ∀ word ∈ words, word.toList ≠ found := by
            rintro word hMember rfl
            exact h word hMember hToken
          simpa using hOther
  | _ => rfl

theorem decorators_of_ne {env : Env} {s : State} (hLevel : 0 < env.level) (h : s.lexeme.token ≠ .punct .at) :
    decorators env s = some (false, s) := by
  obtain ⟨below, hBelow⟩ := Nat.exists_eq_add_one_of_ne_zero (Nat.ne_zero_of_lt hLevel)
  rw [decorators, bind_run, many_run, hBelow, manyWithin_none]
  · rfl
  · rw [bind_run, eat_of_ne h]
    rfl

end Steps

end Rule

end IconRegistry.Script
