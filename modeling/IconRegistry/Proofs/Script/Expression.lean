import IconRegistry.Component.CallTree
import IconRegistry.Proofs.Script.Cutting
import IconRegistry.Proofs.Script.Running

/-! Expressions that are read to their end: strings, names, literals of objects and arrays, and calls. A text is read as
a whole by its goal wherever what stands behind it closes it, from any level that its length bounds. -/
namespace IconRegistry.Script

open Component (stringLiteral)

namespace Rule

section Operands

variable {env : Env} {s s' : State} {operand : Operand}

theorem joinGreater_of_ne (h : s.lexeme.token ≠ .punct .greater) : joinGreater env s = some ((), s) := by
  simp only [joinGreater, bind_run, lexeme_run, Option.bind_some]
  cases greaterOperator? s.lexeme.source with
  | none => rfl
  | some _ => simp [h]

/-- No operator that is a word opens an expression. -/
theorem atWord_of_opens (h : s.lexeme.token.opens = true) {word : String} (hWord : word.toList ∈ operatorWords) :
    atWord word env s = some (false, s) :=
  atWord_of_ne (name_ne_of_opens h hWord)

theorem atAwait_of_opens (h : s.lexeme.token.opens = true) : atAwait env s = some (false, s) := by
  rw [atAwait, bind_run, atWord_of_opens h (by decide)]
  rfl

/-- An operand without operators is read where one begins and none stands behind it. -/
theorem unary_of_leftHandSide (hOpens : s.lexeme.token.opens = true)
    (hRead : leftHandSide env s = some (operand, s'))
    (hBehind : ∀ p ∈ [Punct.increment, .decrement], s'.lexeme.token ≠ .punct p) : unary env s = some (operand, s') := by
  have hSign : atAnyPunct [.plus, .minus, .tilde, .bang] env s = some (false, s) :=
    atAnyPunct_of_forall_ne fun p hp => punct_ne_of_opens hOpens (by revert p; decide)
  have hWord : atAnyWord ["delete", "typeof", "void"] env s = some (false, s) :=
    atAnyWord_of_forall_ne fun word hMember => name_ne_of_opens hOpens (by revert word; decide)
  have hBefore : atAnyPunct [.increment, .decrement] env s = some (false, s) :=
    atAnyPunct_of_forall_ne fun p hp => punct_ne_of_opens hOpens (by revert p; decide)
  have hAngle := punct_ne_of_opens hOpens (p := .less) (by decide)
  simp [unary, atAwait_of_opens hOpens, hSign, hWord, hAngle, update, hBefore, hRead, atAnyPunct_of_forall_ne hBehind]

/-- What closes an expression updates nothing. -/
theorem no_update_of_closes {t : Token} (h : t.closes = true) : ∀ p ∈ [Punct.increment, .decrement], t ≠ .punct p :=
  fun p hp => punct_ne_of_closes h (by revert p; decide)

/-- What ends an expression is no operator. -/
theorem binaryStep_of_closes (h : s.lexeme.token.closes = true) (least : Nat) :
    binaryStep least operand env s = some (none, s) := by
  have hNever : ∀ p ∈ closers, precedence? (.punct p) = none := by decide
  obtain ⟨p, hp, hToken⟩ := exists_punct_of_closes h
  have hJoin : joinGreater env s = some ((), s) := joinGreater_of_ne (punct_ne_of_closes h (by decide))
  simp [binaryStep, hJoin, hToken, hNever p hp]

/-- An expression that is closed behind its first operand is that operand. -/
theorem binary_of_unary (hOpens : ∀ word, s.lexeme.token ≠ .privateName word)
    (hRead : unary env s = some (operand, s')) (hCloses : s'.lexeme.token.closes = true) (hLevel : 0 < env.level) :
    binary 0 env s = some (operand, s') := by
  obtain ⟨level, hSucc⟩ := Nat.exists_eq_succ_of_ne_zero (Nat.ne_of_gt hLevel)
  have hStep : binaryStep 0 operand env s' = some (none, s') := binaryStep_of_closes hCloses 0
  cases hFirst : s.lexeme.token with
  | privateName word => exact absurd hFirst (hOpens word)
  | _ => simp [binary, hFirst, hRead, hSucc, extendWithin, hStep]

theorem conditionalRest_of_closes (h : s.lexeme.token.closes = true) (returnTypes : Bool) :
    conditionalRest returnTypes operand env s = some (operand, s) := by
  rw [conditionalRest, bind_run, eat_of_ne (punct_ne_of_closes h (by decide))]
  rfl

/-- What is read as operands joined by operators is an expression where nothing begins an arrow function. -/
theorem assignment_of_binary (hYield : env.mode.allowsYield = false) (hAsync : s.lexeme.token ≠ .name "async".toList false)
    (hArrow : arrowProspect env s = some (.no, s)) (hRead : binary 0 env s = some (operand, s'))
    (hCloses : s'.lexeme.token.closes = true) : assignment true env s = some (operand, s') := by
  obtain ⟨p, hp, hToken⟩ := exists_punct_of_closes hCloses
  have hName : asyncNameArrow true env s = some (false, s) := by
    rw [asyncNameArrow, bind_run, atWord_of_ne hAsync]
    rfl
  have hRest : conditionalRest true operand env s' = some (operand, s') := conditionalRest_of_closes hCloses true
  simp only [assignment, parenthesizedArrow, bind_run, position_run, mode_run, atWord_run, hYield, hArrow, hName, hRead,
    token_run, hToken, Option.bind_some, Bool.false_and, Bool.false_eq_true, ite_run, if_false, pure_run]
  simp only [closers, List.mem_cons, List.not_mem_nil, or_false] at hp
  rcases hp with rfl | rfl | rfl | rfl | rfl
  all_goals
    cases operand.form
    all_goals exact hRest

/-- No arrow function begins at an operand that is not in parentheses. -/
theorem arrowProspect_of_opens (h : s.lexeme.token.opens = true) (hParen : s.lexeme.token ≠ .punct .leftParen) :
    arrowProspect env s = some (.no, s) := by
  rw [arrowProspect, prospect, bind_run, atWord_of_opens h (by decide)]
  simp only [Option.bind_some, Bool.false_eq_true, if_false, bind_run, token_run]
  cases hToken : s.lexeme.token with
  | punct p =>
      rw [hToken] at h hParen
      have hOpens : p = .leftBrace ∨ p = .leftBracket ∨ p = .leftParen := by simpa [Token.opens] using h
      rcases hOpens with rfl | rfl | rfl
      · rfl
      · rfl
      · exact absurd rfl hParen
  | _ => rfl

theorem access_of_closes (h : s.lexeme.token.closes = true) : access true operand env s = some (none, s) := by
  obtain ⟨p, hp, hToken⟩ := exists_punct_of_closes h
  simp only [closers, List.mem_cons, List.not_mem_nil, or_false] at hp
  rcases hp with rfl | rfl | rfl | rfl | rfl
  all_goals
    rw [access, bind_run, token_run, hToken]
    rfl

/-- Nor does a word go on with an operand. -/
theorem access_of_name {word : Text} {escaped : Bool} (h : s.lexeme.token = .name word escaped) :
    access true operand env s = some (none, s) := by
  rw [access, bind_run, token_run, h]
  rfl

/-- What can be assigned to is a primary expression and all that extends it. -/
theorem leftHandSide_of_primary {base : Operand} {s₁ : State} (hOpens : s.lexeme.token.opens = true)
    (hLevel : 0 < env.level) (hBase : primary env s = some (base, s₁))
    (hMore : extendWithin env.level base (access true) env s₁ = some (operand, s')) :
    leftHandSide env s = some (operand, s') := by
  obtain ⟨level, hSucc⟩ := Nat.exists_eq_succ_of_ne_zero (Nat.ne_of_gt hLevel)
  have hNew : s.lexeme.token ≠ .name "new".toList false := name_ne_of_opens hOpens (by decide)
  obtain ⟨answer, hAhead⟩ := exists_ahead env s (do step; atPunct .dot)
  rw [leftHandSide, bind_run, position_run, Option.bind_some, bind_run, many_run, hSucc, manyWithin_none]
  rotate_left
  · rw [bind_run, atWord_of_ne hNew, Option.bind_some, bind_run, afterToken, hAhead]
    rfl
  · simp only [Option.bind_some, bind_run, hBase, List.isEmpty_nil, if_true, extend_run, hMore]

end Operands

end Rule

theorem Closes.endsWord {rest : Text} (h : Closes rest) : EndsWord rest := by
  obtain ⟨rest, hGap, hAlone, -⟩ := h
  have hSigns : ∀ entry ∈ alone, isNamePart entry.1 = false ∧ entry.1 ≠ '\\' := by decide
  obtain ⟨hPart, hEscape⟩ := hSigns _ hAlone
  exact endsWord_gap hGap (endsWord_cons hPart hEscape rest)

/-- A blank in front of a token is not part of the text that a rule faces. -/
theorem facing_blank {text : Text} (h : BeginsToken text) (position previousStop : Nat) :
    State.facing position (' ' :: text) previousStop = .facing (position + 1) text previousStop := by
  obtain ⟨c, rest, rfl, hc⟩ := h
  rw [State.facing, next_blank _ _ hc, State.facing]

/-- A text that is an expression without commas, whatever closes it. -/
structure IsExpression (text : Text) : Prop where
  begins : BeginsToken text
  opens : ∀ (position : Nat) {rest : Text}, Closes rest →
    (Lexeme.next false position false (text ++ rest)).token.opens = true
  reads : ∀ {mode : Mode} {level position previousStop : Nat} {rest : Text}, mode.allowsYield = false →
    2 * text.length ≤ level → Closes rest →
    ∃ operand : Operand, operand.form ≠ .sequence ∧
      Rule.assignment true (Env.tsx mode level) (.facing position (text ++ rest) previousStop) =
        some (operand, .facing (position + text.length) rest (position + text.length))

section Goals

variable {text rest : Text} {mode : Mode} {level : Nat}

/-- An expression is read as a value, one level deeper. -/
theorem IsExpression.goal_assignment (h : IsExpression text) (mode : Mode) (hYield : mode.allowsYield = false)
    (hLevel : 2 * text.length < level) (hRest : Closes rest) (position previousStop : Nat) :
    ∃ operand : Operand, operand.form ≠ .sequence ∧
      readGoal .tsx level (.assignment true) mode (.facing position (text ++ rest) previousStop) =
        some (operand, .facing (position + text.length) rest (position + text.length)) := by
  obtain ⟨below, rfl⟩ := Nat.exists_eq_succ_of_ne_zero (Nat.ne_zero_of_lt hLevel)
  exact h.reads hYield (by omega) hRest

/-- An expression without commas is an expression where no comma stands behind it. -/
theorem goal_expression_of_assignment (mode : Mode) {s s' : State} {operand : Operand}
    (h : readGoal .tsx level (.assignment true) { mode with inDecorator := false } s = some (operand, s'))
    (hComma : s'.lexeme.token ≠ .punct .comma) : readGoal .tsx (level + 1) .expression mode s = some (operand, s') := by
  rw [readGoal_succ, Rule.ofGoal, Rule.expression, Rule.bind_run, Rule.withMode_tsx, Rule.goal_run, Env.tsx_deeper,
    Env.tsx_mode, h]
  simp only [Option.bind_some, Rule.bind_run, Rule.many_run, Env.tsx_level]
  rw [Rule.manyWithin_none]
  · rfl
  · rw [Rule.bind_run, Rule.eat_of_ne hComma]
    rfl

/-- Where no comma follows, it is the whole expression. -/
theorem IsExpression.goal_expression (h : IsExpression text) (mode : Mode) (hYield : mode.allowsYield = false)
    (hLevel : 2 * text.length + 1 < level) (hRest : Closes rest)
    (hComma : ∀ position, (Lexeme.next false position false rest).token ≠ .punct .comma)
    (position previousStop : Nat) :
    ∃ operand : Operand, operand.form ≠ .sequence ∧
      readGoal .tsx level .expression mode (.facing position (text ++ rest) previousStop) =
        some (operand, .facing (position + text.length) rest (position + text.length)) := by
  obtain ⟨below, rfl⟩ := Nat.exists_eq_add_one_of_ne_zero (Nat.ne_zero_of_lt hLevel)
  have hShort : 2 * text.length < below := by omega
  obtain ⟨operand, hForm, hRead⟩ := h.goal_assignment { mode with inDecorator := false } hYield hShort hRest position
    previousStop
  exact ⟨operand, hForm, goal_expression_of_assignment mode hRead (hComma _)⟩

end Goals

/-- Facing a string literal, its token is cut. -/
theorem facing_stringLiteral (s rest : Text) (position previousStop : Nat) :
    State.facing position (stringLiteral s ++ rest) previousStop =
      .on (Lexeme.cut (.string s) position (stringLiteral s).length (stringLiteral s ++ rest) false) previousStop := by
  rw [State.facing, next_stringLiteral]

theorem facing_word {word rest : Text} (h : IsIdentifier word) (hEnds : EndsWord rest) (position previousStop : Nat) :
    State.facing position (word ++ rest) previousStop =
      .on (Lexeme.cut (.name word false) position word.length (word ++ rest) false) previousStop := by
  rw [State.facing, next_word _ _ h hEnds]

section Leaves

/-- An operand with no parentheses, operators or assertions around it is an expression. -/
theorem IsExpression.of_operand {text : Text} (hBegins : BeginsToken text)
    (hOpens : ∀ (position : Nat) {rest : Text}, Closes rest →
      (Lexeme.next false position false (text ++ rest)).token.opens = true)
    (hParen : ∀ {position : Nat} {rest : Text}, Closes rest →
      (Lexeme.next false position false (text ++ rest)).token ≠ .punct .leftParen)
    (hRead : ∀ {mode : Mode} {level position previousStop : Nat} {rest : Text}, mode.allowsYield = false →
      2 * text.length ≤ level → Closes rest →
      ∃ operand : Operand, operand.form ≠ .sequence ∧
        Rule.leftHandSide (Env.tsx mode level) (.facing position (text ++ rest) previousStop) =
          some (operand, .facing (position + text.length) rest (position + text.length))) : IsExpression text where
  begins := hBegins
  opens := hOpens
  reads := by
    intro mode level position previousStop rest hYield hLevel hRest
    obtain ⟨operand, hForm, hOperand⟩ := hRead hYield hLevel hRest
    have hFirst := hOpens position hRest
    have hUnary := Rule.unary_of_leftHandSide hFirst hOperand (Rule.no_update_of_closes (hRest.token _))
    have hPrivate : ∀ word, (Lexeme.next false position false (text ++ rest)).token ≠ .privateName word := by
      intro word hSame
      rw [hSame] at hFirst
      cases hFirst
    have hBinary := Rule.binary_of_unary hPrivate hUnary (hRest.token _) (Nat.succ_pos level)
    exact ⟨operand, hForm, Rule.assignment_of_binary hYield (name_ne_of_opens hFirst (by decide))
      (Rule.arrowProspect_of_opens hFirst (hParen hRest)) hBinary (hRest.token _)⟩

/-- A text that is read as a primary expression wherever it is closed is an expression. -/
theorem IsExpression.of_primary {text : Text} (hBegins : BeginsToken text)
    (hOpens : ∀ (position : Nat) {rest : Text}, Closes rest →
      (Lexeme.next false position false (text ++ rest)).token.opens = true)
    (hParen : ∀ {position : Nat} {rest : Text}, Closes rest →
      (Lexeme.next false position false (text ++ rest)).token ≠ .punct .leftParen)
    (hRead : ∀ {mode : Mode} {level position previousStop : Nat} {rest : Text}, mode.allowsYield = false →
      2 * text.length ≤ level → Closes rest →
      ∃ operand : Operand, operand.form ≠ .sequence ∧
        Rule.primary (Env.tsx mode level) (.facing position (text ++ rest) previousStop) =
          some (operand, .facing (position + text.length) rest (position + text.length))) : IsExpression text := by
  refine .of_operand hBegins hOpens hParen ?_
  intro mode level position previousStop rest hYield hLevel hRest
  obtain ⟨operand, hForm, hPrimary⟩ := hRead hYield hLevel hRest
  exact ⟨operand, hForm, Rule.leftHandSide_of_primary (hOpens _ hRest) (Nat.succ_pos level) hPrimary
    (Rule.extendWithin_none (Rule.access_of_closes (hRest.token _)))⟩

/-- A string literal is an expression. -/
theorem isExpression_stringLiteral (s : Text) : IsExpression (stringLiteral s) := by
  have hToken : ∀ (position : Nat) (rest : Text),
      (Lexeme.next false position false (stringLiteral s ++ rest)).token = .string s := by
    intro position rest
    rw [next_stringLiteral]
    rfl
  refine .of_primary ⟨'"', _, rfl, by decide⟩ (fun _ _ _ => by rw [hToken]; rfl) (fun _ => by rw [hToken]; rintro ⟨⟩) ?_
  intro mode level position previousStop rest _ _ _
  refine ⟨.plain position .string, by rintro ⟨⟩, ?_⟩
  rw [facing_stringLiteral, ← facing_cut (.string s) _ rest position false]
  rfl

/-- The names that components refer to. -/
def componentWords : List Text :=
  ["props", "ref", "h", "forwardRef"].map String.toList

/-- The words of components are read as identifiers. -/
theorem primary_word {word rest : Text} (hWord : word ∈ componentWords) (hEnds : EndsWord rest) (mode : Mode)
    (hYield : mode.allowsYield = false) (level position previousStop : Nat) :
    Rule.primary (Env.tsx mode level) (.facing position (word ++ rest) previousStop) =
      some ({ Operand.plain position (.identifier word) with assignable := true },
        .facing (position + word.length) rest (position + word.length)) := by
  have hNames : ∀ w ∈ componentWords, IsIdentifier w := by decide
  rw [facing_word (hNames word hWord) hEnds, ← facing_cut (.name word false) _ rest position false]
  obtain ⟨allowsIn, allowsYield, allowsAwait, allowsReturn, inDecorator, inConditional, ambient⟩ := mode
  obtain rfl : allowsYield = false := hYield
  simp only [componentWords, List.map_cons, List.map_nil, List.mem_cons, List.not_mem_nil, or_false] at hWord
  rcases hWord with rfl | rfl | rfl | rfl
  all_goals
    cases allowsAwait
    all_goals rfl

theorem isExpression_word {word : Text} (hWord : word ∈ componentWords) : IsExpression word := by
  have hNames : ∀ w ∈ componentWords, IsIdentifier w ∧ (Token.name w false).opens = true := by decide
  obtain ⟨hName, hFirst⟩ := hNames word hWord
  have hToken : ∀ {position : Nat} {rest : Text}, Closes rest →
      (Lexeme.next false position false (word ++ rest)).token = .name word false := by
    intro position rest hRest
    rw [next_word _ _ hName hRest.endsWord]
    rfl
  obtain ⟨c, more, hText, hc, -⟩ := hName.exists_cons
  refine .of_primary ⟨c, more, hText, beginsToken_of_isNameStart hc⟩ (fun _ _ hRest => by rw [hToken hRest]; exact hFirst)
    (fun hRest => by rw [hToken hRest]; rintro ⟨⟩) ?_
  intro mode level position previousStop rest hYield _ hRest
  refine ⟨_, ?_, primary_word hWord hRest.endsWord mode hYield level position previousStop⟩
  rintro ⟨⟩

end Leaves

section Lists

variable {α : Type} {item : Rule α} {close : Punct} {ends : Text → Prop} {mode : Mode} {level : Nat}

/-- An item of a list is read as a whole in front of what may end it, and it is not what closes the list. -/
structure IsItem (item : Rule α) (close : Punct) (ends : Text → Prop) (mode : Mode) (level : Nat) (text : Text) :
    Prop where
  begins : BeginsToken text
  opens : ∀ (position : Nat) {rest : Text}, ends rest →
    (Lexeme.next false position false (text ++ rest)).token ≠ .punct close
  reads : ∀ (position previousStop : Nat) {rest : Text}, ends rest →
    ∃ a, item (Env.tsx mode level) (.facing position (text ++ rest) previousStop) =
      some (a, .facing (position + text.length) rest (position + text.length))

/-- One turn of the reading of a list. -/
def commaItem (close : Punct) (item : Rule α) : Rule (Option (α × Bool)) := do
  if ← Rule.atPunct close then return none
  let a ← item
  let comma ← Rule.eat .comma
  if !comma && !(← Rule.atPunct close) then failure
  return some (a, comma)

/-- A list with commas is a repetition of items, each with its comma. -/
theorem commaList_eq (close : Punct) (item : Rule α) :
    Rule.commaList close item = do
      let items ← Rule.many (commaItem close item)
      return (items.map (·.1), items.getLast?.any (·.2)) := rfl

theorem commaItem_close {env : Env} {s : State} (h : s.lexeme.token = .punct close) :
    commaItem close item env s = some (none, s) := by
  simp [commaItem, h]

/-- An item with a comma behind it is one turn. -/
theorem commaItem_item {text more : Text} (h : IsItem item close ends mode level text)
    (hComma : ∀ more, ends (',' :: more)) (position previousStop : Nat) :
    ∃ a, commaItem close item (Env.tsx mode level) (.facing position (text ++ ',' :: more) previousStop) =
      some (some (a, true), .facing (position + text.length + 1) more (position + text.length + 1)) := by
  obtain ⟨a, hItem⟩ := h.reads position previousStop (hComma more)
  have hOpens := h.opens position (hComma more)
  have hComma : Rule.eat .comma (Env.tsx mode level)
      (.facing (position + text.length) (',' :: more) (position + text.length)) =
      some (true, .facing (position + text.length + 1) more (position + text.length + 1)) := rfl
  refine ⟨a, ?_⟩
  simp [commaItem, hOpens, hItem, hComma]

/-- The last item is a turn without a comma. -/
theorem commaItem_last {text rest : Text} (h : IsItem item close ends mode level text) (hRest : ends rest)
    (hClose : ∀ position, (Lexeme.next false position false rest).token = .punct close) (hOther : close ≠ .comma)
    (position previousStop : Nat) :
    ∃ a, commaItem close item (Env.tsx mode level) (.facing position (text ++ rest) previousStop) =
      some (some (a, false), .facing (position + text.length) rest (position + text.length)) := by
  obtain ⟨a, hItem⟩ := h.reads position previousStop hRest
  have hOpens := h.opens position hRest
  have hComma : Rule.eat .comma (Env.tsx mode level)
      (.facing (position + text.length) rest (position + text.length)) =
      some (false, .facing (position + text.length) rest (position + text.length)) :=
    Rule.eat_of_ne (by rw [State.facing_lexeme, hClose]; rintro ⟨rfl⟩; exact hOther rfl)
  refine ⟨a, ?_⟩
  simp [commaItem, hOpens, hItem, hComma, hClose]

theorem beginsToken_join {text : Text} (h : BeginsToken text) (texts : List Text) :
    BeginsToken (Text.join ", ".toList (text :: texts)) := by
  cases texts with
  | nil => exact h
  | cons t texts =>
      rw [Text.join, List.append_assoc]
      exact h.append _
      rintro ⟨⟩

/-- Items with commas between them are read up to what closes the list. -/
theorem manyWithin_commaItem {text : Text} {texts : List Text} {rest : Text} {fuel : Nat}
    (hItems : ∀ t ∈ text :: texts, IsItem item close ends mode level t) (hComma : ∀ more, ends (',' :: more))
    (hRest : ends rest)
    (hClose : ∀ position, (Lexeme.next false position false rest).token = .punct close) (hOther : close ≠ .comma)
    (hFuel : texts.length + 1 < fuel) (position previousStop : Nat) :
    ∃ found, Rule.manyWithin fuel (commaItem close item) (Env.tsx mode level)
        (.facing position (Text.join ", ".toList (text :: texts) ++ rest) previousStop) =
      some (found, .facing (position + (Text.join ", ".toList (text :: texts)).length) rest
        (position + (Text.join ", ".toList (text :: texts)).length)) := by
  obtain ⟨fuel, rfl⟩ := Nat.exists_eq_succ_of_ne_zero (Nat.ne_zero_of_lt hFuel)
  obtain ⟨hItem, hMore⟩ := List.forall_mem_cons.mp hItems
  induction texts generalizing text position previousStop fuel with
  | nil =>
      obtain ⟨fuel, rfl⟩ := Nat.exists_eq_succ_of_ne_zero (n := fuel) (by simp at hFuel; omega)
      obtain ⟨a, hLast⟩ := commaItem_last hItem hRest hClose hOther position previousStop
      exact ⟨_, Rule.manyWithin_some hLast (Rule.manyWithin_none (commaItem_close (hClose _)))⟩
  | cons t texts ih =>
      have hText : Text.join ", ".toList (text :: t :: texts) ++ rest =
          text ++ ',' :: ' ' :: (Text.join ", ".toList (t :: texts) ++ rest) := by
        simp [Text.join]
      have hLength : position + (Text.join ", ".toList (text :: t :: texts)).length =
          position + text.length + 1 + 1 + (Text.join ", ".toList (t :: texts)).length := by
        simp [Text.join]
        omega
      obtain ⟨a, hFirst⟩ := commaItem_item hItem hComma position previousStop
      have hBegins := beginsToken_join (hMore t List.mem_cons_self).begins texts
      rw [facing_blank (hBegins.append rest)] at hFirst
      obtain ⟨fuel, rfl⟩ := Nat.exists_eq_succ_of_ne_zero (n := fuel) (by simp at hFuel; omega)
      obtain ⟨found, hFound⟩ := ih hMore (position + text.length + 1 + 1) (position + text.length + 1) fuel
        (by simp at hFuel ⊢; omega) (hMore t List.mem_cons_self) (fun u hu => hMore u (List.mem_cons_of_mem _ hu))
      rw [hText, hLength]
      exact ⟨_, Rule.manyWithin_some hFirst hFound⟩

/-- Items that are joined with commas are read one by one. -/
theorem commaList_join {text : Text} {texts : List Text} {rest : Text}
    (hItems : ∀ t ∈ text :: texts, IsItem item close ends mode level t) (hComma : ∀ more, ends (',' :: more))
    (hRest : ends rest)
    (hClose : ∀ position, (Lexeme.next false position false rest).token = .punct close) (hOther : close ≠ .comma)
    (hLevel : texts.length < level) (position previousStop : Nat) :
    ∃ found, Rule.commaList close item (Env.tsx mode level)
        (.facing position (Text.join ", ".toList (text :: texts) ++ rest) previousStop) =
      some (found, .facing (position + (Text.join ", ".toList (text :: texts)).length) rest
        (position + (Text.join ", ".toList (text :: texts)).length)) := by
  obtain ⟨found, hFound⟩ :=
    manyWithin_commaItem hItems hComma hRest hClose hOther (Nat.succ_lt_succ hLevel) position previousStop
  rw [commaList_eq, Rule.bind_run, Rule.many_run, Env.tsx_level, hFound]
  exact ⟨_, rfl⟩

end Lists

section Brackets

variable {mode : Mode} {level : Nat} {text rest : Text}

/-- In brackets, an expression is a value. -/
theorem IsExpression.bracketedAssignment (h : IsExpression text) (hYield : mode.allowsYield = false)
    (hLevel : 2 * text.length < level) (hRest : Closes rest) (position previousStop : Nat) :
    ∃ operand, Rule.bracketedAssignment (Env.tsx mode level) (.facing position (text ++ rest) previousStop) =
      some (operand, .facing (position + text.length) rest (position + text.length)) := by
  obtain ⟨operand, -, hRead⟩ := h.goal_assignment { mode with allowsIn := true, inDecorator := false } hYield hLevel
    hRest position previousStop
  exact ⟨operand, hRead⟩

/-- No expression begins with a spread. -/
theorem IsExpression.eat_ellipsis (h : IsExpression text) (hRest : Closes rest) (env : Env)
    (position previousStop : Nat) : Rule.eat .ellipsis env (.facing position (text ++ rest) previousStop) =
      some (false, .facing position (text ++ rest) previousStop) :=
  Rule.eat_of_ne (punct_ne_of_opens (h.opens _ hRest) (by decide))

theorem IsExpression.isItem_array (h : IsExpression text) (hYield : mode.allowsYield = false)
    (hLevel : 2 * text.length < level) : IsItem Rule.arrayItem .rightBracket Closes mode level text where
  begins := h.begins
  opens := fun _ _ hRest => punct_ne_of_opens (h.opens _ hRest) (by decide)
  reads := by
    intro position previousStop rest hRest
    obtain ⟨operand, hRead⟩ := h.bracketedAssignment hYield hLevel hRest position previousStop
    have hComma := punct_ne_of_opens (h.opens position hRest) (p := .comma) (by decide)
    refine ⟨operand.asItem?, ?_⟩
    simp [Rule.arrayItem, hComma, h.eat_ellipsis hRest, hRead]

def argument : Rule Unit := do
  let _ ← Rule.eat .ellipsis
  let _ ← Rule.bracketedAssignment

theorem arguments_eq :
    Rule.arguments = (do
      Rule.expect .leftParen
      let _ ← Rule.commaList .rightParen argument
      Rule.expect .rightParen) := rfl

theorem IsExpression.isItem_arguments (h : IsExpression text) (hYield : mode.allowsYield = false)
    (hLevel : 2 * text.length < level) : IsItem argument .rightParen Closes mode level text where
  begins := h.begins
  opens := fun _ _ hRest => punct_ne_of_opens (h.opens _ hRest) (by decide)
  reads := by
    intro position previousStop rest hRest
    obtain ⟨operand, hRead⟩ := h.bracketedAssignment hYield hLevel hRest position previousStop
    refine ⟨(), ?_⟩
    simp [argument, h.eat_ellipsis hRest, hRead]

end Brackets

section Lengths

theorem length_join_cons (text t : Text) (texts : List Text) :
    (Text.join ", ".toList (text :: t :: texts)).length =
      text.length + 2 + (Text.join ", ".toList (t :: texts)).length := by
  have hSeparator : ", ".toList.length = 2 := rfl
  rw [Text.join, List.length_append, List.length_append, hSeparator]
  rintro ⟨⟩

/-- Each of some texts is no longer than all of them joined. -/
theorem length_le_join {texts : List Text} {t : Text} (ht : t ∈ texts) :
    t.length ≤ (Text.join ", ".toList texts).length := by
  induction texts with
  | nil => cases ht
  | cons u texts ih =>
      cases texts with
      | nil =>
          obtain rfl : t = u := List.mem_singleton.mp ht
          exact Nat.le_refl _
      | cons v texts =>
          rw [length_join_cons]
          rcases List.mem_cons.mp ht with rfl | ht
          · omega
          · have hRest := ih ht
            omega

/-- There are no more texts than characters in what they are joined to. -/
theorem length_texts_le_join (text : Text) (texts : List Text) :
    texts.length ≤ (Text.join ", ".toList (text :: texts)).length := by
  induction texts generalizing text with
  | nil => exact Nat.zero_le _
  | cons t texts ih =>
      have hRest := ih t
      rw [length_join_cons, List.length_cons]
      omega

end Lengths

section Brackets

variable {mode : Mode} {level : Nat} {text rest : Text}

/-- Expressions in brackets are an array. -/
theorem isExpression_array {texts : List Text} (h : ∀ t ∈ text :: texts, IsExpression t) :
    IsExpression (['['] ++ Text.join ", ".toList (text :: texts) ++ [']']) := by
  have hText : ∀ inner rest : Text, ['['] ++ inner ++ [']'] ++ rest = '[' :: (inner ++ ']' :: rest) := by simp
  have hLength : ∀ inner : Text, (['['] ++ inner ++ [']']).length = inner.length + 2 := by simp
  refine .of_primary ⟨'[', _, rfl, by decide⟩ (fun _ _ _ => by rw [hText]; rfl) (fun _ => by rw [hText]; rintro ⟨⟩) ?_
  intro mode level position previousStop rest hYield hLevel hRest
  rw [hLength] at hLevel ⊢
  have hCount := length_texts_le_join text texts
  have hItems : ∀ t ∈ text :: texts, IsItem Rule.arrayItem .rightBracket Closes mode level t := by
    intro t ht
    have hShort := length_le_join ht
    exact (h t ht).isItem_array hYield (by omega)
  obtain ⟨found, hFound⟩ := commaList_join hItems .comma (.bracket rest) (fun _ => rfl) (by decide)
    (by omega) (position + 1) (position + 1)
  have hToken : ∀ more : Text, (Lexeme.next false position false ('[' :: more)).token = .punct .leftBracket :=
    fun _ => rfl
  have hPosition : position + ((Text.join ", ".toList (text :: texts)).length + 2) =
      position + 1 + (Text.join ", ".toList (text :: texts)).length + 1 := by omega
  refine ⟨{ Operand.plain position .other with destructures? := patternDefaults? found.1 }, by rintro ⟨⟩, ?_⟩
  rw [hText, hPosition, Rule.primary]
  simp only [Rule.bind_run, Rule.position_run, Rule.token_run, State.facing_lexeme, Option.bind_some, hToken]
  rw [Rule.arrayLiteral]
  simp only [Rule.bind_run, Rule.position_run, Option.bind_some,
    Rule.expect_alone (c := '[') (p := .leftBracket) (by decide), hFound,
    Rule.expect_alone (c := ']') (p := .rightBracket) (by decide), Rule.pure_run]
  rfl

end Brackets

section Objects

variable {mode : Mode} {level : Nat} {key value rest : Text}

namespace Rule

/-- A word without the name of a property behind it begins no accessor. -/
theorem atAccessor_of_afterToken {env : Env} {s : State} (h : afterToken atPropertyName env s = some (false, s))
    (word : String) : atAccessor word env s = some (false, s) := by
  rw [atAccessor, bind_run, atWord_run, Option.bind_some]
  cases s.lexeme.token == .name word.toList false with
  | false => rfl
  | true => exact h

/-- A property whose name stands in front of a colon has the value behind it. -/
theorem literalProperty_of_key {env : Env} {s s₁ s₂ s' : State} {name? : Option Text} {operand : Operand} (start : Nat)
    (hToken : s.lexeme.token ≠ .punct .ellipsis ∧ s.lexeme.token ≠ .punct .star)
    (hAccessor : afterToken atPropertyName env s = some (false, s)) (hAsync : atAsyncMethod env s = some (false, s))
    (hShorthand : atShorthand env s = some (false, s)) (hKey : literalKey env s = some (name?, s₁))
    (hColon : eat .colon env s₁ = some (true, s₂)) (hValue : bracketedAssignment env s₂ = some (operand, s')) :
    literalProperty start env s = some ((name?, operand.asItem?), s') := by
  simp only [literalProperty, bind_run, eat_of_ne hToken.1, atAccessor_of_afterToken hAccessor, hAsync,
    eat_of_ne hToken.2, hShorthand, hKey, hColon, hValue, Option.bind_some, ite_run, pure_run, Bool.false_eq_true,
    if_false, if_true, Bool.or_false]

end Rule

/-- What is read as a key in front of a colon and a value is a property, whatever else the key might mean. -/
theorem literalProperty_colon {t : Token} {name? : Option Text} (hPunct : ∀ p, t ≠ .punct p)
    {start position previousStop : Nat} {newline : Bool}
    (hKey : Rule.literalKey (Env.tsx mode level)
        (.on (Lexeme.cut t position key.length (key ++ ':' :: ' ' :: (value ++ rest)) newline) previousStop) =
      some (name?, .facing (position + key.length) (':' :: ' ' :: (value ++ rest)) (position + key.length)))
    (hValue : IsExpression value) (hYield : mode.allowsYield = false) (hLevel : 2 * value.length < level)
    (hRest : Closes rest) :
    ∃ target?, Rule.literalProperty start (Env.tsx mode level)
        (.on (Lexeme.cut t position key.length (key ++ ':' :: ' ' :: (value ++ rest)) newline) previousStop) =
      some ((name?, target?), .facing (position + (key ++ ": ".toList ++ value).length) rest
        (position + (key ++ ": ".toList ++ value).length)) := by
  have hPosition : position + (key ++ ": ".toList ++ value).length = position + key.length + 1 + 1 + value.length := by
    simp
    omega
  obtain ⟨operand, hOperand⟩ := hValue.bracketedAssignment hYield hLevel hRest (position + key.length + 1 + 1)
    (position + key.length + 1)
  rw [← facing_blank (hValue.begins.append rest)] at hOperand
  rw [hPosition]
  refine ⟨operand.asItem?, Rule.literalProperty_of_key start ⟨hPunct _, hPunct _⟩ (Rule.afterToken_cut _ _ rfl) ?async
    ?shorthand hKey (Rule.eat_alone (by decide) _ _) hOperand⟩
  case async =>
    rw [Rule.atAsyncMethod, Rule.bind_run, Rule.atWord_run, Option.bind_some]
    cases _ == Token.name "async".toList false with
    | false => rfl
    | true => exact Rule.afterToken_cut _ _ rfl
  case shorthand =>
    rw [Rule.atShorthand, Rule.bind_run]
    have hIdentifier : ∃ answer, Rule.atIdentifier (Env.tsx mode level) (.on (Lexeme.cut t position key.length
        (key ++ ':' :: ' ' :: (value ++ rest)) newline) previousStop) = some (answer, .on (Lexeme.cut t position key.length
        (key ++ ':' :: ' ' :: (value ++ rest)) newline) previousStop) := by
      cases t <;> exact ⟨_, rfl⟩
    obtain ⟨answer, hAnswer⟩ := hIdentifier
    rw [hAnswer, Option.bind_some]
    cases answer with
    | false => rfl
    | true => exact Rule.afterToken_cut _ _ rfl

/-- A name in front of a colon is the name of a property, whatever it means elsewhere. -/
theorem literalProperty_word (hKey : IsIdentifier key) (hValue : IsExpression value) (hYield : mode.allowsYield = false)
    (hLevel : 2 * value.length < level) (hRest : Closes rest) (start position previousStop : Nat) (newline : Bool) :
    ∃ target?, Rule.literalProperty start (Env.tsx mode level)
        (.on (Lexeme.next false position newline (key ++ ": ".toList ++ value ++ rest)) previousStop) =
      some ((some key, target?), .facing (position + (key ++ ": ".toList ++ value).length) rest
        (position + (key ++ ": ".toList ++ value).length)) := by
  have hText : key ++ ": ".toList ++ value ++ rest = key ++ ':' :: ' ' :: (value ++ rest) := by simp
  have hEnds : EndsWord (':' :: ' ' :: (value ++ rest)) := endsWord_cons (by decide) (by decide) _
  rw [hText, next_word _ _ hKey hEnds]
  refine literalProperty_colon (by rintro p ⟨⟩) ?_ hValue hYield hLevel hRest
  rw [← facing_cut (.name key false) _ _ position newline]
  rfl

/-- A property with a quoted key has no name. -/
theorem literalProperty_string (s : Text) (hValue : IsExpression value) (hYield : mode.allowsYield = false)
    (hLevel : 2 * value.length < level) (hRest : Closes rest) (start position previousStop : Nat) (newline : Bool) :
    ∃ target?, Rule.literalProperty start (Env.tsx mode level)
        (.on (Lexeme.next false position newline (stringLiteral s ++ ": ".toList ++ value ++ rest)) previousStop) =
      some ((none, target?), .facing (position + (stringLiteral s ++ ": ".toList ++ value).length) rest
        (position + (stringLiteral s ++ ": ".toList ++ value).length)) := by
  have hText : stringLiteral s ++ ": ".toList ++ value ++ rest = stringLiteral s ++ ':' :: ' ' :: (value ++ rest) := by
    simp
  rw [hText, next_stringLiteral]
  refine literalProperty_colon (by rintro p ⟨⟩) ?_ hValue hYield hLevel hRest
  rw [← facing_cut (.string s) _ _ position newline]
  rfl

/-- A text that is a member of an object literal, under a plain name or under none, on whatever line it stands. -/
structure IsMember (name? : Option Text) (text : Text) : Prop where
  begins : BeginsToken text
  isIdentifier : ∀ name ∈ name?, IsIdentifier name
  opens : ∀ (position : Nat) (newline : Bool) {rest : Text}, Closes rest →
    (Lexeme.next false position newline (text ++ rest)).token ≠ .punct .rightBrace
  reads : ∀ {mode : Mode} {level : Nat} {rest : Text}, mode.allowsYield = false → 2 * text.length ≤ level →
    Closes rest → ∀ (start position previousStop : Nat) (newline : Bool),
    ∃ target?, Rule.literalProperty start (Env.tsx mode level)
        (.on (Lexeme.next false position newline (text ++ rest)) previousStop) =
      some ((name?, target?), .facing (position + text.length) rest (position + text.length))

theorem length_member (key value : Text) : (key ++ ": ".toList ++ value).length = key.length + 2 + value.length := by
  have hColon : ": ".toList.length = 2 := rfl
  rw [List.length_append, List.length_append, hColon]

/-- A name with an expression behind its colon is a member that is called so. -/
theorem isMember_word (hKey : IsIdentifier key) (hValue : IsExpression value) :
    IsMember (some key) (key ++ ": ".toList ++ value) where
  begins := by
    obtain ⟨c, more, rfl, hc, -⟩ := hKey.exists_cons
    exact ⟨c, more ++ ": ".toList ++ value, by simp, beginsToken_of_isNameStart hc⟩
  isIdentifier := by
    rintro name ⟨rfl⟩
    exact hKey
  opens := by
    intro position newline rest _
    have hText : key ++ ": ".toList ++ value ++ rest = key ++ ':' :: ' ' :: (value ++ rest) := by simp
    rw [hText, next_word _ _ hKey (endsWord_cons (by decide) (by decide) _)]
    rintro ⟨⟩
  reads := by
    intro mode level rest hYield hLevel hRest start position previousStop newline
    rw [length_member] at hLevel
    have hShort : 2 * value.length < level := by omega
    exact literalProperty_word hKey hValue hYield hShort hRest start position previousStop newline

/-- A quoted key makes a member without a name. -/
theorem isMember_string (s : Text) (hValue : IsExpression value) :
    IsMember none (stringLiteral s ++ ": ".toList ++ value) where
  begins := ⟨'"', _, rfl, by decide⟩
  isIdentifier := nofun
  opens := by
    intro position newline rest _
    have hText : stringLiteral s ++ ": ".toList ++ value ++ rest = stringLiteral s ++ ':' :: ' ' :: (value ++ rest) := by
      simp
    rw [hText, next_stringLiteral]
    rintro ⟨⟩
  reads := by
    intro mode level rest hYield hLevel hRest start position previousStop newline
    rw [length_member] at hLevel
    have hShort : 2 * value.length < level := by omega
    exact literalProperty_string s hValue hYield hShort hRest start position previousStop newline

theorem isMember_spread (hValue : IsExpression value) : IsMember none ("...".toList ++ value) where
  begins := ⟨'.', '.' :: '.' :: value, rfl, by decide⟩
  isIdentifier := nofun
  opens := by
    intro position newline rest _
    rintro ⟨⟩
  reads := by
    intro mode level rest hYield hLevel hRest start position previousStop newline
    have hLength : ("...".toList ++ value).length = 3 + value.length := by rw [List.length_append]; rfl
    rw [hLength] at hLevel
    have hShort : 2 * value.length < level := by omega
    obtain ⟨operand, hOperand⟩ := hValue.bracketedAssignment hYield hShort hRest (position + 3) (position + 3)
    have hDots : Rule.eat .ellipsis (Env.tsx mode level)
        (.on (Lexeme.next false position newline ("...".toList ++ value ++ rest)) previousStop) =
        some (true, .facing (position + 3) (value ++ rest) (position + 3)) := rfl
    obtain ⟨more, hMore⟩ := Rule.exists_ahead (Env.tsx mode level)
      (.facing (position + 3 + value.length) rest (position + 3 + value.length))
      (do Rule.step; return !(← Rule.atPunct .rightBrace))
    rw [hLength, ← Nat.add_assoc, Rule.literalProperty, Rule.bind_run, hDots]
    simp only [Option.bind_some, Rule.ite_run, if_true, Rule.bind_run, hOperand, Rule.atPunct_run, Rule.afterToken]
    split
    · rw [hMore]
      exact ⟨_, rfl⟩
    · exact ⟨_, rfl⟩

/-- A text that stands for the key of a property: a name, or a string. -/
def IsKey (key : Text) : Prop :=
  IsIdentifier key ∨ ∃ s, key = stringLiteral s

/-- A key and a value are a member. -/
theorem exists_isMember_value (hKey : IsKey key) (hValue : IsExpression value) :
    ∃ name?, IsMember name? (key ++ ": ".toList ++ value) := by
  rcases hKey with hWord | ⟨s, rfl⟩
  · exact ⟨_, isMember_word hWord hValue⟩
  · exact ⟨_, isMember_string s hValue⟩

def objectItem : Rule (PropertySpan × Option (List Nat)) := do
  let first ← Rule.position
  let (name?, target?) ← Rule.literalProperty first
  return (PropertySpan.mk first (← Rule.previousStop) name?, target?)

/-- An object literal is a list in braces. -/
theorem objectLiteral_eq :
    Rule.objectLiteral = (do
      let start ← Rule.position
      Rule.expect .leftBrace
      let (found, _) ← Rule.commaList .rightBrace objectItem
      Rule.expect .rightBrace
      return { Operand.plain start .other with
        destructures? := patternDefaults? (found.map (·.2))
        object? := some ⟨start, ← Rule.previousStop, found.map (·.1)⟩ }) := rfl

/-- A member is read as one turn, with its name and its place. -/
theorem IsMember.objectItem_run {name? : Option Text} {text : Text} (h : IsMember name? text)
    (hYield : mode.allowsYield = false) (hLevel : 2 * text.length ≤ level) (hRest : Closes rest)
    (position previousStop : Nat) (newline : Bool) :
    ∃ target?, objectItem (Env.tsx mode level)
        (.on (Lexeme.next false position newline (text ++ rest)) previousStop) =
      some ((⟨position, position + text.length, name?⟩, target?),
        .facing (position + text.length) rest (position + text.length)) := by
  obtain ⟨target?, hProperty⟩ := h.reads hYield hLevel hRest position position previousStop newline
  have hStart : (Lexeme.next false position newline (text ++ rest)).start = position := by
    obtain ⟨c, more, hText, hc⟩ := h.begins.append rest
    rw [hText, next_of_beginsToken _ _ hc]
    rfl
  refine ⟨target?, ?_⟩
  simp only [objectItem, Rule.bind_run, Rule.position_run, State.on_lexeme, hStart, Option.bind_some, hProperty,
    Rule.previousStop_run, State.facing_previousStop, Rule.pure_run]

theorem IsMember.isItem {name? : Option Text} {text : Text} (h : IsMember name? text) (hYield : mode.allowsYield = false)
    (hLevel : 2 * text.length ≤ level) : IsItem objectItem .rightBrace Closes mode level text where
  begins := h.begins
  opens position _ hRest := h.opens position false hRest
  reads position previousStop _ hRest := by
    obtain ⟨target?, hItem⟩ := h.objectItem_run hYield hLevel hRest position previousStop false
    exact ⟨_, hItem⟩

/-- An object literal with such members is an expression. -/
theorem isExpression_object {members : List Text} (h : ∀ m ∈ members, ∃ name?, IsMember name? m) :
    IsExpression (Component.objectLiteral members) := by
  have hBegins : ∀ more : Text, BeginsToken ('\x7b' :: more) := fun more => ⟨'\x7b', more, rfl, by decide⟩
  cases members with
  | nil =>
      refine .of_primary (hBegins _) (fun _ _ _ => rfl) (fun _ => by rintro ⟨⟩) ?_
      intro mode level position previousStop rest _ _ _
      exact ⟨_, by rintro ⟨⟩, rfl⟩
  | cons text members =>
      have hText : ∀ rest : Text, Component.objectLiteral (text :: members) ++ rest =
          '\x7b' :: ' ' :: (Text.join ", ".toList (text :: members) ++ ' ' :: '\x7d' :: rest) := by
        simp [Component.objectLiteral]
      have hLength : (Component.objectLiteral (text :: members)).length =
          (Text.join ", ".toList (text :: members)).length + 4 := by
        have hWhole := congrArg List.length (hText [])
        simpa using hWhole
      refine .of_primary ?_ (fun _ _ _ => by rw [hText]; rfl) (fun _ => by rw [hText]; rintro ⟨⟩) ?_
      · have hWhole := hText []
        rw [List.append_nil] at hWhole
        rw [hWhole]
        exact hBegins _
      intro mode level position previousStop rest hYield hLevel hRest
      rw [hLength] at hLevel ⊢
      have hCount := length_texts_le_join text members
      have hItems : ∀ t ∈ text :: members, IsItem objectItem .rightBrace Closes mode level t := by
        intro t ht
        have hShort := length_le_join ht
        obtain ⟨name?, hMember⟩ := h t ht
        exact hMember.isItem hYield (by omega)
      have hSpace : isGap [' '] = true := by decide
      have hEnds : Closes (' ' :: '\x7d' :: rest) := .behind (p := .rightBrace) rest hSpace (by decide) (by decide)
      obtain ⟨found, hFound⟩ := commaList_join hItems .comma hEnds (fun _ => rfl) (by decide) (by omega) (position + 2)
        (position + 1)
      have hFirst := (beginsToken_join (hItems text List.mem_cons_self).begins members).append (' ' :: '\x7d' :: rest)
      have hClose : ∀ q : Nat, Rule.expect .rightBrace (Env.tsx mode level) (.facing q (' ' :: '\x7d' :: rest) q) =
          some ((), .facing (q + 2) rest (q + 2)) := fun _ => rfl
      have hToken : ∀ more : Text, (Lexeme.next false position false ('\x7b' :: more)).token = .punct .leftBrace :=
        fun _ => rfl
      have hPosition : position + ((Text.join ", ".toList (text :: members)).length + 4) =
          position + 2 + (Text.join ", ".toList (text :: members)).length + 2 := by omega
      rw [hText, hPosition, Rule.primary]
      simp only [Rule.bind_run, Rule.position_run, Rule.token_run, State.facing_lexeme, Option.bind_some, hToken]
      rw [objectLiteral_eq]
      simp only [Rule.bind_run, Rule.position_run, Option.bind_some,
        Rule.expect_alone (c := '\x7b') (p := .leftBrace) (by decide), facing_blank hFirst, hFound, hClose, Rule.pure_run,
        Rule.previousStop_run]
      exact ⟨_, by rintro ⟨⟩, rfl⟩

end Objects

section Calls

variable {mode : Mode} {level : Nat} {text : Text} {texts : List Text}

/-- Expressions in parentheses behind an operand are the arguments of a call. -/
theorem arguments_join (h : ∀ t ∈ text :: texts, IsExpression t) (hYield : mode.allowsYield = false)
    (hLevel : 2 * (Text.join ", ".toList (text :: texts)).length < level) (position previousStop : Nat) (rest : Text) :
    Rule.arguments (Env.tsx mode level)
        (.facing position ('(' :: (Text.join ", ".toList (text :: texts) ++ ')' :: rest)) previousStop) =
      some ((), .facing (position + 1 + (Text.join ", ".toList (text :: texts)).length + 1) rest
        (position + 1 + (Text.join ", ".toList (text :: texts)).length + 1)) := by
  have hCount := length_texts_le_join text texts
  have hItems : ∀ t ∈ text :: texts, IsItem argument .rightParen Closes mode level t := by
    intro t ht
    have hShort := length_le_join ht
    exact (h t ht).isItem_arguments hYield (by omega)
  obtain ⟨found, hFound⟩ := commaList_join hItems .comma (.paren rest) (fun _ => rfl) (by decide)
    (by omega) (position + 1) (position + 1)
  rw [arguments_eq]
  simp only [Rule.bind_run, Rule.expect_alone (c := '(') (p := .leftParen) (by decide), Option.bind_some, hFound,
    Rule.expect_alone (c := ')') (p := .rightParen) (by decide)]

/-- Arguments behind an expression make a call. -/
theorem access_arguments {env : Env} {s s' : State} (operand : Operand) (hParen : s.lexeme.token = .punct .leftParen)
    (h : Rule.arguments env s = some ((), s')) (hForm : operand.form ≠ .optionalChain) :
    Rule.access true operand env s = some (some (.plain operand.start .other), s') := by
  have hChain : (operand.form == .optionalChain) = false := beq_eq_false_iff_ne.mpr hForm
  rw [Rule.access, hChain, Rule.bind_run, Rule.token_run, hParen]
  simp only [Option.bind_some, if_true, Bool.false_eq_true, if_false, Rule.bind_run, h, Rule.pure_run]

/-- A name with arguments behind it is a call. -/
theorem isExpression_call {word : Text} (hWord : word ∈ componentWords) (h : ∀ t ∈ text :: texts, IsExpression t) :
    IsExpression (word ++ ['('] ++ Text.join ", ".toList (text :: texts) ++ [')']) := by
  have hNames : ∀ w ∈ componentWords, IsIdentifier w ∧ (Token.name w false).opens = true := by decide
  obtain ⟨hName, hFirst⟩ := hNames word hWord
  have hText : ∀ inner rest : Text, word ++ ['('] ++ inner ++ [')'] ++ rest = word ++ '(' :: (inner ++ ')' :: rest) := by
    simp
  have hLength : ∀ inner : Text, (word ++ ['('] ++ inner ++ [')']).length = word.length + 1 + inner.length + 1 := by
    intro inner
    simp
    omega
  have hEnds : ∀ more : Text, EndsWord ('(' :: more) := endsWord_cons (by decide) (by decide)
  have hToken : ∀ (inner rest : Text) (position : Nat), (Lexeme.next false position false
      (word ++ ['('] ++ inner ++ [')'] ++ rest)).token = .name word false := by
    intro inner rest position
    rw [hText, next_word _ _ hName (hEnds _)]
    rfl
  obtain ⟨c, more, hWordText, hc, -⟩ := hName.exists_cons
  refine .of_operand ⟨c, more ++ ['('] ++ Text.join ", ".toList (text :: texts) ++ [')'], by simp [hWordText],
    beginsToken_of_isNameStart hc⟩ (fun _ _ _ => by rw [hToken]; exact hFirst) (fun _ => by rw [hToken]; rintro ⟨⟩) ?_
  intro mode level position previousStop rest hYield hLevel hRest
  rw [hLength] at hLevel ⊢
  obtain ⟨below, rfl⟩ := Nat.exists_eq_succ_of_ne_zero (n := level) (by omega)
  have hBase := primary_word hWord (hEnds (Text.join ", ".toList (text :: texts) ++ ')' :: rest)) mode hYield (below + 1)
    position previousStop
  have hShort : 2 * (Text.join ", ".toList (text :: texts)).length < below + 1 := by omega
  have hArguments := arguments_join h hYield hShort (position + word.length) (position + word.length) rest
  have hAccess := access_arguments { Operand.plain position (.identifier word) with assignable := true } rfl hArguments
    (by rintro ⟨⟩)
  refine ⟨.plain position .other, by rintro ⟨⟩, ?_⟩
  have hSame : position + (word.length + 1 + (Text.join ", ".toList (text :: texts)).length + 1) =
      position + word.length + 1 + (Text.join ", ".toList (text :: texts)).length + 1 := by omega
  rw [hSame]
  refine Rule.leftHandSide_of_primary (by rw [State.facing_lexeme, hToken]; exact hFirst) (Nat.succ_pos _)
    (by rw [hText]; exact hBase) ?_
  rw [Env.tsx_level, Rule.extendWithin_some hAccess]
  exact Rule.extendWithin_none (Rule.access_of_closes (hRest.token _))

/-- A constructor call is a call: its tag, its properties and its children, if there are some, are its arguments. -/
theorem isExpression_constructorCall {word tag : Text} {properties children : List Text} (hWord : word ∈ componentWords)
    (hProperties : ∀ p ∈ properties, ∃ name?, IsMember name? p) (hChildren : ∀ c ∈ children, IsExpression c) :
    IsExpression (Component.constructorCall word tag properties children) := by
  have hTag := isExpression_stringLiteral tag
  have hObject := isExpression_object hProperties
  cases children with
  | nil =>
      have hText : Component.constructorCall word tag properties [] =
          word ++ ['('] ++ Text.join ", ".toList [stringLiteral tag, Component.objectLiteral properties] ++ [')'] := by
        simp [Component.constructorCall, Text.join]
      rw [hText]
      refine isExpression_call hWord ?_
      intro t ht
      simp only [List.mem_cons, List.not_mem_nil, or_false] at ht
      rcases ht with rfl | rfl
      · exact hTag
      · exact hObject
  | cons child children =>
      have hText : Component.constructorCall word tag properties (child :: children) =
          word ++ ['('] ++ Text.join ", ".toList [stringLiteral tag, Component.objectLiteral properties,
            ['['] ++ Text.join ", ".toList (child :: children) ++ [']']] ++ [')'] := by
        simp [Component.constructorCall, Text.join]
      rw [hText]
      refine isExpression_call hWord ?_
      intro t ht
      simp only [List.mem_cons, List.not_mem_nil, or_false] at ht
      rcases ht with rfl | rfl | rfl
      · exact hTag
      · exact hObject
      · exact isExpression_array hChildren

end Calls

end IconRegistry.Script
