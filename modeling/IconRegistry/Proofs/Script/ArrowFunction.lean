import IconRegistry.Proofs.Script.Element
import IconRegistry.Proofs.Script.TypeReference

/-! Arrow functions that are read to their end, the elements in parentheses that they return, and calls that take one. -/
namespace IconRegistry.Script

section Parameters

variable {mode : Mode} {level : Nat} {s : State} {word rest : Text}

def parameterWords : List Text :=
  ["props", "ref"].map String.toList

/-- A text that is a parameter, whatever ends it: a name, with a type or without. -/
structure IsParameter (text : Text) : Prop where
  begins : ∃ word ∈ parameterWords, ∃ more, text = word ++ more ∧ (more = [] ∨ ∃ tail, more = ':' :: tail)
  reads : ∀ {mode : Mode} {level position previousStop : Nat} {rest : Text}, 2 * text.length ≤ level → Closes rest →
    Rule.parameter (Env.tsx mode level) (.facing position (text ++ rest) previousStop) =
      some ((), .facing (position + text.length) rest (position + text.length))

namespace Rule

theorem modifiers_of_none (place : ModifierPlace) (h : currentModifier (Env.tsx mode level) s = some (none, s)) :
    modifiers place (Env.tsx mode level) s = some ([], s) := by
  rw [modifiers, extend_run, Env.tsx_level, extendWithin_none]
  rw [bind_run, modifier, bind_run, h]
  rfl

/-- No word for parameters is a modifier. -/
theorem currentModifier_parameterWord (hWord : word ∈ parameterWords) (hToken : s.lexeme.token = .name word false) :
    currentModifier (Env.tsx mode level) s = some (none, s) := by
  have hNone : ∀ w ∈ parameterWords, Modifier.ofWord? (String.ofList w) = none := by decide
  rw [currentModifier, bind_run, token_run, hToken]
  simp only [Option.bind_some, hNone word hWord, pure_run]

/-- A name that has no meaning of its own anywhere is an identifier. -/
def IsPlain (word : Text) : Prop :=
  IsIdentifier word ∧ isReserved word = false ∧ word ≠ "await".toList ∧ word ≠ "yield".toList

instance (word : Text) : Decidable (IsPlain word) :=
  inferInstanceAs (Decidable (_ ∧ _))

/-- A plain word is read as an identifier. -/
theorem identifier_plain (h : IsPlain word) (hEnds : EndsWord rest) (position previousStop : Nat) :
    identifier (Env.tsx mode level) (.facing position (word ++ rest) previousStop) =
      some (word, .facing (position + word.length) rest (position + word.length)) := by
  obtain ⟨hName, hReserved, hAwait, hYield⟩ := h
  have hToken : (Lexeme.next false position false (word ++ rest)).token = .name word false := by
    rw [next_word _ _ hName hEnds]
    rfl
  have hStep : step (Env.tsx mode level) (.facing position (word ++ rest) previousStop) =
      some ((), .facing (position + word.length) rest (position + word.length)) := by
    rw [facing_word hName hEnds, ← facing_cut (.name word false) _ rest position false]
    rfl
  simp only [identifier, bind_run, token_run, State.facing_lexeme, hToken, Option.bind_some, hReserved,
    Bool.false_eq_true, if_false, mode_run, beq_eq_false_iff_ne.mpr hAwait, beq_eq_false_iff_ne.mpr hYield, Bool.and_false,
    flawIf_false, hStep, pure_run]

theorem binding_plain (h : IsPlain word) (hEnds : EndsWord rest) (position previousStop : Nat) :
    binding (Env.tsx mode level) (.facing position (word ++ rest) previousStop) =
      some ([word], .facing (position + word.length) rest (position + word.length)) := by
  have hPunct : ∀ p, (Lexeme.next false position false (word ++ rest)).token ≠ .punct p := by
    intro p
    rw [next_word _ _ h.1 hEnds]
    rintro ⟨⟩
  simp only [binding, bind_run, eat_facing_of_ne (hPunct _), Option.bind_some, Bool.false_eq_true, if_false,
    identifier_plain h hEnds, ite_run, pure_run]

end Rule

theorem isPlain_parameterWord : ∀ w ∈ parameterWords, Rule.IsPlain w := by
  decide

/-- A parameter is a name and what is read behind it as its type. Nothing in front of the name modifies it. -/
theorem parameter_word (hWord : word ∈ parameterWords) (hEnds : EndsWord rest)
    (hQuestion : ∀ q, (Lexeme.next false q false rest).token ≠ .punct .question) (hLevel : 0 < level)
    {position previousStop : Nat} {typed : Bool} {s : State}
    (hType : Rule.typeAnnotation (Env.tsx mode level)
      (.facing (position + word.length) rest (position + word.length)) = some (typed, s))
    (hDefault : s.lexeme.token ≠ .punct .assign) :
    Rule.parameter (Env.tsx mode level) (.facing position (word ++ rest) previousStop) = some ((), s) := by
  obtain ⟨below, rfl⟩ := Nat.exists_eq_add_one_of_ne_zero (Nat.ne_of_gt hLevel)
  have hPlain := isPlain_parameterWord word hWord
  have hToken : (State.facing position (word ++ rest) previousStop).lexeme.token = .name word false := by
    rw [State.facing_lexeme, next_word _ _ hPlain.1 hEnds]
    rfl
  have hPunct : ∀ p, (State.facing position (word ++ rest) previousStop).lexeme.token ≠ .punct p := by
    intro p
    rw [hToken]
    rintro ⟨⟩
  have hBinding : readGoal .tsx (below + 1) .binding mode (.facing position (word ++ rest) previousStop) =
      some ([word], .facing (position + word.length) rest (position + word.length)) :=
    Rule.binding_plain hPlain hEnds position previousStop
  have hTypes : Dialect.tsx.hasTypes = true := rfl
  have hEnd : Rule.optionalDefault (Env.tsx mode (below + 1)) s = some ((), s) := by
    rw [Rule.optionalDefault, Rule.bind_run, Rule.eat_of_ne hDefault]
    rfl
  have hDecorators : Rule.decorators (Env.tsx mode (below + 1)) (.facing position (word ++ rest) previousStop) =
      some (false, .facing position (word ++ rest) previousStop) :=
    Rule.decorators_of_ne (Nat.succ_pos (below + 1)) (hPunct _)
  simp only [Rule.parameter, Rule.bind_run, Rule.eat_of_ne (hPunct _), Option.bind_some, Bool.false_eq_true, if_false,
    hDecorators, Rule.modifiers_of_none .parameter (Rule.currentModifier_parameterWord hWord hToken),
    Rule.bindingElement, Rule.goal_run, Env.tsx_deeper, Env.tsx_mode, hBinding, Rule.dialect_run, Env.tsx_dialect, hTypes,
    if_true, Rule.ite_run, Rule.eat_facing_of_ne (hQuestion _), hType, hEnd, Rule.pure_run]

theorem isParameter_word (hWord : word ∈ parameterWords) : IsParameter word := by
  obtain ⟨c, more, hText, -⟩ := (isPlain_parameterWord word hWord).1.exists_cons
  refine ⟨⟨word, hWord, [], by simp, .inl rfl⟩, ?_⟩
  intro mode level position previousStop rest hLevel hRest
  have hOther : ∀ {p : Punct} (q : Nat), p ∉ closers → (Lexeme.next false q false rest).token ≠ .punct p :=
    fun q => punct_ne_of_closes (hRest.token q)
  have hType : Rule.typeAnnotation (Env.tsx mode level)
      (.facing (position + word.length) rest (position + word.length)) =
      some (false, .facing (position + word.length) rest (position + word.length)) := by
    have hColon : Rule.eat .colon (Env.tsx mode level)
        (.facing (position + word.length) rest (position + word.length)) =
        some (false, .facing (position + word.length) rest (position + word.length)) :=
      Rule.eat_facing_of_ne (hOther _ (by decide))
    have hTypes : Dialect.tsx.hasTypes = true := rfl
    simp only [Rule.typeAnnotation, Rule.bind_run, Rule.dialect_run, Env.tsx_dialect, hTypes, if_true, Option.bind_some,
      Rule.ite_run, hColon, Bool.false_eq_true, if_false, Rule.pure_run]
  exact parameter_word hWord hRest.endsWord (fun q => hOther q (by decide)) (by rw [hText] at hLevel; simp at hLevel; omega)
    hType (hOther _ (by decide))

theorem isParameter_typed {text : Text} (hWord : word ∈ parameterWords) (hType : IsType text) :
    IsParameter (word ++ ": ".toList ++ text) := by
  have hLength : (word ++ ": ".toList ++ text).length = word.length + 2 + text.length := by simp; omega
  refine ⟨⟨word, hWord, ':' :: ' ' :: text, by simp, .inr ⟨_, rfl⟩⟩, ?_⟩
  intro mode level position previousStop rest hLevel hRest
  rw [hLength] at hLevel ⊢
  obtain ⟨below, rfl⟩ := Nat.exists_eq_add_one_of_ne_zero (n := level) (by omega)
  have hWhole : word ++ ": ".toList ++ text ++ rest = word ++ ':' :: ' ' :: (text ++ rest) := by simp
  have hBegins : BeginsToken (text ++ rest) := by
    obtain ⟨d, tail, rfl, hd⟩ := hType.begins
    exact ⟨d, tail ++ rest, rfl, beginsToken_of_isNameStart hd⟩
  have hGoal : readGoal .tsx (below + 1) .type mode
      (.facing (position + word.length + 1 + 1) (text ++ rest) (position + word.length + 1)) =
      some ((), .facing (position + word.length + 1 + 1 + text.length) rest
        (position + word.length + 1 + 1 + text.length)) := hType.reads (by omega) (.closes hRest)
  have hAnnotation : Rule.typeAnnotation (Env.tsx mode (below + 1))
      (.facing (position + word.length) (':' :: ' ' :: (text ++ rest)) (position + word.length)) =
      some (true, .facing (position + (word.length + 2 + text.length)) rest
        (position + (word.length + 2 + text.length))) := by
    have hPosition : position + word.length + 1 + 1 + text.length = position + (word.length + 2 + text.length) := by omega
    have hTypes : Dialect.tsx.hasTypes = true := rfl
    simp only [Rule.typeAnnotation, Rule.bind_run, Rule.dialect_run, Env.tsx_dialect, hTypes, if_true, Option.bind_some,
      Rule.ite_run, Rule.eat_alone (c := ':') (p := .colon) (by decide), facing_blank hBegins, Rule.goal_run,
      Env.tsx_deeper, Env.tsx_mode, hGoal, Rule.pure_run, hPosition]
  rw [hWhole]
  exact parameter_word hWord (endsWord_cons (by decide) (by decide) _) (fun q => by rintro ⟨⟩) (by omega) hAnnotation
    (punct_ne_of_closes (hRest.token _) (by decide))

theorem IsParameter.exists_cons {text : Text} (h : IsParameter text) :
    ∃ c more, text = c :: more ∧ isNameStart c = true := by
  obtain ⟨word, hWord, more, rfl, -⟩ := h.begins
  obtain ⟨c, tail, rfl, hc, -⟩ := (isPlain_parameterWord word hWord).1.exists_cons
  exact ⟨c, tail ++ more, rfl, hc⟩

theorem IsParameter.isItem {text : Text} (h : IsParameter text) (hLevel : 2 * text.length ≤ level) :
    IsItem Rule.parameter .rightParen Closes mode level text where
  begins := by
    obtain ⟨c, more, hText, hc⟩ := h.exists_cons
    exact ⟨c, more, hText, beginsToken_of_isNameStart hc⟩
  opens := by
    intro position rest _
    obtain ⟨c, more, rfl, hc⟩ := h.exists_cons
    exact next_ne_punct _ _ hc _ _
  reads := fun _ _ _ hRest => ⟨(), h.reads hLevel hRest⟩

end Parameters

section Arrows

variable {mode : Mode} {level : Nat} {first body : Text} {others : List Text}

/-- The parameters of an arrow function begin with a name, behind which something tells that it is a parameter. -/
theorem parameters_begin (h : IsParameter first) (others : List Text) (rest : Text) :
    ∃ word ∈ parameterWords, ∃ c more, (c = ':' ∨ c = ',' ∨ c = ')') ∧
      Text.join ", ".toList (first :: others) ++ ')' :: rest = word ++ c :: more := by
  obtain ⟨word, hWord, more, rfl, hMore⟩ := h.begins
  have hJoin : Text.join ", ".toList ((word ++ more) :: others) =
      word ++ more ++ (if others = [] then [] else ", ".toList ++ Text.join ", ".toList others) := by
    cases others with
    | nil => simp [Text.join]
    | cons t others =>
        rw [Text.join, if_neg (by rintro ⟨⟩), List.append_assoc]
        rintro ⟨⟩
  refine ⟨word, hWord, ?_⟩
  rw [hJoin]
  rcases hMore with rfl | ⟨tail, rfl⟩
  · split
    · exact ⟨')', rest, .inr (.inr rfl), by simp⟩
    · exact ⟨',', _, .inr (.inl rfl), by rw [List.append_nil, List.append_assoc, List.append_assoc]; rfl⟩
  · exact ⟨':', _, .inl rfl, by rw [List.append_assoc, List.append_assoc, List.cons_append]⟩

/-- Behind a parenthesis and a word, an arrow function may follow. -/
theorem prospectAfterParen_word {word : Text} (hWord : word ∈ parameterWords) {c : Char} (hc : c = ':' ∨ c = ',' ∨ c = ')')
    (position previousStop : Nat) (more : Text) :
    ∃ answer s', Rule.prospectAfterParen (Env.tsx mode level) (.facing position (word ++ c :: more) previousStop) =
      some (answer, s') ∧ answer ≠ .no := by
  have hPlain := isPlain_parameterWord word hWord
  have hEnds : EndsWord (c :: more) := by
    rcases hc with rfl | rfl | rfl
    all_goals exact endsWord_cons (by decide) (by decide) _
  have hToken : (State.facing position (word ++ c :: more) previousStop).lexeme.token = .name word false := by
    rw [State.facing_lexeme, next_word _ _ hPlain.1 hEnds]
    rfl
  have hStep : Rule.step (Env.tsx mode level) (.facing position (word ++ c :: more) previousStop) =
      some ((), .facing (position + word.length) (c :: more) (position + word.length)) := by
    rw [facing_word hPlain.1 hEnds, ← facing_cut (.name word false) _ (c :: more) position false]
    rfl
  have hModifier : Rule.atParameterModifier (Env.tsx mode level) (.facing position (word ++ c :: more) previousStop) =
      some (false, .facing position (word ++ c :: more) previousStop) := by
    rw [Rule.atParameterModifier, Rule.bind_run, Rule.currentModifier_parameterWord hWord hToken]
    rfl
  have hIdentifier : ∀ {s : State}, s.lexeme.token = .name word false →
      Rule.atIdentifier (Env.tsx mode level) s = some (true, s) := by
    intro s hSame
    rw [Rule.atIdentifier, Rule.bind_run, Rule.token_run, hSame]
    simp only [Option.bind_some, hPlain.2.1, Bool.not_false, Rule.pure_run]
  rw [Rule.prospectAfterParen]
  simp only [Rule.bind_run, Rule.token_run, hToken, Option.bind_some, hModifier, hIdentifier hToken, Rule.atWord_run,
    Bool.true_or, hStep, Rule.prospectAfterName, Bool.false_and, Bool.false_eq_true, if_false, Bool.not_true]
  rcases hc with rfl | rfl | rfl
  · exact ⟨.yes, _, rfl, by rintro ⟨⟩⟩
  · exact ⟨.maybe, _, rfl, by rintro ⟨⟩⟩
  · exact ⟨.maybe, _, rfl, by rintro ⟨⟩⟩

/-- A parenthesis in front of parameters opens those of an arrow function. -/
theorem arrowProspect_parameters (mode : Mode) (level : Nat) (h : IsParameter first) (others : List Text)
    (position previousStop : Nat) (rest : Text) :
    ∃ answer, Rule.arrowProspect (Env.tsx mode level)
        (.facing position ('(' :: (Text.join ", ".toList (first :: others) ++ ')' :: rest)) previousStop) =
      some (answer, .facing position ('(' :: (Text.join ", ".toList (first :: others) ++ ')' :: rest)) previousStop) ∧
      answer ≠ .no := by
  obtain ⟨word, hWord, c, more, hc, hText⟩ := parameters_begin h others rest
  obtain ⟨answer, s', hAnswer, hSome⟩ := prospectAfterParen_word hWord hc (position + 1) (position + 1) more
  refine ⟨answer, Rule.prospect_of_rule _ _ ⟨s', ?_⟩, hSome⟩
  rw [hText, facing_alone (c := '(') (p := .leftParen) (by decide)]
  exact hAnswer

/-- Parameters in parentheses are read as a whole. -/
theorem parameters_join (h : ∀ p ∈ first :: others, IsParameter p)
    (hLevel : 2 * (Text.join ", ".toList (first :: others)).length < level) (position previousStop : Nat) (rest : Text) :
    Rule.parameters (Env.tsx mode level)
        (.facing position ('(' :: (Text.join ", ".toList (first :: others) ++ ')' :: rest)) previousStop) =
      some (false, .facing (position + 1 + (Text.join ", ".toList (first :: others)).length + 1) rest
        (position + 1 + (Text.join ", ".toList (first :: others)).length + 1)) := by
  have hCount := length_texts_le_join first others
  have hItems : ∀ t ∈ first :: others, IsItem Rule.parameter .rightParen Closes mode level t := by
    intro t ht
    have hShort := length_le_join ht
    exact (h t ht).isItem (by omega)
  obtain ⟨found, hFound⟩ := commaList_join hItems .comma (.paren rest) (fun _ => rfl) (by decide)
    (by omega) (position + 1) (position + 1)
  have hThis : (State.facing (position + 1) (Text.join ", ".toList (first :: others) ++ ')' :: rest)
      (position + 1)).lexeme.token ≠ .name "this".toList false := by
    have hNames : ∀ w ∈ parameterWords, w ≠ "this".toList := by decide
    obtain ⟨word, hWord, c, more, hc, hText⟩ := parameters_begin (h first List.mem_cons_self) others rest
    have hEnds : EndsWord (c :: more) := by
      rcases hc with rfl | rfl | rfl
      all_goals exact endsWord_cons (by decide) (by decide) _
    rw [hText, State.facing_lexeme, next_word _ _ (isPlain_parameterWord word hWord).1 hEnds]
    rintro ⟨rfl⟩
    exact hNames _ hWord rfl
  have hTypes : Dialect.tsx.hasTypes = true := rfl
  rw [Rule.parameters]
  simp only [Rule.bind_run, Rule.expect_alone (c := '(') (p := .leftParen) (by decide), Option.bind_some,
    Rule.dialect_run, Env.tsx_dialect, hTypes, if_true, Rule.eatWord_of_ne hThis, Bool.false_eq_true, if_false, hFound,
    Rule.expect_alone (c := ')') (p := .rightParen) (by decide), Rule.pure_run]

/-- The parameters of an arrow function are read up to its arrow. -/
theorem arrowParameters_join (h : ∀ p ∈ first :: others, IsParameter p)
    (hLevel : 2 * (Text.join ", ".toList (first :: others)).length < level) (position previousStop : Nat) (rest : Text) :
    Rule.arrowParameters (Env.tsx mode level)
        (.facing position ('(' :: (Text.join ", ".toList (first :: others) ++ ')' :: (" => ".toList ++ rest)))
          previousStop) =
      some ((false, false), .facing (position + 1 + (Text.join ", ".toList (first :: others)).length + 1)
        (" => ".toList ++ rest) (position + 1 + (Text.join ", ".toList (first :: others)).length + 1)) := by
  have hAsync : ∀ s : Text, (State.facing position ('(' :: s) previousStop).lexeme.token ≠ .name "async".toList false := by
    rintro s ⟨⟩
  have hAngle : ∀ s : Text, (State.facing position ('(' :: s) previousStop).lexeme.token ≠ .punct .less := by
    rintro s ⟨⟩
  have hColon : ∀ q, (State.facing q (" => ".toList ++ rest) q).lexeme.token ≠ .punct .colon := by rintro q ⟨⟩
  have hTypes : Dialect.tsx.hasTypes = true := rfl
  rw [Rule.arrowParameters]
  simp only [Rule.bind_run, Rule.eatWord_of_ne (hAsync _), Option.bind_some, Rule.withMode_tsx, Rule.typeParameters,
    Rule.dialect_run, Env.tsx_dialect, hTypes, if_true, Rule.eat_of_ne (hAngle _), Bool.false_eq_true, if_false,
    Rule.pure_run, Rule.ite_run, parameters_join h hLevel, Rule.flawIf_false, Rule.returnAnnotation,
    Rule.eat_of_ne (hColon _)]

/-- The arrow of a function is read up to the body. -/
theorem arrow_run (hBody : BeginsToken body) (position : Nat) (rest : Text) :
    Rule.arrow (Env.tsx mode level) (.facing position (" => ".toList ++ (body ++ rest)) position) =
      some ((), .facing (position + 4) (body ++ rest) (position + 3)) := by
  have hArrow : Rule.arrow (Env.tsx mode level) (.facing position (" => ".toList ++ (body ++ rest)) position) =
      some ((), .facing (position + 3) (' ' :: (body ++ rest)) (position + 3)) := rfl
  rw [hArrow, facing_blank (hBody.append rest)]

/-- A body that is an expression is read as one. -/
theorem arrowBody_expression (hBody : IsExpression body)
    (hBrace : ∀ (position : Nat) {rest : Text}, Closes rest →
      (Lexeme.next false position false (body ++ rest)).token ≠ .punct .leftBrace)
    (hLevel : 2 * body.length < level) {rest : Text} (hRest : Closes rest) (position previousStop : Nat) :
    Rule.arrowBody false true (Env.tsx mode level) (.facing position (body ++ rest) previousStop) =
      some ((), .facing (position + body.length) rest (position + body.length)) := by
  obtain ⟨operand, -, hRead⟩ := hBody.goal_assignment
    { mode with allowsAwait := false, allowsYield := false, inConditional := false } rfl hLevel hRest position previousStop
  have hNoBlock := hBrace position hRest
  simp only [Rule.arrowBody, Rule.withMode_tsx, Rule.bind_run, Rule.atPunct_run, State.facing_lexeme,
    beq_eq_false_iff_ne.mpr hNoBlock, Option.bind_some, Rule.ite_run, Bool.false_eq_true, if_false, Rule.goal_run,
    Env.tsx_deeper, Env.tsx_mode, hRead, Rule.pure_run]

/-- What looks like an arrow function and is one is read as one, whether the look ahead was sure of it or not. -/
theorem parenthesizedArrow_of_parameters {s s₁ s₂ s' : State} {answer : Rule.Prospect} (hTried : s.notArrows = [])
    (hProspect : Rule.arrowProspect (Env.tsx mode level) s = some (answer, s)) (hSome : answer ≠ .no)
    (hParameters : Rule.arrowParameters (Env.tsx mode level) s = some ((false, false), s₁))
    (hToken : s₁.lexeme.token = .punct .arrow) (hArrow : Rule.arrow (Env.tsx mode level) s₁ = some ((), s₂))
    (hBody : Rule.arrowBody false true (Env.tsx mode level) s₂ = some ((), s')) :
    Rule.parenthesizedArrow true (Env.tsx mode level) s = some (true, s') := by
  have hGet : (get : Rule State) (Env.tsx mode level) s = some (s, s) := rfl
  rw [Rule.parenthesizedArrow, Rule.bind_run, hProspect]
  cases answer with
  | no => exact absurd rfl hSome
  | yes => simp only [Option.bind_some, Rule.bind_run, hParameters, hArrow, hBody, Rule.pure_run]
  | maybe =>
      simp only [Option.bind_some, Rule.possibleArrow, Rule.bind_run, hGet, Rule.position_run, hTried,
        List.contains_nil, Bool.false_eq_true, if_false, Rule.attempt, hParameters, Rule.atPunct_run, hToken,
        beq_self_eq_true, Bool.not_true, hArrow, hBody, Rule.pure_run, Bool.true_or, if_true]

/-- Parameters in parentheses with an arrow and a body behind them are an expression. -/
theorem isExpression_arrow (h : ∀ p ∈ first :: others, IsParameter p) (hBody : IsExpression body)
    (hBrace : ∀ (position : Nat) {rest : Text}, Closes rest →
      (Lexeme.next false position false (body ++ rest)).token ≠ .punct .leftBrace) :
    IsExpression ('(' :: Text.join ", ".toList (first :: others) ++ ") => ".toList ++ body) := by
  have hWhole : ∀ rest : Text, '(' :: Text.join ", ".toList (first :: others) ++ ") => ".toList ++ body ++ rest =
      '(' :: (Text.join ", ".toList (first :: others) ++ ')' :: (" => ".toList ++ (body ++ rest))) := by simp
  have hLength : ('(' :: Text.join ", ".toList (first :: others) ++ ") => ".toList ++ body).length =
      (Text.join ", ".toList (first :: others)).length + 6 + body.length := by
    have hSame := congrArg List.length (hWhole [])
    rw [List.append_nil] at hSame
    rw [hSame]
    simp
    omega
  refine ⟨⟨'(', _, rfl, by decide⟩, fun _ _ _ => by rw [hWhole]; rfl, ?_⟩
  intro mode level position previousStop rest hYield hLevel hRest
  rw [hLength] at hLevel ⊢
  obtain ⟨answer, hProspect, hSome⟩ := arrowProspect_parameters mode level (h first List.mem_cons_self) others position
    previousStop (" => ".toList ++ (body ++ rest))
  have hArrow := parenthesizedArrow_of_parameters rfl hProspect hSome
    (arrowParameters_join h (by omega) position previousStop (body ++ rest)) rfl (arrow_run hBody.begins _ rest)
    (arrowBody_expression hBody hBrace (by omega) hRest _ _)
  have hPosition : position + ((Text.join ", ".toList (first :: others)).length + 6 + body.length) =
      position + 1 + (Text.join ", ".toList (first :: others)).length + 1 + 4 + body.length := by omega
  refine ⟨.plain position .other, by rintro ⟨⟩, ?_⟩
  rw [hWhole, hPosition]
  simp only [Rule.assignment, Rule.bind_run, Rule.position_run, Rule.mode_run, Rule.atWord_run, Env.tsx_mode, hYield,
    Option.bind_some, Bool.false_and, Bool.false_eq_true, if_false, Rule.ite_run, hArrow, if_true, Rule.pure_run]
  rfl

end Arrows

section Elements

variable {mode : Mode} {level : Nat} {text rest : Text}

theorem exists_atIdentifier (env : Env) (s : State) : ∃ answer, Rule.atIdentifier env s = some (answer, s) := by
  rw [Rule.atIdentifier, Rule.bind_run, Rule.token_run]
  cases hToken : s.lexeme.token
  all_goals exact ⟨_, rfl⟩

theorem facing_less {c : Char} (hc : isNameStart c = true) (position previousStop : Nat) (more : Text) :
    State.facing position ('<' :: c :: more) previousStop =
      .on (Lexeme.cut (.punct .less) position 1 ('<' :: c :: more) false) previousStop := by
  rw [State.facing, next_less _ _ hc]

/-- No parameters begin with an element behind a parenthesis. -/
theorem arrowProspect_element (h : IsElement text) (position previousStop : Nat) :
    Rule.arrowProspect (Env.tsx mode level) (.facing position ('(' :: (text ++ rest)) previousStop) =
      some (.no, .facing position ('(' :: (text ++ rest)) previousStop) := by
  obtain ⟨c, more, rfl, hc⟩ := h.begins
  have hBehind : ∃ s', Rule.prospectAfterParen (Env.tsx mode level)
      (.facing (position + 1) ('<' :: c :: more ++ rest) (position + 1)) = some (.no, s') := by
    have hAngle := facing_less hc (position + 1) (position + 1) (more ++ rest)
    have hPlain : Rule.prospectAfterParen (Env.tsx mode level)
        (.on (Lexeme.cut (.punct .less) (position + 1) 1 ('<' :: c :: (more ++ rest)) false) (position + 1)) =
        Rule.prospectAfterName false false (Env.tsx mode level)
          (.facing (position + 1 + 1) (c :: (more ++ rest)) (position + 1 + 1)) := rfl
    obtain ⟨answer, hAnswer⟩ := exists_atIdentifier (Env.tsx mode level) (.facing (position + 1 + 1) (c :: (more ++ rest))
      (position + 1 + 1))
    rw [List.cons_append, List.cons_append, hAngle, hPlain, Rule.prospectAfterName]
    simp only [Rule.bind_run, hAnswer, Option.bind_some, Bool.false_and, Bool.false_eq_true, if_false, Bool.not_false,
      if_true]
    exact ⟨_, rfl⟩
  refine Rule.prospect_of_rule _ _ ?_
  rw [facing_alone (c := '(') (p := .leftParen) (by decide)]
  exact hBehind

theorem IsElement.goal_assignment (h : IsElement text) (mode : Mode) (hYield : mode.allowsYield = false)
    (hLevel : 2 * text.length + 1 < level) (hRest : Closes rest) (position previousStop : Nat) :
    readGoal .tsx level (.assignment true) mode (.facing position (text ++ rest) previousStop) =
      some (.plain position .other, .facing (position + text.length) rest (position + text.length)) := by
  obtain ⟨below, rfl⟩ : ∃ below, level = below + 1 + 1 := ⟨level - 2, by omega⟩
  obtain ⟨c, more, hText, hc⟩ := h.begins
  have hState : State.facing position (text ++ rest) previousStop =
      .on (Lexeme.cut (.punct .less) position 1 (text ++ rest) false) previousStop := by
    rw [hText]
    exact facing_less hc position previousStop (more ++ rest)
  have hToken : (State.facing position (text ++ rest) previousStop).lexeme.token = .punct .less := by
    rw [hState]
    rfl
  have hElement : readGoal .tsx (below + 1) (.jsxElement false) mode (.facing position (text ++ rest) previousStop) =
      some ((), .facing (position + text.length) rest (position + text.length)) := by
    rw [hState]
    exact h.reads false position previousStop rest (by omega)
  have hStart : (State.facing position (text ++ rest) previousStop).lexeme.start = position := by
    rw [hState]
    rfl
  have hUnary : Rule.unary (Env.tsx mode (below + 1)) (.facing position (text ++ rest) previousStop) =
      some (.plain position .other, .facing (position + text.length) rest (position + text.length)) := by
    have hPunct : ∀ p, p ≠ .less → (State.facing position (text ++ rest) previousStop).lexeme.token ≠ .punct p := by
      rintro p hOther hSame
      rw [hToken] at hSame
      cases hSame
      exact hOther rfl
    have hName : ∀ word, (State.facing position (text ++ rest) previousStop).lexeme.token ≠ .name word false := by
      intro word
      rw [hToken]
      rintro ⟨⟩
    have hAwait : Rule.atAwait (Env.tsx mode (below + 1)) (.facing position (text ++ rest) previousStop) =
        some (false, .facing position (text ++ rest) previousStop) := by
      rw [Rule.atAwait, Rule.bind_run, Rule.atWord_of_ne (hName _)]
      rfl
    have hSigns : Rule.atAnyPunct [.plus, .minus, .tilde, .bang] (Env.tsx mode (below + 1))
        (.facing position (text ++ rest) previousStop) = some (false, .facing position (text ++ rest) previousStop) :=
      Rule.atAnyPunct_of_forall_ne fun p hp => hPunct p (by rintro rfl; simp at hp)
    have hWords : Rule.atAnyWord ["delete", "typeof", "void"] (Env.tsx mode (below + 1))
        (.facing position (text ++ rest) previousStop) = some (false, .facing position (text ++ rest) previousStop) :=
      Rule.atAnyWord_of_forall_ne fun word _ => hName _
    have hJsx : Dialect.tsx.hasJsx = true := rfl
    simp only [Rule.unary, Rule.bracketedUnary, Rule.bind_run, Rule.position_run, hAwait, hSigns, hWords, Option.bind_some,
      Bool.or_self, Bool.false_eq_true, if_false, Rule.ite_run, Rule.atPunct_run, hToken, beq_self_eq_true, if_true,
      Rule.dialect_run, Env.tsx_dialect, hJsx, Rule.goal_run, Env.tsx_deeper, Env.tsx_mode, hElement, hStart, Rule.pure_run]
  have hBinary := Rule.binary_of_unary (by rw [hToken]; rintro word ⟨⟩) hUnary (hRest.token _) (Nat.succ_pos _)
  exact Rule.assignment_of_binary hYield (by rw [hToken]; rintro ⟨⟩) (h.noArrow rest) hBinary (hRest.token _)

/-- An element in parentheses is an expression. -/
theorem isExpression_element (h : IsElement text) : IsExpression (['('] ++ text ++ [')']) := by
  have hWhole : ∀ rest : Text, ['('] ++ text ++ [')'] ++ rest = '(' :: (text ++ ')' :: rest) := by simp
  have hLength : (['('] ++ text ++ [')']).length = text.length + 2 := by simp
  refine ⟨⟨'(', _, rfl, by decide⟩, fun _ _ _ => by rw [hWhole]; rfl, ?_⟩
  intro mode level position previousStop rest hYield hLevel hRest
  rw [hLength] at hLevel ⊢
  obtain ⟨below, rfl⟩ := Nat.exists_eq_add_one_of_ne_zero (n := level) (by omega)
  have hShort : 2 * text.length + 1 < below := by omega
  have hRead := h.goal_assignment { mode with allowsIn := true, inDecorator := false } hYield hShort (.paren rest)
    (position + 1) (position + 1)
  have hInside := goal_expression_of_assignment { mode with allowsIn := true, inDecorator := false } hRead (by rintro ⟨⟩)
  have hOpens : ∀ s : Text, (State.facing position ('(' :: s) previousStop).lexeme.token = .punct .leftParen := fun _ => rfl
  have hPrimary : Rule.primary (Env.tsx mode (below + 1)) (.facing position ('(' :: (text ++ ')' :: rest)) previousStop) =
      some (.plain position .other, .facing (position + 1 + text.length + 1) rest (position + 1 + text.length + 1)) := by
    have hBracketed : Rule.bracketedExpression (Env.tsx mode (below + 1))
        (.facing (position + 1) (text ++ ')' :: rest) (position + 1)) =
        some (.plain (position + 1) .other, .facing (position + 1 + text.length) (')' :: rest)
          (position + 1 + text.length)) := hInside
    simp only [Rule.primary, Rule.parenthesized, Rule.bind_run, Rule.position_run, Rule.token_run, hOpens,
      Option.bind_some, Rule.expect_alone (c := '(') (p := .leftParen) (by decide), hBracketed,
      Rule.expect_alone (c := ')') (p := .rightParen) (by decide), Rule.pure_run]
    rfl
  have hLeft := Rule.leftHandSide_of_primary (by rw [hOpens]; rfl) (Nat.succ_pos _) hPrimary
    (Rule.extendWithin_none (Rule.access_of_closes (hRest.token _)))
  have hUnary := Rule.unary_of_leftHandSide (by rw [hOpens]; rfl) hLeft (Rule.no_update_of_closes (hRest.token _))
  have hBinary := Rule.binary_of_unary (by rw [hOpens]; rintro word ⟨⟩) hUnary (hRest.token _) (Nat.succ_pos _)
  have hPosition : position + (text.length + 2) = position + 1 + text.length + 1 := by omega
  refine ⟨.plain position .other, by rintro ⟨⟩, ?_⟩
  rw [hWhole, hPosition]
  exact Rule.assignment_of_binary hYield (by rw [hOpens]; rintro ⟨⟩) (arrowProspect_element h position previousStop)
    hBinary (hRest.token _)

end Elements

section Calls

variable {mode : Mode} {level : Nat} {text : Text} {texts : List Text}

/-- Types between angle brackets in front of a parenthesis are the type arguments of a call. -/
theorem access_types (mode : Mode) (h : ∀ t ∈ text :: texts, IsType t)
    (hLevel : 2 * (Text.join ", ".toList (text :: texts)).length < level) (operand : Operand)
    (hForm : operand.form ≠ .optionalChain) (position previousStop : Nat) (rest : Text) :
    Rule.access true operand (Env.tsx mode level)
        (.facing position ('<' :: (Text.join ", ".toList (text :: texts) ++ '>' :: '(' :: rest)) previousStop) =
      some (some (.plain operand.start .other), .facing (position + 1 + (Text.join ", ".toList (text :: texts)).length + 1)
        ('(' :: rest) (position + 1 + (Text.join ", ".toList (text :: texts)).length + 1)) := by
  have hChain : (operand.form == .optionalChain) = false := beq_eq_false_iff_ne.mpr hForm
  have hList := typeList_join mode h hLevel position previousStop ('(' :: rest)
  have hGreater : ∀ q : Nat, greaterOperator? (State.facing q ('>' :: '(' :: rest) q).lexeme.source = some (.greater, 1) :=
    fun _ => rfl
  have hFollows : ∀ q : Nat, Rule.followsTypeArguments (Env.tsx mode level) (.facing q ('(' :: rest) q) =
      some (true, .facing q ('(' :: rest) q) := fun _ => rfl
  have hArguments : Rule.expressionTypeArguments (Env.tsx mode level)
      (.facing position ('<' :: (Text.join ", ".toList (text :: texts) ++ '>' :: '(' :: rest)) previousStop) =
      some ((), .facing (position + 1 + (Text.join ", ".toList (text :: texts)).length + 1) ('(' :: rest)
        (position + 1 + (Text.join ", ".toList (text :: texts)).length + 1)) := by
    rw [Rule.expressionTypeArguments]
    simp only [Rule.bind_run, hList, Option.bind_some, Rule.lexeme_run, hGreater, expectGreater_run, hFollows,
      Bool.not_true, Bool.false_eq_true, if_false, Rule.pure_run, Rule.ite_run]
  have hToken : (State.facing position ('<' :: (Text.join ", ".toList (text :: texts) ++ '>' :: '(' :: rest))
      previousStop).lexeme.token = .punct .less := by
    rw [facing_types h]
    rfl
  have hTypes : Dialect.tsx.hasTypes = true := rfl
  rw [Rule.access, hChain]
  simp only [Rule.bind_run, Rule.token_run, hToken, Option.bind_some, Rule.dialect_run, Env.tsx_dialect, hTypes, if_true,
    Rule.attempt, hArguments, Bool.false_eq_true, if_false, Rule.pure_run]

/-- A name with types and an argument behind it is a call. -/
theorem isExpression_typedCall {word argument : Text} (hWord : word ∈ componentWords) (h : ∀ t ∈ text :: texts, IsType t)
    (hArgument : IsExpression argument) :
    IsExpression (word ++ '<' :: Text.join ", ".toList (text :: texts) ++ '>' :: '(' :: argument ++ [')']) := by
  have hNames : ∀ w ∈ componentWords, IsIdentifier w ∧ (Token.name w false).opens = true := by decide
  obtain ⟨hName, hFirst⟩ := hNames word hWord
  have hWhole : ∀ rest : Text,
      word ++ '<' :: Text.join ", ".toList (text :: texts) ++ '>' :: '(' :: argument ++ [')'] ++ rest =
        word ++ '<' :: (Text.join ", ".toList (text :: texts) ++ '>' :: '(' :: (argument ++ ')' :: rest)) := by simp
  have hLength : (word ++ '<' :: Text.join ", ".toList (text :: texts) ++ '>' :: '(' :: argument ++ [')']).length =
      word.length + 1 + (Text.join ", ".toList (text :: texts)).length + 1 + 1 + argument.length + 1 := by
    have hSame := congrArg List.length (hWhole [])
    rw [List.append_nil] at hSame
    rw [hSame]
    simp only [List.length_append, List.length_cons, List.length_nil]
    omega
  have hEnds : ∀ more : Text, EndsWord ('<' :: more) := endsWord_cons (by decide) (by decide)
  have hToken : ∀ (rest : Text) (position : Nat), (Lexeme.next false position false
      (word ++ '<' :: Text.join ", ".toList (text :: texts) ++ '>' :: '(' :: argument ++ [')'] ++ rest)).token =
        .name word false := by
    intro rest position
    rw [hWhole, next_word _ _ hName (hEnds _)]
    rfl
  obtain ⟨c, more, hWordText, hc, -⟩ := hName.exists_cons
  refine .of_operand ⟨c, more ++ '<' :: Text.join ", ".toList (text :: texts) ++ '>' :: '(' :: argument ++ [')'],
    by simp [hWordText], beginsToken_of_isNameStart hc⟩ (fun _ _ _ => by rw [hToken]; exact hFirst)
    (fun _ => by rw [hToken]; rintro ⟨⟩) ?_
  intro mode level position previousStop rest hYield hLevel hRest
  rw [hLength] at hLevel ⊢
  obtain ⟨below, rfl⟩ : ∃ below, level = below + 1 + 1 := ⟨level - 2, by omega⟩
  have hBase := primary_word hWord
    (hEnds (Text.join ", ".toList (text :: texts) ++ '>' :: '(' :: (argument ++ ')' :: rest)))
    mode hYield (below + 1 + 1) position previousStop
  have hJoin : Text.join ", ".toList [argument] = argument := by simp [Text.join]
  have hShort : 2 * (Text.join ", ".toList (text :: texts)).length < below + 1 + 1 := by omega
  have hTypes := access_types mode h hShort { Operand.plain position (.identifier word) with assignable := true }
    (by rintro ⟨⟩) (position + word.length) (position + word.length) (argument ++ ')' :: rest)
  have hArgumentShort : 2 * (Text.join ", ".toList [argument]).length < below + 1 + 1 := by
    rw [hJoin]
    omega
  have hArguments := arguments_join (List.forall_mem_singleton.mpr hArgument) hYield hArgumentShort
    (position + word.length + 1 + (Text.join ", ".toList (text :: texts)).length + 1)
    (position + word.length + 1 + (Text.join ", ".toList (text :: texts)).length + 1) rest
  rw [hJoin] at hArguments
  have hCall := access_arguments (.plain position .other) rfl hArguments (by rintro ⟨⟩)
  have hPosition : position + (word.length + 1 + (Text.join ", ".toList (text :: texts)).length + 1 + 1 +
      argument.length + 1) = position + word.length + 1 + (Text.join ", ".toList (text :: texts)).length + 1 + 1 +
      argument.length + 1 := by omega
  refine ⟨.plain position .other, by rintro ⟨⟩, ?_⟩
  rw [hPosition]
  refine Rule.leftHandSide_of_primary (by rw [State.facing_lexeme, hToken]; exact hFirst) (Nat.succ_pos _)
    (by rw [hWhole]; exact hBase) ?_
  rw [Env.tsx_level, Rule.extendWithin_some hTypes]
  exact (Rule.extendWithin_some hCall).trans (Rule.extendWithin_none (Rule.access_of_closes (hRest.token _)))

end Calls

end IconRegistry.Script
