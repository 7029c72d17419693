import IconRegistry.Proofs.Script.Expression

/-! Types that refer to others by a name, plain or behind a dot, with or without arguments. Where one is read as a whole
depends on what stands behind it only. -/
namespace IconRegistry.Script

/-- Words that have a meaning of their own at the front of a type. -/
def typeWords : List Text :=
  (["abstract", "asserts", "false", "import", "infer", "keyof", "new", "null", "readonly", "this", "true", "typeof",
    "unique", "void"] ++ Rule.simpleTypeWords).map String.toList

/-- Texts that end the type in front of them. -/
inductive EndsType : Text → Prop
  | closes {rest : Text} : Closes rest → EndsType rest
  | angle (rest : Text) : EndsType ('>' :: rest)

/-- What ends a type is an angle bracket, or closes an expression. -/
theorem EndsType.token {rest : Text} (h : EndsType rest) (position : Nat) :
    ∃ p ∈ Punct.greater :: closers, (Lexeme.next false position false rest).token = .punct p := by
  cases h with
  | closes hCloses =>
      obtain ⟨p, hp, hToken⟩ := exists_punct_of_closes (hCloses.token position)
      exact ⟨p, List.mem_cons_of_mem _ hp, hToken⟩
  | angle rest => exact ⟨.greater, List.mem_cons_self, rfl⟩

theorem EndsType.ne_punct {rest : Text} (h : EndsType rest) (position : Nat) {p : Punct}
    (hOther : p ∉ Punct.greater :: closers) : (Lexeme.next false position false rest).token ≠ .punct p := by
  obtain ⟨found, hFound, hToken⟩ := h.token position
  rw [hToken]
  rintro ⟨rfl⟩
  exact hOther hFound

theorem EndsType.ne_name {rest : Text} (h : EndsType rest) (position : Nat) (word : Text) :
    (Lexeme.next false position false rest).token ≠ .name word false := by
  obtain ⟨p, -, hToken⟩ := h.token position
  rw [hToken]
  rintro ⟨⟩

namespace Rule

variable {mode : Mode} {level : Nat} {s : State} {word rest : Text} {position previousStop : Nat}

/-- A type that begins with a name is a reference to another type, unless the name has a meaning of its own. -/
theorem namedType_reference {env : Env} (hWord : ∀ w ∈ typeWords, s.lexeme.token ≠ .name w false) :
    namedType env s = typeReference env s := by
  have hEat : ∀ w : String, w.toList ∈ typeWords → eatWord w env s = some (false, s) :=
    fun w hw => eatWord_of_ne (hWord _ hw)
  have hAsserts : atWord "asserts" env s = some (false, s) := atWord_of_ne (hWord _ (by decide))
  have hValues : atAnyWord ["true", "false", "null", "void"] env s = some (false, s) :=
    atAnyWord_of_forall_ne fun w hw => hWord _ (by revert w; decide)
  have hSimple : atAnyWord simpleTypeWords env s = some (false, s) :=
    atAnyWord_of_forall_ne fun w hw => hWord _ (by revert w; decide)
  obtain ⟨name, hName⟩ := exists_ahead env s (do step; return (← atName) && !(← onNewLine))
  obtain ⟨dot, hDot⟩ := exists_ahead env s (do step; atPunct .dot)
  simp only [namedType, afterToken, bind_run, hEat "typeof" (by decide), hEat "import" (by decide), hAsserts, hName,
    hEat "this" (by decide), hValues, hSimple, hDot, Option.bind_some, Bool.false_and, Bool.false_eq_true, if_false,
    ite_run]

section Operators

variable {isList : Bool} (hRest : EndsType rest)

include hRest in
/-- Nothing goes on with a type in front of what ends it. -/
theorem postfixType_of_primary
    (hRead : primaryType (Env.tsx mode level) s = some (isList, .facing position rest previousStop)) :
    postfixType (Env.tsx mode level) s = some (isList, .facing position rest previousStop) := by
  obtain ⟨p, hp, hToken⟩ := hRest.token position
  have hEnd : ∀ p ∈ Punct.greater :: closers, p ≠ .bang ∧ p ≠ .question ∧ p ≠ .leftBracket := by decide
  rw [postfixType, bind_run, hRead, Option.bind_some, extend_run, Env.tsx_level]
  refine extendWithin_none ?_
  simp only [bind_run, onNewLine_run, State.facing_lexeme, Option.bind_some, token_run, hToken, ite_run, pure_run]
  split
  · rfl
  simp only [closers, List.mem_cons, List.not_mem_nil, or_false] at hp
  rcases hp with rfl | rfl | rfl | rfl | rfl | rfl
  all_goals rfl

/-- A type without an operator is what is read behind none. -/
theorem operatorType_of_postfix (hOperators : ∀ w ∈ ["readonly", "keyof", "unique", "infer"].map String.toList,
    s.lexeme.token ≠ .name w false)
    (hRead : ∀ mode, postfixType (Env.tsx mode level) s = some (isList, .facing position rest previousStop)) :
    operatorType (Env.tsx mode level) s = some ((), .facing position rest previousStop) := by
  have hReadonly : eatWord "readonly" (Env.tsx mode level) s = some (false, s) :=
    eatWord_of_ne (hOperators _ (by decide))
  have hInfer : eatWord "infer" (Env.tsx mode level) s = some (false, s) := eatWord_of_ne (hOperators _ (by decide))
  have hWords : atAnyWord ["keyof", "unique"] (Env.tsx mode level) s = some (false, s) :=
    atAnyWord_of_forall_ne fun w hw => hOperators _ (by revert w; decide)
  have hNone : manyWithin (level + 1) (do
      if ← eatWord "readonly" then return some true
      else if ← atAnyWord ["keyof", "unique"] then
        step
        return some false
      else return none) (Env.tsx mode level) s = some ([], s) := by
    refine manyWithin_none ?_
    rw [bind_run, hReadonly]
    simp only [Option.bind_some, Bool.false_eq_true, if_false, bind_run, hWords, pure_run]
  simp only [operatorType, bind_run, many_run, Env.tsx_level, hNone, Option.bind_some, hInfer, Bool.false_eq_true, if_false,
    withMode_tsx, hRead, ite_run]
  rfl

include hRest in
/-- An operand of types is what is joined where no operator stands before or behind it. -/
theorem joinedTypes_of_operand {operator : Punct} {operand : Rule Unit} (hFirst : s.lexeme.token ≠ .punct operator)
    (hOther : operator ∉ Punct.greater :: closers)
    (hRead : operand (Env.tsx mode level) s = some ((), .facing position rest previousStop)) :
    joinedTypes operator operand (Env.tsx mode level) s = some ((), .facing position rest previousStop) := by
  have hNone : manyWithin (level + 1) (do
      if ← eat operator then
        operand
        return some ()
      else return none) (Env.tsx mode level) (.facing position rest previousStop) =
      some ([], .facing position rest previousStop) := by
    refine manyWithin_none ?_
    rw [bind_run, eat_facing_of_ne (hRest.ne_punct position hOther)]
    rfl
  simp only [joinedTypes, bind_run, eat_of_ne hFirst, Option.bind_some, hRead, many_run, Env.tsx_level, hNone, pure_run]

end Operators

/-- A type without operators is what its reference is, where nothing goes on with it. -/
theorem type_of_reference (hToken : s.lexeme.token = .name word false) (hWord : word ∉ typeWords) (hRest : EndsType rest)
    (hRead : ∀ mode, typeReference (Env.tsx mode level) s = some ((), .facing position rest previousStop)) :
    type (Env.tsx mode level) s = some ((), .facing position rest previousStop) := by
  have hName : ∀ w ∈ typeWords, s.lexeme.token ≠ .name w false := by
    rintro w hw hSame
    rw [hToken] at hSame
    cases hSame
    exact hWord hw
  have hPunct : ∀ p, s.lexeme.token ≠ .punct p := by
    intro p
    rw [hToken]
    rintro ⟨⟩
  have hPrimary : ∀ mode, primaryType (Env.tsx mode level) s = some (false, .facing position rest previousStop) := by
    intro mode
    have hNone : manyWithin (level + 1) (do if ← eat .bang then return some () else return none) (Env.tsx mode level) s =
        some ([], s) := by
      refine manyWithin_none ?_
      rw [bind_run, eat_of_ne (hPunct _)]
      rfl
    simp only [primaryType, bind_run, many_run, Env.tsx_level, hNone, Option.bind_some, token_run, hToken,
      namedType_reference hName, hRead, pure_run]
  have hOperator : operatorType (Env.tsx mode level) s = some ((), .facing position rest previousStop) :=
    operatorType_of_postfix (fun w hw => hName w (by revert w; decide)) fun mode =>
      postfixType_of_primary hRest (hPrimary mode)
  have hUnion := joinedTypes_of_operand hRest (hPunct .bar) (by decide)
    (joinedTypes_of_operand hRest (hPunct .ampersand) (by decide) hOperator)
  have hFunction : startsFunctionType (Env.tsx mode level) s = some (false, s) := by
    simp only [startsFunctionType, bind_run, atPunct_run, beq_eq_false_iff_ne.mpr (hPunct _),
      atWord_of_ne (hName "new".toList (by decide)), atWord_of_ne (hName "abstract".toList (by decide)), Option.bind_some,
      Bool.or_self, Bool.false_eq_true, if_false, pure_run]
  have hExtends : atWord "extends" (Env.tsx mode level) (.facing position rest previousStop) =
      some (false, .facing position rest previousStop) := atWord_of_ne (hRest.ne_name position _)
  simp only [type, bind_run, hFunction, Option.bind_some, Bool.false_eq_true, if_false, hUnion, mode_run, onNewLine_run,
    hExtends, Bool.and_false, ite_run, pure_run]

end Rule

/-- The name of a type: a name, or one behind another and a dot. -/
inductive IsTypeName : Text → Prop
  | plain {word : Text} : IsIdentifier word → word ∉ typeWords → IsTypeName word
  | member {space word : Text} : IsIdentifier space → space ∉ typeWords → IsIdentifier word →
      IsTypeName (space ++ '.' :: word)

/-- A text that is a type, whatever ends it. -/
structure IsType (text : Text) : Prop where
  begins : ∃ c more, text = c :: more ∧ isNameStart c = true
  reads : ∀ {mode : Mode} {level position previousStop : Nat} {rest : Text}, 2 * text.length ≤ level →
    EndsType rest →
    Rule.type (Env.tsx mode level) (.facing position (text ++ rest) previousStop) =
      some ((), .facing (position + text.length) rest (position + text.length))

section Names

variable {mode : Mode} {level : Nat} {name rest : Text}

theorem IsTypeName.exists_cons (h : IsTypeName name) : ∃ c more, name = c :: more ∧ isNameStart c = true := by
  cases h with
  | plain hWord =>
      obtain ⟨c, more, rfl, hc, -⟩ := hWord.exists_cons
      exact ⟨c, more, rfl, hc⟩
  | member hSpace =>
      obtain ⟨c, more, rfl, hc, -⟩ := hSpace.exists_cons
      exact ⟨c, _, rfl, hc⟩

/-- The name of a type is no word that types begin with. -/
theorem IsTypeName.token (h : IsTypeName name) (hEnds : EndsWord rest) (position : Nat) :
    ∃ word, word ∉ typeWords ∧ (Lexeme.next false position false (name ++ rest)).token = .name word false := by
  cases h with
  | plain hName hWord =>
      refine ⟨name, hWord, ?_⟩
      rw [next_word _ _ hName hEnds]
      rfl
  | member hName hWord =>
      rename_i space word hMember
      refine ⟨space, hWord, ?_⟩
      rw [List.append_assoc, List.cons_append, next_word _ _ hName (endsWord_cons (by decide) (by decide) _)]
      rfl

theorem Rule.name_word {word : Text} (h : IsIdentifier word) (hEnds : EndsWord rest) (position previousStop : Nat) :
    Rule.name (Env.tsx mode level) (.facing position (word ++ rest) previousStop) =
      some (word, .facing (position + word.length) rest (position + word.length)) := by
  rw [facing_word h hEnds, ← facing_cut (.name word false) _ rest position false]
  rfl

def dottedName : Rule (Option Text) := do
  if ← Rule.eat .dot then return some (← Rule.name) else return none

theorem dottedNames_eq : Rule.dottedNames = (do let _ ← Rule.many dottedName) := rfl

/-- A name without a dot behind it has no more parts. -/
theorem dottedName_none (hDot : ∀ q, (Lexeme.next false q false rest).token ≠ .punct .dot) (position : Nat) :
    dottedName (Env.tsx mode level) (.facing position rest position) = some (none, .facing position rest position) := by
  rw [dottedName, Rule.bind_run, Rule.eat_facing_of_ne (hDot position)]
  rfl

/-- The name of a type is read up to what is no part of it. -/
theorem typeReference_name (h : IsTypeName name) (hEnds : EndsWord rest)
    (hDot : ∀ q, (Lexeme.next false q false rest).token ≠ .punct .dot) (hLevel : 0 < level)
    (position previousStop : Nat) :
    Rule.typeReference (Env.tsx mode level) (.facing position (name ++ rest) previousStop) =
      Rule.optionalTypeArguments (Env.tsx mode level)
        (.facing (position + name.length) rest (position + name.length)) := by
  obtain ⟨below, rfl⟩ := Nat.exists_eq_add_one_of_ne_zero (Nat.ne_of_gt hLevel)
  rw [Rule.typeReference, dottedNames_eq]
  cases h with
  | plain hName =>
      simp only [Rule.bind_run, Rule.name_word hName hEnds, Option.bind_some, Rule.many_run, Env.tsx_level,
        Rule.manyWithin_none (dottedName_none hDot _)]
      rfl
  | member hSpace hMeaning hName =>
      rename_i space word
      obtain ⟨c, more, hText, hc, -⟩ := hName.exists_cons
      have hWhole : space ++ '.' :: word ++ rest = space ++ '.' :: (word ++ rest) := by simp
      have hPosition : position + (space ++ '.' :: word).length = position + space.length + 1 + word.length := by
        simp
        omega
      have hEat : ∀ q, Rule.eat .dot (Env.tsx mode (below + 1)) (.facing q ('.' :: (word ++ rest)) q) =
          some (true, .facing (q + 1) (word ++ rest) (q + 1)) := by
        intro q
        rw [hText, List.cons_append, State.facing, next_dot _ _ hc, Rule.eat_of_eq rfl]
        rfl
      have hPart : ∀ q, dottedName (Env.tsx mode (below + 1)) (.facing q ('.' :: (word ++ rest)) q) =
          some (some word, .facing (q + 1 + word.length) rest (q + 1 + word.length)) := by
        intro q
        rw [dottedName]
        simp only [Rule.bind_run, hEat, Option.bind_some, Rule.ite_run, if_true, Rule.name_word hName hEnds, Rule.pure_run]
      have hNone : ∀ q, Rule.manyWithin (below + 1) dottedName (Env.tsx mode (below + 1)) (.facing q rest q) =
          some ([], .facing q rest q) := fun q => Rule.manyWithin_none (dottedName_none hDot q)
      have hMany := Rule.manyWithin_some (hPart (position + space.length)) (hNone _)
      rw [hWhole, hPosition]
      have hEndsSpace : EndsWord ('.' :: (word ++ rest)) := endsWord_cons (by decide) (by decide) _
      simp only [Rule.bind_run, Rule.name_word hSpace hEndsSpace, Option.bind_some, Rule.many_run, Env.tsx_level, hMany]
      rfl

theorem EndsType.endsWord (h : EndsType rest) : EndsWord rest := by
  cases h with
  | closes hCloses => exact hCloses.endsWord
  | angle rest => exact endsWord_cons (by decide) (by decide) _

/-- A name is a type. -/
theorem isType_name (h : IsTypeName name) : IsType name := by
  obtain ⟨c, more, hName, hc⟩ := h.exists_cons
  refine ⟨⟨c, more, hName, hc⟩, ?_⟩
  intro mode level position previousStop rest hLevel hRest
  obtain ⟨word, hWord, hToken⟩ := h.token hRest.endsWord position
  have hSome : 0 < level := by
    rw [hName, List.length_cons] at hLevel
    omega
  refine Rule.type_of_reference hToken hWord hRest fun mode => ?_
  have hAngles : Rule.atAnyPunct [.less, .shiftLeft] (Env.tsx mode level)
      (.facing (position + name.length) rest (position + name.length)) =
      some (false, .facing (position + name.length) rest (position + name.length)) :=
    Rule.atAnyPunct_of_forall_ne fun p hp => hRest.ne_punct _ (by revert p; decide)
  rw [typeReference_name h hRest.endsWord (fun q => hRest.ne_punct q (by decide)) hSome, Rule.optionalTypeArguments]
  simp only [Rule.bind_run, Rule.onNewLine_run, hAngles, Option.bind_some, Bool.and_false, Bool.false_eq_true, if_false,
    Rule.ite_run, Rule.pure_run]

end Names

section Arguments

variable {mode : Mode} {level : Nat} {text rest : Text} {texts : List Text}

theorem IsType.isItem (h : IsType text) (hLevel : 2 * text.length < level) :
    IsItem Rule.enclosedType .greater EndsType mode level text where
  begins := by
    obtain ⟨c, more, hText, hc⟩ := h.begins
    exact ⟨c, more, hText, beginsToken_of_isNameStart hc⟩
  opens := by
    intro position rest _
    obtain ⟨c, more, rfl, hc⟩ := h.begins
    exact next_ne_punct _ _ hc _ _
  reads := by
    intro position previousStop rest hRest
    obtain ⟨below, rfl⟩ := Nat.exists_eq_add_one_of_ne_zero (Nat.ne_zero_of_lt hLevel)
    exact ⟨(), h.reads (by omega) hRest⟩

/-- An angle bracket in front of types stands alone. -/
theorem facing_types (h : ∀ t ∈ text :: texts, IsType t) (position previousStop : Nat) (rest : Text) :
    State.facing position ('<' :: (Text.join ", ".toList (text :: texts) ++ rest)) previousStop =
      .on (Lexeme.cut (.punct .less) position 1 ('<' :: (Text.join ", ".toList (text :: texts) ++ rest)) false)
        previousStop := by
  obtain ⟨c, more, hJoin, hc⟩ : ∃ c more, Text.join ", ".toList (text :: texts) = c :: more ∧ isNameStart c = true := by
    obtain ⟨c, more, rfl, hc⟩ := (h text List.mem_cons_self).begins
    cases texts with
    | nil => exact ⟨c, more, rfl, hc⟩
    | cons t texts =>
        refine ⟨c, more ++ ", ".toList ++ Text.join ", ".toList (t :: texts), ?_, hc⟩
        rw [Text.join, List.append_assoc, List.cons_append, List.append_assoc]
        rintro ⟨⟩
  rw [hJoin, List.cons_append, State.facing, next_less _ _ hc]

/-- Types between angle brackets are read up to the closing one. -/
theorem typeList_join (mode : Mode) (h : ∀ t ∈ text :: texts, IsType t)
    (hLevel : 2 * (Text.join ", ".toList (text :: texts)).length < level) (position previousStop : Nat) (rest : Text) :
    Rule.typeList (Env.tsx mode level)
        (.facing position ('<' :: (Text.join ", ".toList (text :: texts) ++ '>' :: rest)) previousStop) =
      some ((), .facing (position + 1 + (Text.join ", ".toList (text :: texts)).length) ('>' :: rest)
        (position + 1 + (Text.join ", ".toList (text :: texts)).length)) := by
  have hItems : ∀ t ∈ text :: texts, IsItem Rule.enclosedType .greater EndsType mode level t := by
    intro t ht
    have hShort := length_le_join ht
    exact (h t ht).isItem (by omega)
  have hCount := length_texts_le_join text texts
  obtain ⟨found, hFound⟩ := commaList_join hItems (fun more => .closes (.comma more)) (.angle rest)
    (fun _ => rfl) (by decide) (by omega) (position + 1) (position + 1)
  have hSplit : ∀ s : Text, Rule.splitLess (Env.tsx mode level)
      (.on (Lexeme.cut (.punct .less) position 1 ('<' :: s) false) previousStop) =
      some (true, .on (Lexeme.cut (.punct .less) position 1 ('<' :: s) false) previousStop) := fun _ => rfl
  have hStep : ∀ s : Text, Rule.step (Env.tsx mode level)
      (.on (Lexeme.cut (.punct .less) position 1 ('<' :: s) false) previousStop) =
      some ((), .facing (position + 1) s (position + 1)) := fun _ => rfl
  rw [facing_types h, Rule.typeList]
  simp only [Rule.bind_run, hSplit, Option.bind_some, Bool.not_true, Bool.false_eq_true, if_false, Rule.ite_run, hStep,
    hFound, Rule.pure_run]

/-- The angle bracket that ends a list of types is taken alone. -/
theorem expectGreater_run (position previousStop : Nat) :
    Rule.expectGreater (Env.tsx mode level) (.facing position ('>' :: rest) previousStop) =
      some ((), .facing (position + 1) rest (position + 1)) := rfl

/-- Type arguments are read one by one. -/
theorem optionalTypeArguments_join (h : ∀ t ∈ text :: texts, IsType t)
    (hLevel : 2 * (Text.join ", ".toList (text :: texts)).length < level) (position previousStop : Nat) :
    Rule.optionalTypeArguments (Env.tsx mode level)
        (.facing position ('<' :: (Text.join ", ".toList (text :: texts) ++ '>' :: rest)) previousStop) =
      some ((), .facing (position + 1 + (Text.join ", ".toList (text :: texts)).length + 1) rest
        (position + 1 + (Text.join ", ".toList (text :: texts)).length + 1)) := by
  have hOpens : ∀ s : Text, Rule.optionalTypeArguments (Env.tsx mode level)
      (.on (Lexeme.cut (.punct .less) position 1 ('<' :: s) false) previousStop) =
      Rule.typeArguments (Env.tsx mode level)
        (.on (Lexeme.cut (.punct .less) position 1 ('<' :: s) false) previousStop) := fun _ => rfl
  have hList := typeList_join mode h hLevel position previousStop rest
  rw [facing_types h] at hList ⊢
  rw [hOpens, Rule.typeArguments, Rule.bind_run, hList, Option.bind_some, expectGreater_run]

/-- A name with types between angle brackets behind it is a type. -/
theorem isType_applied {name : Text} (hName : IsTypeName name) (h : ∀ t ∈ text :: texts, IsType t) :
    IsType (name ++ '<' :: Text.join ", ".toList (text :: texts) ++ ['>']) := by
  obtain ⟨c, more, hText, hc⟩ := hName.exists_cons
  have hWhole : ∀ rest : Text, name ++ '<' :: Text.join ", ".toList (text :: texts) ++ ['>'] ++ rest =
      name ++ '<' :: (Text.join ", ".toList (text :: texts) ++ '>' :: rest) := by simp
  have hLength : (name ++ '<' :: Text.join ", ".toList (text :: texts) ++ ['>']).length =
      name.length + 1 + (Text.join ", ".toList (text :: texts)).length + 1 := by
    rw [List.length_append, List.length_append, List.length_cons, List.length_singleton]
    omega
  refine ⟨⟨c, more ++ '<' :: Text.join ", ".toList (text :: texts) ++ ['>'], by simp [hText], hc⟩, ?_⟩
  intro mode level position previousStop rest hLevel hRest
  rw [hLength] at hLevel ⊢
  have hEnds : EndsWord ('<' :: (Text.join ", ".toList (text :: texts) ++ '>' :: rest)) :=
    endsWord_cons (by decide) (by decide) _
  obtain ⟨word, hWord, hToken⟩ := hName.token hEnds position
  have hAngle := fun q : Nat => facing_types h q 0 ('>' :: rest)
  have hDot : ∀ q : Nat, (Lexeme.next false q false
      ('<' :: (Text.join ", ".toList (text :: texts) ++ '>' :: rest))).token ≠ .punct .dot := by
    intro q hDot
    have hLess := congrArg (·.lexeme.token) (hAngle q)
    simp only [State.facing_lexeme, State.on_lexeme, hDot] at hLess
    cases hLess
  rw [hWhole]
  refine Rule.type_of_reference hToken hWord hRest fun mode => ?_
  rw [typeReference_name hName hEnds hDot (by omega), optionalTypeArguments_join h (by omega)]
  congr 3
  all_goals omega

end Arguments

section Assertions

variable {s s₁ s₂ : State} {operand : Operand}

/-- The word of an assertion is an operator with a type on its right. -/
theorem Rule.binaryStep_as {env : Env} (hTypes : env.dialect.hasTypes = true)
    (hToken : s.lexeme.token = .name "as".toList false) (hLine : s.lexeme.newline = false)
    (hStep : Rule.step env s = some ((), s₁)) (hRead : Rule.enclosedType env s₁ = some ((), s₂)) :
    Rule.binaryStep 0 operand env s = some (some (operand.wrapped operand.start .other, true), s₂) := by
  have hJoin : Rule.joinGreater env s = some ((), s) := Rule.joinGreater_of_ne (by rw [hToken]; rintro ⟨⟩)
  have hPrecedence : Rule.precedence? (.name "as".toList false) = some .relation := rfl
  have hYields : Rule.Precedence.relation.yieldsTo 0 = false := by decide
  have hIn : Rule.atWord "in" env s = some (false, s) := Rule.atWord_of_ne (by rw [hToken]; decide)
  have hWord : Rule.atAnyWord ["as", "satisfies"] env s = some (true, s) := by
    simp only [Rule.atAnyWord, Rule.bind_run, Rule.token_run, hToken, Option.bind_some]
    rfl
  simp only [Rule.binaryStep, Rule.bind_run, hJoin, Option.bind_some, Rule.token_run, hToken, hPrecedence, hYields,
    Bool.false_eq_true, if_false, hIn, Rule.mode_run, Bool.false_and, hWord, if_true, Rule.dialect_run, hTypes,
    Bool.true_and, Rule.onNewLine_run, hLine, hStep, Rule.assertionRest, hRead, Rule.pure_run, Rule.ite_run]

variable {mode : Mode} {level position : Nat} {text rest : Text}

/-- An operand may be asserted to have a type. -/
theorem Rule.binary_as (hOpens : ∀ word, s.lexeme.token ≠ .privateName word)
    (hRead : Rule.unary (Env.tsx mode level) s =
      some (operand, .facing position (" as ".toList ++ (text ++ rest)) position))
    (hType : IsType text) (hLevel : 2 * text.length < level) (hRest : Closes rest) :
    Rule.binary 0 (Env.tsx mode level) s = some (operand.wrapped operand.start .other,
      .facing (position + 4 + text.length) rest (position + 4 + text.length)) := by
  have hName : IsIdentifier "as".toList := by decide
  have hBegins : BeginsToken (text ++ rest) := by
    obtain ⟨c, more, hText, hc⟩ := hType.begins
    exact BeginsToken.append ⟨c, more, hText, beginsToken_of_isNameStart hc⟩ rest
  have hFacing : State.facing position (" as ".toList ++ (text ++ rest)) position =
      .on (Lexeme.cut (.name "as".toList false) (position + 1) 2 ("as".toList ++ ' ' :: (text ++ rest)) false)
        position := by
    have hText : " as ".toList ++ (text ++ rest) = ' ' :: ("as".toList ++ ' ' :: (text ++ rest)) := rfl
    have hFirst : BeginsToken ("as".toList ++ ' ' :: (text ++ rest)) := ⟨'a', _, rfl, by decide⟩
    rw [hText, facing_blank hFirst, facing_word hName (endsWord_cons (by decide) (by decide) _)]
    rfl
  have hBehind := facing_cut (.name "as".toList false) "as".toList (' ' :: (text ++ rest)) (position + 1) false
  rw [facing_blank hBegins] at hBehind
  obtain ⟨below, rfl⟩ := Nat.exists_eq_add_one_of_ne_zero (Nat.ne_zero_of_lt hLevel)
  have hEnclosed : Rule.enclosedType (Env.tsx mode (below + 1)) (.facing (position + 4) (text ++ rest) (position + 3)) =
      some ((), .facing (position + 4 + text.length) rest (position + 4 + text.length)) :=
    hType.reads (by omega) (.closes hRest)
  have hStep : Rule.step (Env.tsx mode (below + 1)) (.on (Lexeme.cut (.name "as".toList false) (position + 1) 2
      ("as".toList ++ ' ' :: (text ++ rest)) false) position) =
      some ((), .facing (position + 4) (text ++ rest) (position + 3)) := congrArg (fun s => some ((), s)) hBehind
  have hAs : Rule.binaryStep 0 operand (Env.tsx mode (below + 1)) _ = _ :=
    Rule.binaryStep_as rfl rfl rfl hStep hEnclosed
  rw [← hFacing] at hAs
  have hNone : Rule.binaryStep 0 (operand.wrapped operand.start .other) (Env.tsx mode (below + 1))
      (.facing (position + 4 + text.length) rest (position + 4 + text.length)) =
      some (none, .facing (position + 4 + text.length) rest (position + 4 + text.length)) :=
    Rule.binaryStep_of_closes (hRest.token _) 0
  generalize State.facing position (" as ".toList ++ (text ++ rest)) position = word at hRead hAs
  cases hFirst : s.lexeme.token with
  | privateName word => exact absurd hFirst (hOpens word)
  | _ => simp [Rule.binary, hFirst, hRead, Rule.extendWithin, hAs, hNone]

end Assertions

end IconRegistry.Script
