import IconRegistry.Proofs.Script.Meeting

/-! The top of a script, in any dialect: imports of one name each, and the export of one constant. A statement of these
kinds is read the same in all dialects, but for an import of a type where there are no types. -/
namespace IconRegistry.Script

namespace Rule

variable {dialect : Dialect} {level : Nat} {s s' : State}

section Imports

variable {name source : Text} {s₁ s₂ s₃ s₄ s₅ s₆ s₇ : State}

/-- A name that an import may bind, and that marks no type. -/
structure IsImportable (name : Text) : Prop where
  isIdentifier : IsIdentifier name
  free : isReserved name = false
  ne_type : name ≠ "type".toList
  ne_await : name ≠ "await".toList

/-- A name in braces is imported as it is called. -/
theorem specifier_of_meets (h : IsImportable name) (hName : s.Meets dialect (.name name false) s₁)
    (hClose : s₁.Meets dialect (.punct .rightBrace) s₂) :
    specifier (Env.outer dialect level) s = some (.single ⟨name, true⟩ false, s₁) := by
  have hType : s.lexeme.token ≠ .name "type".toList false := by
    rw [hName.token]
    rintro ⟨⟩
    exact h.ne_type rfl
  have hAs : s₁.lexeme.token ≠ .name "as".toList false := hClose.token_ne (by rintro ⟨⟩)
  have hSpecifierName : specifierName (Env.outer dialect level) s = some (⟨name, true⟩, s₁) := by
    simp [specifierName, hName.token, hName.step_outer, h.free]
  simp only [specifier, bind_run, dialect_run, Option.bind_some, atWord_of_ne hType, Bool.and_false, Bool.false_eq_true,
    if_false, hSpecifierName, specifierFrom, eatWord_of_ne hAs, pure_run]

/-- The braces of an import hold the name that is read there. -/
theorem importedItems_of_meets (h : IsImportable name) (hOpen : s.Meets dialect (.punct .leftBrace) s₁)
    (hName : s₁.Meets dialect (.name name false) s₂) (hClose : s₂.Meets dialect (.punct .rightBrace) s₃)
    (typeOnly : Bool) :
    importedItems typeOnly (Env.outer dialect (level + 2)) s = some ([.single ⟨name, true⟩ false], s₃) := by
  have hFirst : s₁.lexeme.token ≠ .punct .rightBrace := hName.token_ne (by rintro ⟨⟩)
  have hComma : s₂.lexeme.token ≠ .punct .comma := hClose.token_ne (by rintro ⟨⟩)
  have hItem : commaItem .rightBrace specifier (Env.outer dialect (level + 2)) s₁ =
      some (some (.single ⟨name, true⟩ false, false), s₂) := by
    simp only [commaItem, bind_run, atPunct_run, beq_eq_false_iff_ne.mpr hFirst, Option.bind_some, Bool.false_eq_true,
      if_false, specifier_of_meets h hName hClose, eat_of_ne hComma, hClose.token, beq_self_eq_true, Bool.not_true,
      Bool.and_false, pure_run]
  have hList : commaList .rightBrace specifier (Env.outer dialect (level + 2)) s₁ =
      some (([.single ⟨name, true⟩ false], false), s₂) := by
    rw [commaList_eq]
    simp only [bind_run, many_run, Env.outer_level,
      manyWithin_some hItem (manyWithin_none (commaItem_close hClose.token)), Option.bind_some, pure_run]
    rfl
  have hSpecifiers : specifiers typeOnly (Env.outer dialect (level + 2)) s =
      some ([.single ⟨name, true⟩ false], s₃) := by
    simp only [specifiers, bind_run, expect_of_meets hOpen, hList, Option.bind_some, expect_of_meets hClose,
      Specifier.single, List.any_cons, List.any_nil, Bool.or_self, Bool.and_false, flawIf_false, pure_run]
  have hAwait : (name == "await".toList) = false := by simpa using h.ne_await
  simp only [importedItems, bind_run, hSpecifiers, Option.bind_some, Specifier.single, List.any_cons, List.any_nil,
    Bool.not_true, Bool.or_self, Bool.false_eq_true, if_false, mode_run, hAwait, Bool.and_false, flawIf_false, pure_run]

/-- A string that is met is the source of an import. -/
theorem sourceClause_of_meets (hSource : s.Meets dialect (.string source) s₁)
    (hEnd : s₁.Meets dialect (.punct .semicolon) s₂) :
    sourceClause (Env.outer dialect level) s = some (source, s₂) := by
  have hWith : s₁.lexeme.token ≠ .name "with".toList false := hEnd.token_ne (by rintro ⟨⟩)
  have hAssert : s₁.lexeme.token ≠ .name "assert".toList false := hEnd.token_ne (by rintro ⟨⟩)
  have hAttributes : sourceAttributes (Env.outer dialect level) s₁ = some ((), s₁) := by
    simp only [sourceAttributes, bind_run, atWord_of_ne hWith, atWord_of_ne hAssert, Option.bind_some, onNewLine_run,
      Bool.false_and, Bool.or_self, Bool.false_eq_true, if_false, pure_run]
  simp only [sourceClause, bind_run, string_of_meets hSource, hAttributes, endStatement_of_meets hEnd, Option.bind_some,
    pure_run]

/-- In front of a brace nothing stands between the word `import` and the names. -/
theorem importHead_brace (h : s.lexeme.token = .punct .leftBrace) :
    importHead (Env.outer dialect level) s = some ((false, false), s) := by
  rw [importHead, bind_run, atIdentifier_of_punct h]
  rfl

/-- The word `type` in front of a brace marks what is imported where there are types; elsewhere it is a name. -/
theorem importHead_type (hType : s.Meets dialect (.name "type".toList false) s₁)
    (hOpen : s₁.lexeme.token = .punct .leftBrace) :
    importHead (Env.outer dialect level) s = some ((dialect.hasTypes, !dialect.hasTypes), s₁) := by
  have hFree : isReserved "type".toList = false := by decide
  have hName : atIdentifier (Env.outer dialect level) s = some (true, s) := by
    rw [atIdentifier_of_name hType.token, hFree]
    rfl
  have hAt : atWord "type" (Env.outer dialect level) s = some (true, s) := by
    rw [atWord_run, hType.token, beq_self_eq_true]
  have hDefer : s.lexeme.token ≠ .name "defer".toList false := hType.token_ne (by decide)
  have hOrigin : s.lexeme.token ≠ .name "source".toList false := hType.token_ne (by decide)
  have hIdentifier : identifier (Env.outer dialect level) s = some ("type".toList, s₁) :=
    identifier_of_meets hType rfl rfl hFree (fun _ => by decide)
  have hModifies : modifiesImport (Env.outer dialect level) s₁ = some (true, s₁) := by
    simp [modifiesImport, atAnyPunct, hOpen]
  have hTypes : (Env.outer dialect level).dialect = dialect := rfl
  simp only [importHead, bind_run, hName, Option.bind_some, Bool.not_true, Bool.false_eq_true, if_false, dialect_run,
    hTypes, ite_run, hAt, atWord_of_ne hDefer, atWord_of_ne hOrigin, pure_run, hIdentifier]
  cases dialect.hasTypes <;>
    simp only [Bool.false_eq_true, if_false, if_true, Bool.not_false, Bool.not_true, Option.bind_some, hModifies,
      atIdentifier_of_punct hOpen]

/-- An import of one name is read as its source and that name. -/
theorem importStatement_of_head {typeOnly : Bool} (h : IsImportable name)
    (hImport : s.Meets dialect (.name "import".toList false) s₁)
    (hHead : importHead (Env.outer dialect (level + 2)) s₁ = some ((typeOnly, false), s₂))
    (hOpen : s₂.Meets dialect (.punct .leftBrace) s₃) (hName : s₃.Meets dialect (.name name false) s₄)
    (hClose : s₄.Meets dialect (.punct .rightBrace) s₅) (hFrom : s₅.Meets dialect (.name "from".toList false) s₆)
    (hSource : s₆.Meets dialect (.string source) s₇) (hEnd : s₇.Meets dialect (.punct .semicolon) s') :
    importStatement (Env.outer dialect (level + 2)) s =
      some (.imports ⟨source, [name], typeOnly, s.lexeme.start, s'.previousStop⟩, s') := by
  have hString : atString (Env.outer dialect (level + 2)) s₂ = some (false, s₂) := by
    simp only [atString, bind_run, token_run, hOpen.token, Option.bind_some, pure_run]
  have hStar : s₂.lexeme.token ≠ .punct .star := hOpen.token_ne (by rintro ⟨⟩)
  have hBindings : importBindings typeOnly (Env.outer dialect (level + 2)) s₂ =
      some ([.single ⟨name, true⟩ false], s₅) := by
    simp only [importBindings, bind_run, eat_of_ne hStar, Option.bind_some, Bool.false_eq_true, if_false,
      importedItems_of_meets h hOpen hName hClose]
  simp only [importStatement, bind_run, position_run, Option.bind_some, expectWord_of_meets hImport, hHead, hString,
    Bool.false_eq_true, if_false, Bool.false_and, pure_run, if_true, hBindings, expectWord_of_meets hFrom,
    sourceClause_of_meets hSource hEnd, previousStop_run, atPunct_run, atWord_run]
  rfl

/-- An import of a type is none where there are no types. -/
theorem importStatement_type_eq_none (hTypes : dialect.hasTypes = false)
    (hImport : s.Meets dialect (.name "import".toList false) s₁)
    (hType : s₁.Meets dialect (.name "type".toList false) s₂)
    (hOpen : s₂.lexeme.token = .punct .leftBrace) : importStatement (Env.outer dialect level) s = none := by
  have hString : atString (Env.outer dialect level) s₂ = some (false, s₂) := by
    simp only [atString, bind_run, token_run, hOpen, Option.bind_some, pure_run]
  have hComma : (s₂.lexeme.token == .punct .comma) = false := by
    rw [hOpen]
    rfl
  have hFrom : s₂.lexeme.token ≠ .name "from".toList false := by
    rw [hOpen]
    rintro ⟨⟩
  have hDialect : (Env.outer dialect level).dialect.hasTypes = false := hTypes
  simp only [importStatement, bind_run, position_run, Option.bind_some, expectWord_of_meets hImport,
    importHead_type hType hOpen, hTypes, hString, Bool.false_eq_true, if_false, Bool.not_false, Bool.true_and,
    atPunct_run, hComma, atWord_of_ne hFrom, if_true, dialect_run, hDialect]
  rfl

end Imports

section Statements

variable {s₁ : State}

/-- A statement that begins with a name has no decorators. -/
theorem decorators_of_name {word : Text} (h : s.lexeme.token = .name word false) :
    decorators (Env.outer dialect (level + 1)) s = some (false, s) := by
  refine decorators_of_ne (Nat.succ_pos level) ?_
  rw [h]
  rintro ⟨⟩

/-- Behind the word of an import stands neither the parenthesis of a call nor a dot. -/
theorem statement_import (hImport : s.Meets dialect (.name "import".toList false) s₁)
    (hOther : ∀ p ∈ [Punct.leftParen, .dot], s₁.lexeme.token ≠ .punct p) :
    statement .list (Env.outer dialect (level + 1)) s =
      (importStatement (Env.outer dialect (level + 1)) s).map fun r => (⟨s.lexeme.start, r.1⟩, r.2) := by
  have hDecorated : decorators (Env.outer dialect (level + 1)) s = some (false, s) :=
    decorators_of_name hImport.token
  have hAt : atImportStatement (Env.outer dialect (level + 1)) s = some (true, s) := by
    have hAhead : afterToken (do return !(← atAnyPunct [.leftParen, .dot])) (Env.outer dialect (level + 1)) s =
        some (true, s) := by
      refine ahead_run _ _ (?_ : _ = some (true, s₁))
      simp only [bind_run, hImport.step_outer, Option.bind_some, atAnyPunct_of_forall_ne hOther, pure_run]
      rfl
    have hWord : atWord "import" (Env.outer dialect (level + 1)) s = some (true, s) := by
      rw [atWord_run, hImport.token, beq_self_eq_true]
    simp only [atImportStatement, bind_run, hWord, Option.bind_some, if_true, hAhead]
  simp only [statement, bind_run, position_run, Option.bind_some, hDecorated,
    Bool.false_eq_true, if_false, pure_run, hAt, if_true]
  cases importStatement (Env.outer dialect (level + 1)) s <;> rfl

end Statements

section Exports

variable {name : Text} {operand : Operand} {s₀ s₁ s₂ s₃ s₄ : State}

/-- A name is a modifier if the table of words has it. -/
theorem currentModifier_of_name {env : Env} {word : Text} (h : s.lexeme.token = .name word false) :
    currentModifier env s = some (Modifier.ofWord? (String.ofList word), s) := by
  simp only [currentModifier, bind_run, token_run, h, Option.bind_some, pure_run]

/-- The word of a constant is no modifier of an enumeration. -/
theorem modifiers_const (hConst : s.Meets dialect (.name "const".toList false) s₁)
    (hEnum : s₁.lexeme.token ≠ .name "enum".toList false) :
    modifiers .declaration (Env.outer dialect (level + 1)) s = some ([], s) := by
  have hCurrent : currentModifier (Env.outer dialect (level + 1)) s = some (some .const, s) :=
    currentModifier_of_name hConst.token
  have hAhead : afterToken (letsModify .declaration .const) (Env.outer dialect (level + 1)) s = some (false, s) := by
    refine ahead_run _ _ (?_ : _ = some (false, s₁))
    simp only [bind_run, hConst.step_outer, Option.bind_some]
    exact atWord_of_ne hEnum
  have hNone : (do return (← modifier .declaration []).map ([] ++ [·]) : Rule (Option (List Modifier)))
      (Env.outer dialect (level + 1)) s = some (none, s) := by
    have hModifier : modifier .declaration [] (Env.outer dialect (level + 1)) s = some (none, s) := by
      rw [modifier, bind_run, hCurrent, Option.bind_some]
      have hStatic : (Modifier.const == .static) = false := by decide
      simp only [hStatic, Bool.false_eq_true, if_false, bind_run, hAhead, Option.bind_some, pure_run]
    simp only [bind_run, hModifier, Option.bind_some, pure_run, Option.map_none]
  rw [modifiers, extend_run, Env.outer_level, extendWithin_none hNone]

/-- What may be the name of a constant at the top of a script. -/
structure IsBindable (dialect : Dialect) (name : Text) : Prop where
  isIdentifier : IsIdentifier name
  free : isReserved name = false
  ne_await : dialect.isModule = true → name ≠ "await".toList

/-- A constant has the value that is read behind its equals sign. -/
theorem variableBinding_of_meets (h : IsBindable dialect name) (hName : s.Meets dialect (.name name false) s₁)
    (hAssign : s₁.Meets dialect (.punct .assign) s₂)
    (hValue : readGoal dialect (level + 1) (.assignment true) (topMode dialect) s₂ = some (operand, s₃)) :
    variableBinding (Env.outer dialect (level + 1)) s =
      some (⟨⟨some name, operand.object?⟩, [name], false, true⟩, s₃) := by
  have hOther : ∀ p, s.lexeme.token ≠ .punct p := fun _ => hName.token_ne (by rintro ⟨⟩)
  have hAtName : atName (Env.outer dialect (level + 1)) s = some (true, s) := by
    simp only [atName, bind_run, token_run, hName.token, Option.bind_some, pure_run]
  have hBinding : goal .binding (Env.outer dialect (level + 1)) s = some ([name], s₁) := by
    have hIdentifier : identifier ⟨dialect, topMode dialect, level + 1, readGoal dialect level⟩ s = some (name, s₁) :=
      identifier_of_meets hName rfl rfl h.free h.ne_await
    change binding ⟨dialect, topMode dialect, level + 1, readGoal dialect level⟩ s = some ([name], s₁)
    simp only [binding, bind_run, eat_of_ne (hOther _), Option.bind_some, Bool.false_eq_true, if_false, hIdentifier,
      pure_run]
  have hNone : ∀ p ∈ [Punct.bang, .question, .colon], s₁.lexeme.token ≠ .punct p := by
    rw [hAssign.token]
    decide
  have hBang : (s₁.lexeme.token == .punct .bang) = false := beq_eq_false_iff_ne.mpr (hNone _ (by decide))
  have hAnnotation : typeAnnotation (Env.outer dialect (level + 1)) s₁ = some (false, s₁) := by
    unfold typeAnnotation
    rw [bind_run, dialect_run, Option.bind_some]
    cases (Env.outer dialect (level + 1)).dialect.hasTypes <;>
      simp only [bind_run, eat_of_ne (hNone .colon (by decide)), pure_run, Option.bind_some, Bool.false_eq_true,
        if_false, if_true]
  have hGoal : goal (.assignment true) (Env.outer dialect (level + 1)) s₂ = some (operand, s₃) := hValue
  rw [variableBinding, bind_run, hAtName]
  simp only [Option.bind_some, bind_run, Bool.not_true, hBinding, dialect_run]
  cases (Env.outer dialect (level + 1)).dialect.hasTypes <;>
    simp only [bind_run, atPunct_run, hBang, onNewLine_run, eat_of_ne (hNone .question (by decide)), hAnnotation,
      eat_of_meets hAssign, hGoal, Option.bind_some, Bool.false_and, Bool.false_eq_true, if_false, if_true, pure_run,
      List.head?_cons, ite_run]

/-- One constant with its value, and a semicolon behind it, are a declaration. -/
theorem variableDeclaration_of_meets (h : IsBindable dialect name) (hName : s.Meets dialect (.name name false) s₁)
    (hAssign : s₁.Meets dialect (.punct .assign) s₂)
    (hValue : readGoal dialect (level + 1) (.assignment true) (topMode dialect) s₂ = some (operand, s₃))
    (hEnd : s₃.Meets dialect (.punct .semicolon) s₄) :
    variableDeclaration .constant (Env.outer dialect (level + 1)) s =
      some (⟨[name], some [⟨some name, operand.object?⟩]⟩, s₄) := by
  have hComma : s₃.lexeme.token ≠ .punct .comma := hEnd.token_ne (by rintro ⟨⟩)
  have hNone : (do if ← eat .comma then return some (← variableBinding) else return none : Rule (Option Variable))
      (Env.outer dialect (level + 1)) s₃ = some (none, s₃) := by
    simp only [bind_run, eat_of_ne hComma, Option.bind_some, Bool.false_eq_true, if_false, pure_run]
  have hList : variableList .constant (Env.outer dialect (level + 1)) s =
      some ([⟨⟨some name, operand.object?⟩, [name], false, true⟩], s₃) := by
    rw [variableList, separated]
    simp only [bind_run, variableBinding_of_meets h hName hAssign hValue, Option.bind_some, many_run, Env.outer_level,
      manyWithin_none hNone, pure_run]
    rfl
  have hValues : checkValues .constant [⟨⟨some name, operand.object?⟩, [name], false, true⟩]
      (Env.outer dialect (level + 1)) s₃ = some ((), s₃) := rfl
  rw [variableDeclaration]
  simp only [bind_run, hList, hValues, endStatement_of_meets hEnd, Option.bind_some, pure_run]
  rfl

/-- A constant with a value that can be read is a declaration of its name. -/
theorem declaration_of_meets (h : IsBindable dialect name) (hConst : s.Meets dialect (.name "const".toList false) s₀)
    (hName : s₀.Meets dialect (.name name false) s₁) (hAssign : s₁.Meets dialect (.punct .assign) s₂)
    (hValue : readGoal dialect (level + 1) (.assignment true) (topMode dialect) s₂ = some (operand, s₃))
    (hEnd : s₃.Meets dialect (.punct .semicolon) s₄) :
    declaration (Env.outer dialect (level + 1)) s = some (⟨[name], some [⟨some name, operand.object?⟩]⟩, s₄) := by
  have hEnum : s₀.lexeme.token ≠ .name "enum".toList false := by
    rw [hName.token]
    rintro ⟨⟩
    exact absurd h.free (by decide)
  have hMode : ∀ rule : Rule Declaration,
      withMode (fun m => { m with ambient := m.ambient || [].contains Modifier.declare }) rule
        (Env.outer dialect (level + 1)) s = rule (Env.outer dialect (level + 1)) s := by
    have hSame : { topMode dialect with ambient := (topMode dialect).ambient || [].contains Modifier.declare } =
        topMode dialect := by
      simp
    exact fun rule => congrArg (fun mode => rule ⟨dialect, mode, level + 1, readGoal dialect (level + 1)⟩ s) hSame
  have hWords : atAnyWord ["var", "let", "const"] (Env.outer dialect (level + 1)) s = some (true, s) := by
    simp only [atAnyWord, bind_run, token_run, hConst.token, Option.bind_some]
    rfl
  have hConstant : atWord "const" (Env.outer dialect (level + 1)) s = some (true, s) := by
    rw [atWord_run, hConst.token, beq_self_eq_true]
  have hAllowed : allowModifiers [.declare] [] (Env.outer dialect (level + 1)) s₀ = some ((), s₀) := rfl
  have hUnmodified : declaration (Env.outer dialect (level + 1)) s =
      modifiedDeclaration [] (Env.outer dialect (level + 1)) s := by
    rw [declaration, bind_run, dialect_run, Option.bind_some]
    split
    · rw [bind_run, modifiers_const hConst hEnum, Option.bind_some]
      exact hMode _
    · rw [bind_run, pure_run, Option.bind_some]
      exact hMode _
  rw [hUnmodified, modifiedDeclaration]
  simp only [bind_run, hWords, Option.bind_some, if_true, hConstant, hConst.step_outer, hAllowed,
    variableDeclaration_of_meets h hName hAssign hValue hEnd]

/-- Behind the word of an export, a constant begins no list and no default. -/
theorem exportList_const (hConst : s.lexeme.token = .name "const".toList false) :
    exportList (Env.outer dialect level) s = some (false, s) := by
  have hPunct : ∀ p, (s.lexeme.token == .punct p) = false := by
    rw [hConst]
    exact fun _ => rfl
  have hAs : s.lexeme.token ≠ .name "as".toList false := by
    rw [hConst]
    decide
  have hType : s.lexeme.token ≠ .name "type".toList false := by
    rw [hConst]
    decide
  obtain ⟨answer, hAhead⟩ := exists_ahead (Env.outer dialect level) s (do step; atAnyPunct [.leftBrace, .star])
  simp only [exportList, bind_run, dialect_run, Option.bind_some, atPunct_run, hPunct, Bool.false_eq_true, if_false,
    Bool.and_false, Bool.false_and, atWord_of_ne hAs, atWord_of_ne hType, afterToken, hAhead, ite_run, pure_run]

/-- The export of one constant is read as what it exports. -/
theorem statement_export (h : IsBindable dialect name) (hExport : s.Meets dialect (.name "export".toList false) s')
    (hConst : s'.Meets dialect (.name "const".toList false) s₀) (hName : s₀.Meets dialect (.name name false) s₁)
    (hAssign : s₁.Meets dialect (.punct .assign) s₂)
    (hValue : readGoal dialect (level + 1) (.assignment true) (topMode dialect) s₂ = some (operand, s₃))
    (hEnd : s₃.Meets dialect (.punct .semicolon) s₄) (hFirst : s₄.exported = []) :
    statement .list (Env.outer dialect (level + 1)) s =
      some (⟨s.lexeme.start, .exportsVariables [⟨some name, operand.object?⟩]⟩, { s₄ with exported := [name] }) := by
  have hDefault : s'.lexeme.token ≠ .name "default".toList false := hConst.token_ne (by decide)
  have hDecorators : decorators (Env.outer dialect (level + 1)) s' = some (false, s') :=
    decorators_of_name hConst.token
  have hNames : [name].forM exportName (Env.outer dialect (level + 1)) s₄ =
      some ((), { s₄ with exported := [name] }) := by
    have hTwice : (!(Env.outer dialect (level + 1)).dialect.hasTypes && s₄.exported.contains name) = false := by
      simp [hFirst]
    have hName : exportName name (Env.outer dialect (level + 1)) s₄ = some ((), { s₄ with exported := [name] }) := by
      rw [exportName]
      simp only [bind_run, dialect_run, Option.bind_some]
      change ((flawIf (!(Env.outer dialect (level + 1)).dialect.hasTypes && s₄.exported.contains name)
        (Env.outer dialect (level + 1)) s₄).bind fun r => some ((), { r.2 with exported := name :: r.2.exported })) = _
      rw [hTwice, flawIf_false, Option.bind_some, hFirst]
    change ((exportName name (Env.outer dialect (level + 1)) s₄).bind fun r => some ((), r.2)) = _
    rw [hName, Option.bind_some]
  have hStatement : exportStatement false (Env.outer dialect (level + 1)) s =
      some (.exportsVariables [⟨some name, operand.object?⟩], { s₄ with exported := [name] }) := by
    rw [exportStatement]
    simp only [bind_run, expectWord_of_meets hExport, Option.bind_some, eatWord_of_ne hDefault, Bool.false_eq_true,
      if_false, exportList_const hConst.token, hDecorators, Bool.false_and, flawIf_false,
      declaration_of_meets h hConst hName hAssign hValue hEnd, hNames, pure_run]
    rfl
  have hDecorated : decorators (Env.outer dialect (level + 1)) s = some (false, s) :=
    decorators_of_name hExport.token
  have hImport : s.lexeme.token ≠ .name "import".toList false := hExport.token_ne (by decide)
  have hAt : atImportStatement (Env.outer dialect (level + 1)) s = some (false, s) := by
    simp only [atImportStatement, bind_run, atWord_of_ne hImport, Option.bind_some, Bool.false_eq_true, if_false,
      pure_run]
  have hWord : atWord "export" (Env.outer dialect (level + 1)) s = some (true, s) := by
    rw [atWord_run, hExport.token, beq_self_eq_true]
  simp only [statement, bind_run, position_run, Option.bind_some, hDecorated,
    Bool.false_eq_true, if_false, pure_run, hAt, hWord, if_true, hStatement]

end Exports

end Rule

section Scripts

variable {env : Env} {s s' : State}

def statementItem : Rule (Option Statement) := do
  if (← Rule.token) == .endOfText then return none
  return some (← Rule.statement .list)

/-- A turn of the reading of a script is the reading of a statement, unless the text ends. -/
theorem statementItem_of_ne (hSome : s.lexeme.token ≠ .endOfText) :
    statementItem env s = (Rule.statement .list env s).map fun r => (some r.1, r.2) := by
  rw [statementItem]
  simp only [Rule.bind_run, Rule.token_run, Option.bind_some, beq_eq_false_iff_ne.mpr hSome, Bool.false_eq_true,
    if_false]
  cases Rule.statement .list env s <;> rfl

/-- At the end of the text there is no further statement. -/
theorem statementItem_end (h : s.lexeme.token = .endOfText) : statementItem env s = some (none, s) := by
  rw [statementItem]
  simp only [Rule.bind_run, Rule.token_run, h, Option.bind_some, beq_self_eq_true, if_true, Rule.pure_run]

theorem manyWithin_more {α : Type} {rule : Rule (Option α)} {a : α}
    (h : rule env s = some (some a, s')) (fuel : Nat) :
    Rule.manyWithin (fuel + 1) rule env s = (Rule.manyWithin fuel rule env s').map fun r => (a :: r.1, r.2) := by
  simp only [Rule.manyWithin, Rule.bind_run, h, Option.bind_some, Rule.pure_run]
  cases Rule.manyWithin fuel rule env s' <;> rfl

/-- The statements that were found, if the reading of them has no flaw. -/
def sound? : Option (List Statement × State) → Option (List Statement)
  | some (found, s) => if s.flawed || !s.pending.isEmpty then none else some found
  | none => none

/-- Statements without flaws and pending notes are sound. -/
theorem sound?_some {found : List Statement} (hFlawed : s.flawed = false) (hPending : s.pending = []) :
    sound? (some (found, s)) = some found := by
  simp [sound?, hFlawed, hPending]

/-- A script is read turn by turn. -/
theorem statements?_eq (dialect : Dialect) (source : Text) :
    statements? dialect source = sound? (Rule.manyWithin (levelFor source) statementItem
      (Env.outer dialect (levelFor source))
      (.opening dialect true (interpreterLine source) 0 (source.drop (interpreterLine source)))) :=
  rfl

end Scripts

section Constants

variable {dialect : Dialect} {level position stop : Nat} {name value rest : Text} {operand : Operand}

def exportOf (name value : Text) : Text :=
  "export".toList ++ ' ' :: ("const".toList ++ ' ' :: (name ++ (" = ".toList ++ value)))

theorem meets_exportOf (dialect : Dialect) (newline : Bool) (position previousStop : Nat) (name value : Text) :
    (State.opening dialect newline position previousStop (exportOf name value)).Meets dialect (.name "export".toList false)
      (.before dialect (position + 6) (' ' :: ("const".toList ++ ' ' :: (name ++ (" = ".toList ++ value))))) :=
  meets_opening (by decide) (endsWord_blank _) newline previousStop

/-- The export of a constant is read where its value is, in front of a semicolon. -/
theorem statement_exportOf (h : Rule.IsBindable dialect name) (newline : Bool) (previousStop : Nat)
    (hValue : readGoal dialect (level + 1) (.assignment true) (topMode dialect)
      (.before dialect (position + 13 + name.length + 2) (' ' :: value)) =
        some (operand, .before dialect stop (';' :: rest))) :
    Rule.statement .list (Env.outer dialect (level + 1))
        (.opening dialect newline position previousStop (exportOf name value)) =
      some (⟨position, .exportsVariables [⟨some name, operand.object?⟩]⟩,
        { State.before dialect (stop + 1) rest with exported := [name] }) := by
  have hStatement := Rule.statement_export h (meets_exportOf dialect newline position previousStop name value)
    (meets_word (by decide) (endsWord_blank _)) (meets_word h.isIdentifier (endsWord_cons (by decide) (by decide) _))
    (meets_assign _) hValue (meets_semicolon _) rfl
  have hStart : (State.opening dialect newline position previousStop (exportOf name value)).lexeme.start = position := by
    unfold exportOf
    rw [opening_word (by decide) (endsWord_blank _)]
    rfl
  rw [hStatement, hStart]

/-- The export of a constant is one turn of the reading of a script. -/
theorem statementItem_exportOf (h : Rule.IsBindable dialect name) (newline : Bool) (previousStop : Nat)
    (hValue : readGoal dialect (level + 1) (.assignment true) (topMode dialect)
      (.before dialect (position + 13 + name.length + 2) (' ' :: value)) =
        some (operand, .before dialect stop (';' :: rest))) :
    statementItem (Env.outer dialect (level + 1)) (.opening dialect newline position previousStop (exportOf name value)) =
      some (some ⟨position, .exportsVariables [⟨some name, operand.object?⟩]⟩,
        { State.before dialect (stop + 1) rest with exported := [name] }) := by
  have hSome : (State.opening dialect newline position previousStop (exportOf name value)).lexeme.token ≠ .endOfText :=
    (meets_exportOf ..).token_ne (by rintro ⟨⟩)
  rw [statementItem_of_ne hSome, statement_exportOf h newline previousStop hValue]
  rfl

end Constants

end IconRegistry.Script
