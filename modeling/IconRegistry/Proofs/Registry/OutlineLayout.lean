import IconRegistry.Proofs.Registry.LiteralLayout
import IconRegistry.Proofs.Registry.Reading

/-! What a script exports is laid out in its text: an object literal goes from the operand that it is read as, through
parentheses, assertions and declarations, to the outline, and its spans stay as they are. -/
namespace IconRegistry.Registry

open Script Script.Rule

/-- The object literal that an operand wraps, if any, is laid out in a text. -/
def OperandLaidOut (text : Text) (operand : Operand) : Prop :=
  ∀ literal, operand.object? = some literal → LaidOutIn text literal

/-- The object literals that variables are set to are laid out in a text. -/
def VariablesLaidOut (text : Text) (declarators : List Declarator) : Prop :=
  ∀ d ∈ declarators, ∀ literal, d.object? = some literal → LaidOutIn text literal

/-- What a statement exports is laid out in a text. -/
def ContentLaidOut (text : Text) (content : Content) : Prop :=
  ∀ declarators, content = .exportsVariables declarators → VariablesLaidOut text declarators

/-- What a goal yields is laid out in a text, as far as it is an operand. Statements inside of others export nothing. -/
def GoalLaidOut (text : Text) : (wanted : Goal) → wanted.Result → Prop
  | .statement _, _ | .type, _ | .binding, _ | .jsxElement _, _ => True
  | .expression, operand | .assignment _, operand | .binary _, operand | .unary, operand | .leftHandSide, operand
  | .objectLiteral, operand => OperandLaidOut text operand

/-- What is no object literal is laid out as it is. -/
theorem operandLaidOut_of_eq_none {text : Text} {operand : Operand} (h : operand.object? = none) :
    OperandLaidOut text operand := by
  rw [OperandLaidOut, h]
  rintro _ ⟨⟩

section Expressions

variable {text : Text}

/-- An object literal that is read is laid out in the text. -/
theorem yields_objectLiteral : objectLiteral.Yields text (GoalLaidOut text) (OperandLaidOut text) where
  yields hEnv hs h := ensures_objectLiteral hEnv hs _ _ h

theorem yields_parenthesized : parenthesized.Yields text (GoalLaidOut text) (OperandLaidOut text) := by
  have hInside : bracketedExpression.Yields text (GoalLaidOut text) (OperandLaidOut text) := by
    unfold bracketedExpression inBrackets
    exact .withMode _ (.goal .expression)
  unfold parenthesized
  exact .skip fun _ => .skip fun _ => hInside.bind fun operand hOperand => .skip fun _ => .pure hOperand

/-- A primary expression is laid out, whatever it is. -/
theorem yields_primary : primary.Yields text (GoalLaidOut text) (OperandLaidOut text) := by
  unfold primary
  refine .skip fun start => .skip fun t => ?_
  split
  case h_1 => exact yields_objectLiteral
  case h_2 =>
    unfold arrayLiteral
    exact .skip fun _ => .skip fun _ => .skip fun _ => .skip fun _ => .pure (operandLaidOut_of_eq_none rfl)
  case h_3 => exact yields_parenthesized
  case h_11 => exact .failure
  all_goals repeat' first | exact .pure (operandLaidOut_of_eq_none rfl) | refine .skip fun _ => ?_

/-- An access or a call wraps no literal, but an assertion that something is there leaves one where it is. -/
theorem yields_access (calls : Bool) {operand : Operand} (h : OperandLaidOut text operand) :
    (access calls operand).Yields text (GoalLaidOut text)
      fun found => ∀ next, found = some next → OperandLaidOut text next := by
  have hNone : (pure none : Rule (Option Operand)).Yields text (GoalLaidOut text)
      fun found => ∀ next, found = some next → OperandLaidOut text next := .pure (by rintro _ ⟨⟩)
  have hPlain : ∀ next : Operand, next.object? = none →
      (pure (some next) : Rule (Option Operand)).Yields text (GoalLaidOut text)
      fun found => ∀ next, found = some next → OperandLaidOut text next :=
    fun _ hObject => .pure (by rintro _ ⟨⟩; exact operandLaidOut_of_eq_none hObject)
  unfold access
  refine .skip fun t => ?_
  split
  case h_6 =>
    refine .skip fun _ => ?_
    repeat' first | exact hNone | refine .skip fun _ => ?_ | split
    all_goals exact .pure (by rintro _ ⟨⟩; exact h)
  all_goals repeat' first | exact hNone | exact hPlain _ rfl | exact .failure | refine .skip fun _ => ?_ | split

theorem yields_construction (start count : Nat) :
    (construction start count).Yields text (GoalLaidOut text) (OperandLaidOut text) := by
  induction count with
  | zero => exact .pure (operandLaidOut_of_eq_none rfl)
  | succ count ih =>
      unfold construction
      repeat' first | exact ih | refine .skip fun _ => ?_ | split

/-- No object literal comes out of a member access or a call that was not there. -/
theorem yields_leftHandSide : leftHandSide.Yields text (GoalLaidOut text) (OperandLaidOut text) := by
  unfold leftHandSide
  refine .skip fun start => .skip fun news => yields_primary.bind fun base hBase => ?_
  split
  · exact .extend (fun _ => yields_access true) hBase
  · refine .skip fun callee => .skip fun _ => (yields_construction _ _).bind fun operand hOperand => ?_
    exact .extend (fun _ => yields_access true) hOperand

theorem yields_update : update.Yields text (GoalLaidOut text) (OperandLaidOut text) := by
  unfold update
  refine .skip fun start => .skip fun isPrefix => ?_
  split
  · repeat' first | exact .pure (operandLaidOut_of_eq_none rfl) | exact .failure | refine .skip fun _ => ?_ | split
  · refine yields_leftHandSide.bind fun operand hOperand => ?_
    repeat' first
      | exact .pure hOperand
      | exact .pure (operandLaidOut_of_eq_none rfl)
      | exact .failure
      | refine .skip fun _ => ?_
      | split

theorem yields_typeAssertion : typeAssertion.Yields text (GoalLaidOut text) (OperandLaidOut text) := by
  unfold typeAssertion
  refine .skip fun _ => .skip fun _ => .skip fun _ => .skip fun _ => .bind (.goal .unary) fun operand hOperand => ?_
  exact .pure hOperand

/-- Operators in front of an expression hide what is behind them. -/
theorem yields_unary : unary.Yields text (GoalLaidOut text) (OperandLaidOut text) := by
  have hBracketed : bracketedUnary.Yields text (GoalLaidOut text) (OperandLaidOut text) := by
    unfold bracketedUnary
    repeat' first
      | with_reducible exact yields_typeAssertion
      | exact .pure (operandLaidOut_of_eq_none rfl)
      | exact .failure
      | refine .skip fun _ => ?_
      | split
  unfold unary
  repeat' first
    | with_reducible exact hBracketed
    | with_reducible exact yields_update
    | exact .pure (operandLaidOut_of_eq_none rfl)
    | refine .skip fun _ => ?_
    | split

/-- An assertion keeps the literal that it is about. -/
theorem yields_assertionRest {operand : Operand} (h : OperandLaidOut text operand) :
    (assertionRest operand).Yields text (GoalLaidOut text) fun found => OperandLaidOut text found.1 := by
  unfold assertionRest
  refine .skip fun _ => ?_
  split
  all_goals exact .skip fun _ => .pure h

/-- What a binary operator joins wraps no literal, but an assertion of a type leaves one where it is. -/
theorem yields_binaryStep (least : Nat) {operand : Operand} (h : OperandLaidOut text operand) :
    (binaryStep least operand).Yields text (GoalLaidOut text)
      fun found => ∀ next, found = some next → OperandLaidOut text next.1 := by
  have hNone : (pure none : Rule (Option (Operand × Bool))).Yields text (GoalLaidOut text)
      fun found => ∀ next, found = some next → OperandLaidOut text next.1 := .pure (by rintro _ ⟨⟩)
  have hAssertion :
      (do return some (← assertionRest operand) : Rule (Option (Operand × Bool))).Yields text (GoalLaidOut text)
      fun found => ∀ next, found = some next → OperandLaidOut text next.1 :=
    (yields_assertionRest h).bind fun _ hFound => .pure (by rintro _ ⟨⟩; exact hFound)
  unfold binaryStep
  repeat' first
    | with_reducible exact hNone
    | with_reducible exact hAssertion
    | exact .pure (by rintro _ ⟨⟩; exact operandLaidOut_of_eq_none rfl)
    | refine .skip fun _ => ?_
    | split

theorem yields_binary (least : Nat) : (binary least).Yields text (GoalLaidOut text) (OperandLaidOut text) := by
  have hPrivate : privateMembership.Yields text (GoalLaidOut text) (OperandLaidOut text) := by
    unfold privateMembership
    repeat' first | exact .pure (operandLaidOut_of_eq_none rfl) | exact .failure | refine .skip fun _ => ?_ | split
  have hMore : ∀ found : Operand × Bool, OperandLaidOut text found.1 →
      (if found.2 then binaryStep least found.1 else pure none : Rule (Option (Operand × Bool))).Yields text
        (GoalLaidOut text) fun found => ∀ next, found = some next → OperandLaidOut text next.1 := by
    intro found hFound
    split
    · exact yields_binaryStep least hFound
    · exact .pure (by rintro _ ⟨⟩)
  unfold binary
  refine .skip fun t => ?_
  split
  · exact hPrivate.bind fun first hFirst => .bind (.extend hMore hFirst) fun found hFound => .pure hFound
  · exact yields_unary.bind fun first hFirst => .bind (.extend hMore hFirst) fun found hFound => .pure hFound

theorem yields_conditionalRest (returnTypes : Bool) {condition : Operand} (h : OperandLaidOut text condition) :
    (conditionalRest returnTypes condition).Yields text (GoalLaidOut text) (OperandLaidOut text) := by
  unfold conditionalRest
  repeat' first | exact .pure h | exact .pure (operandLaidOut_of_eq_none rfl) | refine .skip fun _ => ?_ | split

/-- The value of a constant is laid out. -/
theorem yields_assignment (returnTypes : Bool) :
    (assignment returnTypes).Yields text (GoalLaidOut text) (OperandLaidOut text) := by
  unfold assignment
  repeat' first
    | exact .pure (operandLaidOut_of_eq_none rfl)
    | refine (yields_binary 0).bind fun left hLeft => ?_
    | exact yields_conditionalRest _ (by assumption)
    | refine .skip fun _ => ?_
    | split

theorem yields_expression : expression.Yields text (GoalLaidOut text) (OperandLaidOut text) := by
  unfold expression
  refine .bind (.withMode _ (.goal (.assignment true))) fun first hFirst => .skip fun more => .pure ?_
  split
  · exact hFirst
  · exact operandLaidOut_of_eq_none rfl

end Expressions

section Statements

variable {text : Text}

/-- A variable that is bound to a literal is bound to one that is laid out. -/
theorem yields_variableBinding :
    variableBinding.Yields text (GoalLaidOut text) fun found =>
      ∀ literal, found.declarator.object? = some literal → LaidOutIn text literal := by
  unfold variableBinding
  repeat' first
    | exact .pure (by rintro _ ⟨⟩)
    | exact .bind (.goal (.assignment true)) fun operand hOperand => .pure hOperand
    | refine .skip fun _ => ?_
    | split

theorem yields_variableList (kind : VariableKind) :
    (variableList kind).Yields text (GoalLaidOut text) fun found =>
      ∀ v ∈ found, ∀ literal, v.declarator.object? = some literal → LaidOutIn text literal := by
  unfold variableList
  exact .bind (.separated yields_variableBinding) fun found hFound => .skip fun _ => .pure hFound

/-- What a declaration declares as variables is laid out in a text. -/
def DeclarationLaidOut (text : Text) (declaration : Declaration) : Prop :=
  ∀ declarators, declaration.variables? = some declarators → VariablesLaidOut text declarators

/-- What a declaration exports is laid out if the declaration is. -/
theorem DeclarationLaidOut.exportedContent {declaration : Declaration} (h : DeclarationLaidOut text declaration) :
    ContentLaidOut text declaration.exportedContent := by
  intro declarators hContent
  unfold Declaration.exportedContent at hContent
  split at hContent
  · rename_i hVariables
    cases hContent
    exact h _ hVariables
  · cases hContent

theorem yields_variableDeclaration (kind : VariableKind) :
    (variableDeclaration kind).Yields text (GoalLaidOut text) (DeclarationLaidOut text) := by
  unfold variableDeclaration
  refine (yields_variableList kind).bind fun found hFound => .skip fun _ => .skip fun _ => .pure ?_
  rintro _ ⟨⟩ d hMember
  obtain ⟨v, hVariable, rfl⟩ := List.mem_map.mp hMember
  exact hFound v hVariable

theorem yields_modifiedDeclaration (found : List Modifier) :
    (modifiedDeclaration found).Yields text (GoalLaidOut text) (DeclarationLaidOut text) := by
  have hClass : (classDeclaration found).Yields text (GoalLaidOut text) (DeclarationLaidOut text) := by
    unfold classDeclaration
    exact .skip fun _ => .skip fun _ => .pure (by rintro _ ⟨⟩)
  have hFunction : (modifiedFunction found).Yields text (GoalLaidOut text) (DeclarationLaidOut text) := by
    unfold modifiedFunction
    repeat' first | exact .pure (by rintro _ ⟨⟩) | refine .skip fun _ => ?_ | split
  unfold modifiedDeclaration
  repeat' first
    | with_reducible exact yields_variableDeclaration _
    | with_reducible exact hFunction
    | with_reducible exact hClass
    | exact .pure (by rintro _ ⟨⟩)
    | refine .skip fun _ => ?_
    | split

theorem yields_declaration : declaration.Yields text (GoalLaidOut text) (DeclarationLaidOut text) := by
  unfold declaration
  repeat' first
    | exact .withMode _ (yields_modifiedDeclaration _)
    | refine .skip fun _ => ?_
    | split

/-- What an export exports is laid out. -/
theorem yields_exportStatement (decorated : Bool) :
    (exportStatement decorated).Yields text (GoalLaidOut text) (ContentLaidOut text) := by
  unfold exportStatement
  repeat' first
    | exact .pure (by rintro _ ⟨⟩)
    | refine yields_declaration.bind fun found hFound => ?_
    | exact .skip fun _ => .pure (DeclarationLaidOut.exportedContent (by assumption))
    | refine .skip fun _ => ?_
    | split
    | dsimp only

theorem yields_importStatement : importStatement.Yields text (GoalLaidOut text) (ContentLaidOut text) := by
  unfold importStatement
  repeat' first | exact .pure (by rintro _ ⟨⟩) | exact .failure | refine .skip fun _ => ?_ | split | dsimp only

theorem yields_plainStatement (context : StatementContext) :
    (plainStatement context).Yields text (GoalLaidOut text) (ContentLaidOut text) := by
  have hExpression : expressionStatement.Yields text (GoalLaidOut text) (ContentLaidOut text) := by
    unfold expressionStatement
    repeat' first | exact .pure (by rintro _ ⟨⟩) | refine .skip fun _ => ?_ | split
  unfold plainStatement
  refine .skip fun t => ?_
  split
  · exact .skip fun _ => .pure (by rintro _ ⟨⟩)
  · exact .skip fun _ => .pure (by rintro _ ⟨⟩)
  · split
    · rename_i hRest
      have := advances_wordRest? hRest
      exact .skip fun _ => .skip fun _ => .pure (by rintro _ ⟨⟩)
    · repeat' first
        | with_reducible exact hExpression
        | exact .pure (by rintro _ ⟨⟩)
        | refine .skip fun _ => ?_
        | split
  · exact hExpression

theorem yields_statement (context : StatementContext) :
    (statement context).Yields text (GoalLaidOut text) fun found => ContentLaidOut text found.content := by
  unfold statement
  repeat' first
    | with_reducible exact yields_importStatement.bind fun _ hContent => .pure hContent
    | with_reducible exact (yields_exportStatement _).bind fun _ hContent => .pure hContent
    | with_reducible exact (yields_plainStatement _).bind fun _ hContent => .pure hContent
    | exact .pure (by rintro _ ⟨⟩)
    | refine .skip fun _ => ?_
    | split
    | dsimp only

/-- Statements are laid out one by one. -/
theorem yields_statements :
    statements.Yields text (GoalLaidOut text) fun found => ∀ s ∈ found, ContentLaidOut text s.content := by
  unfold statements
  refine .many (.skip fun t => ?_)
  split
  · exact .pure (by rintro _ ⟨⟩)
  · exact (yields_statement .list).bind fun _ hFound => .pure (by rintro _ ⟨⟩; exact hFound)

end Statements

section Goals

variable {text : Text} {dialect : Dialect}

/-- Whatever is read for a goal is laid out. -/
theorem yields_ofGoal (wanted : Goal) : (ofGoal wanted).Yields text (GoalLaidOut text) (GoalLaidOut text wanted) := by
  cases wanted with
  | statement | type | binding | jsxElement => exact ⟨fun _ _ _ => trivial⟩
  | expression => exact yields_expression
  | assignment => exact yields_assignment _
  | binary => exact yields_binary _
  | unary => exact yields_unary
  | leftHandSide => exact yields_leftHandSide
  | objectLiteral => exact yields_objectLiteral

/-- The goals of every level advance and yield what is laid out. -/
theorem sound_readGoal (hModule : dialect.isModule = true) (mode : Mode) (level : Nat) :
    Env.Sound ⟨dialect, mode, level, readGoal dialect level⟩ text (GoalLaidOut text) := by
  induction level generalizing mode with
  | zero => exact ⟨hModule, fun _ h => by cases h⟩
  | succ level ih =>
      refine ⟨hModule, fun {wanted deeperMode s a t} hs h => ?_⟩
      have hEnv : Env.Sound ⟨dialect, deeperMode, level + 1, readGoal dialect level⟩ text (GoalLaidOut text) :=
        ⟨hModule, (ih deeperMode).deeper⟩
      exact ⟨(advances_ofGoal wanted).reaches hEnv hs h, (yields_ofGoal wanted).yields hEnv hs h⟩

/-- The reading of the statements of a text starts from one that fits. -/
theorem fits_opening (hModule : dialect.isModule = true) (skipped : Nat) :
    State.Fits ⟨Lexeme.next (!dialect.isModule) skipped true (text.drop skipped), 0, false, [], [], []⟩ text := by
  have hBehind : (Lexeme.next false skipped true (text.drop skipped)).StandsBehind text skipped :=
    Lexeme.next_standsBehind rfl true
  rw [hModule]
  exact ⟨hBehind.standsIn, Nat.zero_le _, fun _ h => absurd h (Nat.lt_irrefl 0)⟩

/-- What a script exports is laid out in its text. -/
theorem contentLaidOut_of_statements? {found : List Statement} (hModule : dialect.isModule = true)
    (h : statements? dialect text = some found) : ∀ s ∈ found, ContentLaidOut text s.content := by
  simp only [statements?] at h
  split at h
  · rename_i hRun
    split at h
    · cases h
    · cases h
      exact yields_statements.yields (sound_readGoal hModule _ _) (fits_opening hModule _) hRun
  · cases h

/-- The reader of modules reports a collection where it is laid out, at its exact spans. -/
theorem readsExactly_ofDialect (hModule : dialect.isModule = true) (collection : Text) :
    ReadsExactly (.ofDialect collection dialect) where
  laidOut {source outline literal} hRead hFound := by
    obtain ⟨found, hStatements, hOutline⟩ := Option.bind_eq_some_iff.mp hRead
    cases hOutline
    obtain ⟨declarators, hExported, hCollection⟩ := List.exists_of_findSome?_eq_some hFound
    obtain ⟨s, hMember, hContent⟩ := List.mem_filterMap.mp hExported
    obtain ⟨d, hDeclarator, hLiteral⟩ := List.exists_of_findSome?_eq_some hCollection
    have hLaidOut := contentLaidOut_of_statements? hModule hStatements s ((List.dropWhile_sublist _).mem hMember)
    rw [Statement.exported?] at hContent
    split at hContent
    · rename_i hIs
      cases hContent
      split at hLiteral
      · exact hLaidOut _ hIs d hDeclarator literal hLiteral
      · cases hLiteral
    · cases hContent

end Goals

end IconRegistry.Registry
