import IconRegistry.Proofs.Script.AdvancingExpressions

/-! The rules of statements advance, as their parts do. -/
namespace IconRegistry.Script.Rule

-- The size that is counted of an instance doubles with each step of a rule.
set_option synthInstance.maxSize 100000000

section Declaration

instance : variableBinding.Advances := by
  unfold variableBinding
  infer_instance

instance (kind : VariableKind) : (variableList kind).Advances := by
  unfold variableList
  infer_instance

instance (kind : VariableKind) (found : List Variable) : (checkValues kind found).Advances := by
  unfold checkValues
  infer_instance

instance (kind : VariableKind) : (variableDeclaration kind).Advances := by
  unfold variableDeclaration
  infer_instance

instance (found : List Modifier) : (classDeclaration found).Advances := by
  unfold classDeclaration
  infer_instance

instance (found : List Modifier) : (modifiedFunction found).Advances := by
  unfold modifiedFunction
  infer_instance

instance : namespaceBlock.Advances := by
  unfold namespaceBlock
  infer_instance

instance : typeAlias.Advances := by
  unfold typeAlias
  infer_instance

instance : interface.Advances := by
  unfold interface
  infer_instance

instance : enumMember.Advances := by
  unfold enumMember
  repeat' first | infer_instance | refine .first fun _ => ?_ | split

instance : enumeration.Advances := by
  unfold enumeration
  infer_instance

instance : namespaceName.Advances := by
  unfold namespaceName
  infer_instance

instance : namespaceRest.Advances := by
  unfold namespaceRest
  infer_instance

instance : importAlias.Advances := by
  unfold importAlias
  infer_instance

instance : importedName.Advances := by
  unfold importedName
  infer_instance

instance : atDeclarationModifier.Advances := by
  unfold atDeclarationModifier
  infer_instance

instance : atTypeDeclaration.Advances := by
  unfold atTypeDeclaration
  infer_instance

instance (found : List Modifier) : (typeDeclaration found).Advances := by
  unfold typeDeclaration
  infer_instance

instance (found : List Modifier) : (modifiedDeclaration found).Advances := by
  unfold modifiedDeclaration
  infer_instance

instance : declaration.Advances := by
  unfold declaration
  infer_instance

end Declaration

section Statement

instance : condition.Advances := by
  unfold condition
  infer_instance

instance : expressionStatement.Advances := by
  unfold expressionStatement
  repeat' first | infer_instance | refine .first fun _ => ?_ | split

instance : ifRest.Advances := by
  unfold ifRest
  infer_instance

instance : loopBody.Advances := by
  unfold loopBody
  infer_instance

instance : doRest.Advances := by
  unfold doRest
  infer_instance

instance (single : Bool) : (atLetDeclaration single).Advances := by
  unfold atLetDeclaration
  infer_instance

instance : letExpression.Advances := by
  unfold letExpression
  infer_instance

instance : atUsing.Advances := by
  unfold atUsing
  infer_instance

instance : atAwaitUsing.Advances := by
  unfold atAwaitUsing
  infer_instance

instance : atLoopVariable.Advances := by
  unfold atLoopVariable
  infer_instance

instance : atLoopResource.Advances := by
  unfold atLoopResource
  infer_instance

instance : loopDeclaration.Advances := by
  unfold loopDeclaration
  infer_instance

instance (isAwait : Bool) (check : Bool → Rule Unit) [∀ a, (check a).Advances] :
    (enumeratingRest isAwait check).Advances := by
  unfold enumeratingRest
  infer_instance

instance (isAwait : Bool) : (countingRest isAwait).Advances := by
  unfold countingRest
  infer_instance

instance : forRest.Advances := by
  unfold forRest
  repeat' first | infer_instance | refine .first fun _ => ?_ | split

instance : switchRest.Advances := by
  unfold switchRest
  infer_instance

instance : tryRest.Advances := by
  unfold tryRest
  infer_instance

instance : returnRest.Advances := by
  unfold returnRest
  infer_instance

instance : throwRest.Advances := by
  unfold throwRest
  infer_instance

instance : jumpRest.Advances := by
  unfold jumpRest
  infer_instance

instance : withRest.Advances := by
  unfold withRest
  infer_instance

instance (context : StatementContext) : (declarationStatement context).Advances := by
  unfold declarationStatement
  infer_instance

theorem advances_wordRest? {word : String} {rest : Rule Unit} (h : wordRest? word = some rest) : rest.Advances := by
  unfold wordRest? at h
  split at h
  all_goals cases h
  all_goals infer_instance

instance (context : StatementContext) : (plainStatement context).Advances := by
  unfold plainStatement
  refine .first fun _ => ?_
  split
  · infer_instance
  · infer_instance
  · split
    · rename_i hRest
      have := advances_wordRest? hRest
      infer_instance
    · infer_instance
  · infer_instance

end Statement

section Module

instance : sourceAttribute.Advances := by
  unfold sourceAttribute
  repeat' first | infer_instance | refine .first fun _ => ?_ | split

instance : sourceAttributes.Advances := by
  unfold sourceAttributes
  infer_instance

instance : sourceClause.Advances := by
  unfold sourceClause
  infer_instance

instance : atSpecifierName.Advances := by
  unfold atSpecifierName
  infer_instance

instance : atLoneSurrogate.Advances := by
  unfold atLoneSurrogate
  repeat' first | infer_instance | refine .first fun _ => ?_ | split

instance : specifierName.Advances := by
  unfold specifierName
  repeat' first | infer_instance | refine .first fun _ => ?_ | split

instance (outer : SpecifierName) (isType : Bool) : (specifierFrom outer isType).Advances := by
  unfold specifierFrom
  infer_instance

instance : markedSpecifier.Advances := by
  unfold markedSpecifier
  infer_instance

instance : specifier.Advances := by
  unfold specifier
  infer_instance

instance (typeOnly : Bool) : (specifiers typeOnly).Advances := by
  unfold specifiers
  infer_instance

instance (typeOnly : Bool) : (importedItems typeOnly).Advances := by
  unfold importedItems
  infer_instance

instance (typeOnly : Bool) : (importBindings typeOnly).Advances := by
  unfold importBindings
  infer_instance

instance : modifiesImport.Advances := by
  unfold modifiesImport
  infer_instance

instance : importHead.Advances := by
  unfold importHead
  infer_instance

instance : importStatement.Advances := by
  unfold importStatement
  infer_instance

instance (name : Text) : (exportName name).Advances := by
  unfold exportName
  have := Advances.modify (f := fun s => { s with exported := name :: s.exported }) (fun _ => rfl) fun _ => rfl
  infer_instance

instance : atLiteral.Advances := by
  unfold atLiteral
  repeat' first | infer_instance | refine .first fun _ => ?_ | split

instance (typeOnly : Bool) : (exportedItems typeOnly).Advances := by
  unfold exportedItems
  infer_instance

instance : exportAll.Advances := by
  unfold exportAll
  infer_instance

instance : exportDefault.Advances := by
  unfold exportDefault
  infer_instance

instance : exportList.Advances := by
  unfold exportList
  infer_instance

instance (decorated : Bool) : (exportStatement decorated).Advances := by
  unfold exportStatement
  infer_instance

instance : atImportStatement.Advances := by
  unfold atImportStatement
  infer_instance

instance : atModifiedClass.Advances := by
  unfold atModifiedClass
  infer_instance

instance (context : StatementContext) : (statement context).Advances := by
  unfold statement
  infer_instance

end Module

/-- Whatever the goal, a reading advances. -/
theorem advances_ofGoal (wanted : Goal) : (ofGoal wanted).Advances := by
  cases wanted
  all_goals
    unfold ofGoal
    infer_instance

end IconRegistry.Script.Rule
