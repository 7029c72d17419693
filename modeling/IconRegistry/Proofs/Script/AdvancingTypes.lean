import IconRegistry.Proofs.Script.Advancing

/-! The rules of bindings, types, functions and classes advance, as their parts do. -/
namespace IconRegistry.Script.Rule

-- The size that is counted of an instance doubles with each step of a rule.
set_option synthInstance.maxSize 100000000

section Modifier

instance : currentModifier.Advances := by
  unfold currentModifier
  repeat' first | infer_instance | refine .first fun _ => ?_ | split

instance (place : ModifierPlace) (before : List Modifier) : (modifier place before).Advances := by
  unfold modifier
  repeat' first | infer_instance | refine .first fun _ => ?_ | split

instance (place : ModifierPlace) : (modifiers place).Advances := by
  unfold modifiers
  infer_instance

instance (allowed found : List Modifier) : (allowModifiers allowed found).Advances := by
  unfold allowModifiers
  infer_instance

end Modifier

section Binding

instance : propertyName.Advances := by
  unfold propertyName
  repeat' first | infer_instance | refine .first fun _ => ?_ | split

instance (word : String) : (atAccessor word).Advances := by
  unfold atAccessor
  infer_instance

instance : typeAnnotation.Advances := by
  unfold typeAnnotation
  infer_instance

instance : optionalDefault.Advances := by
  unfold optionalDefault
  infer_instance

instance : bindingElement.Advances := by
  unfold bindingElement
  infer_instance

instance (close : Punct) : (restBinding close).Advances := by
  unfold restBinding
  infer_instance

instance : bindingProperty.Advances := by
  unfold bindingProperty
  infer_instance

instance : bindingItem.Advances := by
  unfold bindingItem
  infer_instance

instance : binding.Advances := by
  unfold binding
  infer_instance

instance : decorators.Advances := by
  unfold decorators
  infer_instance

instance : parameter.Advances := by
  unfold parameter
  infer_instance

instance : parameters.Advances := by
  unfold parameters
  infer_instance

end Binding

section Types

instance : enclosedType.Advances := by
  unfold enclosedType
  infer_instance

instance : typeList.Advances := by
  unfold typeList
  infer_instance

instance : typeArguments.Advances := by
  unfold typeArguments
  infer_instance

instance : optionalTypeArguments.Advances := by
  unfold optionalTypeArguments
  infer_instance

instance : typeParameter.Advances := by
  unfold typeParameter
  infer_instance

instance : typeParameters.Advances := by
  unfold typeParameters
  infer_instance

instance : returnType.Advances := by
  unfold returnType
  infer_instance

instance : returnAnnotation.Advances := by
  unfold returnAnnotation
  infer_instance

instance : functionType.Advances := by
  unfold functionType
  infer_instance

instance : opensFunctionType.Advances := by
  unfold opensFunctionType
  infer_instance

instance (tagged : Bool) (hole : Rule Unit) [hole.Advances] : (templateRest tagged hole).Advances := by
  unfold templateRest
  refine @Advances.bind _ _ _ _ (@Advances.many _ _ ?_) inferInstance
  refine .first fun _ => .first fun l => ?_
  repeat' first | infer_instance | split

instance (tagged : Bool) (hole : Rule Unit) [hole.Advances] : (template tagged hole).Advances := by
  unfold template
  repeat' first | infer_instance | refine .first fun _ => ?_ | split

instance : dottedNames.Advances := by
  unfold dottedNames
  infer_instance

instance : typeReference.Advances := by
  unfold typeReference
  infer_instance

instance : importType.Advances := by
  unfold importType
  infer_instance

instance : endTypeMember.Advances := by
  unfold endTypeMember
  infer_instance

instance : opensIndexSignature.Advances := by
  unfold opensIndexSignature
  infer_instance

instance : indexSignature.Advances := by
  unfold indexSignature
  infer_instance

instance : signature.Advances := by
  unfold signature
  infer_instance

instance (isSetter : Bool) : (accessorSignature isSetter).Advances := by
  unfold accessorSignature
  infer_instance

instance : namedTypeMember.Advances := by
  unfold namedTypeMember
  infer_instance

instance : typeMember.Advances := by
  unfold typeMember
  infer_instance

instance : typeMembers.Advances := by
  unfold typeMembers
  infer_instance

instance : opensMappedType.Advances := by
  unfold opensMappedType
  infer_instance

instance : mappedType.Advances := by
  unfold mappedType
  infer_instance

instance : tupleElement.Advances := by
  unfold tupleElement
  infer_instance

instance : startsType.Advances := by
  unfold startsType
  infer_instance

instance : namedType.Advances := by
  unfold namedType
  infer_instance

instance : primaryType.Advances := by
  unfold primaryType
  repeat' first | infer_instance | refine .first fun _ => ?_ | split

instance : postfixType.Advances := by
  unfold postfixType
  refine .first fun isList => @Advances.extend _ isList _ fun _ => ?_
  repeat' first | infer_instance | refine .first fun _ => ?_ | split

instance : inferredName.Advances := by
  unfold inferredName
  infer_instance

instance : operatorType.Advances := by
  unfold operatorType
  infer_instance

instance (operator : Punct) (operand : Rule Unit) [operand.Advances] : (joinedTypes operator operand).Advances := by
  unfold joinedTypes
  infer_instance

instance : startsFunctionType.Advances := by
  unfold startsFunctionType
  infer_instance

instance : callableType.Advances := by
  unfold callableType
  infer_instance

instance : type.Advances := by
  unfold type
  infer_instance

instance : followsTypeArguments.Advances := by
  unfold followsTypeArguments
  repeat' first | infer_instance | refine .first fun _ => ?_ | split

instance : expressionTypeArguments.Advances := by
  unfold expressionTypeArguments
  repeat' first | infer_instance | refine .first fun _ => ?_ | split

end Types

section Function

instance (context : StatementContext) : (block context).Advances := by
  unfold block
  infer_instance

instance : functionBody.Advances := by
  unfold functionBody
  infer_instance

instance (kind : FunctionKind) : (functionRest kind).Advances := by
  unfold functionRest
  infer_instance

instance (isAsync : Bool) : (functionExpression isAsync).Advances := by
  unfold functionExpression
  infer_instance

instance (isAsync needsName : Bool) : (functionDeclaration isAsync needsName).Advances := by
  unfold functionDeclaration
  infer_instance

instance (isAsync : Bool) : (declaredFunction isAsync).Advances := by
  unfold declaredFunction
  infer_instance

instance : atAsyncMethod.Advances := by
  unfold atAsyncMethod
  infer_instance

end Function

section Class

instance : base.Advances := by
  unfold base
  infer_instance

instance : heritage.Advances := by
  unfold heritage
  infer_instance

instance : staticBlock.Advances := by
  unfold staticBlock
  infer_instance

instance (found : List Modifier) (key : PropertyName) : (checkMemberName found key).Advances := by
  unfold checkMemberName
  infer_instance

instance (found : List Modifier) : (classAccessor found).Advances := by
  unfold classAccessor
  infer_instance

instance (decorated : Bool) (found : List Modifier) : (classIndexSignature decorated found).Advances := by
  unfold classIndexSignature
  infer_instance

instance (found : List Modifier) (key : PropertyName) (isGenerator optional : Bool) :
    (classMethod found key isGenerator optional).Advances := by
  unfold classMethod
  infer_instance

instance (found : List Modifier) (key : PropertyName) (optional : Bool) : (classField found key optional).Advances := by
  unfold classField
  infer_instance

instance (found : List Modifier) : (namedMember found).Advances := by
  unfold namedMember
  infer_instance

instance : classMember.Advances := by
  unfold classMember
  infer_instance

instance : classRest.Advances := by
  unfold classRest
  infer_instance

end Class

end IconRegistry.Script.Rule
