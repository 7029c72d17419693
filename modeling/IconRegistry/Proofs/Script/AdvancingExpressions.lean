import IconRegistry.Proofs.Script.AdvancingTypes

/-! The rules of expressions advance, as their parts do. -/
namespace IconRegistry.Script.Rule

-- The size that is counted of an instance doubles with each step of a rule.
set_option synthInstance.maxSize 100000000

section Jsx

instance : jsxName.Advances := by
  unfold jsxName
  refine .first fun l => ?_
  split <;> infer_instance

instance : jsxElementName.Advances := by
  unfold jsxElementName
  infer_instance

instance : jsxExpression.Advances := by
  unfold jsxExpression
  infer_instance

instance (inChild : Bool) : (endTag inChild).Advances := by
  unfold endTag
  infer_instance

instance : jsxAttributeValue.Advances := by
  unfold jsxAttributeValue
  repeat' first | infer_instance | refine .first fun _ => ?_ | split

instance : jsxAttribute.Advances := by
  unfold jsxAttribute
  infer_instance

instance : jsxChildExpression.Advances := by
  unfold jsxChildExpression
  infer_instance

instance : jsxChild.Advances := by
  unfold jsxChild
  repeat' first | infer_instance | refine .first fun _ => ?_ | split

instance : jsxChildren.Advances := by
  unfold jsxChildren
  infer_instance

instance (inChild : Bool) : (jsxElement inChild).Advances := by
  unfold jsxElement
  infer_instance

end Jsx

section Operand

instance {α : Type} (rule : Rule α) [rule.Advances] : (inBrackets rule).Advances := by
  unfold inBrackets
  infer_instance

instance : bracketedExpression.Advances := by
  unfold bracketedExpression
  infer_instance

instance : bracketedAssignment.Advances := by
  unfold bracketedAssignment
  infer_instance

instance : templateHole.Advances := by
  unfold templateHole
  infer_instance

instance : arrayItem.Advances := by
  unfold arrayItem
  infer_instance

instance : arrayLiteral.Advances := by
  unfold arrayLiteral
  infer_instance

instance : literalKey.Advances := by
  unfold literalKey
  infer_instance

instance (kind : FunctionKind) : (literalMethod kind).Advances := by
  unfold literalMethod
  infer_instance

instance : atShorthand.Advances := by
  unfold atShorthand
  infer_instance

instance (start : Nat) : (literalProperty start).Advances := by
  unfold literalProperty
  have := Advances.modify (f := fun s => { s with pending := start :: s.pending }) (fun _ => rfl) fun _ => rfl
  infer_instance

instance : objectLiteral.Advances := by
  unfold objectLiteral
  infer_instance

instance : parenthesized.Advances := by
  unfold parenthesized
  infer_instance

instance : regularExpression.Advances := by
  unfold regularExpression
  repeat' first | infer_instance | refine .first fun _ => ?_ | split

instance : arguments.Advances := by
  unfold arguments
  infer_instance

instance : importArguments.Advances := by
  unfold importArguments
  infer_instance

instance : importExpression.Advances := by
  unfold importExpression
  infer_instance

instance : atAsyncFunction.Advances := by
  unfold atAsyncFunction
  infer_instance

instance (word : Text) (escaped : Bool) : (namedOperand word escaped).Advances := by
  unfold namedOperand
  repeat' first | infer_instance | refine .first fun _ => ?_ | split

instance : primary.Advances := by
  unfold primary
  repeat' first | infer_instance | refine .first fun _ => ?_ | split

instance : memberName.Advances := by
  unfold memberName
  repeat' first | infer_instance | refine .first fun _ => ?_ | split

instance : optionalAccess.Advances := by
  unfold optionalAccess
  repeat' first | infer_instance | refine .first fun _ => ?_ | split

instance (calls : Bool) (operand : Operand) : (access calls operand).Advances := by
  unfold access
  repeat' first | infer_instance | refine .first fun _ => ?_ | split

instance (start count : Nat) : (construction start count).Advances := by
  induction count with
  | zero => exact inferInstanceAs (pure _ : Rule Operand).Advances
  | succ count ih =>
      unfold construction
      infer_instance

instance : leftHandSide.Advances := by
  unfold leftHandSide
  infer_instance

end Operand

section Operator

instance : update.Advances := by
  unfold update
  infer_instance

instance : typeAssertion.Advances := by
  unfold typeAssertion
  infer_instance

instance : bracketedUnary.Advances := by
  unfold bracketedUnary
  infer_instance

instance : atAwait.Advances := by
  unfold atAwait
  infer_instance

instance : unary.Advances := by
  unfold unary
  infer_instance

instance (operand : Operand) : (assertionRest operand).Advances := by
  unfold assertionRest
  infer_instance

instance (least : Nat) (operand : Operand) : (binaryStep least operand).Advances := by
  unfold binaryStep
  repeat' first | infer_instance | refine .first fun _ => ?_ | split

instance : privateMembership.Advances := by
  unfold privateMembership
  infer_instance

instance (least : Nat) : (binary least).Advances := by
  unfold binary
  repeat' first | infer_instance | refine .first fun _ => ?_ | split

end Operator

section Arrow

instance : arrowProspect.Advances := by
  unfold arrowProspect
  infer_instance

instance (isAsync returnTypes : Bool) : (arrowBody isAsync returnTypes).Advances := by
  unfold arrowBody
  infer_instance

instance : arrow.Advances := by
  unfold arrow
  infer_instance

instance : arrowParameters.Advances := by
  unfold arrowParameters
  infer_instance

/-- Where an arrow function is tried in vain, the reading goes on from where it was tried. -/
instance (returnTypes : Bool) : (possibleArrow returnTypes).Advances where
  reaches {_ _ env s _ _} hEnv hs h := by
    simp only [possibleArrow, bind_run, get_run, position_run, Option.bind_some, ite_run] at h
    split at h
    · cases h
      exact hs.refl
    · obtain ⟨⟨found, u⟩, hTry, hRest⟩ := Option.bind_eq_some_iff.mp h
      simp only at hRest
      split at hRest
      · cases hRest
        exact Advances.reaches hEnv hs hTry
      · cases hRest
        exact hs.refl.trans ⟨hs.congr rfl rfl, Nat.le_refl _⟩

instance (returnTypes : Bool) : (parenthesizedArrow returnTypes).Advances := by
  unfold parenthesizedArrow
  repeat' first | infer_instance | refine .first fun _ => ?_ | split

instance (returnTypes : Bool) : (asyncNameArrow returnTypes).Advances := by
  unfold asyncNameArrow
  infer_instance

instance : yieldOperand.Advances := by
  unfold yieldOperand
  repeat' first | infer_instance | refine .first fun _ => ?_ | split

instance (returnTypes : Bool) (condition : Operand) : (conditionalRest returnTypes condition).Advances := by
  unfold conditionalRest
  infer_instance

instance (returnTypes : Bool) : (assignment returnTypes).Advances := by
  unfold assignment
  repeat' first | infer_instance | refine .first fun _ => ?_ | split

instance : expression.Advances := by
  unfold expression
  infer_instance

end Arrow

end IconRegistry.Script.Rule
