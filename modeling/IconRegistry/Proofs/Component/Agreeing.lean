import IconRegistry.Proofs.Component.Titling

/-! Which icons frameworks refuse. A framework that writes JSX looks for a root tag in the text, writes into it and
reads what comes out; one that writes calls reads the text and then looks at the name of the root. -/
namespace IconRegistry

open Markup
open Text (PassesOver)

namespace Component

section Title

variable {inside : Text}

/-- A title in front of nodes changes nothing about whether they can be read. -/
theorem failure?_readNodes_writtenTitle (title s : Text) :
    failure? (readNodes (writtenTitle title ++ s)) = failure? (readNodes s) := by
  obtain ⟨children, hEncloses⟩ := exists_encloses_writtenTitle title
  rw [hEncloses.readNodes_append Style.plain_readable readable_title, failure?_map]

/-- A title behind an opening tag is no reason to refuse a root. -/
theorem failureBehind?_writtenTitle (inside title rest : Text) :
    failureBehind? inside (writtenTitle title ++ rest) = failureBehind? inside rest := by
  rw [failureBehind?, failureBehind?, Text.trimEnd_append_of_last (writtenTitle_last title) (by decide),
    splitAtClose?_writtenTitle]
  cases closesItself inside with
  | true => rfl
  | false =>
      cases splitAtClose? "svg".toList 0 0 (Text.trimEnd rest) with
      | none => rfl
      | some parts => exact failure?_readNodes_writtenTitle title parts.1

/-- A root that is closed right away is not refused. -/
theorem failureBehind?_closed (inside rest : Text) : failureBehind? inside ("</svg>".toList ++ rest) = none := by
  have hBehind : splitAtClose? "svg".toList 0 0 (Text.trimEnd ("</svg>".toList ++ rest)) =
      some ([], Text.trimEnd rest) := by
    rw [Text.trimEnd_append_of_last (c := '>') rfl (by decide)]
    exact splitAtClose?_body isTagName_svg (List.forall_mem_nil _) .nil (Text.trimEnd rest)
  rw [failureBehind?, hBehind]
  cases closesItself inside with
  | true | false => rfl

/-- A tag that ends in a slash closes itself. -/
theorem closesItself_of_last {inside : Text} (h : inside.getLast? = some '/') : closesItself inside = true := by
  obtain ⟨front, rfl⟩ := List.getLast?_eq_some_iff.mp h
  rw [closesItself, Text.trimEnd_append_cons _ _ (by decide)]
  simp [Text.trimEnd]

/-- A title that is written into markup is no reason to refuse it. -/
theorem failure?_readRoot_withTitle {s : Text} {tag : NamedTag} (hTag : rootTag? s = some tag) (title : Text) :
    failure? (readRoot (withTitle title s)) = failure? (readRoot s) := by
  obtain ⟨hText, hEnds⟩ := rootTag?_eq_some hTag
  rw [hText, withTitle_svg hEnds, failure?_readRoot_svg hEnds]
  split
  · rename_i hSlash
    have hNone : failureBehind? tag.attributes tag.rest = none := by
      rw [failureBehind?, if_pos (closesItself_of_last hSlash)]
      rfl
    rw [failure?_readRoot_svg (hEnds.trimEnd_dropLast hSlash), failureBehind?_writtenTitle, failureBehind?_closed, hNone]
  · rw [failure?_readRoot_svg hEnds, failureBehind?_writtenTitle]

/-- A document still has a root with a title in it. -/
theorem exists_rootTag_withTitle {s : Text} {tag : NamedTag} (hTag : rootTag? s = some tag) (title : Text) :
    ∃ tag', rootTag? (withTitle title s) = some tag' := by
  obtain ⟨hText, hEnds⟩ := rootTag?_eq_some hTag
  rw [hText, withTitle_svg hEnds]
  split
  · rename_i hSlash
    exact ⟨_, rootTag?_append (hEnds.trimEnd_dropLast hSlash) _⟩
  · exact ⟨_, rootTag?_append hEnds _⟩

end Title

section Attributes

variable {pairs : Attributes}

/-- The search for the end of a tag passes over attributes that are written. -/
theorem passesOver_writtenAttributes (hKeyed : pairs.Keyed) (hUnquoted : pairs.Unquoted)
    (hAngle : ∀ pair ∈ pairs, '>' ∉ pair.1) : PassesOver splitTagEnd? (writtenAttributes pairs) := by
  refine .flatten fun piece hPiece => ?_
  obtain ⟨pair, hPair, rfl⟩ := List.mem_map.mp hPiece
  have hQuote : '"' ∉ pair.1 := fun hMember => absurd ((hKeyed pair hPair).2 _ hMember) (by decide)
  have hFront : PassesOver splitTagEnd? (' ' :: pair.1 ++ ['=']) :=
    passesOver_plain (by simpa using hQuote) (by simpa using hAngle pair hPair)
  simpa using hFront.append (passesOver_quoted (hUnquoted pair hPair))

theorem writtenAttributes_last (h : pairs ≠ []) : (writtenAttributes pairs).getLast? = some '"' := by
  obtain ⟨front, pair, rfl⟩ := (List.eq_nil_or_concat pairs).resolve_left h
  simp [writtenAttributes, List.getLast?_cons, List.getLast?_append]

/-- Attributes that are written into a root tag are no reason to refuse it, if no key there has a `>`. -/
theorem failure?_readRoot_withAttributes {s : Text} {tag : NamedTag} {extras : Attributes}
    (hTag : rootTag? s = some tag) (hSome : extras ≠ []) (hKeys : ∀ pair ∈ extras, IsKey pair.1)
    (hAngle : ∀ pair ∈ attributesIn tag.attributes, '>' ∉ pair.1) :
    failure? (readRoot (withAttributes extras s)) = failure? (readRoot s) := by
  obtain ⟨hText, hEnds⟩ := rootTag?_eq_some hTag
  have hKeyed : extras.Keyed := fun pair hPair => ⟨(hKeys pair hPair).nonempty, (hKeys pair hPair).chars⟩
  have hMerged : ∀ pair ∈ (attributesIn tag.attributes).merge (extras.mapValues escapeAttribute), '>' ∉ pair.1 := by
    refine Attributes.forall_merge hAngle fun pair hPair => ?_
    obtain ⟨extra, hExtra, rfl⟩ := List.mem_map.mp hPair
    exact (hKeys extra hExtra).angles.2
  have hLast := writtenAttributes_last (merge_mapValues_ne_nil hSome (attributesIn tag.attributes))
  have hPasses := passesOver_writtenAttributes (keyed_merge hKeyed tag.attributes)
    (unquoted_merge extras tag.attributes) hMerged
  have hBlank : ∃ t, writtenAttributes ((attributesIn tag.attributes).merge (extras.mapValues escapeAttribute)) =
      ' ' :: t := by
    obtain ⟨pair, rest, hParts⟩ := List.exists_cons_of_ne_nil
      (merge_mapValues_ne_nil hSome (attributesIn tag.attributes))
    exact ⟨_, by rw [hParts, writtenAttributes]; rfl⟩
  rw [withAttributes_eq hTag]
  generalize writtenAttributes ((attributesIn tag.attributes).merge (extras.mapValues escapeAttribute)) = written
    at hLast hPasses hBlank
  obtain ⟨t, ht⟩ := hBlank
  have hEnding : PassesOver splitTagEnd? (if closesItself tag.attributes then ['/'] else []) := by
    split
    · exact passesOver_plain (by decide) (by decide)
    · exact .nil
  have hEnds' : EndsName (written ++ if closesItself tag.attributes then ['/'] else []) :=
    ⟨.inr (.inr ⟨' ', _, by rw [ht]; rfl, by decide⟩), hPasses.append hEnding⟩
  have hCloses : closesItself (written ++ if closesItself tag.attributes then ['/'] else []) =
      closesItself tag.attributes := by
    cases closesItself tag.attributes with
    | true => exact closesItself_of_last (by simp)
    | false =>
        have hKept : Text.trimEnd written = written := Text.trimEnd_eq_self (by rw [hLast]; rintro c ⟨rfl⟩; decide)
        simp [closesItself, hKept, hLast]
  rw [← List.append_assoc written, failure?_readRoot_svg hEnds', failureBehind?, hCloses, ← failureBehind?,
    ← failure?_readRoot_svg hEnds, ← hText]

end Attributes

/-- Read as markup, a text has no root called `svg`: it has no root at all, or one of another name. -/
def LacksRoot (s : Text) : Prop :=
  match readRoot s with
  | .error cause => cause = .noRootElement
  | .ok root => root.tag ≠ "svg".toList

/-- Looking for a root tag in an optimized text, and reading the text, come to the same: both find no root, or the root
is refused alike with the attributes that a spec asks for and without. -/
def RootsAgree (spec : Spec) (s : Text) : Prop :=
  match rootTag? s with
  | none => LacksRoot s
  | some _ => failure? (readRoot (attributed spec s)) = failure? (readRoot s)

/-- They do come to the same where the root tag has no `>` in a key. -/
theorem rootsAgree_of_angle {spec : Spec} {s : Text} {tag : NamedTag} (hTag : rootTag? s = some tag)
    (h : spec.extraAttributes = [] ∨ ∀ pair ∈ attributesIn tag.attributes, '>' ∉ pair.1) : RootsAgree spec s := by
  rw [RootsAgree, hTag]
  dsimp only
  rw [attributed]
  split
  · rfl
  · rename_i hSome
    have hExtras : spec.extraAttributes ≠ [] := by simpa using hSome
    exact failure?_readRoot_withAttributes hTag hExtras (fun _ => isKey_of_mem_extraAttributes)
      (h.resolve_left hExtras)

/-- Different causes make different failures. -/
theorem ofReadError_injective (label : Text) : Function.Injective (TransformError.ofReadError label) := by
  intro cause cause' h
  cases cause <;> cases cause' <;> cases h <;> rfl

end Component

namespace Framework

open Component

variable {framework : Framework} {optimize : Optimizer} {spec : Spec} {typescript : Bool} {markup s : Text}

/-- A root that was found fails only where it cannot be read. -/
theorem failure?_ofRoot {text : Text} {tag : NamedTag} (hTag : rootTag? text = some tag) (label : Text) :
    failure? (match readRoot text with
      | .error cause => throw (.ofReadError label cause)
      | .ok root => if root.tag == "svg".toList then return root else throw (.missingRoot label)) =
      (failure? (readRoot text)).map (TransformError.ofReadError label) := by
  cases hRead : readRoot text with
  | error cause => rfl
  | ok root =>
      have hSvg : (root.tag == "svg".toList) = true := by simpa using tag_of_readRoot_svg hTag hRead
      dsimp only
      rw [if_pos hSvg]
      rfl

/-- Why JSX is not made: there is no root tag in the text, or the text cannot be read with the attributes in it. -/
theorem failure?_annotatedRoot (hOptimized : optimize markup = .ok s) :
    failure? (annotatedRoot optimize spec markup) =
      match rootTag? s with
      | none => some (.missingRoot spec.label)
      | some _ => (failure? (readRoot (attributed spec s))).map (TransformError.ofReadError spec.label) := by
  cases hTag : rootTag? s with
  | none =>
      have hNone : annotated optimize spec markup = .error (.missingRoot spec.label) := by
        simp only [annotated, hOptimized, bind, Except.bind, hTag]
        rfl
      rw [annotatedRoot, hNone]
      rfl
  | some tag =>
      obtain ⟨tag', hTag', -⟩ := exists_rootTag_attributed spec hTag
      rw [annotatedRoot, annotated_eq hOptimized (by rw [hTag]; rfl), ← attributed]
      dsimp only [bind, Except.bind]
      cases spec.titleText? with
      | none => exact failure?_ofRoot hTag' spec.label
      | some title =>
          obtain ⟨titled, hTitled⟩ := exists_rootTag_withTitle hTag' title
          dsimp only
          rw [← failure?_readRoot_withTitle hTag' title]
          exact failure?_ofRoot hTitled spec.label

/-- Why calls are not made: the text cannot be read, or its root is not called `svg`. -/
theorem failure?_annotatedCallTree (hOptimized : optimize markup = .ok s) :
    failure? (annotatedCallTree optimize spec markup) =
      match readRoot s with
      | .error cause => some (.ofReadError spec.label cause)
      | .ok root => if root.tag = "svg".toList then none else some (.missingRoot spec.label) := by
  simp only [annotatedCallTree, hOptimized, CallTree.ofMarkup, bind, Except.bind]
  cases readRoot s with
  | error cause => rfl
  | ok root =>
      dsimp only [pure, Except.pure]
      by_cases hSvg : root.tag = "svg".toList
      · rw [if_pos hSvg, if_pos (by simpa using hSvg)]
        rfl
      · rw [if_neg hSvg, if_neg (by simpa using hSvg)]
        rfl

/-- What a framework refuses, it refuses in the body of a component. -/
theorem failure?_transform (framework : Framework) (optimize : Optimizer) (spec : Spec) (typescript : Bool)
    (markup : Text) :
    failure? (framework.transform optimize spec typescript markup) =
      if framework = .vue then failure? (annotatedCallTree optimize spec markup)
      else failure? (annotatedRoot optimize spec markup) := by
  rw [transform, failure?_bind _ fun _ => rfl]
  cases framework with
  | vue => exact failure?_bind _ fun _ => rfl
  | react | preact | solid => exact failure?_bind _ fun _ => rfl

/-- The two ways to an element tree are refused alike just where both come to the same root. -/
theorem failures_eq_iff (hOptimized : optimize markup = .ok s) :
    failure? (annotatedCallTree optimize spec markup) = failure? (annotatedRoot optimize spec markup) ↔
      RootsAgree spec s := by
  rw [failure?_annotatedCallTree hOptimized, failure?_annotatedRoot hOptimized, RootsAgree]
  cases hTag : rootTag? s with
  | none =>
      dsimp only
      rw [LacksRoot]
      cases readRoot s with
      | error cause => cases cause <;> simp [TransformError.ofReadError]
      | ok root => simp
  | some tag =>
      have hCalls : (match readRoot s with
          | .error cause => some (TransformError.ofReadError spec.label cause)
          | .ok root => if root.tag = "svg".toList then none else some (.missingRoot spec.label)) =
            (failure? (readRoot s)).map (TransformError.ofReadError spec.label) := by
        cases hRead : readRoot s with
        | error cause => rfl
        | ok root => exact if_pos (tag_of_readRoot_svg hTag hRead)
      rw [hCalls, (Option.map_injective (ofReadError_injective spec.label)).eq_iff]
      exact eq_comm

/-- The frameworks that write JSX refuse the same icons, for the same reasons. All four do if and only if looking for a
root tag in the optimized text and reading the text come to the same. They do where there is a root tag without a `>` in
a key. Where there is none, the frameworks that write JSX find no root. -/
theorem transforms_agree_iff (optimize : Optimizer) (spec : Spec) (typescript : Bool) (markup : Text) :
    (∀ framework other : Framework, framework ≠ .vue → other ≠ .vue →
      failure? (framework.transform optimize spec typescript markup) =
        failure? (other.transform optimize spec typescript markup)) ∧
    ((∀ framework other : Framework, failure? (framework.transform optimize spec typescript markup) =
        failure? (other.transform optimize spec typescript markup)) ↔
      ∀ s, optimize markup = .ok s → RootsAgree spec s) ∧
    (∀ s tag, optimize markup = .ok s → rootTag? s = some tag →
      spec.extraAttributes = [] ∨ (∀ pair ∈ attributesIn tag.attributes, '>' ∉ pair.1) → RootsAgree spec s) ∧
    ∀ s, optimize markup = .ok s → rootTag? s = none → ∀ framework : Framework, framework ≠ .vue →
      framework.transform optimize spec typescript markup = .error (.missingRoot spec.label) := by
  refine ⟨?_, ⟨?_, ?_⟩, fun s tag _ hTag => rootsAgree_of_angle hTag, ?_⟩
  · intro framework other hFramework hOther
    rw [failure?_transform, failure?_transform, if_neg hFramework, if_neg hOther]
  · intro hAgree s hOptimized
    have hBoth := hAgree .vue .react
    rw [failure?_transform, failure?_transform, if_pos rfl, if_neg (by decide)] at hBoth
    exact (failures_eq_iff hOptimized).mp hBoth
  · intro hRoots framework other
    have hBoth : failure? (annotatedCallTree optimize spec markup) = failure? (annotatedRoot optimize spec markup) := by
      cases hOptimized : optimize markup with
      | error e => simp [annotatedCallTree, annotatedRoot, annotated, hOptimized, bind, Except.bind, failure?]
      | ok s => exact (failures_eq_iff hOptimized).mpr (hRoots s hOptimized)
    rw [failure?_transform, failure?_transform, hBoth, ite_self, ite_self]
  · intro s hOptimized hTag framework hFramework
    apply eq_error_of_failure?
    rw [failure?_transform, if_neg hFramework, failure?_annotatedRoot hOptimized, hTag]

/-- An element of another name around what is no markup: frameworks give different reasons. -/
theorem transforms_disagree :
    Framework.react.transform canonicalOptimizer ⟨"A".toList, "a".toList, .none, false, false, .inline⟩ false
        "<g><1></g>".toList = .error (.missingRoot "a".toList) ∧
      Framework.vue.transform canonicalOptimizer ⟨"A".toList, "a".toList, .none, false, false, .inline⟩ false
        "<g><1></g>".toList = .error (.markup (.unexpected "<1>".toList)) :=
  ⟨eq_error_of_failure? (by decide +kernel), eq_error_of_failure? (by decide +kernel)⟩

end Framework

end IconRegistry
