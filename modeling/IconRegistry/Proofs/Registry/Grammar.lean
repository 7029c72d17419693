import IconRegistry.Proofs.Registry.Layout
import IconRegistry.Proofs.Script.Cutting

/-! The grammar of properties, as far as the editing of a collection depends on it, and the layouts that it
derives. -/
namespace IconRegistry.Registry

open Script

/-- Which texts are properties, each with the plain name that it has, if any. A property begins with a token, and a plain
name is a name of the script language. -/
structure Grammar where
  property : Option Text → Text → Prop
  begins : ∀ {name? text}, property name? text → BeginsToken text
  isIdentifier : ∀ {name text}, property (some name) text → IsIdentifier name

/-- The grammar of all texts that begin with a token. -/
def Grammar.any : Grammar where
  property name? text := BeginsToken text ∧ ∀ name, name? = some name → IsIdentifier name
  begins h := h.1
  isIdentifier h := h.2 _ rfl

/-- A property that the grammar derives, with gaps behind it and behind its comma. -/
structure Property.WellFormed (grammar : Grammar) (p : Property) : Prop where
  property : grammar.property p.name? p.text
  gap : isGap p.gap = true
  afterComma : ∀ after, p.afterComma? = some after → isGap after = true

/-- Every property but the last has a comma. -/
def Separated (properties : List Property) : Prop :=
  ∀ p ∈ properties.dropLast, p.afterComma?.isSome = true

/-- The layouts that the grammar derives. -/
structure Layout.WellFormed (grammar : Grammar) (layout : Layout) : Prop where
  front : isGap layout.front = true
  properties : ∀ p ∈ layout.properties, p.WellFormed grammar
  separated : Separated layout.properties

/-- Whether a layout is derived depends, apart from its gaps and commas, on its properties. -/
theorem Layout.WellFormed.of_properties {grammar other : Grammar} {layout : Layout} (h : layout.WellFormed other)
    (hProperties : ∀ p ∈ layout.properties, grammar.property p.name? p.text) : layout.WellFormed grammar where
  front := h.front
  properties p hp := ⟨hProperties p hp, (h.properties p hp).gap, (h.properties p hp).afterComma⟩
  separated := h.separated

/-- What a grammar derives begins with a token and is named by a name. -/
theorem Layout.WellFormed.any {grammar : Grammar} {layout : Layout} (h : layout.WellFormed grammar) :
    layout.WellFormed .any :=
  h.of_properties fun p hp =>
    let hProperty := (h.properties p hp).property
    ⟨grammar.begins hProperty, fun _ hName => grammar.isIdentifier (hName ▸ hProperty)⟩

/-- Nothing but a gap between the braces means no properties: each begins with a character that is in no gap. -/
theorem Layout.WellFormed.properties_eq_nil {grammar : Grammar} {layout : Layout}
    (h : layout.WellFormed grammar) (hGap : isGap layout.text = true) : layout.properties = [] := by
  cases hProperties : layout.properties with
  | nil => rfl
  | cons p rest =>
      obtain ⟨c, text, hText, hBegins⟩ := grammar.begins (h.properties p (by simp [hProperties])).property
      rw [Layout.text, hProperties, writtenAll_cons, hText, List.cons_append,
        isGap_append_cons h.front hBegins] at hGap
      cases hGap

/-- Properties are separated if all but the last have commas behind them. -/
theorem separated_append_cons {ps qs : List Property} {p : Property} :
    Separated (ps ++ p :: qs) ↔ (∀ q ∈ ps, q.afterComma?.isSome = true) ∧ Separated (p :: qs) := by
  rw [Separated, List.dropLast_append_cons, List.forall_mem_append]
  rfl

theorem separated_cons_cons {p q : Property} {qs : List Property} :
    Separated (p :: q :: qs) ↔ p.afterComma?.isSome = true ∧ Separated (q :: qs) := by
  rw [Separated, List.dropLast_cons_cons, List.forall_mem_cons]
  rfl

theorem separated_singleton (p : Property) : Separated [p] := by
  simp [Separated]

theorem Separated.tail {p : Property} {rest : List Property} (h : Separated (p :: rest)) : Separated rest := by
  cases rest with
  | nil => simp [Separated]
  | cons q rest => exact (separated_cons_cons.mp h).2

/-- A property that is not the last has a comma behind it. -/
theorem Separated.exists_comma {p : Property} {rest : List Property} (h : Separated (p :: rest))
    (hRest : rest ≠ []) : ∃ after, p.afterComma? = some after := by
  obtain ⟨q, rest, rfl⟩ := List.exists_cons_of_ne_nil hRest
  exact Option.isSome_iff_exists.mp (separated_cons_cons.mp h).1

/-- Whether properties are separated does not depend on the texts. -/
theorem Separated.congr_head {p q : Property} {qs : List Property} (h : Separated (p :: qs))
    (same : p.afterComma? = q.afterComma?) : Separated (q :: qs) := by
  cases qs with
  | nil => exact separated_singleton q
  | cons r qs =>
      rw [separated_cons_cons] at *
      exact ⟨same ▸ h.1, h.2⟩

/-- An object literal is laid out in a text: there a layout stands, and the literal has its spans. -/
def LaidOutIn (text : Text) (literal : ObjectLiteral) : Prop :=
  ∃ (before after : Text) (layout : Layout), text = layout.between before after ∧ layout.WellFormed .any ∧
    literal = layout.literalAt before.length

end IconRegistry.Registry
