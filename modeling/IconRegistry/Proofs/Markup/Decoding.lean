import IconRegistry.Markup.Entity
import IconRegistry.Proofs.Text.Substitution

/-! Entities that are replaced one after another are read as in one pass over the text. No replacement makes or breaks
an entity for a later one, since what it brings in stands in none of them. -/
namespace IconRegistry.Markup

open Text (Becomes replaceAll replacing)

/-- The entities that are read, in the order in which they are looked for, and what they stand for. -/
def entities : List (Text × Char) :=
  [("&quot;".toList, '"'), ("&apos;".toList, '\''), ("&#39;".toList, '\''), ("&lt;".toList, '<'), ("&gt;".toList, '>'),
    ("&amp;".toList, '&')]

/-- What one pass from left to right reads in a text: a character for each entity, and all that begins no entity as it
stands. Nothing that was read is looked at again. -/
inductive Decodes (among : List (Text × Char)) : Text → Text → Prop
  | nil : Decodes among [] []
  | entity {entity s t : Text} {c : Char} : (entity, c) ∈ among → Decodes among s t →
      Decodes among (entity ++ s) (c :: t)
  | other {c : Char} {s t : Text} : (∀ e ∈ among, ¬e.1 <+: c :: s) → Decodes among s t →
      Decodes among (c :: s) (c :: t)

/-- Entities that can be looked for one after another: none begins another one, and none has a character in it that an
earlier one stands for. -/
structure Separable (among : List (Text × Char)) : Prop where
  apart : among.Pairwise fun e e' => (¬e.1 <+: e'.1 ∧ ¬e'.1 <+: e.1) ∧ e.2 ∉ e'.1
  shape : ∀ e ∈ among, ∃ tail, e.1 = '&' :: tail ∧ '&' ∉ tail

variable {among : List (Text × Char)} {s t : Text}

/-- An entity stays where another one is replaced that neither begins it nor begins with it. -/
theorem becomes_replacing_other {t u : Text} (hShape : ∃ tail, t = '&' :: tail)
    (hOther : ∃ tail, u = '&' :: tail ∧ '&' ∉ tail) (hApart : ¬t <+: u ∧ ¬u <+: t) (replacement : Text) :
    Becomes (replacing t replacement) u u := by
  obtain ⟨tail, rfl⟩ := hShape
  obtain ⟨rest, rfl, hFree⟩ := hOther
  refine .cons (fun more => Text.replacing_of_not_isPrefix replacement fun hPrefix => ?_) (.self fun c hc more => ?_)
  · rcases List.prefix_or_prefix_of_prefix hPrefix (List.prefix_append ('&' :: rest) more) with h | h
    · exact hApart.1 h
    · exact hApart.2 h
  · exact Text.replacing_of_ne replacement fun hSame => hFree (hSame ▸ hc)

/-- No entity begins with anything but an ampersand. -/
theorem Separable.not_prefix (h : Separable among) {c : Char} (hc : c ≠ '&') (s : Text) :
    ∀ e ∈ among, ¬e.1 <+: c :: s := by
  intro e he hPrefix
  obtain ⟨tail, hShape, -⟩ := h.shape e he
  rw [hShape] at hPrefix
  exact hc (List.cons_prefix_cons.mp hPrefix).1.symm

/-- Replacing the first entity leaves a text in which the others are read as before. -/
theorem Decodes.replaceAll_first {e : Text × Char} (hSeparable : Separable (e :: among))
    (h : Decodes (e :: among) s t) : Decodes among (replaceAll e.1 [e.2] s) t := by
  obtain ⟨hHere, hApart⟩ := List.pairwise_cons.mp hSeparable.apart
  obtain ⟨⟨tail, hTail, -⟩, hShapes⟩ := List.forall_mem_cons.mp hSeparable.shape
  have hLater : Separable among := ⟨hApart, hShapes⟩
  induction h with
  | nil => exact .nil
  | @entity entity s t c hMember hRest ih =>
      rcases List.mem_cons.mp hMember with rfl | hOther
      · obtain rfl : entity = '&' :: tail := hTail
        rw [Text.replaceAll_eq, Text.becomes_replacing tail [c] '&']
        refine .other (fun e he hPrefix => ?_) ih
        -- what was put in begins no other entity
        obtain ⟨rest, hShape, -⟩ := hShapes e he
        rw [hShape] at hPrefix
        obtain ⟨rfl, -⟩ := List.cons_prefix_cons.mp hPrefix
        exact (hHere e he).2 (by rw [hShape]; exact List.mem_cons_self)
      · have hBecomes := becomes_replacing_other ⟨tail, hTail⟩ (hShapes _ hOther) (hHere _ hOther).1 [e.2]
        rw [Text.replaceAll_eq, hBecomes]
        exact .entity hOther ih
  | @other c s t hNone hRest ih =>
      obtain ⟨hFirst, hOthers⟩ := List.forall_mem_cons.mp hNone
      rw [Text.replaceAll_eq, Text.substitute_cons_of_none (Text.replacing_of_not_isPrefix [e.2] hFirst)]
      refine .other (fun other hOther hPrefix => hOthers other hOther ?_) ih
      -- an entity that is there afterwards was there before
      rw [← Text.substitute_cons_of_none (Text.replacing_of_not_isPrefix [e.2] hFirst)] at hPrefix
      exact Text.prefix_of_prefix_replaceAll (hHere other hOther).2 hPrefix

theorem Decodes.eq_of_nil (h : Decodes [] s t) : s = t := by
  induction h with
  | nil => rfl
  | entity hMember => cases hMember
  | other _ _ ih => rw [ih]

/-- Replacing separable entities one after the other is decoding them in one pass. -/
theorem Decodes.foldl_replaceAll (hSeparable : Separable among) (h : Decodes among s t) :
    among.foldl (fun t entity => replaceAll entity.1 [entity.2] t) s = t := by
  induction among generalizing s with
  | nil => exact h.eq_of_nil
  | cons e among ih =>
      have hLater : Separable among :=
        ⟨(List.pairwise_cons.mp hSeparable.apart).2, (List.forall_mem_cons.mp hSeparable.shape).2⟩
      exact ih hLater (h.replaceAll_first hSeparable)

/-- Every text can be read in one pass. -/
theorem exists_decodes (hSeparable : Separable among) (s : Text) : ∃ t, Decodes among s t := by
  induction hLength : s.length using Nat.strongRecOn generalizing s with
  | ind n ih =>
      subst hLength
      cases s with
      | nil => exact ⟨[], .nil⟩
      | cons c s =>
          by_cases hSome : ∃ e ∈ among, e.1 <+: c :: s
          · obtain ⟨e, he, rest, hText⟩ := hSome
            obtain ⟨tail, hShape, -⟩ := hSeparable.shape e he
            have hShort : rest.length < (c :: s).length := by
              rw [← hText, hShape, List.length_append, List.length_cons]
              omega
            obtain ⟨t, ht⟩ := ih _ hShort rest rfl
            exact ⟨e.2 :: t, hText ▸ .entity he ht⟩
          · obtain ⟨t, ht⟩ := ih _ (Nat.lt_succ_self _) s rfl
            exact ⟨c :: t, .other (fun e he hPrefix => hSome ⟨e, he, hPrefix⟩) ht⟩

/-- A text in which each character is spelled as an entity of its own, or stands for itself and is no ampersand. -/
theorem decodes_spelled (hSeparable : Separable among) {spell : Char → Text}
    (h : ∀ c ∈ s, (spell c, c) ∈ among ∨ spell c = [c] ∧ c ≠ '&') : Decodes among (s.flatMap spell) s := by
  induction s with
  | nil => exact .nil
  | cons c s ih =>
      obtain ⟨hHere, hRest⟩ := List.forall_mem_cons.mp h
      rw [List.flatMap_cons]
      rcases hHere with hEntity | ⟨hSelf, hOther⟩
      · exact .entity hEntity (ih hRest)
      · rw [hSelf]
        exact .other (hSeparable.not_prefix hOther _) (ih hRest)

/-- The five entities are separable. -/
theorem separable_entities : Separable entities where
  apart := by decide
  shape := by
    intro e he
    have hAll : ∀ e ∈ entities, e.1 = '&' :: e.1.tail ∧ '&' ∉ e.1.tail := by decide
    exact ⟨_, hAll e he⟩

theorem decodeEntities_eq (s : Text) :
    decodeEntities s = entities.foldl (fun t entity => replaceAll entity.1 [entity.2] t) s := rfl

/-- The replacements one after another read what one pass reads. -/
theorem decodeEntities_eq_iff : decodeEntities s = t ↔ Decodes entities s t := by
  constructor
  · rintro rfl
    obtain ⟨t, ht⟩ := exists_decodes separable_entities s
    rwa [decodeEntities_eq, ht.foldl_replaceAll separable_entities]
  · exact fun h => h.foldl_replaceAll separable_entities

end IconRegistry.Markup
