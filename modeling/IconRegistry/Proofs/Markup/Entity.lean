import IconRegistry.Proofs.Markup.Decoding
import IconRegistry.Proofs.Markup.Writing

/-! Entities in what is written come out as the characters they stand for. -/
namespace IconRegistry.Markup

open Text (Trimmed isBlank replaceAll)

def entityInText (c : Char) : Text :=
  if c = '&' then "&amp;".toList else if c = '<' then "&lt;".toList else if c = '>' then "&gt;".toList else [c]

variable {s : Text}

theorem escapeText_eq (s : Text) : escapeText s = s.flatMap entityInText := by
  simp only [escapeText, Text.replaceAll_char, List.flatMap_assoc]
  congr 1
  funext c
  rw [entityInText]
  by_cases hAmp : c = '&'
  · subst hAmp
    decide
  · by_cases hLess : c = '<'
    · subst hLess
      decide
    · simp [hAmp, hLess]

/-- A character is escaped by an entity or stays, and an angle bracket does not stay. -/
theorem entityInText_cases (c : Char) :
    entityInText c ∈ ["&amp;".toList, "&lt;".toList, "&gt;".toList] ∨ entityInText c = [c] ∧ c ≠ '<' := by
  rw [entityInText]
  split
  · exact .inl (by decide)
  · split
    · exact .inl (by decide)
    · rename_i hLess
      split
      · exact .inl (by decide)
      · exact .inr ⟨rfl, hLess⟩

/-- An escaped text begins no tag. -/
theorem angle_not_mem_escapeText (s : Text) : '<' ∉ escapeText s := by
  rw [escapeText_eq, List.mem_flatMap]
  rintro ⟨c, -, hMember⟩
  rcases entityInText_cases c with h | ⟨h, hOther⟩
  · have hFree : ∀ t ∈ ["&amp;".toList, "&lt;".toList, "&gt;".toList], '<' ∉ t := by decide
    exact hFree _ h hMember
  · rw [h, List.mem_singleton] at hMember
    exact hOther hMember.symm

/-- An escaped text ends no tag. -/
theorem greater_not_mem_escapeText (s : Text) : '>' ∉ escapeText s := by
  rw [escapeText]
  exact Text.not_mem_replaceAll_char (by decide) _

/-- An entity has no blanks, so that it begins and ends like a character that is none. -/
theorem trimmed_entityInText {c : Char} (h : isBlank c = false) :
    entityInText c ≠ [] ∧ Trimmed (entityInText c) := by
  rcases entityInText_cases c with hEntity | ⟨hSame, -⟩
  · have hAll : ∀ t ∈ ["&amp;".toList, "&lt;".toList, "&gt;".toList], t ≠ [] ∧ Trimmed t := by decide
    exact hAll _ hEntity
  · rw [hSame]
    exact ⟨List.cons_ne_nil _ _, by simp [h], by simp [h]⟩

/-- What is written for a text is a text. -/
theorem isContent_escapeText (hSome : s ≠ []) (h : Trimmed s) : IsContent (escapeText s) where
  nonempty := by
    obtain ⟨c, rest, rfl⟩ := List.exists_cons_of_ne_nil hSome
    rw [escapeText_eq, List.flatMap_cons]
    exact List.append_ne_nil_of_left_ne_nil (trimmed_entityInText (h.head c rfl)).1 _
  trimmed := by
    rw [escapeText_eq]
    constructor
    · intro d hd
      obtain ⟨c, rest, rfl⟩ := List.exists_cons_of_ne_nil hSome
      obtain ⟨hFirst, hTrimmed⟩ := trimmed_entityInText (h.head c rfl)
      obtain ⟨e, t, hParts⟩ := List.exists_cons_of_ne_nil hFirst
      rw [List.flatMap_cons, hParts] at hd
      exact hTrimmed.head d (hParts ▸ hd)
    · intro d hd
      obtain ⟨rest, c, rfl⟩ := (List.eq_nil_or_concat s).resolve_left hSome
      obtain ⟨hLast, hTrimmed⟩ := trimmed_entityInText (h.last c (by simp))
      obtain ⟨t, e, hParts⟩ := (List.eq_nil_or_concat _).resolve_left hLast
      rw [List.concat_eq_append, List.flatMap_append, List.flatMap_singleton, hParts] at hd
      exact hTrimmed.last d (by simpa [hParts] using hd)
  angle := angle_not_mem_escapeText s

/-- An escaped value does not end its quotes. -/
theorem quote_not_mem_escapeAttribute (s : Text) : '"' ∉ escapeAttribute s := by
  rw [escapeAttribute]
  exact Text.not_mem_replaceAll_char (by decide) _

/-- A text without an ampersand is decoded as it is. -/
theorem decodeEntities_of_not_mem (h : '&' ∉ s) : decodeEntities s = s := by
  have hNone : ∀ {needle t}, t = s → ∀ replacement, replaceAll ('&' :: needle) replacement t = s := by
    rintro needle t rfl replacement
    exact Text.replaceAll_of_not_mem replacement h
  exact hNone (hNone (hNone (hNone (hNone (hNone rfl _) _) _) _) _) _

/-- Decoding gives back what was escaped. -/
theorem decodeEntities_escapeText (s : Text) : decodeEntities (escapeText s) = s := by
  rw [decodeEntities_eq_iff, escapeText_eq]
  refine decodes_spelled separable_entities fun c _ => ?_
  rw [entityInText]
  split
  · rename_i hHere
    exact .inl (hHere ▸ by decide)
  · rename_i hAmp
    split
    · rename_i hHere
      exact .inl (hHere ▸ by decide)
    · split
      · rename_i hHere
        exact .inl (hHere ▸ by decide)
      · exact .inr ⟨rfl, hAmp⟩

def entityInAttribute (c : Char) : Text :=
  if c = '&' then "&amp;".toList else if c = '"' then "&quot;".toList else [c]

theorem escapeAttribute_eq (s : Text) : escapeAttribute s = s.flatMap entityInAttribute := by
  simp only [escapeAttribute, Text.replaceAll_char, List.flatMap_assoc]
  congr 1
  funext c
  rw [entityInAttribute]
  by_cases hAmp : c = '&'
  · subst hAmp
    decide
  · rw [if_neg hAmp, if_neg hAmp, List.flatMap_singleton]

theorem decodeEntities_escapeAttribute (s : Text) : decodeEntities (escapeAttribute s) = s := by
  rw [decodeEntities_eq_iff, escapeAttribute_eq]
  refine decodes_spelled separable_entities fun c _ => ?_
  rw [entityInAttribute]
  split
  · rename_i hHere
    exact .inl (hHere ▸ by decide)
  · rename_i hAmp
    split
    · rename_i hHere
      exact .inl (hHere ▸ by decide)
    · exact .inr ⟨rfl, hAmp⟩

/-- Replacing entities by characters makes no text longer. -/
theorem length_foldl_replaceAll_le {among : List (Text × Char)} (hLong : ∀ e ∈ among, 1 < e.1.length) (s : Text) :
    (among.foldl (fun t entity => replaceAll entity.1 [entity.2] t) s).length ≤ s.length := by
  induction among generalizing s with
  | nil => exact Nat.le_refl _
  | cons e among ih =>
      obtain ⟨hHere, hRest⟩ := List.forall_mem_cons.mp hLong
      rw [List.foldl_cons]
      by_cases hOccurs : e.1 <:+: s
      · exact Nat.le_trans (ih hRest _) (Nat.le_of_lt (Text.length_replaceAll_lt hHere hOccurs))
      · rw [Text.replaceAll_of_not_infix _ hOccurs]
        exact ih hRest s

/-- Nothing changes exactly if no entity occurs. -/
theorem foldl_replaceAll_eq_self_iff {among : List (Text × Char)} (hLong : ∀ e ∈ among, 1 < e.1.length) :
    among.foldl (fun t entity => replaceAll entity.1 [entity.2] t) s = s ↔ ∀ e ∈ among, ¬e.1 <:+: s := by
  induction among with
  | nil => simp
  | cons e among ih =>
      obtain ⟨hHere, hRest⟩ := List.forall_mem_cons.mp hLong
      rw [List.foldl_cons, List.forall_mem_cons]
      by_cases hOccurs : e.1 <:+: s
      · have hLess : (replaceAll e.1 [e.2] s).length < s.length := Text.length_replaceAll_lt hHere hOccurs
        have hLe := length_foldl_replaceAll_le hRest (replaceAll e.1 [e.2] s)
        constructor
        · intro hSame
          rw [hSame] at hLe
          omega
        · exact fun hNone => absurd hOccurs hNone.1
      · rw [Text.replaceAll_of_not_infix _ hOccurs, ih hRest, and_iff_right hOccurs]

/-- A text is read as it stands just where no entity occurs in it. -/
theorem decodeEntities_eq_self_iff : decodeEntities s = s ↔ ∀ entity ∈ entities, ¬entity.1 <:+: s := by
  rw [decodeEntities_eq]
  exact foldl_replaceAll_eq_self_iff (by decide)

/-- A text is escaped as it is if it has nothing to escape. -/
theorem escapeText_eq_self_iff : escapeText s = s ↔ ∀ c ∈ s, c ≠ '&' ∧ c ≠ '<' ∧ c ≠ '>' := by
  constructor
  · intro hSame c hc
    have hDecoded := decodeEntities_escapeText s
    rw [hSame, decodeEntities_eq_self_iff] at hDecoded
    have hInfix : entityInText c <:+: s := by
      obtain ⟨front, back, rfl⟩ := List.append_of_mem hc
      rw [escapeText_eq, List.flatMap_append, List.flatMap_cons] at hSame
      exact ⟨front.flatMap entityInText, back.flatMap entityInText, by rw [List.append_assoc]; exact hSame⟩
    refine ⟨?_, ?_, ?_⟩
    · rintro rfl
      exact hDecoded ("&amp;".toList, '&') (by decide) hInfix
    · rintro rfl
      exact hDecoded ("&lt;".toList, '<') (by decide) hInfix
    · rintro rfl
      exact hDecoded ("&gt;".toList, '>') (by decide) hInfix
  · intro hPlain
    have hSame : ∀ c ∈ s, entityInText c = [c] := by
      intro c hc
      rw [entityInText, if_neg (hPlain c hc).1, if_neg (hPlain c hc).2.1, if_neg (hPlain c hc).2.2]
    rw [escapeText_eq, List.flatMap_def, List.map_congr_left hSame, ← List.flatMap_def, List.flatMap_singleton']

/-- Escaping leaves the characters alone that entities are not written with. -/
theorem mem_escapeText_iff {c : Char} (hc : c ∉ "&amp;&lt;&gt;".toList ∧ c ∉ ['<', '>']) : c ∈ escapeText s ↔ c ∈ s := by
  rw [escapeText_eq, List.mem_flatMap]
  constructor
  · rintro ⟨d, hd, hMember⟩
    rcases entityInText_cases d with hEntity | ⟨hSame, -⟩
    · have hAll : ∀ t ∈ ["&amp;".toList, "&lt;".toList, "&gt;".toList], ∀ e ∈ t, e ∈ "&amp;&lt;&gt;".toList := by decide
      exact absurd (hAll _ hEntity c hMember) hc.1
    · rw [hSame, List.mem_singleton] at hMember
      exact hMember ▸ hd
  · intro hMember
    obtain ⟨hAmp, hLess, hGreater⟩ : c ≠ '&' ∧ c ≠ '<' ∧ c ≠ '>' := by
      refine ⟨?_, ?_, ?_⟩
      all_goals
        rintro rfl
        revert hc
        decide
    exact ⟨c, hMember, by rw [entityInText, if_neg hAmp, if_neg hLess, if_neg hGreater]; exact List.mem_singleton.mpr rfl⟩

/-- Reading the entities undoes writing a text with them, which leaves no character in it that could end a value or
begin a tag. The six replacements read exactly what one pass over the text reads, so nothing is read twice. -/
theorem entities_read_once (s : Text) :
    decodeEntities (escapeAttribute s) = s ∧ decodeEntities (escapeText s) = s ∧ '"' ∉ escapeAttribute s ∧
      ('<' ∉ escapeText s ∧ '>' ∉ escapeText s) ∧ ∀ t, decodeEntities s = t ↔ Decodes entities s t :=
  ⟨decodeEntities_escapeAttribute s, decodeEntities_escapeText s, quote_not_mem_escapeAttribute s,
    ⟨angle_not_mem_escapeText s, greater_not_mem_escapeText s⟩, fun _ => decodeEntities_eq_iff⟩

/-- An ampersand that was written as an entity does not begin another one. -/
example : decodeEntities "&amp;lt; &&#39;&amp".toList = "&lt; &'&amp".toList := by decide

end IconRegistry.Markup
