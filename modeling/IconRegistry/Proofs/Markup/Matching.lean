import IconRegistry.Proofs.Markup.Failing

/-! Which close tag matches an opening tag. The tags of one name are counted from left to right, those that were opened
against those that were closed; the matching close tag is where more would be closed than were opened, and the search
for it stops just there. -/
namespace IconRegistry.Markup

/-- What a tag adds to the number of those that are open. -/
def NamedTag.change (tag : NamedTag) : Int :=
  if tag.closing then -1 else if closesItself tag.attributes then 0 else 1

/-- From left to right over the tags of a name in a text, up to `rest` and over `front`: the number of those that are
open goes from `level` to `level'`. What looks like a tag within a tag is none. -/
inductive Counts (name : Text) : (level : Int) → (s front rest : Text) → (level' : Int) → Prop
  | here {level : Int} {s : Text} : Counts name level s [] s level
  | other {level level' : Int} {c : Char} {s front rest : Text} : NamedTag.read? name (c :: s) = none →
      Counts name level s front rest level' → Counts name level (c :: s) (c :: front) rest level'
  | tag {level level' : Int} {s front rest : Text} {tag : NamedTag} : NamedTag.read? name s = some tag →
      Counts name (level + tag.change) tag.rest front rest level' →
      Counts name level s (tag.source name ++ front) rest level'

/-- A close tag is the first that closes more than was opened, where `depth` tags are open at the beginning. -/
structure ClosedBy (name : Text) (depth : Nat) (s inside : Text) (closing : NamedTag) : Prop where
  level : Counts name depth s inside (closing.source name ++ closing.rest) 0
  read : NamedTag.read? name (closing.source name ++ closing.rest) = some closing
  closing : closing.closing = true
  first : ∀ {front rest level}, Counts name depth s front rest level → front.length ≤ inside.length → 0 ≤ level

/-- Nowhere in a text is more closed than was opened, where `depth` tags are open at the beginning. -/
def Unclosed (name : Text) (depth : Nat) (s : Text) : Prop :=
  ∀ front rest level, Counts name depth s front rest level → 0 ≤ level

variable {name s inside rest front : Text} {depth depth' : Nat} {level level' : Int} {found closing : NamedTag} {c : Char}

section Counting

theorem Counts.eq_append (h : Counts name level s front rest level') : s = front ++ rest := by
  induction h with
  | here => rfl
  | other _ _ ih => rw [ih, List.cons_append]
  | tag hRead _ ih => rw [List.append_assoc, ← ih, ← (NamedTag.read?_eq_some hRead).1]

/-- Tags are counted one part of the text after the other. -/
theorem Counts.trans {front' rest' : Text} {last : Int} (h : Counts name level s front rest level')
    (h' : Counts name level' rest front' rest' last) : Counts name level s (front ++ front') rest' last := by
  induction h with
  | here => exact h'
  | other hNone _ ih => exact .other hNone (ih h')
  | tag hSome _ ih =>
      rw [List.append_assoc]
      exact .tag hSome (ih h')

/-- Where no tag stands, a count goes on with the next character. -/
theorem Counts.of_none (hNone : NamedTag.read? name (c :: s) = none) (h : Counts name level (c :: s) front rest level') :
    front = [] ∧ level' = level ∨ ∃ front', front = c :: front' ∧ Counts name level s front' rest level' := by
  cases h with
  | here => exact .inl ⟨rfl, rfl⟩
  | other _ hRest => exact .inr ⟨_, rfl, hRest⟩
  | tag hRead => cases hNone.symm.trans hRead

/-- Where a tag stands, a count takes it as a whole. -/
theorem Counts.of_some (hSome : NamedTag.read? name s = some found) (h : Counts name level s front rest level') :
    front = [] ∧ level' = level ∨
      ∃ front', front = found.source name ++ front' ∧ Counts name (level + found.change) found.rest front' rest level' := by
  cases h with
  | here => exact .inl ⟨rfl, rfl⟩
  | other hNone => cases hNone.symm.trans hSome
  | tag hRead hRest =>
      obtain rfl := Option.some.inj (hSome.symm.trans hRead)
      exact .inr ⟨_, rfl, hRest⟩

end Counting

section Steps

/-- A character that begins no tag changes nothing about which tag closes. -/
theorem ClosedBy.other (hNone : NamedTag.read? name (c :: s) = none) (h : ClosedBy name depth s inside closing) :
    ClosedBy name depth (c :: s) (c :: inside) closing where
  level := .other hNone h.level
  read := h.read
  closing := h.closing
  first hCounts hShort := by
    rcases hCounts.of_none hNone with ⟨-, rfl⟩ | ⟨front, rfl, hRest⟩
    · exact Int.natCast_nonneg depth
    · exact h.first hRest (Nat.le_of_succ_le_succ hShort)

/-- A tag that closes nothing here changes the depth for what follows it. -/
theorem ClosedBy.tag (hSome : NamedTag.read? name s = some found) (hDepth : (depth' : Int) = depth + found.change)
    (h : ClosedBy name depth' found.rest inside closing) :
    ClosedBy name depth s (found.source name ++ inside) closing where
  level := .tag hSome (hDepth ▸ h.level)
  read := h.read
  closing := h.closing
  first hCounts hShort := by
    rcases hCounts.of_some hSome with ⟨-, rfl⟩ | ⟨front, rfl, hRest⟩
    · exact Int.natCast_nonneg depth
    · rw [← hDepth] at hRest
      rw [List.length_append, List.length_append] at hShort
      exact h.first hRest (Nat.le_of_add_le_add_left hShort)

/-- A closing tag at depth zero closes. -/
theorem closedBy_here (hSome : NamedTag.read? name s = some found) (hClosing : found.closing = true) :
    ClosedBy name 0 s [] found where
  level := by
    rw [← (NamedTag.read?_eq_some hSome).1]
    exact .here
  read := by rw [← (NamedTag.read?_eq_some hSome).1, hSome]
  closing := hClosing
  first hCounts hShort := by
    rcases hCounts.of_some hSome with ⟨-, rfl⟩ | ⟨front, rfl, -⟩
    · exact Int.natCast_nonneg 0
    · simp [NamedTag.source] at hShort

/-- What is not closed behind a character that begins no tag is not closed in front of it. -/
theorem Unclosed.other (hNone : NamedTag.read? name (c :: s) = none) (h : Unclosed name depth s) :
    Unclosed name depth (c :: s) := by
  intro front rest level hCounts
  rcases hCounts.of_none hNone with ⟨-, rfl⟩ | ⟨front, rfl, hRest⟩
  · exact Int.natCast_nonneg depth
  · exact h _ _ _ hRest

/-- What is not closed behind a tag, at the depth that it leaves, is not closed in front of it. -/
theorem Unclosed.tag (hSome : NamedTag.read? name s = some found) (hDepth : (depth' : Int) = depth + found.change)
    (h : Unclosed name depth' found.rest) : Unclosed name depth s := by
  intro front rest level hCounts
  rcases hCounts.of_some hSome with ⟨-, rfl⟩ | ⟨front, rfl, hRest⟩
  · exact Int.natCast_nonneg depth
  · rw [← hDepth] at hRest
    exact h _ _ _ hRest

/-- Behind the matching close tag, more was closed than was opened. -/
theorem ClosedBy.not_unclosed (h : ClosedBy name depth s inside closing) : ¬Unclosed name depth s := by
  intro hNone
  have hBelow := hNone _ _ _ (h.level.trans (.tag h.read .here))
  rw [NamedTag.change, if_pos h.closing] at hBelow
  omega

end Steps

section Search

/-- The search for a close tag goes on behind a tag as far as that is not what it is for. -/
theorem splitAtClose?_tag (hSome : NamedTag.read? name s = some found) (hDepth : (depth' : Int) = depth + found.change) :
    splitAtClose? name 0 depth s =
      (splitAtClose? name 0 depth' found.rest).map fun parts => (found.source name ++ parts.1, parts.2) := by
  obtain ⟨rfl, -⟩ := NamedTag.read?_eq_some hSome
  obtain ⟨closing, attributes, rest⟩ := found
  rw [NamedTag.change] at hDepth
  cases closing with
  | true =>
      obtain rfl : depth = depth' + 1 := by
        simp only [if_true] at hDepth
        omega
      exact splitAtClose?_closing hSome
  | false =>
      have hSame : (if closesItself attributes then depth else depth + 1) = depth' := by
        simp only [Bool.false_eq_true, if_false] at hDepth
        split at hDepth
        · rename_i hClosing
          rw [if_pos hClosing]
          omega
        · rename_i hOpen
          rw [if_neg hOpen]
          omega
      rw [← hSame]
      exact splitAtClose?_opening hSome

theorem splitAtClose?_here (hSome : NamedTag.read? name s = some found) (hClosing : found.closing = true) :
    splitAtClose? name 0 0 s = some ([], found.rest) := by
  obtain ⟨rfl, -⟩ := NamedTag.read?_eq_some hSome
  obtain ⟨closing, attributes, rest⟩ := found
  obtain rfl : closing = true := hClosing
  exact splitAtClose?_zero hSome

/-- A tag is what the search is for, or it goes on behind it with another depth. -/
theorem NamedTag.stops_or_goes_on (found : NamedTag) (depth : Nat) :
    found.closing = true ∧ depth = 0 ∨ ∃ depth' : Nat, (depth' : Int) = depth + found.change := by
  rw [change]
  cases found.closing with
  | false => exact .inr ⟨if closesItself found.attributes then depth else depth + 1, by split <;> simp [*]⟩
  | true =>
      cases depth with
      | zero => exact .inl ⟨rfl, rfl⟩
      | succ depth => exact .inr ⟨depth, by rw [if_pos rfl]; omega⟩

/-- What the search for a close tag finds, and what there is if it finds nothing. -/
theorem splitAtClose?_sound (name s : Text) (depth : Nat) :
    (∀ parts, splitAtClose? name 0 depth s = some parts →
      ∃ closing, ClosedBy name depth s parts.1 closing ∧ closing.rest = parts.2) ∧
      (splitAtClose? name 0 depth s = none → Unclosed name depth s) := by
  induction hLength : s.length using Nat.strongRecOn generalizing s depth with
  | ind n ih =>
      subst hLength
      cases hRead : NamedTag.read? name s with
      | none =>
          cases s with
          | nil =>
              refine ⟨fun parts h => (nomatch h), fun _ => ?_⟩
              intro front rest level hCounts
              cases hCounts with
              | here => exact Int.natCast_nonneg depth
              | tag hSome => cases hRead.symm.trans hSome
          | cons c s =>
              obtain ⟨hFound, hNone⟩ := ih _ (Nat.lt_succ_self _) s depth rfl
              rw [splitAtClose?_cons_of_none hRead]
              constructor
              · intro parts h
                obtain ⟨parts, hParts, rfl⟩ := Option.map_eq_some_iff.mp h
                obtain ⟨closing, hClosed, hRest⟩ := hFound parts hParts
                exact ⟨closing, hClosed.other hRead, hRest⟩
              · exact fun h => (hNone (Option.map_eq_none_iff.mp h)).other hRead
      | some found =>
          rcases found.stops_or_goes_on depth with ⟨hClosing, rfl⟩ | ⟨depth', hDepth⟩
          · rw [splitAtClose?_here hRead hClosing]
            refine ⟨?_, fun h => nomatch h⟩
            rintro parts ⟨⟩
            exact ⟨found, closedBy_here hRead hClosing, rfl⟩
          · obtain ⟨hFound, hNone⟩ := ih _ (NamedTag.read?_length hRead) found.rest depth' rfl
            rw [splitAtClose?_tag hRead hDepth]
            constructor
            · intro parts h
              obtain ⟨parts, hParts, rfl⟩ := Option.map_eq_some_iff.mp h
              obtain ⟨closing, hClosed, hRest⟩ := hFound parts hParts
              exact ⟨closing, hClosed.tag hRead hDepth, hRest⟩
            · exact fun h => (hNone (Option.map_eq_none_iff.mp h)).tag hRead hDepth

/-- The search fails exactly where nothing closes. -/
theorem splitAtClose?_eq_none_iff : splitAtClose? name 0 depth s = none ↔ Unclosed name depth s := by
  obtain ⟨hFound, hNone⟩ := splitAtClose?_sound name s depth
  refine ⟨hNone, fun hUnclosed => ?_⟩
  cases h : splitAtClose? name 0 depth s with
  | none => rfl
  | some parts =>
      obtain ⟨closing, hClosed, -⟩ := hFound parts h
      exact absurd hUnclosed hClosed.not_unclosed

/-- The matching close tag is found. -/
theorem ClosedBy.splitAtClose?_eq (h : ClosedBy name depth s inside closing) :
    splitAtClose? name 0 depth s = some (inside, closing.rest) := by
  obtain ⟨hLevel, hRead, hClosing, hFirst⟩ := h
  generalize hStart : (depth : Int) = level at hLevel hFirst
  generalize hBehind : closing.source name ++ closing.rest = behind at hLevel hRead
  generalize hZero : (0 : Int) = last at hLevel
  induction hLevel generalizing depth with
  | here =>
      obtain rfl : depth = 0 := by omega
      exact splitAtClose?_here hRead hClosing
  | other hNone _ ih =>
      rw [splitAtClose?_cons_of_none hNone, ih hStart ?_ hBehind hRead hZero]
      · rfl
      · exact fun hCounts hShort => hFirst (.other hNone hCounts) (Nat.succ_le_succ hShort)
  | @tag level last s front rest found hSome _ ih =>
      have hNonneg : 0 ≤ level + found.change :=
        hFirst (.tag hSome .here) (by simp)
      obtain ⟨depth', hDepth⟩ := Int.eq_ofNat_of_zero_le hNonneg
      rw [splitAtClose?_tag hSome (hDepth.symm.trans (by rw [hStart])), ih hDepth.symm ?_ hBehind hRead hZero]
      · rfl
      · intro front' rest' level' hCounts hShort
        refine hFirst (.tag hSome hCounts) ?_
        rw [List.length_append, List.length_append]
        exact Nat.add_le_add_left hShort _

end Search

end IconRegistry.Markup
