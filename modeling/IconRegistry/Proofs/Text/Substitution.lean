import IconRegistry.Text.Substitution

/-! Substitution piece by piece: what it makes of a text of which it takes one piece after another, whatever
follows them. -/
namespace IconRegistry.Text

variable {step : Text → Option (Text × Nat)} {s t out out' : Text} {c : Char}

/-- A substitution takes a text as a whole and puts another one in its place, whatever follows. -/
def Becomes (step : Text → Option (Text × Nat)) (s out : Text) : Prop :=
  ∀ rest, substitute step (s ++ rest) = out ++ substitute step rest

@[simp] theorem substitute_nil : substitute step [] = [] := rfl

theorem Becomes.nil : Becomes step [] [] :=
  fun _ => rfl

/-- Texts that become others on their own do so side by side. -/
theorem Becomes.append (h : Becomes step s out) (h' : Becomes step t out') : Becomes step (s ++ t) (out ++ out') := by
  intro rest
  rw [List.append_assoc, h, h', List.append_assoc]

/-- What a text becomes, whatever stands behind it, is what it becomes at the end. -/
theorem Becomes.substitute_eq (h : Becomes step s out) : substitute step s = out := by
  have hAll := h []
  rwa [List.append_nil, substitute_nil, List.append_nil] at hAll

theorem substitute_cons_of_none (h : step (c :: s) = none) : substitute step (c :: s) = c :: substitute step s := by
  rw [substitute, substituteSkipping, h]
  rfl

/-- Skipping a text leads to what stands behind it. -/
theorem substituteSkipping_append (s rest : Text) :
    substituteSkipping step s.length (s ++ rest) = substitute step rest := by
  induction s with
  | nil => rfl
  | cons c s ih => exact ih

/-- A match covers its piece. -/
theorem substitute_of_match {rest : Text} (h : step (c :: (s ++ rest)) = some (out, s.length)) :
    substitute step (c :: (s ++ rest)) = out ++ substitute step rest := by
  rw [substitute, substituteSkipping, h]
  simp only [substituteSkipping_append]

/-- A match that does not depend on what follows it becomes its replacement. -/
theorem Becomes.of_match (h : ∀ rest, step (c :: (s ++ rest)) = some (out, s.length)) : Becomes step (c :: s) out :=
  fun rest => substitute_of_match (h rest)

/-- A character that matches nothing stays, in front of whatever the rest becomes. -/
theorem Becomes.cons (hStep : ∀ rest, step (c :: (s ++ rest)) = none) (h : Becomes step s out) :
    Becomes step (c :: s) (c :: out) := by
  intro rest
  rw [List.cons_append, substitute_cons_of_none (hStep rest), h, List.cons_append]

/-- Where no match begins, a text stays as it is. -/
theorem substitute_append_of_none (h : ∀ u, u ≠ [] → u <:+ s → step (u ++ t) = none) :
    substitute step (s ++ t) = s ++ substitute step t := by
  induction s with
  | nil => rfl
  | cons c s ih =>
      have hHere := h (c :: s) (by simp) List.suffix_rfl
      rw [List.cons_append] at hHere ⊢
      rw [substitute_cons_of_none hHere, ih fun u hu hSuffix => h u hu (hSuffix.trans (List.suffix_cons c s))]
      rfl

/-- A text without a character that could begin a match stays. -/
theorem Becomes.self (h : ∀ c ∈ s, ∀ rest, step (c :: rest) = none) : Becomes step s s := by
  intro rest
  refine substitute_append_of_none fun u hu hSuffix => ?_
  obtain ⟨c, u, rfl⟩ := List.exists_cons_of_ne_nil hu
  exact h c (hSuffix.subset (by simp)) _

theorem Becomes.flatMap {α : Type} {items : List α} {f g : α → Text}
    (h : ∀ item ∈ items, Becomes step (f item) (g item)) :
    Becomes step (items.flatMap f) (items.flatMap g) := by
  induction items with
  | nil => exact .nil
  | cons item items ih =>
      obtain ⟨hHere, hRest⟩ := List.forall_mem_cons.mp h
      exact hHere.append (ih hRest)

def replacing (needle replacement : Text) (s : Text) : Option (Text × Nat) :=
  if needle.isPrefixOf s then some (replacement, needle.length - 1) else none

theorem replaceAll_eq (needle replacement : Text) :
    replaceAll needle replacement = substitute (replacing needle replacement) := rfl

/-- Nothing is replaced where the text to be replaced does not stand. -/
theorem replacing_of_not_isPrefix {needle : Text} (replacement : Text) (h : ¬needle <+: s) :
    replacing needle replacement s = none := by
  rw [replacing, if_neg (by simpa using h)]

theorem replacing_of_ne {needle : Text} (replacement : Text) {d : Char} (h : c ≠ d) :
    replacing (d :: needle) replacement (c :: s) = none :=
  replacing_of_not_isPrefix replacement fun hPrefix => h (List.cons_prefix_cons.mp hPrefix).1.symm

theorem becomes_replacing (needle replacement : Text) (c : Char) :
    Becomes (replacing (c :: needle) replacement) (c :: needle) replacement := by
  refine .of_match fun rest => ?_
  have hPrefix : (c :: needle).isPrefixOf (c :: (needle ++ rest)) = true := by
    simp [List.prefix_append]
  rw [replacing, if_pos hPrefix]
  rfl

/-- A character that does not begin what is replaced stays. -/
theorem becomes_replacing_of_ne (needle replacement : Text) {d : Char} (h : c ≠ d) :
    Becomes (replacing (d :: needle) replacement) [c] [c] :=
  .cons (fun _ => replacing_of_ne replacement h) .nil

/-- A text without the first character of what is replaced stays as it is. -/
theorem replaceAll_of_not_mem {needle : Text} (replacement : Text) (h : c ∉ s) :
    replaceAll (c :: needle) replacement s = s := by
  refine Becomes.substitute_eq (.self fun d hd rest => replacing_of_ne replacement ?_)
  rintro rfl
  exact h hd

/-- Replacing by something shorter makes no text longer. -/
theorem length_substituteSkipping_replacing {needle replacement : Text} (hShorter : replacement.length < needle.length)
    (skip : Nat) (s : Text) :
    (substituteSkipping (replacing needle replacement) skip s).length ≤ s.length - skip := by
  induction s generalizing skip with
  | nil => simp [substituteSkipping]
  | cons c s ih =>
      cases skip with
      | succ skip => simpa [substituteSkipping] using ih skip
      | zero =>
          rw [substituteSkipping, replacing]
          split
          · rename_i hMatch
            split at hMatch
            · rename_i hPrefix
              obtain ⟨rfl, rfl⟩ := Prod.mk.inj (Option.some.inj hMatch)
              have hFits := (List.isPrefixOf_iff_prefix.mp hPrefix).length_le
              have hRest := ih (needle.length - 1)
              simp only [List.length_append, List.length_cons] at hFits ⊢
              omega
            · cases hMatch
          · have hRest := ih 0
            simp only [List.length_cons]
            omega

/-- Replacing a text by a shorter one does nothing to a text without it, and makes any other text shorter. -/
theorem length_replaceAll_lt {needle replacement : Text} (hShorter : replacement.length < needle.length)
    (h : needle <:+: s) : (replaceAll needle replacement s).length < s.length := by
  induction s with
  | nil =>
      rw [List.infix_nil] at h
      simp [h] at hShorter
  | cons c s ih =>
      rw [replaceAll_eq]
      by_cases hHere : needle <+: c :: s
      · have hStep : replacing needle replacement (c :: s) = some (replacement, needle.length - 1) := by
          rw [replacing, if_pos (List.isPrefixOf_iff_prefix.mpr hHere)]
        have hRest := length_substituteSkipping_replacing hShorter (needle.length - 1) s
        have hFits := hHere.length_le
        rw [substitute, substituteSkipping, hStep]
        simp only [List.length_append, List.length_cons] at hFits ⊢
        omega
      · rw [substitute_cons_of_none (replacing_of_not_isPrefix replacement hHere)]
        have hRest := ih ((List.infix_cons_iff.mp h).resolve_left hHere)
        rw [replaceAll_eq] at hRest
        simpa using hRest

/-- What stands in front of a text after a replacement stood there before, if it has nothing in it that was put in. -/
theorem prefix_of_prefix_replaceAll {needle front : Text} (hc : c ∉ front) (h : front <+: replaceAll needle [c] s) :
    front <+: s := by
  induction front generalizing s with
  | nil => exact List.nil_prefix
  | cons d front ih =>
      obtain ⟨hHere, hRest⟩ := List.ne_and_not_mem_of_not_mem_cons hc
      cases s with
      | nil => exact absurd (List.prefix_nil.mp h) (List.cons_ne_nil d front)
      | cons a s =>
          rw [replaceAll_eq] at h
          by_cases hMatch : needle <+: a :: s
          · have hStep : replacing needle [c] (a :: s) = some ([c], needle.length - 1) := by
              rw [replacing, if_pos (List.isPrefixOf_iff_prefix.mpr hMatch)]
            rw [substitute, substituteSkipping, hStep] at h
            exact absurd (List.cons_prefix_cons.mp h).1.symm hHere
          · rw [substitute_cons_of_none (replacing_of_not_isPrefix [c] hMatch)] at h
            obtain ⟨rfl, hBehind⟩ := List.cons_prefix_cons.mp h
            exact List.cons_prefix_cons.mpr ⟨rfl, ih hRest hBehind⟩

/-- Where the text to be replaced does not occur, nothing changes. -/
theorem replaceAll_of_not_infix {needle : Text} (replacement : Text) (h : ¬needle <:+: s) :
    replaceAll needle replacement s = s := by
  have hNone : ∀ u, u ≠ [] → u <:+ s → replacing needle replacement (u ++ []) = none := by
    intro u _ hSuffix
    rw [List.append_nil]
    exact replacing_of_not_isPrefix replacement fun hPrefix => h (hPrefix.isInfix.trans hSuffix.isInfix)
  simpa [replaceAll_eq] using substitute_append_of_none hNone

/-- What is replaced does not reach over a character that it does not have. -/
theorem becomes_replacing_concat {needle : Text} (replacement : Text) (hSome : needle ≠ []) (hc : c ∉ needle) (s : Text) :
    Becomes (replacing needle replacement) (s ++ [c]) (replaceAll needle replacement s ++ [c]) := by
  intro rest
  have hSkip : ∀ skip ≤ s.length, substituteSkipping (replacing needle replacement) skip (s ++ c :: rest) =
      substituteSkipping (replacing needle replacement) skip s ++ c :: substitute (replacing needle replacement) rest := by
    induction s with
    | nil =>
        intro skip hShort
        obtain rfl : skip = 0 := Nat.le_zero.mp hShort
        have hHere : ¬needle <+: c :: rest := by
          obtain ⟨d, needle, rfl⟩ := List.exists_cons_of_ne_nil hSome
          exact fun hPrefix => hc (by simp [(List.cons_prefix_cons.mp hPrefix).1])
        exact substitute_cons_of_none (replacing_of_not_isPrefix replacement hHere)
    | cons d s ih =>
        intro skip hShort
        cases skip with
        | succ skip => exact ih skip (Nat.le_of_succ_le_succ hShort)
        | zero =>
            have hSame : needle <+: d :: (s ++ c :: rest) ↔ needle <+: d :: s := by
              constructor
              · rintro ⟨more, hParts⟩
                rw [← List.cons_append] at hParts
                rcases List.append_eq_append_iff.mp hParts with ⟨within, hWithin, -⟩ | ⟨within, rfl, hBehind⟩
                · exact ⟨within, hWithin.symm⟩
                · cases within with
                  | nil => simp
                  | cons e within =>
                      obtain ⟨rfl, -⟩ := List.cons_eq_cons.mp hBehind
                      simp at hc
              · exact fun hPrefix => hPrefix.trans (List.prefix_append (d :: s) _)
            rw [List.cons_append, substituteSkipping, substituteSkipping, replacing, replacing]
            simp only [List.isPrefixOf_iff_prefix, hSame]
            by_cases hHere : needle <+: d :: s
            · have hFits := hHere.length_le
              rw [List.length_cons] at hFits
              simp only [if_pos hHere]
              rw [ih _ (by omega), List.append_assoc]
            · simp only [if_neg hHere]
              rw [ih 0 (Nat.zero_le _), List.cons_append]
  rw [List.append_assoc, List.append_assoc]
  exact hSkip 0 (Nat.zero_le _)

/-- The characters of the result come from the text or from the replacement. -/
theorem mem_replaceAll {needle replacement : Text} (h : c ∈ replaceAll needle replacement s) :
    c ∈ s ∨ c ∈ replacement := by
  have hSkip : ∀ skip, c ∈ substituteSkipping (replacing needle replacement) skip s → c ∈ s ∨ c ∈ replacement := by
    clear h
    induction s with
    | nil =>
        intro skip h
        cases skip <;> cases h
    | cons d s ih =>
        intro skip h
        cases skip with
        | succ skip => exact (ih skip h).imp_left (List.mem_cons_of_mem d)
        | zero =>
            rw [substituteSkipping, replacing] at h
            split at h
            · rename_i hMatch
              split at hMatch
              · obtain ⟨rfl, -⟩ := Prod.mk.inj (Option.some.inj hMatch)
                rcases List.mem_append.mp h with h | h
                · exact .inr h
                · exact (ih _ h).imp_left (List.mem_cons_of_mem d)
              · cases hMatch
            · rcases List.mem_cons.mp h with rfl | h
              · exact .inl List.mem_cons_self
              · exact (ih 0 h).imp_left (List.mem_cons_of_mem d)
  exact hSkip 0 h

/-- Replacing one character goes character by character. -/
theorem replaceAll_char (c : Char) (replacement s : Text) :
    replaceAll [c] replacement s = s.flatMap fun d => if d = c then replacement else [d] := by
  have hPieces : Becomes (replacing [c] replacement) (s.flatMap fun d => [d])
      (s.flatMap fun d => if d = c then replacement else [d]) := by
    refine .flatMap fun d _ => ?_
    split
    · rename_i hSame
      exact hSame ▸ becomes_replacing [] replacement d
    · rename_i hOther
      exact becomes_replacing_of_ne [] replacement hOther
  rw [replaceAll_eq, ← hPieces.substitute_eq, List.flatMap_singleton']

/-- A character that is replaced by a text without it is gone. -/
theorem not_mem_replaceAll_char {c : Char} {replacement : Text} (h : c ∉ replacement) (s : Text) :
    c ∉ replaceAll [c] replacement s := by
  rw [replaceAll_char, List.mem_flatMap]
  rintro ⟨d, -, hMember⟩
  split at hMember
  · exact h hMember
  · rename_i hOther
    exact hOther (List.mem_singleton.mp hMember).symm

/-- Texts that end with the one occurrence of a character are the same if one begins the other. -/
theorem eq_of_prefix_concat {m : Text} (hs : c ∉ s) (h : m ++ [c] <+: s ++ [c]) : m = s := by
  obtain ⟨rest, hRest⟩ := h
  rcases List.eq_nil_or_concat rest with rfl | ⟨rest, d, rfl⟩
  · simpa using hRest
  · have hFront : m ++ c :: rest = s := by
      have : (m ++ c :: rest) ++ [d] = s ++ [c] := by simpa using hRest
      exact (List.append_inj' this rfl).1
    exact absurd (hFront ▸ by simp) hs

/-- A replacement of a text that ends with the last character only. -/
theorem replaceAll_concat {m : Text} (replacement : Text) (hs : c ∉ s) (hm : c ∉ m) :
    replaceAll (m ++ [c]) replacement (s ++ (m ++ [c])) = s ++ replacement := by
  have hNone : ∀ u, u ≠ [] → u <:+ s → replacing (m ++ [c]) replacement (u ++ (m ++ [c])) = none := by
    intro u hu hSuffix
    refine replacing_of_not_isPrefix replacement fun hPrefix => ?_
    rw [← List.append_assoc] at hPrefix
    have hFree : c ∉ u ++ m := by
      rw [List.mem_append]
      rintro (h | h)
      · exact hs (hSuffix.subset h)
      · exact hm h
    have hSame := congrArg List.length (eq_of_prefix_concat hFree hPrefix)
    rw [List.length_append] at hSame
    exact hu (List.eq_nil_of_length_eq_zero (by omega))
  rw [replaceAll_eq, substitute_append_of_none hNone]
  congr 1
  obtain ⟨d, needle, hNeedle⟩ := List.exists_cons_of_ne_nil (by simp : m ++ [c] ≠ [])
  rw [hNeedle]
  exact (becomes_replacing needle replacement d).substitute_eq

theorem replaceAll_concat_of_not_suffix {m : Text} (replacement : Text) (hs : c ∉ s) (hm : ¬m <:+ s) :
    replaceAll (m ++ [c]) replacement (s ++ [c]) = s ++ [c] := by
  have hNone : ∀ u, u ≠ [] → u <:+ s ++ [c] → replacing (m ++ [c]) replacement (u ++ []) = none := by
    intro u hu hSuffix
    refine replacing_of_not_isPrefix replacement fun hPrefix => hm ?_
    obtain ⟨v, d, rfl⟩ := (List.eq_nil_or_concat u).resolve_left hu
    rw [List.append_nil, List.concat_eq_append] at hPrefix
    obtain ⟨front, hFront⟩ := hSuffix
    rw [List.concat_eq_append, ← List.append_assoc] at hFront
    obtain ⟨hBehind, hLast⟩ := List.append_inj' hFront rfl
    obtain rfl : d = c := by simpa using hLast
    have hEnd : v <:+ s := ⟨front, hBehind⟩
    obtain rfl : m = v := eq_of_prefix_concat (fun h => hs (hEnd.subset h)) hPrefix
    exact hEnd
  have hSame := substitute_append_of_none hNone
  rwa [List.append_nil, substitute_nil, List.append_nil] at hSame

end IconRegistry.Text
