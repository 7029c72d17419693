import IconRegistry.Proofs.Markup.Counting
import IconRegistry.Proofs.Markup.Passes

/-! What may stand in front of a root and leave no trace. The passes that drop instructions, document types and comments
do not know each other's marks; a text vanishes if each of them ends in it what it begins there, and blanks are left. -/
namespace IconRegistry.Markup

open Text (isBlank Blanks substitute splitAtText?)

theorem dropFront?_eq_ite (front s : Text) :
    Text.dropFront? front s = if s.take front.length == front then some (s.drop front.length) else none := by
  induction front generalizing s with
  | nil => cases s <;> rfl
  | cons c front ih =>
      cases s with
      | nil => rfl
      | cons d s =>
          rw [Text.dropFront?]
          by_cases hSame : c = d
          · subst hSame
            rw [if_pos (by simp), ih]
            simp
          · rw [if_neg (by simpa using hSame), if_neg (by simp [Ne.symm hSame])]

/-- Dropping what is between two marks is a pass with one mark. -/
theorem dropping_eq (opening closing : Text) :
    dropping opening closing = droppingMarked (· == opening) opening.length closing := by
  funext s
  rw [dropping, droppingMarked, dropFront?_eq_ite]
  split <;> rfl

def instructions : Pass where
  isMark t := t == "<?".toList
  width := 2
  ending := ['?']
  mark h := by
    rw [beq_iff_eq.mp h]
    exact ⟨rfl, ['?'], rfl, by decide⟩
  ending_free := by decide

def doctypes : Pass where
  isMark t := t.map Char.toUpper == "<!DOCTYPE".toList
  width := 9
  ending := []
  mark {t} h := by
    have hUpper : t.map Char.toUpper = '<' :: "!DOCTYPE".toList := beq_iff_eq.mp h
    have hLength : t.length = 9 := by simpa using congrArg List.length hUpper
    obtain ⟨c, rest, rfl, hFirst, hRest⟩ := List.map_eq_cons_iff.mp hUpper
    obtain rfl := eq_of_toUpper_eq hFirst (by decide)
    refine ⟨hLength, rest, rfl, fun hMember => ?_⟩
    have hUpperMember : '<' ∈ rest.map Char.toUpper := List.mem_map.mpr ⟨'<', hMember, by decide⟩
    rw [hRest] at hUpperMember
    exact absurd hUpperMember (by decide)
  ending_free := by decide

def comments : Pass where
  isMark t := t == "<!--".toList
  width := 4
  ending := "--".toList
  mark h := by
    rw [beq_iff_eq.mp h]
    exact ⟨rfl, "!--".toList, rfl, by decide⟩
  ending_free := by decide

theorem instructions_step : instructions.step = dropping "<?".toList "?>".toList :=
  (dropping_eq _ _).symm

theorem doctypes_step : doctypes.step = droppingDoctype := rfl

theorem comments_step : comments.step = dropping "<!--".toList "-->".toList :=
  (dropping_eq _ _).symm

def strip (s : Text) : Text :=
  substitute comments.step (substitute doctypes.step (substitute instructions.step s))

/-- A canonical text is what stripping leaves, with joined and canonical tags. -/
theorem canonical_eq_strip (s : Text) : canonical s = Text.trim (canonicalTags (joinTags (strip s))) := by
  rw [strip, instructions_step, doctypes_step, comments_step]
  rfl

/-- A root that begins with `<svg` and has no instruction, document type or comment in it. -/
structure IsBareRoot (root : Text) : Prop where
  begins : "<svg".toList <+: root
  instruction : ¬"<?".toList <:+: root
  doctype : ¬"<!DOCTYPE".toList <:+: root.map Char.toUpper
  comment : ¬"<!--".toList <:+: root

/-- A text vanishes in front of a root: no pass takes any of the root with it, and nothing but blanks is left. -/
def Vanishes (s : Text) : Prop :=
  ∃ first second blanks, instructions.Leaves s first ∧ doctypes.Leaves first second ∧ comments.Leaves second blanks ∧
    Blanks blanks

section Root

variable {pass : Pass} {root s first second third : Text}

/-- A text without a mark in it stays as it is under a pass. -/
theorem Pass.substitute_eq_self (h : ∀ u, u <:+ s → pass.isMark (u.take pass.width) = false) :
    substitute pass.step s = s := by
  have hNone : ∀ u, u ≠ [] → u <:+ s → pass.step (u ++ []) = none := by
    intro u _ hSuffix
    rw [List.append_nil]
    exact step_of_not_mark (h u hSuffix)
  simpa using Text.substitute_append_of_none hNone

theorem IsBareRoot.head (h : IsBareRoot root) : root.head? = some '<' := by
  obtain ⟨rest, rfl⟩ := h.begins
  rfl

theorem IsBareRoot.instructions (h : IsBareRoot root) : substitute instructions.step root = root := by
  refine Pass.substitute_eq_self fun u hu => Bool.eq_false_iff.mpr fun hMark => h.instruction ?_
  rw [← beq_iff_eq.mp hMark]
  exact (List.take_prefix _ u).isInfix.trans hu.isInfix

theorem IsBareRoot.doctypes (h : IsBareRoot root) : substitute doctypes.step root = root := by
  refine Pass.substitute_eq_self fun u hu => Bool.eq_false_iff.mpr fun hMark => h.doctype ?_
  rw [← beq_iff_eq.mp hMark]
  exact ((List.take_prefix _ u).isInfix.trans hu.isInfix).map _

theorem IsBareRoot.comments (h : IsBareRoot root) : substitute comments.step root = root := by
  refine Pass.substitute_eq_self fun u hu => Bool.eq_false_iff.mpr fun hMark => h.comment ?_
  rw [← beq_iff_eq.mp hMark]
  exact (List.take_prefix _ u).isInfix.trans hu.isInfix

/-- Nothing is stripped from a bare root. -/
theorem IsBareRoot.strip (h : IsBareRoot root) : strip root = root := by
  rw [Markup.strip, h.instructions, h.doctypes, h.comments]

/-- Where each pass takes a text as a whole, they leave the root. -/
theorem IsBareRoot.strip_append (h : IsBareRoot root) (hFirst : Markup.instructions.Leaves s first)
    (hSecond : Markup.doctypes.Leaves first second) (hThird : Markup.comments.Leaves second third) :
    Markup.strip (s ++ root) = third ++ root := by
  rw [Markup.strip, hFirst root h.head, h.instructions, hSecond root h.head, h.doctypes, hThird root h.head, h.comments]

/-- Canonical tags change nothing in front of the first tag. -/
theorem canonicalTags_free (h : '<' ∉ s) (t : Text) : canonicalTags (s ++ t) = s ++ canonicalTags t :=
  Text.Becomes.self (fun _ hc => canonicalizing_free fun hSame => h (hSame ▸ hc)) t

/-- Blanks in front of a root leave no trace. -/
theorem Vanishes.canonical_eq (h : Vanishes s) (hRoot : IsBareRoot root) : canonical (s ++ root) = canonical root := by
  obtain ⟨first, second, blanks, hFirst, hSecond, hThird, hBlanks⟩ := h
  rw [canonical_eq_strip, canonical_eq_strip, hRoot.strip_append hFirst hSecond hThird, hRoot.strip,
    joinTags_free (not_mem_of_blanks hBlanks (by decide)), canonicalTags_free (not_mem_of_blanks hBlanks (by decide)),
    Text.trim, Text.trimStart_blanks_append hBlanks]
  rfl

/-- A root whose only `<` is its first character. -/
theorem isBareRoot_of_free {rest : Text} (hBegins : "svg".toList <+: rest) (hFree : '<' ∉ rest) :
    IsBareRoot ('<' :: rest) := by
  have hNext : ∀ {c mark}, '<' :: c :: mark <:+: '<' :: rest → c = 's' := by
    intro c mark h
    rcases List.infix_cons_iff.mp h with hPrefix | hInfix
    · obtain ⟨front, rfl⟩ := hBegins
      exact (List.cons_prefix_cons.mp (List.cons_prefix_cons.mp hPrefix).2).1
    · exact absurd (hInfix.subset (by simp)) hFree
  refine ⟨List.cons_prefix_cons.mpr ⟨rfl, hBegins⟩, fun h => absurd (hNext h) (by decide), fun h => ?_,
    fun h => absurd (hNext h) (by decide)⟩
  rw [List.map_cons] at h
  rcases List.infix_cons_iff.mp h with hPrefix | hInfix
  · obtain ⟨front, rfl⟩ := hBegins
    have hUpper : '!' = 's'.toUpper := (List.cons_prefix_cons.mp (List.cons_prefix_cons.mp hPrefix).2).1
    exact absurd hUpper (by decide)
  · have hMark : '<' ∈ "<!DOCTYPE".toList := by decide
    obtain ⟨c, hMember, hUpper⟩ := List.mem_map.mp (hInfix.subset hMark)
    obtain rfl := eq_of_toUpper_eq hUpper (by decide)
    exact hFree hMember

/-- A root with an end of what a pass drops in a long value. -/
def longRoot (pass : Pass) (n : Nat) : Text :=
  '<' :: ("svg a=\"".toList ++ (List.replicate n 'x' ++ (pass.closing ++ "\"/>".toList)))

/-- Roots that hold what closes a pass are bare, however long they are. -/
theorem isBareRoot_longRoot (pass : Pass) (n : Nat) : IsBareRoot (longRoot pass n) := by
  have hBegins : "svg".toList <+: "svg a=\"".toList := by decide
  refine isBareRoot_of_free (hBegins.trans (List.prefix_append _ _)) ?_
  simp [pass.closing_free]

/-- Such a root closes what a pass has opened in front of it. -/
theorem splitAtText?_longRoot (pass : Pass) (n : Nat) :
    ∃ front, splitAtText? pass.closing (longRoot pass n) = some (front, "\"/>".toList) := by
  have hParts : longRoot pass n =
      "<svg a=\"".toList ++ List.replicate n 'x' ++ (pass.closing ++ "\"/>".toList) := by
    rw [List.append_assoc]
    rfl
  rw [hParts]
  refine ⟨_, Text.splitAtText?_append pass.closing_nonempty (fun hInfix => ?_) _⟩
  have hEnd : '>' ∈ pass.closing := by simp [Pass.closing]
  have hMember := hInfix.subset hEnd
  rw [Pass.closing, List.dropLast_concat] at hMember
  simp [pass.ending_free.2] at hMember

/-- A long root is shorter behind what has swallowed it. -/
theorem Pass.Swallows.countP_lt (h : pass.Swallows s) {n : Nat} (hn : s.length < n) :
    (substitute pass.step (s ++ longRoot pass n)).countP (· == 'x') < n := by
  obtain ⟨out, hOut, hRest⟩ := h
  obtain ⟨front, hSplit⟩ := splitAtText?_longRoot pass n
  rw [hRest _ _ _ rfl hSplit, List.countP_append]
  have hEnd := (pass.sublist "\"/>".toList).countP_le (p := (· == 'x'))
  have hNone : "\"/>".toList.countP (· == 'x') = 0 := by decide
  have hLe := List.countP_le_length (p := (· == 'x')) (l := out)
  omega

/-- If a text leaves no trace in front of any root, it takes nothing from a long one. -/
theorem le_countP_strip_longRoot (h : ∀ root, IsBareRoot root → canonical (s ++ root) = canonical root) (pass : Pass)
    (n : Nat) : n ≤ (strip (s ++ longRoot pass n)).countP (· == 'x') := by
  have hKept : IsKept (· == 'x') := isKept_eq (by decide) (by decide)
  have hRoot := isBareRoot_longRoot pass n
  have hSame := congrArg (List.countP (· == 'x')) (h _ hRoot)
  rw [canonical_eq_strip, canonical_eq_strip, countP_laidOut hKept, countP_laidOut hKept, hRoot.strip] at hSame
  have hWithin : (List.replicate n 'x').Sublist (longRoot pass n) :=
    ((List.sublist_append_left _ _).trans (List.sublist_append_right _ _)).cons _
  calc n = (List.replicate n 'x').countP (· == 'x') := by rw [List.countP_replicate, if_pos (beq_self_eq_true 'x')]
    _ ≤ (longRoot pass n).countP (· == 'x') := hWithin.countP_le
    _ = (strip (s ++ longRoot pass n)).countP (· == 'x') := hSame.symm

/-- A pass that leaves as much of a long root takes the text in front of it as a whole. -/
theorem Pass.exists_leaves {n : Nat} (hn : s.length < n)
    (h : n ≤ (substitute pass.step (s ++ longRoot pass n)).countP (· == 'x')) :
    ∃ out, out.length ≤ s.length ∧ pass.Leaves s out :=
  (pass.settles s).resolve_right fun hSwallows => Nat.not_le_of_lt (hSwallows.countP_lt hn) h

/-- What leaves no trace in the layout of tags is blank. -/
theorem blanks_of_laidOut
    (h : Text.trim (canonicalTags (joinTags (s ++ root))) = Text.trim (canonicalTags (joinTags root))) : Blanks s := by
  have hNone : ∀ c, isBlank c = false → c ∉ "\"'&quot;".toList → c ∉ s := by
    intro c hc hQuote hMember
    have hKept := isKept_eq hc hQuote
    have hCount := congrArg (List.countP (· == c)) h
    rw [countP_laidOut hKept, countP_laidOut hKept, List.countP_append] at hCount
    exact absurd (List.countP_eq_zero.mp (Nat.add_eq_right.mp hCount) c hMember) (by simp)
  have hBlank : ∀ c, isBlank c = true → (!isBlank c) = false := by simp
  rw [joinTags_free (hNone '>' (by decide) (by decide)), canonicalTags_free (hNone '<' (by decide) (by decide))] at h
  have hCount := congrArg (List.countP (!isBlank ·)) h
  rw [Text.countP_trim hBlank, Text.countP_trim hBlank, List.countP_append] at hCount
  exact fun c hc => by simpa using List.countP_eq_zero.mp (Nat.add_eq_right.mp hCount) c hc

/-- Only a text that vanishes leaves no trace in front of any root. -/
theorem vanishes_of_canonical_eq (h : ∀ root, IsBareRoot root → canonical (s ++ root) = canonical root) :
    Vanishes s := by
  have hMany := fun pass => le_countP_strip_longRoot h pass (s.length + 1)
  have hInstructions : ∀ t, (strip t).Sublist (substitute instructions.step t) := fun t =>
    (comments.sublist _).trans (doctypes.sublist _)
  obtain ⟨first, hFirstLength, hFirst⟩ := Pass.exists_leaves (Nat.lt_succ_self _)
    (Nat.le_trans (hMany instructions) (hInstructions _).countP_le)
  have hDoctypes : ∀ {root}, IsBareRoot root → strip (s ++ root) =
      substitute comments.step (substitute doctypes.step (first ++ root)) := by
    intro root hRoot
    rw [strip, hFirst root hRoot.head, hRoot.instructions]
  have hManySecond := hMany doctypes
  rw [hDoctypes (isBareRoot_longRoot _ _)] at hManySecond
  obtain ⟨second, hSecondLength, hSecond⟩ := Pass.exists_leaves (Nat.lt_succ_of_le hFirstLength)
    (Nat.le_trans hManySecond (comments.sublist _).countP_le)
  have hManyThird := hMany comments
  rw [hDoctypes (isBareRoot_longRoot _ _), hSecond _ rfl, (isBareRoot_longRoot _ _).doctypes] at hManyThird
  obtain ⟨third, -, hThird⟩ := Pass.exists_leaves
    (Nat.lt_succ_of_le (Nat.le_trans hSecondLength hFirstLength)) hManyThird
  have hRoot : IsBareRoot "<svg".toList := isBareRoot_of_free List.prefix_rfl (by decide)
  have hSame := h _ hRoot
  rw [canonical_eq_strip, canonical_eq_strip, hRoot.strip_append hFirst hSecond hThird, hRoot.strip] at hSame
  exact ⟨first, second, third, hFirst, hSecond, hThird, blanks_of_laidOut hSame⟩

/-- A text leaves no trace in front of any root if and only if it vanishes. -/
theorem canonical_append_iff (s : Text) :
    (∀ root, IsBareRoot root → canonical (s ++ root) = canonical root) ↔ Vanishes s :=
  ⟨vanishes_of_canonical_eq, fun h _ => h.canonical_eq⟩

end Root

end IconRegistry.Markup
