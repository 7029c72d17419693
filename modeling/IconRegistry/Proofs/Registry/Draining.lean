import IconRegistry.Proofs.Registry.ModuleTaking
import IconRegistry.Proofs.Registry.OutlineLayout
import IconRegistry.Proofs.Registry.Restoring

/-! Draining: entries that are removed together from a collection with nothing but blanks and commas around its
properties. What is left does not depend on the order of the removals, and where no property is left, nothing is. -/
namespace IconRegistry.Registry

open Script
open Text (Blanks)

/-- Blanks, with a comma in front of them or without one. -/
def isTidyTail (tail : Text) : Bool :=
  ((Text.dropFront? [','] tail).getD tail).all Text.isBlank

/-- The texts behind certain pieces of a text, each up to the next piece, the last up to a position. -/
def tailsOf (source : Text) (stop : Nat) : List Span → List Text
  | [] => []
  | span :: rest => Span.textIn ⟨span.stop, (rest.head?.map (·.start)).getD stop⟩ source :: tailsOf source stop rest

/-- Whether nothing but blanks and commas stands around the properties of a collection, with each comma directly behind
its property. -/
def View.isTidy (view : View) : Bool :=
  view.interior?.any fun interior =>
    (Span.textIn ⟨interior.start, (view.properties.head?.map (·.start)).getD interior.stop⟩ view.source).all
      Text.isBlank && (tailsOf view.source interior.stop view.properties).all isTidyTail

/-- What a tidy view shows of a layout. -/
structure Layout.Tidy (layout : Layout) : Prop where
  front : Blanks layout.front
  gap : ∀ p ∈ layout.properties, Blanks p.gap
  afterComma : ∀ p ∈ layout.properties, Blanks (p.afterComma?.getD [])
  direct : ∀ p ∈ layout.properties, p.afterComma?.isSome = true → p.gap = []

/-- The layout without the entries of certain names. What stands behind the last property stays at the end; where all
properties go, nothing is left of the gaps around them. -/
def Layout.without (layout : Layout) (names : List Text) : Layout :=
  match layout.properties.getLast? with
  | none => layout
  | some last =>
    let kept := layout.properties.filter (!·.isAmong names)
    ⟨if kept = [] then [] else layout.front, closedLike last kept⟩

section Tidy

variable {grammar : Grammar} {view : View} {before after tail : Text} {layout : Layout} {ps qs : List Property}
  {p : Property}

theorem ne_comma_of_isGap {c : Char} {gap : Text} (h : isGap (c :: gap) = true) : c ≠ ',' := by
  rintro rfl
  simp [isGap, step_comma] at h

/-- A tidy tail is blanks, with the comma in front of them. -/
theorem Property.tidy_of_tail (h : p.WellFormed grammar) (hTail : isTidyTail p.tail = true) :
    Blanks p.gap ∧ Blanks (p.afterComma?.getD []) ∧ (p.afterComma?.isSome = true → p.gap = []) := by
  have hGap := h.gap
  rw [isTidyTail, tail] at hTail
  cases hFront : p.gap with
  | nil => cases hComma : p.afterComma? <;> simp_all [tailText, Text.dropFront?, Blanks]
  | cons c gap =>
      -- no comma stands in front, so all of the text is blank
      have hNone : Text.dropFront? [','] (tailText (c :: gap) p.afterComma?) = none := by
        rw [tailText_cons, Text.dropFront?, if_neg (by simpa using (ne_comma_of_isGap (hFront ▸ hGap)).symm)]
      rw [hFront, hNone, Option.getD_none, List.all_eq_true] at hTail
      cases hComma : p.afterComma? with
      | none =>
          rw [hComma, tailText] at hTail
          exact ⟨hTail, by simp [Blanks], by simp⟩
      | some after =>
          have hBlank := hTail ',' (by simp [hComma, tailText])
          exact absurd hBlank (by decide)

theorem head?_spansFrom_getD {position stop : Nat} (h : qs = [] → stop = position) :
    (((spansFrom position qs).map fun p => (⟨p.start, p.stop⟩ : Span)).head?.map (·.start)).getD stop = position := by
  cases qs with
  | nil => exact h rfl
  | cons q qs => rfl

/-- The tails of a view are what stands behind the properties. -/
theorem View.Shows.tailsOf (shows : view.Shows before layout after) (hSplit : layout.properties = ps ++ qs) :
    tailsOf view.source (before.length + 1 + layout.text.length)
      ((spansFrom (layout.upTo before ps).length qs).map fun p => ⟨p.start, p.stop⟩) = qs.map Property.tail := by
  induction qs generalizing ps with
  | nil => rfl
  | cons q qs ih =>
      have hNext : (layout.upTo before ps).length + q.written.length = (layout.upTo before (ps ++ [q])).length := by
        rw [layout.length_upTo_concat, Property.written, List.length_append, List.length_append, Nat.add_assoc]
      have hEnd : qs = [] → before.length + 1 + layout.text.length = (layout.upTo before (ps ++ [q])).length := by
        rintro rfl
        rw [← hSplit, layout.length_upTo_all]
      have hRest : layout.properties = (ps ++ [q]) ++ qs := by simp [hSplit]
      rw [spansFrom, List.map_cons, Registry.tailsOf, hNext, head?_spansFrom_getD hEnd, ih hRest,
        shows.textIn_tail hSplit, List.map_cons]

/-- A view is tidy only where the layout is. -/
theorem View.Shows.tidy (shows : view.Shows before layout after) (hLayout : layout.WellFormed grammar)
    (h : view.isTidy = true) : layout.Tidy := by
  have hStart : before.length + 1 + layout.front.length = (layout.upTo before []).length := by simp [Layout.length_upTo]
  have hNone : layout.properties = [] →
      before.length + 1 + layout.text.length = (layout.upTo before []).length := by
    intro hNil
    rw [← hNil, layout.length_upTo_all]
  simp only [View.isTidy, shows.interior, Option.any_some, shows.properties, Bool.and_eq_true] at h
  obtain ⟨hFront, hTails⟩ := h
  rw [hStart, head?_spansFrom_getD hNone, shows.textIn_front, List.all_eq_true] at hFront
  rw [hStart, shows.tailsOf rfl, List.all_map, List.all_eq_true] at hTails
  have hTidy := fun p hp => Property.tidy_of_tail (hLayout.properties p hp) (hTails p hp)
  exact ⟨hFront, fun p hp => (hTidy p hp).1, fun p hp => (hTidy p hp).2.1, fun p hp => (hTidy p hp).2.2⟩

end Tidy

section Closed

variable {other p : Property} {ps : List Property}

/-- What stood behind a property that was put last before does not matter. -/
theorem closedLike_taken (p other : Property) (ps : List Property) :
    closedLike (p.closedLike other) ps = closedLike other ps := by
  induction ps with
  | nil => rfl
  | cons q rest ih =>
      cases rest with
      | nil => rfl
      | cons r rest => exact congrArg (q :: ·) ih

theorem shown_closedLike (other : Property) (ps : List Property) :
    (closedLike other ps).map Property.shown = ps.map Property.shown := by
  induction ps with
  | nil => rfl
  | cons p rest ih =>
      cases rest with
      | nil => rfl
      | cons q rest => exact congrArg (p.shown :: ·) ih

/-- Only what stands behind the last property differs. -/
theorem mem_closedLike (h : p ∈ closedLike other ps) : ∃ q ∈ ps, p = q ∨ p = q.closedLike other := by
  rcases List.eq_nil_or_concat ps with rfl | ⟨ps, last, rfl⟩
  · cases h
  · rw [List.concat_eq_append, closedLike_append (by simp), List.mem_append] at h
    rcases h with hFront | hLast
    · exact ⟨p, by simp [hFront], .inl rfl⟩
    · exact ⟨last, by simp, .inr (List.mem_singleton.mp hLast)⟩

theorem Separated.closedLike (h : Separated ps) (other : Property) : Separated (closedLike other ps) := by
  rcases List.eq_nil_or_concat ps with rfl | ⟨ps, last, rfl⟩
  · exact h
  · rw [List.concat_eq_append] at *
    rw [closedLike_append (by simp)]
    exact separated_append_cons.mpr ⟨(separated_append_cons.mp h).1, separated_singleton _⟩

/-- Properties stay separated when some are left out. -/
theorem Separated.filter (h : Separated ps) (kind : Property → Bool) : Separated (ps.filter kind) := by
  induction ps with
  | nil => exact h
  | cons p rest ih =>
      rw [List.filter_cons]
      split
      · cases hRest : rest.filter kind with
        | nil => exact separated_singleton p
        | cons q qs =>
            obtain ⟨after, hComma⟩ := h.exists_comma (by rintro rfl; cases hRest)
            exact separated_cons_cons.mpr ⟨by simp [hComma], hRest ▸ ih h.tail⟩
      · exact ih h.tail

end Closed

section Without

variable {grammar : Grammar} {layout : Layout} {names others : List Text} {last : Property} {ps : List Property}

/-- Without some of its properties, a layout ends like before, and it is empty if none are left. -/
theorem Layout.without_concat (front : Text) (ps : List Property) (last : Property) (names : List Text) :
    Layout.without ⟨front, ps ++ [last]⟩ names =
      ⟨if (ps ++ [last]).filter (!·.isAmong names) = [] then [] else front,
        closedLike last ((ps ++ [last]).filter (!·.isAmong names))⟩ := by
  rw [Layout.without, List.getLast?_concat]

/-- Whether a property is removed does not depend on the order of the names. -/
theorem Layout.without_perm (layout : Layout) (h : others.Perm names) :
    layout.without others = layout.without names := by
  have hAmong : ∀ p : Property, p.isAmong others = p.isAmong names := by
    intro p
    rw [Bool.eq_iff_iff, Property.isAmong_iff, Property.isAmong_iff]
    simp only [h.mem_iff]
  simp only [Layout.without, hAmong]

theorem Layout.shown_without (layout : Layout) (names : List Text) :
    (layout.without names).properties.map Property.shown =
      (layout.properties.filter (!·.isAmong names)).map Property.shown := by
  obtain ⟨front, properties⟩ := layout
  rcases List.eq_nil_or_concat properties with rfl | ⟨ps, last, rfl⟩
  · rfl
  · rw [List.concat_eq_append, Layout.without_concat, shown_closedLike]

/-- A layout stays well-formed without some of its properties. -/
theorem Layout.WellFormed.without (h : layout.WellFormed grammar) (names : List Text) :
    (layout.without names).WellFormed grammar := by
  obtain ⟨front, properties⟩ := layout
  rcases List.eq_nil_or_concat properties with rfl | ⟨ps, last, rfl⟩
  · exact h
  · rw [List.concat_eq_append] at *
    rw [Layout.without_concat]
    have hLast := h.properties last (by simp)
    refine ⟨?_, ?_, (h.separated.filter _).closedLike last⟩
    · split
      · exact isGap_nil
      · exact h.front
    · intro p hp
      obtain ⟨q, hq, rfl | rfl⟩ := mem_closedLike hp
      · exact h.properties p (List.mem_filter.mp hq).1
      · exact ⟨(h.properties q (List.mem_filter.mp hq).1).property, hLast.gap, hLast.afterComma⟩

/-- Where all properties go, nothing is left between the braces. -/
theorem Layout.text_without (hSome : layout.properties ≠ []) (hNone : (layout.without names).properties = []) :
    (layout.without names).text = [] := by
  obtain ⟨front, properties⟩ := layout
  rcases List.eq_nil_or_concat properties with rfl | ⟨ps, last, rfl⟩
  · exact absurd rfl hSome
  · rw [List.concat_eq_append, Layout.without_concat] at *
    rw [closedLike_eq_nil] at hNone
    rw [if_pos hNone, hNone]
    rfl

theorem Layout.Tidy.without (h : layout.Tidy) (names : List Text) : (layout.without names).Tidy := by
  obtain ⟨front, properties⟩ := layout
  rcases List.eq_nil_or_concat properties with rfl | ⟨ps, last, rfl⟩
  · exact h
  · rw [List.concat_eq_append] at *
    rw [Layout.without_concat]
    refine ⟨?_, fun p hp => ?_, fun p hp => ?_, fun p hp => ?_⟩
    · split
      · simp [Blanks]
      · exact h.front
    all_goals obtain ⟨q, hq, rfl | rfl⟩ := mem_closedLike hp
    · exact h.gap p (List.mem_filter.mp hq).1
    · exact h.gap last (by simp)
    · exact h.afterComma p (List.mem_filter.mp hq).1
    · exact h.afterComma last (by simp)
    · exact h.direct p (List.mem_filter.mp hq).1
    · exact h.direct last (by simp)

end Without

section Run

variable {editor : Editor} {grammar : Grammar} {names inserted : List Text} {before front after text : Text}
  {last : Property} {ps : List Property} {layout : Layout} {imports : List (Text × List Text × Bool)}

/-- All entries that have been put into a collection are removed, in whatever order. -/
theorem Grammar.HasGrown.removeEach (takes : editor.Takes grammar before after imports)
    (h : grammar.HasGrown names before front after last (ps ++ [last]) text inserted) :
    inserted.foldlM editor.remove text = .ok (Layout.between ⟨front, ps ++ [last]⟩ before after) := by
  induction inserted generalizing text with
  | nil =>
      obtain ⟨properties, rfl, -, hGrown, hAdded⟩ := h
      rw [hGrown.eq_of_none (none_isAmong hAdded.eq_nil)]
      rfl
  | cons name rest ih =>
      obtain ⟨less, hRemove, hLess⟩ := h.remove takes
      rw [List.foldlM_cons, hRemove]
      exact ih hLess

/-- A tidy collection is what has grown out of the properties that stay, if there are any. -/
theorem Layout.Tidy.hasGrown (hTidy : Layout.Tidy ⟨front, ps ++ [last]⟩)
    (hLayout : Layout.WellFormed grammar ⟨front, ps ++ [last]⟩) (hDifferent : (namesOf (ps ++ [last])).Nodup)
    (hNodup : names.Nodup) (hPresent : ∀ name ∈ names, name ∈ namesOf (ps ++ [last])) {ks : List Property}
    {k : Property} (hKept : (ps ++ [last]).filter (!·.isAmong names) = ks ++ [k]) :
    grammar.HasGrown names before front after (k.closedLike last) (ks ++ [k.closedLike last])
      (Layout.between ⟨front, ps ++ [last]⟩ before after) names := by
  have hTight : ∀ properties : List Property, Separated properties →
      (∀ p ∈ properties, p.afterComma?.isSome = true → p.gap = []) → Tight names properties := by
    intro properties hSeparated hDirect
    induction properties with
    | nil => trivial
    | cons p rest ih =>
        obtain ⟨hp, hRest⟩ := List.forall_mem_cons.mp hDirect
        refine ⟨fun hNil _ => ?_, ih hSeparated.tail hRest⟩
        obtain ⟨after, hComma⟩ := hSeparated.exists_comma hNil
        exact hp (by simp [hComma])
  refine ⟨_, rfl, hLayout, ⟨?_, ?_, hTight _ hLayout.separated hTidy.direct⟩, ?_⟩
  · rw [closedLike_taken, closedLike_append (by simp)]
    rfl
  · rw [hKept, closedLike_taken, closedLike_append (by simp)]
    rfl
  · refine (List.perm_ext_iff_of_nodup (hDifferent.filter _) hNodup).mpr fun name => ?_
    simp only [List.mem_filter, List.contains_iff_mem, and_iff_right_iff_imp]
    exact hPresent name

/-- Removals that leave a property leave the layout without the entries. -/
theorem Editor.Takes.removeEach_some (takes : editor.Takes grammar before after imports)
    (hLayout : layout.WellFormed grammar) (hTidy : layout.Tidy)
    (hDifferent : (namesOf layout.properties).Nodup) (hNodup : names.Nodup)
    (hPresent : ∀ name ∈ names, name ∈ namesOf layout.properties)
    (hKept : layout.properties.filter (!·.isAmong names) ≠ []) :
    names.foldlM editor.remove (layout.between before after) = .ok ((layout.without names).between before after) := by
  obtain ⟨front, properties⟩ := layout
  rcases List.eq_nil_or_concat properties with rfl | ⟨ps, last, rfl⟩
  · exact absurd rfl hKept
  · rw [List.concat_eq_append] at *
    rw [Layout.without_concat, if_neg hKept] at *
    rcases List.eq_nil_or_concat ((ps ++ [last]).filter (!·.isAmong names)) with hNil | ⟨ks, k, hSome⟩
    · exact absurd hNil hKept
    · rw [List.concat_eq_append] at hSome
      have hClosed : closedLike last ((ps ++ [last]).filter (!·.isAmong names)) = ks ++ [k.closedLike last] := by
        rw [hSome, closedLike_append (by simp)]
        rfl
      rw [hClosed]
      exact (hTidy.hasGrown hLayout hDifferent hNodup hPresent hSome).removeEach takes

/-- The last removal of all takes away what stands around the entry. -/
theorem Editor.Takes.remove_sole (takes : editor.Takes grammar before after imports) (hLayout : layout.WellFormed grammar)
    (hTidy : layout.Tidy) {name : Text} {p : Property} (hAlone : layout.properties = [p]) (hName : p.name? = some name) :
    editor.remove (layout.between before after) name = .ok (Layout.between ⟨[], []⟩ before after) := by
  obtain ⟨view, hView, hShows, -⟩ := takes.exists_view hLayout
  have hSplit : layout.properties = [] ++ p :: [] := hAlone
  obtain ⟨entry, hEntry, hAt⟩ := hShows.exists_find? hSplit hName (by simp)
  have hEdit := hShows.removal_sole hEntry hAt
  have hp : p ∈ layout.properties := by simp [hAlone]
  have hNothing : leftAlone layout.front p.tail = [] := by
    rw [leftAlone, Text.trimEnd_eq_nil hTidy.front, keptBehind_of_blank (hTidy.gap p hp) (hTidy.afterComma p hp),
      List.append_nil]
  rw [hShows.source, hNothing] at hEdit
  exact Editor.remove_of_view hView hEdit

/-- An entry with a name of its own is the only property that stays if all but its name are removed. -/
theorem filter_eq_singleton {properties : List Property} {name : Text} (hDifferent : (namesOf properties).Nodup)
    (hFresh : name ∉ names) (hName : name ∈ namesOf properties)
    (hNone : properties.filter (!·.isAmong (names ++ [name])) = []) :
    ∃ p, properties.filter (!·.isAmong names) = [p] ∧ p.name? = some name := by
  obtain ⟨p, hp, hSame⟩ := List.mem_filterMap.mp hName
  obtain ⟨ps, qs, rfl⟩ := List.append_of_mem hp
  rw [namesOf_append, namesOf_cons, hSame, Option.toList_some, List.singleton_append, List.perm_middle.nodup_iff,
    ← namesOf_append] at hDifferent
  have hOthers : ∀ q ∈ ps ++ qs, q.isAmong names = true := by
    intro q hq
    have hAll : q.isAmong (names ++ [name]) = true := by
      have hMember : q ∈ ps ++ p :: qs := List.perm_middle.mem_iff.mpr (List.mem_cons_of_mem p hq)
      simpa using List.filter_eq_nil_iff.mp hNone q hMember
    obtain ⟨other, hOther, hq'⟩ := Property.isAmong_iff.mp hAll
    rcases List.mem_append.mp hOther with hMember | hMember
    · exact Property.isAmong_iff.mpr ⟨other, hMember, hq'⟩
    · rw [List.mem_singleton.mp hMember] at hq'
      exact absurd (mem_namesOf_of_mem hq hq') (List.nodup_cons.mp hDifferent).1
  have hStays : p.isAmong names = false := by
    simpa [Property.isAmong, hSame] using hFresh
  obtain ⟨hps, hqs⟩ := List.forall_mem_append.mp hOthers
  refine ⟨p, ?_, hSame⟩
  rw [List.filter_append, List.filter_cons_of_pos (by simp [hStays]), List.filter_eq_nil_iff.mpr (by simpa using hps),
    List.filter_eq_nil_iff.mpr (by simpa using hqs), List.nil_append]

/-- Whichever entry is the last to go, nothing is left between the braces. -/
theorem Editor.Takes.removeEach_all (takes : editor.Takes grammar before after imports)
    (hLayout : layout.WellFormed grammar) (hTidy : layout.Tidy)
    (hDifferent : (namesOf layout.properties).Nodup) (hNodup : names.Nodup)
    (hPresent : ∀ name ∈ names, name ∈ namesOf layout.properties) (hSome : names ≠ [])
    (hNone : layout.properties.filter (!·.isAmong names) = []) :
    names.foldlM editor.remove (layout.between before after) = .ok (Layout.between ⟨[], []⟩ before after) := by
  rcases List.eq_nil_or_concat names with rfl | ⟨rest, name, rfl⟩
  · exact absurd rfl hSome
  · rw [List.concat_eq_append] at *
    obtain ⟨hRest, -, hApart⟩ := List.nodup_append.mp hNodup
    have hFresh : name ∉ rest := fun hMember => hApart name hMember name (by simp) rfl
    obtain ⟨p, hKept, hName⟩ := filter_eq_singleton hDifferent hFresh (hPresent name (by simp)) hNone
    have hFirst := takes.removeEach_some hLayout hTidy hDifferent hRest
      (fun other hOther => hPresent other (by simp [hOther])) (by simp [hKept])
    have hShown := layout.shown_without rest
    rw [hKept] at hShown
    obtain ⟨q, hAlone, hq⟩ := List.map_eq_singleton_iff.mp hShown
    have hSame : q.name? = some name := (congrArg Prod.fst hq).trans hName
    rw [List.foldlM_append, hFirst]
    change [name].foldlM editor.remove _ = _
    rw [List.foldlM_cons, takes.remove_sole (hLayout.without rest) (hTidy.without rest) hAlone hSame]
    rfl

/-- Entries are removed in whatever order, and the same text is left. -/
theorem Editor.Takes.removeEach (takes : editor.Takes grammar before after imports)
    (hLayout : layout.WellFormed grammar) (hTidy : layout.Tidy)
    (hDifferent : (namesOf layout.properties).Nodup) (hNodup : names.Nodup)
    (hPresent : ∀ name ∈ names, name ∈ namesOf layout.properties) :
    names.foldlM editor.remove (layout.between before after) = .ok ((layout.without names).between before after) := by
  by_cases hKept : layout.properties.filter (!·.isAmong names) = []
  · by_cases hNone : names = []
    · -- there are no properties to begin with
      obtain ⟨front, properties⟩ := layout
      subst hNone
      obtain rfl : properties = [] := by
        refine List.eq_nil_iff_forall_not_mem.mpr fun p hp => ?_
        obtain ⟨name, hName, -⟩ := Property.isAmong_iff.mp (by simpa using List.filter_eq_nil_iff.mp hKept p hp)
        cases hName
      rfl
    · rw [takes.removeEach_all hLayout hTidy hDifferent hNodup hPresent hNone hKept]
      obtain ⟨front, properties⟩ := layout
      rcases List.eq_nil_or_concat properties with rfl | ⟨ps, last, rfl⟩
      · obtain ⟨name, hName⟩ := List.exists_mem_of_ne_nil names hNone
        cases hPresent name hName
      · rw [List.concat_eq_append] at *
        rw [Layout.without_concat, if_pos hKept, hKept]
        rfl
  · exact takes.removeEach_some hLayout hTidy hDifferent hNodup hPresent hKept

end Run

section Editor

variable {editor : Editor} {grammar : Grammar} {source : Text} {view : View} {names : List Text}

/-- A batch with names that are not registered fails and tells them. -/
theorem Editor.removeMany_of_missing (hView : editor.view source = .ok view) (h : ∃ name ∈ names, name ∉ view.names) :
    editor.removeMany source names = .error (.missingEntries (names.filter (· ∉ view.names))) := by
  have hSame : names.filter (!view.contains ·) = names.filter (· ∉ view.names) := by
    refine List.filter_congr fun name _ => ?_
    rw [Bool.eq_iff_iff]
    simp [← View.contains_iff]
  simp [Editor.removeMany, Editor.ensurePresent, hView, hSame, h, bind, Except.bind, throw, throwThe,
    MonadExceptOf.throw]

/-- Different entries of a tidy collection are removed in whatever order, and one text is left: the other properties
stay as they are and in their order, and if none of those that were there stays, nothing stands between the braces.
Where names have no entry, these names are reported. -/
theorem removeMany_in_any_order (hView : editor.view source = .ok view) (admits : editor.Admits grammar view)
    (hDifferent : view.names.Nodup) (hTidy : view.isTidy = true) (hNodup : names.Nodup) :
    ((∀ name ∈ names, name ∈ view.names) → ∃ text left,
      (∀ others, others.Perm names → editor.removeMany source others = .ok text) ∧ editor.view text = .ok left ∧
      left.items = view.items.filter (fun item => !item.1.any names.contains) ∧
      left.surroundings? = view.surroundings? ∧
      (names ≠ [] → left.items = [] → ∀ before after, view.surroundings? = some (before, after) →
        text = before ++ after)) ∧
    ((∃ name ∈ names, name ∉ view.names) →
      editor.removeMany source names = .error (.missingEntries (names.filter (· ∉ view.names)))) := by
  refine ⟨fun hPresent => ?_, Editor.removeMany_of_missing hView⟩
  obtain ⟨before, layout, after, rfl, hLayout, hShows, takes⟩ := admits.exists_takes hView
  have hTidyLayout := hShows.tidy hLayout hTidy
  have hNames := hShows.names
  obtain ⟨left, hLeft, hLeftShows, -⟩ := takes.exists_view (hLayout.without names)
  refine ⟨_, left, fun others hOthers => ?_, hLeft, ?_, ?_, ?_⟩
  · have hAll : ∀ name ∈ others, name ∈ view.names := fun name hName => hPresent name (hOthers.mem_iff.mp hName)
    rw [Editor.removeMany, Editor.ensurePresent_of_view hView hAll, ← layout.without_perm hOthers]
    exact takes.removeEach hLayout hTidyLayout (hNames ▸ hDifferent) (hOthers.nodup_iff.mpr hNodup) (hNames ▸ hAll)
  · rw [hLeftShows.items, layout.shown_without, hShows.items, List.filter_map]
    rfl
  · rw [hLeftShows.surroundings, hShows.surroundings]
  · intro hSome hNone start stop hAround
    rw [hShows.surroundings, Option.some.injEq, Prod.mk.injEq] at hAround
    obtain ⟨rfl, rfl⟩ := hAround
    have hProperties : layout.properties ≠ [] := by
      intro hNil
      obtain ⟨name, hName⟩ := List.exists_mem_of_ne_nil names hSome
      simpa [hNames, hNil] using hPresent name hName
    rw [hLeftShows.items, List.map_eq_nil_iff] at hNone
    simp [Layout.between, layout.text_without hProperties hNone]

/-- The last property is an entry, and the one that stays is none. -/
theorem removeMany_in_any_order_around_a_spread :
    let editor := Editor.ofDialect "Icons".toList .tsx
    let source := "export const Icons = \x7b\n  A: h,\tC: h, ...props,\n\n  B: ref\n\x7d;\n".toList
    let names := ["A".toList, "B".toList, "C".toList]
    ∃ view, editor.view source = .ok view ∧ view.names.Nodup ∧ view.isTidy = true ∧ names.Nodup ∧
      (∀ name ∈ names, name ∈ view.names) ∧ ∃ text left,
        (∀ others, others.Perm names → editor.removeMany source others = .ok text) ∧ editor.view text = .ok left ∧
        left.items = view.items.filter (fun item => !item.1.any names.contains) ∧
        left.surroundings? = view.surroundings? ∧
        (names ≠ [] → left.items = [] → ∀ before after, view.surroundings? = some (before, after) →
          text = before ++ after) := by
  intro editor source names
  let layout : Layout := ⟨"\n  ".toList, [⟨some "A".toList, "A: h".toList, [], some ['\t']⟩,
    ⟨some "C".toList, "C: h".toList, [], some [' ']⟩, ⟨none, "...props".toList, [], some "\n\n  ".toList⟩,
    ⟨some "B".toList, "B: ref".toList, ['\n'], none⟩]⟩
  have hLayout : layout.WellFormed .members := Layout.HasWords.wellFormed (by decide)
  obtain ⟨view, hView, hShows, -, hAdmits⟩ := isModule_icons.exists_view false hLayout
  have hText : layout.between (frontOf [] [] "Icons".toList) (backOf false ['\n']) = source := by decide
  rw [hText] at hView
  have hDifferent : view.names.Nodup := by
    rw [hShows.names]
    decide
  have hTidy : view.isTidy = true := by
    have hAll : (editor.view source).toOption.any View.isTidy = true := by decide +kernel
    rwa [hView] at hAll
  have hPresent : ∀ name ∈ names, name ∈ view.names := by
    rw [hShows.names]
    decide
  have hNodup : names.Nodup := by decide
  exact ⟨view, hView, hDifferent, hTidy, hNodup, hPresent,
    (removeMany_in_any_order hView hAdmits hDifferent hTidy hNodup).1
      hPresent⟩

/-- Where there is nothing to remove, the blank between the braces stays. -/
theorem removeMany_of_none_keeps_blank :
    let editor := Editor.ofDialect "Icons".toList .tsx
    let source := "export const Icons = \x7b \x7d;\n".toList
    (editor.view source).toOption.map (fun view => (view.isTidy, view.items)) = some (true, []) ∧
      (editor.removeMany source []).toOption = some source ∧
      (editor.view source).toOption.bind View.surroundings? =
        some ("export const Icons = \x7b".toList, "\x7d;\n".toList) := by
  decide +kernel

end Editor

end IconRegistry.Registry
