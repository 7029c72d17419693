import IconRegistry.Proofs.Registry.Insertion
import IconRegistry.Proofs.Registry.ModuleTaking
import IconRegistry.Proofs.Registry.OutlineLayout
import IconRegistry.Proofs.Text.Trim

/-! Removal of an entry. The text behind the entry is taken over as it is, so what is left is a collection only
if that text may stand where it then does. -/
namespace IconRegistry.Registry

open Script

/-- What the removal of the last of several properties leaves behind the one before it: what was there up to the
first comma, which may be one in a comment, and what was behind the removed property. -/
def leftBehind (between behind : Text) : Text :=
  between.takeWhile (· != ',') ++ behind

/-- Where the first comma is the one that ends the gap, the gap is kept. -/
theorem leftBehind_tail {p : Property} (hComma : p.afterComma?.isSome = true) (hGap : ',' ∉ p.gap) (behind : Text) :
    leftBehind p.tail behind = p.gap ++ behind := by
  obtain ⟨after, hAfter⟩ := Option.isSome_iff_exists.mp hComma
  rw [leftBehind, Property.tail, hAfter, tailText, List.takeWhile_append_of_pos]
  · simp
  · intro c hc
    simpa using ne_of_mem_of_not_mem hc hGap

/-- What the removal of the only property keeps of the text behind it: neither blanks in front nor a comma. -/
def keptBehind (behind : Text) : Text :=
  let behind := Text.trimStart behind
  Text.trimStart ((Text.dropFront? [','] behind).getD behind)

/-- Of blanks and a comma nothing is kept. -/
theorem keptBehind_of_blank {p : Property} (hGap : ∀ c ∈ p.gap, Text.isBlank c = true)
    (hAfter : ∀ c ∈ p.afterComma?.getD [], Text.isBlank c = true) : keptBehind p.tail = [] := by
  cases hComma : p.afterComma? with
  | none =>
      simp [keptBehind, Property.tail, tailText, hComma, Text.dropFront?, Text.trimStart_eq_nil hGap]
  | some after =>
      have hBlank : Text.trimStart after = [] := Text.trimStart_eq_nil (by simpa [hComma] using hAfter)
      simp [keptBehind, Property.tail, tailText, hComma, Text.dropFront?, hBlank,
        Text.trimStart_append_cons hGap (by decide : Text.isBlank ',' = false)]

/-- What the removal of the only property leaves between the braces. -/
def leftAlone (front behind : Text) : Text :=
  Text.trimEnd front ++ keptBehind behind

/-- What a removal keeps behind an entry stood there. -/
theorem keptBehind_suffix (behind : Text) : keptBehind behind <:+ behind :=
  (Text.trimStart_suffix _).trans ((Text.dropFront?_getD_suffix _ _).trans (Text.trimStart_suffix behind))

/-- A character is found behind all that differ from it. -/
theorem length_takeWhile_ne (c : Char) (s : Text) : (s.takeWhile (· != c)).length = s.idxOf c := by
  induction s with
  | nil => rfl
  | cons d s ih =>
      by_cases h : d = c
      · simp [h]
      · have hBool : (d == c) = false := by simpa using h
        rw [List.takeWhile_cons, List.idxOf_cons, hBool, ← ih]
        simp [h]

/-- Removal behind a text with a comma, given as a splice. -/
theorem lastRemoval_apply {a between removed rest : Text} {previous entry : Span} (hComma : ',' ∈ between)
    (hPrevious : previous.stop = a.length) (hStart : entry.start = a.length + between.length)
    (hStop : entry.stop = entry.start + removed.length) :
    (View.lastRemoval (a ++ (between ++ (removed ++ rest))) previous entry).apply
      (a ++ (between ++ (removed ++ rest))) = a ++ (between.takeWhile (· != ',') ++ rest) := by
  have hBetween : Span.textIn ⟨a.length, a.length + between.length⟩
      (a ++ (between ++ (removed ++ rest))) = between := Span.textIn_append ..
  have hParts : between = between.takeWhile (· != ',') ++ between.dropWhile (· != ',') :=
    List.takeWhile_append_dropWhile.symm
  have hLengths := congrArg List.length hParts
  rw [List.length_append] at hLengths
  rw [View.lastRemoval, hPrevious, hStart, hBetween, hStop, hStart, if_pos (by simpa using hComma),
    ← length_takeWhile_ne, ← List.length_append]
  have hEdit := Edit.apply_append (a ++ between.takeWhile (· != ','))
    (between.dropWhile (· != ',') ++ removed) rest []
  have hText : a ++ between.takeWhile (· != ',') ++ (between.dropWhile (· != ',') ++ removed ++ rest) =
      a ++ (between ++ (removed ++ rest)) := by
    simp only [List.append_assoc]
    rw [← List.append_assoc (between.takeWhile _), ← hParts]
  have hStop' : (a ++ between.takeWhile (· != ',')).length + (between.dropWhile (· != ',') ++ removed).length =
      a.length + between.length + removed.length := by
    simp only [List.length_append]
    omega
  rw [hText, hStop', List.append_assoc] at hEdit
  exact hEdit

/-- Removal between two texts of which the blanks go, too. -/
theorem soleRemoval_apply {a front removed behind rest : Text} {interior entry : Span}
    (hInterior : interior.start = a.length) (hStart : entry.start = a.length + front.length)
    (hStop : entry.stop = entry.start + removed.length) (hEnd : interior.stop = entry.stop + behind.length) :
    (View.soleRemoval (a ++ (front ++ (removed ++ (behind ++ rest)))) interior entry).apply
      (a ++ (front ++ (removed ++ (behind ++ rest)))) =
      a ++ (leftAlone front behind ++ rest) := by
  have hFront : Span.textIn ⟨interior.start, entry.start⟩
      (a ++ (front ++ (removed ++ (behind ++ rest)))) = front := by
    rw [hInterior, hStart, Span.textIn_append]
  have hBehind : Span.textIn ⟨entry.stop, interior.stop⟩
      (a ++ (front ++ (removed ++ (behind ++ rest)))) = behind := by
    have := Span.textIn_append (a ++ front ++ removed) behind rest
    simp only [List.append_assoc, List.length_append] at this
    rwa [hEnd, hStop, hStart, Nat.add_assoc a.length]
  obtain ⟨blanks, hBlanks⟩ := Text.trimEnd_prefix front
  obtain ⟨dropped, hDropped⟩ := keptBehind_suffix behind
  have hEdit := Edit.apply_append (a ++ Text.trimEnd front) (blanks ++ removed ++ dropped)
    (keptBehind behind ++ rest) []
  have hText : a ++ Text.trimEnd front ++ (blanks ++ removed ++ dropped ++ (keptBehind behind ++ rest)) =
      a ++ (front ++ (removed ++ (behind ++ rest))) := by
    simp only [List.append_assoc]
    rw [← List.append_assoc (Text.trimEnd front), hBlanks, ← List.append_assoc dropped, hDropped]
  have hStop' : (a ++ Text.trimEnd front).length + (blanks ++ removed ++ dropped).length =
      interior.stop - (keptBehind behind).length := by
    have hFrontLength := congrArg List.length hBlanks
    have hBehindLength := congrArg List.length hDropped
    simp only [List.length_append] at *
    omega
  rw [hText, hStop', List.length_append, ← hInterior] at hEdit
  simp only [View.soleRemoval, hFront, hBehind]
  rw [leftAlone, List.append_assoc, ← List.append_assoc a (Text.trimEnd front)]
  exact hEdit

namespace View.Shows

variable {view : View} {before after : Text} {layout : Layout} {name : Text} {entry : Entry}

/-- There is no property behind the last one. -/
theorem getElem?_behind_last (shows : view.Shows before layout after) {ps : List Property} {p : Property}
    (hAt : Locates before layout entry ps p []) : view.properties[ps.length + 1]? = none := by
  rw [List.getElem?_eq_none_iff, shows.length_properties, hAt.split]
  simp

/-- Removal of an entry with a property behind it. -/
theorem removal_next (shows : view.Shows before layout after) (hEntry : view.find? name = some entry)
    {ps qs : List Property} {p q : Property} (hAt : Locates before layout entry ps p (q :: qs)) :
    (view.removal? name).map (·.apply view.source) =
      some (Layout.between ⟨layout.front, ps ++ q :: qs⟩ before after) := by
  have hSplit : layout.properties = (ps ++ [p]) ++ q :: qs := by simp [hAt.split]
  have hNext := shows.getElem?_properties hSplit
  rw [List.length_append, List.length_singleton] at hNext
  have hStart : (layout.upTo before (ps ++ [p])).length = (layout.upTo before ps).length + p.written.length := by
    rw [layout.length_upTo_concat, Property.written, List.length_append, List.length_append, Nat.add_assoc]
  have hSource : view.source = layout.upTo before ps ++ (p.written ++ closingText (q :: qs) after) := by
    rw [shows.source_split hAt, Property.written, List.append_assoc]
  simp only [View.removal?, hEntry, shows.interior, hAt.property, hNext, bind, Option.bind, pure,
    Option.map_some]
  rw [hAt.span, hStart, hSource, Edit.apply_append]
  simp [Layout.between, Layout.text, Layout.upTo, closingText]

/-- Removal of the last of several properties. -/
theorem removal_last (shows : view.Shows before layout after) (hEntry : view.find? name = some entry)
    {ps : List Property} {r p : Property} (hAt : Locates before layout entry (ps ++ [r]) p [])
    (hComma : ',' ∈ r.tail) :
    (view.removal? name).map (·.apply view.source) =
      some (layout.upTo before ps ++ (r.text ++ (leftBehind r.tail p.tail ++ '}' :: after))) := by
  have hSplit : layout.properties = ps ++ r :: [p] := by simp [hAt.split]
  have hPrevious := shows.getElem?_properties hSplit
  have hSource : view.source =
      (layout.upTo before ps ++ r.text) ++ (r.tail ++ (p.text ++ (p.tail ++ '}' :: after))) := by
    rw [shows.source, layout.between_split hSplit]
    simp [closingText]
  have hLength : (ps ++ [r]).length = ps.length + 1 := by simp
  have hNone := shows.getElem?_behind_last hAt
  rw [hLength] at hNone
  simp only [View.removal?, hEntry, shows.interior, hAt.property, hLength, hNone, hPrevious, bind, Option.bind,
    pure, Option.map_some]
  rw [hSource, lastRemoval_apply hComma (by simp) (by rw [hAt.span, layout.length_upTo_concat])
    (by rw [hAt.span])]
  simp [leftBehind]

/-- Removal of the only property. -/
theorem removal_sole (shows : view.Shows before layout after) (hEntry : view.find? name = some entry)
    {p : Property} (hAt : Locates before layout entry [] p []) :
    (view.removal? name).map (·.apply view.source) =
      some (before ++ '{' :: (leftAlone layout.front p.tail ++ '}' :: after)) := by
  have hNone : view.properties[0 + 1]? = none := shows.getElem?_behind_last hAt
  have hText : layout.text = layout.front ++ (p.text ++ p.tail) := by
    simp [Layout.text, hAt.split]
  have hSource : view.source = (before ++ ['{']) ++ (layout.front ++ (p.text ++ (p.tail ++ '}' :: after))) := by
    rw [shows.interior_split, hText]
    simp
  simp only [View.removal?, hEntry, shows.interior, hAt.property, List.length_nil, hNone, bind, Option.bind,
    pure, Option.map_some]
  have hStart : entry.span.start = (before ++ ['{']).length + layout.front.length := by
    simp [hAt.span, Layout.length_upTo]
  have hStop : entry.span.stop = entry.span.start + p.text.length := by rw [hAt.span]
  have hEnd : before.length + 1 + layout.text.length = entry.span.stop + p.tail.length := by
    rw [hStop, hStart, hText]
    simp only [List.length_append, List.length_singleton]
    omega
  rw [hSource, soleRemoval_apply (by simp) hStart hStop hEnd]
  simp

end View.Shows

/-- Whether what a removal leaves may stand in a collection. It always may in front of another property; behind
the last one left, or with none left, it must be a gap, with a comma at most where one may end a collection. -/
def View.removesCleanly (view : View) (entry : Entry) : Bool :=
  match view.interior? with
  | none => false
  | some interior =>
    let behind := Span.textIn ⟨entry.span.stop, interior.stop⟩ view.source
    match view.properties[entry.property + 1]?, entry.property with
    | some _, _ => true
    | none, 0 => isGap (leftAlone (Span.textIn ⟨interior.start, entry.span.start⟩ view.source) behind)
    | none, index + 1 =>
      match view.properties[index]? with
      | none => false
      | some previous =>
        isEnding (leftBehind (Span.textIn ⟨previous.stop, entry.span.start⟩ view.source) behind)

namespace View.Shows

variable {view : View} {before after : Text} {layout : Layout} {name : Text} {entry : Entry}

/-- A removal in front of another property is clean. -/
theorem removesCleanly_next (shows : view.Shows before layout after) {ps qs : List Property} {p q : Property}
    (hAt : Locates before layout entry ps p (q :: qs)) : view.removesCleanly entry = true := by
  have hSplit : layout.properties = (ps ++ [p]) ++ q :: qs := by simp [hAt.split]
  have hNext := shows.getElem?_properties hSplit
  rw [List.length_append, List.length_singleton] at hNext
  simp only [View.removesCleanly, shows.interior, hAt.property, hNext]

/-- What stands behind a property, up to the next one or to the closing brace. -/
theorem textIn_tail (shows : view.Shows before layout after) {ps qs : List Property} {r : Property}
    (hSplit : layout.properties = ps ++ r :: qs) :
    Span.textIn ⟨(layout.upTo before ps).length + r.text.length, (layout.upTo before (ps ++ [r])).length⟩
      view.source = r.tail := by
  have hSource : view.source = (layout.upTo before ps ++ r.text) ++ (r.tail ++ closingText qs after) := by
    rw [shows.source, layout.between_split hSplit, List.append_assoc]
  rw [layout.length_upTo_concat, hSource, ← List.length_append, Span.textIn_append]

/-- The text in front of the first property is the front of the layout. -/
theorem textIn_front (shows : view.Shows before layout after) :
    Span.textIn ⟨before.length + 1, (layout.upTo before []).length⟩ view.source = layout.front := by
  have hSource : view.source = (before ++ ['{']) ++ (layout.front ++ closingText layout.properties after) := by
    simp [shows.source, Layout.between, Layout.text, closingText]
  have hStart : before.length + 1 = (before ++ ['{']).length := by simp
  have hLength : (layout.upTo before []).length = (before ++ ['{']).length + layout.front.length := by
    simp [Layout.length_upTo]
  rw [hLength, hStart, hSource, Span.textIn_append]

/-- A removal behind another property is clean exactly if what is left there may end a literal. -/
theorem removesCleanly_last (shows : view.Shows before layout after) {ps : List Property} {r p : Property}
    (hAt : Locates before layout entry (ps ++ [r]) p []) :
    view.removesCleanly entry = isEnding (leftBehind r.tail p.tail) := by
  have hSplit : layout.properties = ps ++ r :: [p] := by simp [hAt.split]
  have hPrevious := shows.getElem?_properties hSplit
  have hLength : (ps ++ [r]).length = ps.length + 1 := by simp
  have hNone := shows.getElem?_behind_last hAt
  rw [hLength] at hNone
  have hBehind := shows.textIn_tail hAt.split
  rw [← hAt.split, layout.length_upTo_all] at hBehind
  simp only [View.removesCleanly, shows.interior, hAt.property, hLength, hNone, hPrevious, hAt.span, hBehind,
    shows.textIn_tail hSplit]

/-- A removal of the sole property is clean exactly if a gap is left. -/
theorem removesCleanly_sole (shows : view.Shows before layout after) {p : Property}
    (hAt : Locates before layout entry [] p []) :
    view.removesCleanly entry = isGap (leftAlone layout.front p.tail) := by
  have hNone : view.properties[0 + 1]? = none := shows.getElem?_behind_last hAt
  have hBehind := shows.textIn_tail hAt.split
  rw [← hAt.split, layout.length_upTo_all] at hBehind
  simp only [View.removesCleanly, shows.interior, hAt.property, List.length_nil, hNone, hAt.span, hBehind,
    shows.textIn_front]

end View.Shows

/-- Properties that show the same have the same gaps between them, and so what is behind the last one is the
end of a collection on both sides if it is on one. -/
theorem isEnding_of_shown {grammar : Grammar} {ps qs : List Property} {last : Property} {left after : Text}
    (hps : ∀ p ∈ ps, p.WellFormed grammar) (hCommas : ∀ p ∈ ps, p.afterComma?.isSome = true)
    (hLast : grammar.property last.name? last.text) (hqs : ∀ q ∈ qs, q.WellFormed grammar)
    (hSeparated : Separated qs) (hShown : qs.map Property.shown = ps.map Property.shown ++ [last.shown])
    (hText : closingText qs after = writtenAll ps ++ (last.text ++ (left ++ '}' :: after))) :
    isEnding left = true := by
  induction ps generalizing qs with
  | nil =>
      obtain ⟨q, rfl, hSame⟩ := List.map_eq_singleton_iff.mp hShown
      have hq := hqs q (by simp)
      have hTexts : q.text = last.text := congrArg Prod.snd hSame
      have hTails : q.tail = left := by simpa [closingText, hTexts] using hText
      rw [isEnding_iff]
      exact ⟨q.gap, q.afterComma?, hq.gap, hq.afterComma, hTails.symm⟩
  | cons p ps ih =>
      obtain ⟨q, rest, rfl, hSame, hRest⟩ := List.map_eq_cons_iff.mp hShown
      have hTexts : q.text = p.text := congrArg Prod.snd hSame
      obtain ⟨hp, hps⟩ := List.forall_mem_cons.mp hps
      obtain ⟨hq, hrest⟩ := List.forall_mem_cons.mp hqs
      obtain ⟨hComma, hCommas⟩ := List.forall_mem_cons.mp hCommas
      obtain ⟨afterP, hCommaP⟩ := Option.isSome_iff_exists.mp hComma
      obtain ⟨afterQ, hCommaQ⟩ := hSeparated.exists_comma (by
        rintro rfl
        simp at hRest)
      have hBoth : q.gap ++ ',' :: (afterQ ++ closingText rest after) =
          p.gap ++ ',' :: (afterP ++ (writtenAll ps ++ (last.text ++ (left ++ '}' :: after)))) := by
        simpa [closingText, hTexts, Property.tail, tailText, hCommaP, hCommaQ] using hText
      obtain ⟨-, hBehind⟩ := gap_cancel hq.gap hp.gap (by decide) (by decide) hBoth
      obtain ⟨-, hBehind⟩ := List.cons_eq_cons.mp hBehind
      have hStarts := beginsToken_writtenAll hps
        (BeginsToken.append (grammar.begins hLast) (left ++ '}' :: after))
      have hRestText := ((beginsToken_closingText hrest after).gap_eq hStarts (hq.afterComma _ hCommaQ)
        (hp.afterComma _ hCommaP) hBehind).2
      exact ih hps hCommas hrest hSeparated.tail hRest hRestText

/-- Whether a text is read again and shows certain items in certain surroundings. -/
def Editor.Leaves (editor : Editor) (text : Text) (items : List (Option Text × Text))
    (surroundings? : Option (Text × Text)) : Prop :=
  ∃ left, editor.view text = .ok left ∧ left.items = items ∧ left.surroundings? = surroundings?

section Editor

variable {editor : Editor} {grammar : Grammar} {before after left : Text} {layout : Layout}
  {contents : List (Text × List Text × Bool)}

/-- What a text leaves between known surroundings is laid out there. -/
theorem ReadsExactly.layout_of_leaves (exact : ReadsExactly editor)
    {between : Text} {items : List (Option Text × Text)}
    (h : editor.Leaves (before ++ '{' :: (between ++ '}' :: after)) items
      (some (before ++ ['{'], '}' :: after))) :
    ∃ other : Layout, other.WellFormed .any ∧ other.text = between ∧
      other.properties.map Property.shown = items := by
  obtain ⟨view, hView, hItems, hAround⟩ := h
  obtain ⟨other, hText, hOther, hShows⟩ := exact.exists_shows_between hView hAround
  exact ⟨other, hOther, Layout.text_of_between hText.symm, hShows.items.symm.trans hItems⟩

/-- Behind the last property that is left, all must be an ending. -/
theorem Editor.Takes.leaves_behind_iff (takes : editor.Takes grammar before after contents)
    (exact : ReadsExactly editor) (hLayout : layout.WellFormed grammar)
    {ps qs : List Property} {r : Property} (hSplit : layout.properties = ps ++ r :: qs) :
    editor.Leaves (layout.upTo before ps ++ (r.text ++ (left ++ '}' :: after)))
      (ps.map Property.shown ++ [r.shown]) (some (before ++ ['{'], '}' :: after)) ↔ isEnding left = true := by
  have hText : layout.upTo before ps ++ (r.text ++ (left ++ '}' :: after)) =
      before ++ '{' :: ((layout.front ++ (writtenAll ps ++ (r.text ++ left))) ++ '}' :: after) := by
    simp [Layout.upTo]
  obtain ⟨hps, hr, -⟩ : (∀ p ∈ ps, p.WellFormed .any) ∧ r.WellFormed .any ∧ ∀ q ∈ qs, q.WellFormed .any := by
    simpa only [hSplit, List.forall_mem_append, List.forall_mem_cons] using hLayout.any.properties
  have hSeparated := hLayout.separated
  rw [hSplit, separated_append_cons] at hSeparated
  constructor
  · intro hLeaves
    rw [hText] at hLeaves
    obtain ⟨other, hOther, hBetween, hShown⟩ := exact.layout_of_leaves hLeaves
    have hClosing : other.front ++ closingText other.properties after =
        layout.front ++ (writtenAll ps ++ (r.text ++ (left ++ '}' :: after))) := by
      have := congrArg (· ++ '}' :: after) hBetween
      simpa [Layout.text, closingText] using this
    have hStarts := beginsToken_writtenAll hps
      (BeginsToken.append hr.property.1 (left ++ '}' :: after))
    obtain ⟨-, hSame⟩ := (beginsToken_closingText hOther.properties after).gap_eq hStarts hOther.front
      hLayout.front hClosing
    exact isEnding_of_shown hps hSeparated.1 hr.property hOther.properties hOther.separated hShown hSame
  · intro hEnding
    obtain ⟨gap, after?, hGap, hAfter, rfl⟩ := isEnding_iff.mp hEnding
    have hOld : Layout.WellFormed grammar ⟨layout.front, ps ++ r :: qs⟩ := hSplit ▸ hLayout
    have hOther := hOld.endBehind hGap hAfter
    obtain ⟨view, hView, hShows, -⟩ := takes.exists_view hOther
    refine ⟨view, ?_, ?_, hShows.surroundings⟩
    · rw [← hView, hText]
      simp [Layout.between, Layout.text, Property.tail]
    · simp [hShows.items, Property.shown]

/-- With no property left, all between the braces must be a gap. -/
theorem Editor.Takes.leaves_none_iff (takes : editor.Takes grammar before after contents)
    (exact : ReadsExactly editor) :
    editor.Leaves (before ++ '{' :: (left ++ '}' :: after)) [] (some (before ++ ['{'], '}' :: after)) ↔
      isGap left = true := by
  constructor
  · intro hLeaves
    obtain ⟨other, hOther, rfl, hShown⟩ := exact.layout_of_leaves hLeaves
    rw [List.map_eq_nil_iff] at hShown
    simpa [Layout.text, hShown] using hOther.front
  · intro hGap
    have hOther : Layout.WellFormed grammar ⟨left, []⟩ :=
      ⟨hGap, by simp, by simp [Separated]⟩
    obtain ⟨view, hView, hShows, -⟩ := takes.exists_view hOther
    refine ⟨view, ?_, hShows.items, hShows.surroundings⟩
    rw [← hView]
    simp [Layout.between, Layout.text]

theorem Editor.remove_of_view {source name text : Text} {view : View} (hView : editor.view source = .ok view)
    (h : (view.removal? name).map (·.apply source) = some text) : editor.remove source name = .ok text := by
  simp [Editor.remove, hView, h, bind, Except.bind, pure, Except.pure]

theorem mem_tail_of_comma {p : Property} (h : p.afterComma?.isSome = true) : ',' ∈ p.tail := by
  obtain ⟨after, hAfter⟩ := Option.isSome_iff_exists.mp h
  simp [Property.tail, tailText, hAfter]

/-- A removal always gives a text; that text is a registry with all other properties as they were, in the same
surroundings, exactly if the entry is removed cleanly. -/
theorem remove_keeps_others_iff (exact : ReadsExactly editor) {source name : Text} {view : View} {entry : Entry}
    (hView : editor.view source = .ok view) (admits : editor.Admits grammar view) (hEntry : view.find? name = some entry) :
    ∃ text, editor.remove source name = .ok text ∧
      (editor.Leaves text (view.items.eraseIdx entry.property) view.surroundings? ↔
        view.removesCleanly entry = true) := by
  obtain ⟨before, layout, after, rfl, hLayout, hShows, takes⟩ := admits.exists_takes hView
  obtain ⟨-, ps, p, qs, hAt, -⟩ := hShows.find? hEntry
  have hItems : view.items.eraseIdx entry.property = (ps ++ qs).map Property.shown := by
    rw [hShows.items, hAt.split, hAt.property]
    simp [List.eraseIdx_append_of_length_le]
  rw [hItems, hShows.surroundings]
  cases qs with
  | cons q qs =>
      have hEdit := hShows.removal_next hEntry hAt
      rw [hShows.source] at hEdit
      refine ⟨_, Editor.remove_of_view hView hEdit, ?_⟩
      have hOld : Layout.WellFormed grammar ⟨layout.front, ps ++ p :: q :: qs⟩ := hAt.split ▸ hLayout
      obtain ⟨left, hLeft, hShowsLeft, -⟩ := takes.exists_view hOld.erase
      exact iff_of_true ⟨left, hLeft, hShowsLeft.items, hShowsLeft.surroundings⟩ (hShows.removesCleanly_next hAt)
  | nil =>
      rcases List.eq_nil_or_concat ps with rfl | ⟨front, r, rfl⟩
      · have hEdit := hShows.removal_sole hEntry hAt
        rw [hShows.source] at hEdit
        refine ⟨_, Editor.remove_of_view hView hEdit, ?_⟩
        rw [hShows.removesCleanly_sole hAt]
        exact takes.leaves_none_iff exact
      · rw [List.concat_eq_append] at *
        have hSplit : layout.properties = front ++ r :: [p] := by simp [hAt.split]
        have hSeparated := hLayout.separated
        rw [hSplit, separated_append_cons, separated_cons_cons] at hSeparated
        have hComma : ',' ∈ r.tail := mem_tail_of_comma hSeparated.2.1
        have hEdit := hShows.removal_last hEntry hAt hComma
        rw [hShows.source] at hEdit
        refine ⟨_, Editor.remove_of_view hView hEdit, ?_⟩
        rw [hShows.removesCleanly_last hAt]
        simpa using takes.leaves_behind_iff exact hLayout hSplit

/-- A comma in a comment between the last two entries: here the removal is not clean. -/
theorem remove_behind_comment_with_comma :
    let editor := Editor.ofDialect "Icons".toList .tsx
    let source := "export const Icons = \x7b A: h /* a, b */, B: h \x7d;\n".toList
    ∃ view entry, editor.view source = .ok view ∧ view.find? "B".toList = some entry ∧
      view.removesCleanly entry = false ∧
      ∃ text, editor.remove source "B".toList = .ok text ∧
        (editor.Leaves text (view.items.eraseIdx entry.property) view.surroundings? ↔
          view.removesCleanly entry = true) := by
  intro editor source
  let layout : Layout := ⟨[' '], [⟨some "A".toList, "A: h".toList, " /* a, b */".toList, some [' ']⟩,
    ⟨some "B".toList, "B: h".toList, [' '], none⟩]⟩
  have hLayout : layout.WellFormed .members := Layout.HasWords.wellFormed (by decide)
  obtain ⟨view, hView, hShows, -, hAdmits⟩ := isModule_icons.exists_view false hLayout
  have hText : layout.between (frontOf [] [] "Icons".toList) (backOf false ['\n']) = source := by decide
  rw [hText] at hView
  obtain ⟨entry, hEntry, hClean⟩ : ∃ entry, view.find? "B".toList = some entry ∧ view.removesCleanly entry = false := by
    have hAll : (editor.view source).toOption.any
        (fun view => (view.find? "B".toList).any (!view.removesCleanly ·)) = true := by decide +kernel
    rw [hView] at hAll
    simpa [Except.toOption, Option.any_eq_true] using hAll
  exact ⟨view, entry, hView, hEntry, hClean,
    remove_keeps_others_iff (readsExactly_ofDialect rfl _) hView hAdmits hEntry⟩

/-- The comment is cut at its comma, and what is left of the registry is no script any more. -/
theorem remove_cuts_comment :
    let editor := Editor.ofDialect "Icons".toList .tsx
    let source := "export const Icons = \x7b A: 1 /* a, b */, B: 2 \x7d;\n".toList
    let text := "export const Icons = \x7b A: 1 /* a \x7d;\n".toList
    (editor.view source).toOption.map (·.names) = some ["A".toList, "B".toList] ∧
      (editor.remove source "B".toList).toOption = some text ∧ (editor.view text).toOption.isNone = true := by
  decide +kernel

end Editor

end IconRegistry.Registry
