import IconRegistry.Proofs.Registry.Listing
import IconRegistry.Proofs.Registry.ModuleTaking
import IconRegistry.Proofs.Registry.OutlineLayout
import IconRegistry.Proofs.Registry.Removal

/-! Collections that only an editor has written. Each property has a line of its own, in the order of names, and
the text is determined by the contents: editing refines a sorted map, byte for byte. -/
namespace IconRegistry.Registry

open Script

def rowText (row : Row) : Text :=
  "  ".toList ++ row.2 ++ ",\n".toList

def literalText (rows : List Row) : Text :=
  if rows.isEmpty then "\x7b\x7d".toList
  else "\x7b\n".toList ++ rows.flatMap rowText ++ "\x7d".toList

/-- The gap behind the comma of a row, given the rows that follow it. -/
def lineGap (rest : List Row) : Text :=
  if rest.isEmpty then "\n".toList else "\n  ".toList

def rowProperties : List Row → List Property
  | [] => []
  | row :: rest => separated row.1 row.2 (lineGap rest) :: rowProperties rest

def innerProperty (row : Row) : Property :=
  separated row.1 row.2 "\n  ".toList

def rowLayout (rows : List Row) : Layout :=
  ⟨if rows.isEmpty then [] else "\n  ".toList, rowProperties rows⟩

/-- Rows in front of others are written with a comma and a line break behind them. -/
theorem rowProperties_append (rs : List Row) (row : Row) (ss : List Row) :
    rowProperties (rs ++ row :: ss) = rs.map innerProperty ++ rowProperties (row :: ss) := by
  induction rs with
  | nil => rfl
  | cons r rs ih =>
      rw [List.cons_append, rowProperties, ih]
      cases rs <;> rfl

/-- Where a literal has rows, they begin on the line behind its brace. -/
theorem rowLayout_append (rs : List Row) (row : Row) (ss : List Row) :
    rowLayout (rs ++ row :: ss) =
      ⟨"\n  ".toList, rs.map innerProperty ++ separated row.1 row.2 (lineGap ss) :: rowProperties ss⟩ := by
  rw [rowLayout, rowProperties_append, rowProperties]
  cases rs <;> rfl

theorem names?_rowProperties (rows : List Row) :
    (rowProperties rows).map (·.name?) = rows.map fun row => some row.1 := by
  induction rows with
  | nil => rfl
  | cons row rest ih => rw [rowProperties, List.map_cons, ih]; rfl

theorem namesOf_rowProperties (rows : List Row) : namesOf (rowProperties rows) = rows.map (·.1) := by
  induction rows with
  | nil => rfl
  | cons row rest ih => rw [rowProperties, namesOf_cons, ih]; rfl

theorem length_rowProperties (rows : List Row) : (rowProperties rows).length = rows.length := by
  simpa using congrArg List.length (names?_rowProperties rows)

/-- Where the properties of rows are split, the rows are. -/
theorem split_of_rowProperties {rows : List Row} {ps qs : List Property} {p : Property}
    (h : rowProperties rows = ps ++ p :: qs) :
    ∃ rs row ss, rows = rs ++ row :: ss ∧ ps = rs.map innerProperty ∧ p :: qs = rowProperties (row :: ss) := by
  have hLength : ps.length < rows.length := by
    rw [← length_rowProperties, h]
    simp
  have hRows : rows = rows.take ps.length ++ rows[ps.length] :: rows.drop (ps.length + 1) := by
    rw [List.getElem_cons_drop, List.take_append_drop]
  refine ⟨rows.take ps.length, rows[ps.length], rows.drop (ps.length + 1), hRows, ?_⟩
  rw [hRows, rowProperties_append] at h
  obtain ⟨hFront, hRest⟩ := List.append_inj h (by simp; omega)
  exact ⟨hFront.symm, hRest.symm⟩

theorem lines_rowProperties (row : Row) (rest : List Row) :
    "\n  ".toList ++ writtenAll (rowProperties (row :: rest)) = '\n' :: (row :: rest).flatMap rowText := by
  induction rest generalizing row with
  | nil => simp [rowProperties, lineGap, separated, Property.tail, tailText, rowText]
  | cons next rest ih =>
      have hLine : "\n  ".toList ++ writtenAll (rowProperties (row :: next :: rest)) =
          "\n  ".toList ++ row.2 ++ ',' :: ("\n  ".toList ++ writtenAll (rowProperties (next :: rest))) := by
        simp [rowProperties, lineGap, separated, Property.tail, tailText]
      rw [hLine, ih]
      simp [rowText]

/-- The text of rows in their surroundings. -/
theorem between_rowLayout (rows : List Row) (before after : Text) :
    (rowLayout rows).between before after = before ++ literalText rows ++ after := by
  cases rows with
  | nil => simp [rowLayout, rowProperties, Layout.between, Layout.text, literalText]
  | cons row rows =>
      have := lines_rowProperties row rows
      simp only [Layout.between, Layout.text, rowLayout, literalText, List.isEmpty_cons, Bool.false_eq_true,
        if_false, this]
      simp

/-- Every property of a row has a comma and a gap behind it. -/
theorem mem_rowProperties {rows : List Row} {p : Property} (h : p ∈ rowProperties rows) :
    ∃ row ∈ rows, ∃ rest, p = separated row.1 row.2 (lineGap rest) := by
  induction rows with
  | nil => cases h
  | cons row rest ih =>
      rcases List.mem_cons.mp h with rfl | h
      · exact ⟨row, by simp, rest, rfl⟩
      · obtain ⟨other, hOther, hSame⟩ := ih h
        exact ⟨other, List.mem_cons_of_mem _ hOther, hSame⟩

theorem isGap_lineGap (rest : List Row) : isGap (lineGap rest) = true := by
  cases rest <;> rfl

/-- Rows of complete properties make a layout that the grammar derives. -/
theorem rowLayout_wellFormed {grammar : Grammar} {rows : List Row}
    (hRows : ∀ row ∈ rows, grammar.property (some row.1) row.2) : (rowLayout rows).WellFormed grammar where
  front := by cases rows <;> rfl
  properties p hp := by
    obtain ⟨row, hRow, rest, rfl⟩ := mem_rowProperties hp
    exact separated_wellFormed (hRows row hRow) (isGap_lineGap rest)
  separated p hp := by
    obtain ⟨row, -, rest, rfl⟩ := mem_rowProperties (List.dropLast_subset _ hp)
    rfl

/-- In front of a row its line begins. -/
theorem exists_line_start (rs : List Row) :
    ∃ s, "\n  ".toList ++ writtenAll (rs.map innerProperty) = s ++ "\n  ".toList := by
  rcases List.eq_nil_or_concat rs with rfl | ⟨front, r, rfl⟩
  · exact ⟨[], rfl⟩
  · refine ⟨"\n  ".toList ++ writtenAll (front.map innerProperty) ++ r.2 ++ [','], ?_⟩
    simp [innerProperty, separated, Property.tail, tailText]

/-- An entry on a line of its own has its line break and indentation in front of it. -/
theorem gapBefore_of_line_start {source s : Text} {position : Nat} (h : source.take position = s ++ "\n  ".toList) :
    gapBefore source position = "\n  ".toList := by
  simp [gapBefore, separatorBefore, h, Text.isBlank]

/-- An operation on the entry of a name. -/
inductive Operation
  | insert (name component : Text)
  | replace (name component : Text)
  | remove (name : Text)

namespace Operation

def run (editor : Editor) (source : Text) : Operation → Except RegistryError Text
  | insert name component => editor.insert source name component
  | replace name component => editor.replace source name component
  | remove name => editor.remove source name

def effect (contents : Contents) : Operation → Contents
  | insert name component | replace name component => contents.set name (some component)
  | remove name => contents.set name none

/-- Whether an operation adds a new name, or changes or removes one that is there, and each component is a
complete property with the name that it is registered under. -/
def Allowed (grammar : Grammar) (contents : Contents) : Operation → Prop
  | insert name component => contents name = none ∧ grammar.property (some name) component
  | replace name component => contents name ≠ none ∧ grammar.property (some name) component
  | remove name => contents name ≠ none

/-- Whether each of several operations is allowed when its turn comes. -/
def AllAllowed (grammar : Grammar) : Contents → List Operation → Prop
  | _, [] => True
  | contents, operation :: rest =>
    operation.Allowed grammar contents ∧ AllAllowed grammar (operation.effect contents) rest

end Operation

/-- Contents that rows of complete properties list. -/
structure Grammar.Lists (grammar : Grammar) (contents : Contents) (rows : List Row) : Prop where
  listing : IsListing contents rows
  properties : ∀ row ∈ rows, grammar.property (some row.1) row.2

/-- Nothing is listed without rows. -/
theorem Grammar.lists_nothing (grammar : Grammar) : grammar.Lists (fun _ => none) [] :=
  ⟨IsListing.empty, by simp⟩

section Editor

variable {editor : Editor} {grammar : Grammar} {before after : Text} {contents : Contents} {rows : List Row}
  {imports : List (Text × List Text × Bool)}

/-- Where the reader takes what the grammar derives, it shows the rows that list contents. -/
theorem Grammar.Lists.view (h : grammar.Lists contents rows) (takes : editor.Takes grammar before after imports) :
    ∃ view, editor.view ((rowLayout rows).between before after) = .ok view ∧
      view.Shows before (rowLayout rows) after ∧ view.imports.map importContent = imports :=
  takes.exists_view (rowLayout_wellFormed h.properties)

/-- A listed name leads to its row. -/
theorem Grammar.Lists.exists_entry {rs ss : List Row} {name old : Text}
    (h : grammar.Lists contents (rs ++ (name, old) :: ss)) (takes : editor.Takes grammar before after imports) :
    ∃ view entry, editor.view ((rowLayout (rs ++ (name, old) :: ss)).between before after) = .ok view ∧
      view.Shows before (rowLayout (rs ++ (name, old) :: ss)) after ∧ view.find? name = some entry ∧
      View.Shows.Locates before (rowLayout (rs ++ (name, old) :: ss)) entry (rs.map innerProperty)
        (separated name old (lineGap ss)) (rowProperties ss) := by
  obtain ⟨view, hView, hShows, -⟩ := h.view takes
  have hSplit : (rowLayout (rs ++ (name, old) :: ss)).properties =
      rs.map innerProperty ++ separated name old (lineGap ss) :: rowProperties ss := by
    rw [rowLayout_append]
  have hFirst : name ∉ namesOf (rs.map innerProperty) := by
    intro hMember
    obtain ⟨p, hp, hName⟩ := List.mem_filterMap.mp hMember
    obtain ⟨row, hRow, rfl⟩ := List.mem_map.mp hp
    exact h.listing.name_ne_of_split row (by simp [hRow]) (Option.some.inj hName)
  obtain ⟨entry, hEntry, hAt⟩ := hShows.exists_find? hSplit rfl hFirst
  exact ⟨view, entry, hView, hShows, hEntry, hAt⟩

/-- A separator copied from a row is that of rows. -/
theorem gapBefore_row {view : View} {entry : Entry} {rs ss : List Row} {row : Row} {p : Property}
    {qs : List Property} (hShows : view.Shows before (rowLayout (rs ++ row :: ss)) after)
    (hAt : View.Shows.Locates before (rowLayout (rs ++ row :: ss)) entry (rs.map innerProperty) p qs) :
    gapBefore view.source entry.span.start = "\n  ".toList := by
  obtain ⟨s, hLine⟩ := exists_line_start rs
  have hTake : view.source.take entry.span.start =
      (rowLayout (rs ++ row :: ss)).upTo before (rs.map innerProperty) := by
    rw [hShows.source_split hAt, hAt.span, List.take_left]
  have hUpTo : (rowLayout (rs ++ row :: ss)).upTo before (rs.map innerProperty) =
      (before ++ '{' :: s) ++ "\n  ".toList := by
    rw [Layout.upTo, rowLayout_append, hLine]
    simp
  exact gapBefore_of_line_start (hTake.trans hUpTo)

/-- A new row is inserted in front of the first that is greater. -/
theorem Grammar.Lists.insert_before (h : grammar.Lists contents rows)
    {name : Text} (component : Text) {view : View} (hShows : view.Shows before (rowLayout rows) after)
    (hName : contents name = none) {next : Entry} (hNext : view.following? name = some next) :
    ∃ rs ss, rows = rs ++ ss ∧ (∀ row ∈ rs, compareNames row.1 name = .lt) ∧
      (∀ row ∈ ss, compareNames name row.1 = .lt) ∧
      (view.insertion? name component).map (·.apply view.source) =
        some ((rowLayout (rs ++ (name, component) :: ss)).between before after) := by
  obtain ⟨ps, p, qs, hAt, hGreater, hLess⟩ := hShows.following? hNext
  obtain ⟨rs, row, ss, rfl, rfl, hRest⟩ := split_of_rowProperties hAt.split
  obtain ⟨rfl, rfl⟩ := List.cons_eq_cons.mp hRest
  have hOther := h.listing.name_ne_of_none hName
  have hSorted := h.listing.sorted
  simp only [List.pairwise_append, List.pairwise_cons] at hSorted
  have hRow : compareNames name row.1 = .lt := by
    have hSame : next.name = row.1 := (Option.some.inj hAt.name).symm
    rw [hSame] at hGreater
    exact Std.OrientedCmp.gt_iff_lt.mp hGreater
  refine ⟨rs, row :: ss, rfl, ?_, ?_, ?_⟩
  · intro other hMember
    have hListed : other.1 ∈ namesOf (rs.map innerProperty) :=
      mem_namesOf_of_mem (List.mem_map_of_mem hMember) rfl
    exact compareNames_lt_of_ne_gt (hLess _ hListed) (hOther other (by simp [hMember]))
  · rw [List.forall_mem_cons]
    exact ⟨hRow, fun other hMember => Std.TransCmp.lt_trans hRow (hSorted.2.1.1 other hMember)⟩
  · rw [hShows.insertion_before component hNext hAt, gapBefore_row hShows hAt, rowLayout_append,
      rowLayout_append]
    rfl

/-- If none is greater, a new row is inserted behind all others. -/
theorem Grammar.Lists.insert_behind (h : grammar.Lists contents rows)
    {name : Text} (component : Text) {view : View} (hShows : view.Shows before (rowLayout rows) after)
    (hName : contents name = none) (hNone : view.following? name = none) (hRows : rows ≠ []) :
    (∀ row ∈ rows, compareNames row.1 name = .lt) ∧
      (view.insertion? name component).map (·.apply view.source) =
        some ((rowLayout (rows ++ [(name, component)])).between before after) := by
  have hLess := hShows.following?_eq_none hNone
  have hOther := h.listing.name_ne_of_none hName
  refine ⟨fun row hRow => ?_, ?_⟩
  · refine compareNames_lt_of_ne_gt (hLess row.1 ?_) (hOther row hRow)
    rw [rowLayout, namesOf_rowProperties]
    exact List.mem_map_of_mem hRow
  · have hEntries : view.entries.getLast? ≠ none := by
      intro hEmpty
      have hNames := hShows.getLast?_eq_none hEmpty
      rw [rowLayout, namesOf_rowProperties, List.map_eq_nil_iff] at hNames
      exact hRows hNames
    obtain ⟨last, hLast⟩ := Option.ne_none_iff_exists'.mp hEntries
    obtain ⟨ps, p, qs, hAt, hAfter⟩ := hShows.getLast? hLast
    obtain ⟨rs, row, ss, rfl, rfl, hRest⟩ := split_of_rowProperties hAt.split
    obtain ⟨rfl, rfl⟩ := List.cons_eq_cons.mp hRest
    obtain rfl : ss = [] := by rwa [namesOf_rowProperties, List.map_eq_nil_iff] at hAfter
    rw [hShows.insertion_behind component hNone hLast hAt, gapBefore_row hShows hAt, rowLayout_append,
      rowLayout_append]
    simp [innerProperty, separated, rowProperties]

/-- Insertion of a new name puts a row between the lesser and the greater ones. -/
theorem Grammar.Lists.insert (h : grammar.Lists contents rows)
    (takes : editor.Takes grammar before after imports) {name component : Text}
    (hName : contents name = none) (hComponent : grammar.property (some name) component) :
    ∃ others, grammar.Lists (contents.set name (some component)) others ∧
      editor.insert ((rowLayout rows).between before after) name component =
        .ok ((rowLayout others).between before after) := by
  obtain ⟨view, hView, hShows, -⟩ := h.view takes
  obtain ⟨rs, ss, rfl, hLess, hGreater, hEdit⟩ : ∃ rs ss, rows = rs ++ ss ∧
      (∀ row ∈ rs, compareNames row.1 name = .lt) ∧ (∀ row ∈ ss, compareNames name row.1 = .lt) ∧
      (view.insertion? name component).map (·.apply view.source) =
        some ((rowLayout (rs ++ (name, component) :: ss)).between before after) := by
    cases hNext : view.following? name with
    | some next => exact h.insert_before component hShows hName hNext
    | none =>
        rcases List.eq_nil_or_concat rows with rfl | ⟨front, r, rfl⟩
        · have hNone : view.entries.getLast? = none := by rw [hShows.entries]; rfl
          exact ⟨[], [], rfl, by simp, by simp, hShows.insertion_alone name component hNone (by decide)⟩
        · obtain ⟨hLess, hEdit⟩ := h.insert_behind component hShows hName hNext (by simp)
          exact ⟨_, [], (List.append_nil _).symm, hLess, by simp, hEdit⟩
  rw [hShows.source] at hEdit
  refine ⟨rs ++ (name, component) :: ss, ⟨h.listing.insert hLess hGreater, ?_⟩,
    Editor.insert_of_view hView hEdit⟩
  have hOld := h.properties
  simp only [List.forall_mem_append, List.forall_mem_cons] at hOld ⊢
  exact ⟨hOld.1, hComponent, hOld.2⟩

/-- A component that is replaced is listed in the place of the old one. -/
theorem Grammar.Lists.replace (h : grammar.Lists contents rows)
    (takes : editor.Takes grammar before after imports) {name component : Text}
    (hName : contents name ≠ none) (hComponent : grammar.property (some name) component) :
    ∃ others, grammar.Lists (contents.set name (some component)) others ∧
      editor.replace ((rowLayout rows).between before after) name component =
        .ok ((rowLayout others).between before after) := by
  obtain ⟨rs, old, ss, rfl⟩ := h.listing.exists_split hName
  obtain ⟨view, entry, hView, hShows, hEntry, hAt⟩ := h.exists_entry takes
  have hEdit := hShows.replacement component hEntry hAt
  rw [hShows.source] at hEdit
  refine ⟨rs ++ (name, component) :: ss, ⟨h.listing.replace, ?_⟩, ?_⟩
  · have hOld := h.properties
    simp only [List.forall_mem_append, List.forall_mem_cons] at hOld ⊢
    exact ⟨hOld.1, hComponent, hOld.2.2⟩
  · rw [Editor.replace_of_view hView hEdit]
    simp only [rowLayout_append]
    rfl

/-- Removal takes the row of a name with its line; the braces meet again when no row is left. -/
theorem Grammar.Lists.remove (h : grammar.Lists contents rows)
    (takes : editor.Takes grammar before after imports) {name : Text} (hName : contents name ≠ none) :
    ∃ others, grammar.Lists (contents.set name none) others ∧
      editor.remove ((rowLayout rows).between before after) name =
        .ok ((rowLayout others).between before after) := by
  obtain ⟨rs, old, ss, rfl⟩ := h.listing.exists_split hName
  obtain ⟨view, entry, hView, hShows, hEntry, hAt⟩ := h.exists_entry takes
  refine ⟨rs ++ ss, ⟨h.listing.remove, ?_⟩, ?_⟩
  · have hOld := h.properties
    simp only [List.forall_mem_append, List.forall_mem_cons] at hOld ⊢
    exact ⟨hOld.1, hOld.2.2⟩
  cases ss with
  | cons next ss =>
      have hEdit := hShows.removal_next hEntry hAt
      rw [hShows.source] at hEdit
      rw [Editor.remove_of_view hView hEdit]
      simp only [rowLayout_append]
  | nil =>
      rcases List.eq_nil_or_concat rs with rfl | ⟨front, r, rfl⟩
      · have hEdit := hShows.removal_sole hEntry hAt
        rw [hShows.source] at hEdit
        have hNothing : leftAlone (rowLayout ([] ++ [(name, old)])).front
            (separated name old (lineGap [])).tail = [] := rfl
        rw [Editor.remove_of_view hView hEdit, hNothing]
        simp [rowLayout, rowProperties, Layout.between, Layout.text]
      · have hMap : (front.concat r).map innerProperty = front.map innerProperty ++ [innerProperty r] := by
          simp
        rw [hMap] at hAt
        have hEdit := hShows.removal_last hEntry hAt (by simp [innerProperty, separated, Property.tail, tailText])
        rw [hShows.source] at hEdit
        have hComma : leftBehind (innerProperty r).tail (separated name old (lineGap [])).tail = ",\n".toList :=
          rfl
        rw [Editor.remove_of_view hView hEdit, hComma, List.concat_eq_append, List.append_nil, List.append_assoc,
          List.singleton_append, rowLayout_append, rowLayout_append]
        simp [Layout.between, Layout.text, Layout.upTo, innerProperty, separated, Property.tail, tailText, lineGap,
          rowProperties]

/-- An allowed operation keeps the contents listed. -/
theorem Grammar.Lists.step (h : grammar.Lists contents rows)
    (takes : editor.Takes grammar before after imports) {operation : Operation}
    (hAllowed : operation.Allowed grammar contents) :
    ∃ others, grammar.Lists (operation.effect contents) others ∧
      operation.run editor ((rowLayout rows).between before after) =
        .ok ((rowLayout others).between before after) := by
  cases operation with
  | insert name component => exact h.insert takes hAllowed.1 hAllowed.2
  | replace name component => exact h.replace takes hAllowed.1 hAllowed.2
  | remove name => exact h.remove takes hAllowed

/-- So do any number of them. -/
theorem Grammar.Lists.run {operations : List Operation} (h : grammar.Lists contents rows)
    (takes : editor.Takes grammar before after imports)
    (hAllowed : Operation.AllAllowed grammar contents operations) :
    ∃ others, grammar.Lists (operations.foldl Operation.effect contents) others ∧
      operations.foldlM (Operation.run editor) ((rowLayout rows).between before after) =
        .ok ((rowLayout others).between before after) := by
  induction operations generalizing contents rows with
  | nil => exact ⟨rows, h, rfl⟩
  | cons operation rest ih =>
      obtain ⟨others, hOthers, hStep⟩ := h.step takes hAllowed.1
      obtain ⟨final, hFinal, hRun⟩ := ih hOthers hAllowed.2
      refine ⟨final, hFinal, ?_⟩
      rw [List.foldlM_cons, hStep]
      exact hRun

/-- Editing an empty literal refines a sorted map. After any allowed operations the literal is the one of the
listed contents, its surroundings are as they were, and operations that lead to the same contents lead to the same
text. -/
theorem editing_refines_sorted_map (takes : editor.Takes grammar before after imports) :
    (∀ operations, Operation.AllAllowed grammar (fun _ => none) operations →
      ∃ rows text changed, IsListing (operations.foldl Operation.effect fun _ => none) rows ∧
        operations.foldlM (Operation.run editor) (before ++ "\x7b\x7d".toList ++ after) = .ok text ∧
        text = before ++ literalText rows ++ after ∧
        editor.view text = .ok changed ∧ changed.names = rows.map (·.1)) ∧
    ∀ operations others, Operation.AllAllowed grammar (fun _ => none) operations →
      Operation.AllAllowed grammar (fun _ => none) others →
      operations.foldl Operation.effect (fun _ => none) = others.foldl Operation.effect (fun _ => none) →
      operations.foldlM (Operation.run editor) (before ++ "\x7b\x7d".toList ++ after) =
        others.foldlM (Operation.run editor) (before ++ "\x7b\x7d".toList ++ after) := by
  have hText : (rowLayout []).between before after = before ++ "\x7b\x7d".toList ++ after :=
    between_rowLayout [] before after
  rw [← hText]
  constructor
  · intro operations hAllowed
    obtain ⟨rows, hRows, hRun⟩ := grammar.lists_nothing.run takes hAllowed
    obtain ⟨changed, hChanged, hShows, -⟩ := hRows.view takes
    refine ⟨rows, _, changed, hRows.listing, hRun, between_rowLayout rows before after, hChanged, ?_⟩
    rw [hShows.names, rowLayout, namesOf_rowProperties]
  · intro operations others hAllowed hAllowed' hSame
    obtain ⟨rows, hRows, hRun⟩ := grammar.lists_nothing.run takes hAllowed
    obtain ⟨rows', hRows', hRun'⟩ := grammar.lists_nothing.run takes hAllowed'
    rw [hRun, hRun', hRows.listing.unique (hSame ▸ hRows'.listing)]

/-- A run with all three operations. -/
theorem editing_letters_refines_sorted_map :
    let editor := Editor.ofDialect "Icons".toList .tsx
    let before := "export const Icons = ".toList
    let after := " as const;\n".toList
    let operations := [Operation.insert "C".toList "C: h".toList, .insert "A".toList "A: h".toList,
      .insert "B".toList "B: h".toList, .replace "B".toList "B: ref".toList, .remove "A".toList]
    editor.Takes .members before after [] ∧ Operation.AllAllowed .members (fun _ => none) operations ∧
    ∃ rows text changed, IsListing (operations.foldl Operation.effect fun _ => none) rows ∧
      operations.foldlM (Operation.run editor) (before ++ "\x7b\x7d".toList ++ after) = .ok text ∧
      text = before ++ literalText rows ++ after ∧
      editor.view text = .ok changed ∧ changed.names = rows.map (·.1) := by
  intro editor before after operations
  have hBefore : frontOf [] [] "Icons".toList = before := by decide
  have takes : editor.Takes .members before after [] := hBefore ▸ isModule_icons.takes true
  have hMember : ∀ {name text}, isWordMember (some name, text) = true → Grammar.members.property (some name) text :=
    fun h => isMember_of_isWordMember h
  have hAllowed : Operation.AllAllowed .members (fun _ => none) operations :=
    ⟨⟨rfl, hMember (by decide)⟩, ⟨by decide, hMember (by decide)⟩, ⟨by decide, hMember (by decide)⟩,
      ⟨by decide, hMember (by decide)⟩, Option.isSome_iff_ne_none.mp rfl, trivial⟩
  exact ⟨takes, hAllowed, (editing_refines_sorted_map takes).1 operations hAllowed⟩

end Editor

end IconRegistry.Registry
