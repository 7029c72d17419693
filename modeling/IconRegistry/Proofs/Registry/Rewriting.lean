import IconRegistry.Proofs.Registry.Importing
import IconRegistry.Proofs.Registry.Insertion
import Mathlib.Tactic.SplitIfs

/-! Texts of entries that are replaced again and again. Only the first property with a name is ever replaced, so what
becomes of a collection depends on the last text for each name, and where that is the text that stands there already,
nothing changes. -/
namespace IconRegistry.Registry

def firstText? (items : List (Option Text × Text)) (name : Text) : Option Text :=
  (items.find? (·.1 == some name)).map (·.2)

/-- Properties with other texts for the first ones with certain names. -/
def retext (texts : Text → Option Text) : List Property → List Property
  | [] => []
  | p :: rest =>
    match p.name? with
    | none => p :: retext texts rest
    | some name =>
      { p with text := (texts name).getD p.text } :: retext (fun other => if name = other then none else texts other) rest

def Editor.component? (editor : Editor) (text name : Text) : Option Text :=
  (editor.view text).toOption.bind fun view => firstText? view.items name

section Items

variable {items front rest : List (Option Text × Text)} {name other text : Text}

/-- A name has a text exactly if it is the name of an item. -/
theorem firstText?_isSome_iff : (firstText? items name).isSome = true ↔ name ∈ itemNames items := by
  rw [firstText?, Option.isSome_map, List.find?_isSome, itemNames, List.mem_filterMap]
  simp

theorem firstText?_cons_none (text : Text) (items : List (Option Text × Text)) (name : Text) :
    firstText? ((none, text) :: items) name = firstText? items name := rfl

theorem firstText?_cons_some (text : Text) (items : List (Option Text × Text)) (name other : Text) :
    firstText? ((some name, text) :: items) other = if name = other then some text else firstText? items other := by
  by_cases hName : name = other <;> simp [firstText?, hName]

/-- The text of a name is the first one. -/
theorem firstText?_append (front rest : List (Option Text × Text)) (name : Text) :
    firstText? (front ++ rest) name = (firstText? front name).or (firstText? rest name) := by
  rw [firstText?, List.find?_append, Option.map_or]
  rfl

/-- Of an item that is behind no other one with its name, the text counts. -/
theorem firstText?_middle (h : name ∉ itemNames front) :
    firstText? (front ++ (some name, text) :: rest) name = some text := by
  rw [← firstText?_isSome_iff, Bool.not_eq_true, Option.isSome_eq_false_iff, Option.isNone_iff_eq_none] at h
  rw [firstText?_append, h, firstText?_cons_some, if_pos rfl, Option.none_or]

/-- It makes no difference to other names. -/
theorem firstText?_middle_of_ne (h : name ≠ other) :
    firstText? (front ++ (some name, text) :: rest) other = firstText? (front ++ rest) other := by
  rw [firstText?_append, firstText?_cons_some, if_neg h, firstText?_append]

end Items

section Retext

variable {properties ps qs : List Property} {p : Property} {texts : Text → Option Text} {name text : Text}

theorem retext_cons_none (h : p.name? = none) : retext texts (p :: properties) = p :: retext texts properties := by
  rw [retext, h]

/-- The first property of a name takes the new text, and further ones of that name keep theirs. -/
theorem retext_cons_some (h : p.name? = some name) : retext texts (p :: properties) =
    { p with text := (texts name).getD p.text } ::
      retext (fun other => if name = other then none else texts other) properties := by
  rw [retext, h]

/-- New texts leave the names alone. -/
theorem namesOf_retext (texts : Text → Option Text) (properties : List Property) :
    namesOf (retext texts properties) = namesOf properties := by
  induction properties generalizing texts with
  | nil => rfl
  | cons p rest ih =>
      cases hName : p.name? with
      | none => rw [retext_cons_none hName, namesOf_cons, namesOf_cons, ih]
      | some name => rw [retext_cons_some hName, namesOf_cons, namesOf_cons, ih]

/-- Where all texts are what they are to be, nothing changes. -/
theorem retext_eq_self
    (h : ∀ name text, texts name = some text → firstText? (properties.map Property.shown) name = some text) :
    retext texts properties = properties := by
  induction properties generalizing texts with
  | nil => rfl
  | cons p rest ih =>
      cases hName : p.name? with
      | none =>
          rw [retext_cons_none hName, ih fun name text hText => ?_]
          have hFirst := h name text hText
          rwa [List.map_cons, Property.shown, hName, firstText?_cons_none] at hFirst
      | some name =>
          have hShown : (p :: rest).map Property.shown = (some name, p.text) :: rest.map Property.shown := by
            rw [List.map_cons, Property.shown, hName]
          rw [hShown] at h
          have hSame : (texts name).getD p.text = p.text := by
            cases hText : texts name with
            | none => rfl
            | some text =>
                have hFirst := h name text hText
                rw [firstText?_cons_some, if_pos rfl] at hFirst
                exact (Option.some.inj hFirst).symm
          rw [retext_cons_some hName, hSame, ih fun other text hText => ?_]
          split at hText
          · cases hText
          · rename_i hOther
            have hFirst := h other text hText
            rwa [firstText?_cons_some, if_neg hOther] at hFirst

theorem retext_none (properties : List Property) : retext (fun _ => none) properties = properties :=
  retext_eq_self fun _ _ h => nomatch h

/-- Of texts for one name, the later one counts. -/
theorem retext_retext (later texts : Text → Option Text) (properties : List Property) :
    retext later (retext texts properties) = retext (fun name => (later name).or (texts name)) properties := by
  induction properties generalizing later texts with
  | nil => rfl
  | cons p rest ih =>
      cases hName : p.name? with
      | none => rw [retext_cons_none hName, retext_cons_none hName, retext_cons_none hName, ih]
      | some name =>
          have hSame : ({ p with text := (texts name).getD p.text } : Property).name? = some name := hName
          have hText : (later name).getD ((texts name).getD p.text) = ((later name).or (texts name)).getD p.text := by
            cases later name <;> rfl
          have hRest : (fun other => (if name = other then none else later other).or
              (if name = other then none else texts other)) =
              fun other => if name = other then none else (later other).or (texts other) := by
            funext other
            split_ifs <;> rfl
          rw [retext_cons_some hName, retext_cons_some hSame, retext_cons_some hName, ih, hRest]
          exact congrArg (· :: _) (by rw [← hText])

/-- Another text for one name is one for the first property with that name. -/
theorem retext_single (hName : p.name? = some name) (hFirst : name ∉ namesOf ps) :
    retext (fun other => if name = other then some text else none) (ps ++ p :: qs) = ps ++ { p with text } :: qs := by
  induction ps with
  | nil =>
      have hRest : (fun other => if name = other then none else if name = other then some text else none) =
          fun _ => none := by
        funext other
        split_ifs <;> rfl
      rw [List.nil_append, retext_cons_some hName, hRest, retext_none]
      simp
  | cons q rest ih =>
      rw [namesOf_cons, List.mem_append, not_or] at hFirst
      rw [List.cons_append, List.cons_append]
      cases hOther : q.name? with
      | none => rw [retext_cons_none hOther, ih hFirst.2]
      | some other =>
          have hNe : name ≠ other := by simpa [hOther] using hFirst.1
          have hRest : (fun third => if other = third then none else if name = third then some text else none) =
              fun third => if name = third then some text else none := by
            funext third
            by_cases hThird : other = third
            · rw [if_pos hThird, if_neg (hThird ▸ hNe)]
            · rw [if_neg hThird]
          rw [retext_cons_some hOther, hRest, ih hFirst.2, if_neg hNe]
          rfl

end Retext

section Editor

variable {editor : Editor} {grammar : Grammar} {source text name other component : Text} {view changed : View}

/-- Where there is no collection, there are no entries. -/
theorem Editor.entries_of_missing (hView : editor.view source = .ok view) (h : view.interior?.isSome = false) :
    view.entries = [] ∧ view.properties = [] := by
  cases hRead : editor.read source with
  | none => simp [Editor.view, hRead] at hView
  | some outline =>
      obtain rfl : View.ofOutline editor.collection source outline = view := by simpa [Editor.view, hRead] using hView
      cases hFound : outline.exports.findSome? (collectionIn? editor.collection) with
      | none => simp [View.ofOutline, hFound]
      | some literal => simp [View.ofOutline, hFound] at h

/-- The component of a name is the first text that is shown with it. -/
theorem Editor.component?_of_view (hView : editor.view source = .ok view) (name : Text) :
    editor.component? source name = firstText? view.items name := by
  rw [Editor.component?, hView]
  rfl

/-- A name is registered if there is a component under it. -/
theorem Editor.contains_eq (hView : editor.view source = .ok view) (name : Text) :
    view.contains name = (editor.component? source name).isSome := by
  rw [Editor.component?_of_view hView, Bool.eq_iff_iff, View.contains_iff, firstText?_isSome_iff,
    Editor.names_eq_itemNames hView]

/-- A view that contains a name has a collection. -/
theorem Editor.found_of_contains (hView : editor.view source = .ok view) (h : view.contains name = true) :
    view.interior?.isSome = true := by
  rw [View.contains_iff] at h
  cases found : view.interior?.isSome with
  | true => rfl
  | false =>
      rw [View.names, (Editor.entries_of_missing hView found).1] at h
      cases h

theorem Editor.found_of_insert (hView : editor.view source = .ok view)
    (h : editor.insert source name component = .ok text) : view.interior?.isSome = true := by
  cases hInterior : view.interior? with
  | some interior => rfl
  | none => simp [Editor.insert, hView, View.insertion?, hInterior, bind, Except.bind, throw, throwThe,
      MonadExceptOf.throw] at h

/-- A changed text that can be viewed, in which one component has been written under a name. All around the collection is
as it was, and what is admitted still is. -/
structure Editor.Writes (editor : Editor) (grammar : Grammar) (view : View) (name component text : Text)
    (changed : View) : Prop where
  viewed : editor.view text = .ok changed
  around : changed.surroundings? = view.surroundings?
  imports : changed.imports.map importContent = view.imports.map importContent
  admits : editor.Admits grammar changed
  written : firstText? changed.items name = some component
  others : ∀ other, name ≠ other → firstText? changed.items other = firstText? view.items other
  names : ∀ other, other ∈ changed.names ↔ other ∈ view.names ∨ other = name

/-- Text by text, components stay under their names, but for the one that is inserted. -/
theorem Editor.Admits.exists_writes_insert (admits : editor.Admits grammar view)
    (hView : editor.view source = .ok view) (hFree : view.contains name = false)
    (hComponent : grammar.property (some name) component) :
    ∃ text changed, editor.insert source name component = .ok text ∧
      editor.Writes grammar view name component text changed := by
  obtain ⟨text, changed, front, rest, hInsert, hChanged, hItems, -, hMore, hAround, hImports, hAdmits⟩ :=
    admits.exists_insert hView hComponent
  have hNames := Editor.names_eq_itemNames hView
  have hNew := Editor.names_eq_itemNames hChanged
  refine ⟨text, changed, hInsert, hChanged, hAround, hImports, hAdmits, ?_,
    fun other hOther => ?_, fun other => ?_⟩
  · rw [hMore]
    refine firstText?_middle fun hMember => ?_
    rw [← Bool.not_eq_true, View.contains_iff, hNames, hItems, itemNames_append, List.mem_append, not_or] at hFree
    exact hFree.1 hMember
  · rw [hMore, firstText?_middle_of_ne hOther, hItems]
  · simp only [hNew, hNames, hItems, hMore, itemNames_append, itemNames_cons_some, List.mem_append, List.mem_cons]
    rw [or_left_comm, or_comm]

/-- And but for the one that is replaced. -/
theorem Editor.Admits.exists_writes_replace (admits : editor.Admits grammar view)
    (hView : editor.view source = .ok view) (hMember : view.contains name = true)
    (hComponent : grammar.property (some name) component) :
    ∃ text changed, editor.replace source name component = .ok text ∧
      editor.Writes grammar view name component text changed := by
  obtain ⟨text, changed, front, old, rest, hReplace, hChanged, hItems, hFirst, hMore, -, hAround, hImports,
    hAdmits, -⟩ := admits.exists_replace hView hComponent (View.contains_iff.mp hMember)
  have hNames := Editor.names_eq_itemNames hView
  have hNew := Editor.names_eq_itemNames hChanged
  refine ⟨text, changed, hReplace, hChanged, hAround, hImports, hAdmits, ?_,
    fun other hOther => ?_, fun other => ?_⟩
  · rw [hMore, firstText?_middle hFirst]
  · rw [hMore, firstText?_middle_of_ne hOther, hItems, firstText?_middle_of_ne hOther]
  · simp only [hNew, hNames, hItems, hMore, itemNames_append, itemNames_cons_some, List.mem_append, List.mem_cons]
    by_cases hSame : other = name <;> simp [hSame]

/-- A replacement is another text for one name. -/
theorem Editor.Takes.exists_retext {before after : Text} {contents : List (Text × List Text × Bool)} {layout : Layout}
    (takes : editor.Takes grammar before after contents) (hLayout : layout.WellFormed grammar)
    (hMember : name ∈ namesOf layout.properties) (hComponent : grammar.property (some name) component) :
    ∃ other : Layout, other.front = layout.front ∧
      other.properties = retext (fun other => if name = other then some component else none) layout.properties ∧
      editor.replace (layout.between before after) name component = .ok (other.between before after) ∧
      other.WellFormed grammar := by
  obtain ⟨view, hView, hShows, -⟩ := takes.exists_view hLayout
  obtain ⟨entry, hEntry⟩ := View.exists_find? (hShows.names ▸ hMember)
  obtain ⟨rfl, ps, p, qs, hAt, hFirst⟩ := hShows.find? hEntry
  have hOld : Layout.WellFormed grammar ⟨layout.front, ps ++ p :: qs⟩ := hAt.split ▸ hLayout
  have hEdit := hShows.replacement component hEntry hAt
  rw [hShows.source] at hEdit
  refine ⟨⟨layout.front, ps ++ { p with text := component } :: qs⟩, rfl, ?_, Editor.replace_of_view hView hEdit,
    hOld.replace (hAt.name ▸ hComponent)⟩
  rw [hAt.split, retext_single hAt.name hFirst]

end Editor

end IconRegistry.Registry
