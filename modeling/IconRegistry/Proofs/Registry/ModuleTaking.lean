import IconRegistry.Proofs.Registry.LiteralReading

/-! Modules that import single names and export the collection as a constant. Where one stands around an object literal,
the reader of scripts takes all layouts: what an editor assumes of a place holds in these modules. -/
namespace IconRegistry.Registry

open Script

/-- What stands around the value of a module's constant: gaps in front of the imports, behind each of them and at the end,
and names that imports and constants may have. -/
structure IsModule (lead : Text) (imports : List (ImportLine × Text)) (collection ending : Text) : Prop where
  lead : isGap lead = true
  imports : ∀ item ∈ imports, item.1.IsReadable .tsx ∧ isGap item.2 = true
  collection : Rule.IsBindable .tsx collection
  ending : isGap ending = true

/-- A module up to the value of its constant. -/
def frontOf (lead : Text) (imports : List (ImportLine × Text)) (collection : Text) : Text :=
  lead ++ moduleOf imports collection []

/-- A module from the end of its constant's value on. -/
def backOf (typed : Bool) (ending : Text) : Text :=
  assertion typed ++ ';' :: ending

section Reading

variable {lead collection ending : Text} {imports : List (ImportLine × Text)} {layout : Layout}

/-- In front of its value, a collection has the front of the module. -/
theorem frontOf_append (lead : Text) (imports : List (ImportLine × Text)) (collection value : Text) :
    frontOf lead imports collection ++ value = lead ++ moduleOf imports collection value := by
  simp [frontOf, moduleOf, exportOf]

theorem length_frontOf (lead : Text) (imports : List (ImportLine × Text)) (collection : Text) :
    (frontOf lead imports collection).length =
      lead.length + (importsText imports).length + 13 + collection.length + 3 := by
  have hWords : "export".toList.length = 6 ∧ "const".toList.length = 5 ∧ " = ".toList.length = 3 := ⟨rfl, rfl, rfl⟩
  simp only [frontOf, moduleOf, exportOf, List.length_append, List.length_cons, List.length_nil, hWords]
  omega

/-- What is read of a module with an object literal as its value. -/
def outlineOf (lead : Text) (imports : List (ImportLine × Text)) (collection : Text) (literal : ObjectLiteral) :
    Outline :=
  ⟨importsFrom lead.length imports, [[⟨some collection, some literal⟩]],
    ((importsFrom lead.length imports).head?.map (·.start)).getD (lead.length + (importsText imports).length)⟩

/-- A module is read, and its collection is found where its layout stands. -/
theorem IsModule.reads (h : IsModule lead imports collection ending) (typed : Bool)
    (hLayout : layout.WellFormed .members) :
    (Editor.ofDialect collection .tsx).Reads (frontOf lead imports collection) layout (backOf typed ending)
      (outlineOf lead imports collection (layout.literalAt (frontOf lead imports collection).length)) := by
  let value := '\x7b' :: (layout.text ++ '\x7d' :: backOf typed ending)
  have hText : layout.between (frontOf lead imports collection) (backOf typed ending) =
      lead ++ moduleOf imports collection value := by
    rw [Layout.between, frontOf_append]
  obtain ⟨level, hLevel, hRoom⟩ : ∃ level, levelFor (lead ++ moduleOf imports collection value) = level + 1 ∧
      2 * layout.text.length + 10 < level := by
    have hLength : (lead ++ moduleOf imports collection value).length =
        (frontOf lead imports collection).length + (layout.text.length + (backOf typed ending).length + 2) := by
      rw [← frontOf_append]
      simp only [value, List.length_append, List.length_cons]
      omega
    refine ⟨levelFor (lead ++ moduleOf imports collection value) - 1, ?_⟩
    rw [levelFor, hLength]
    omega
  have hYield : (topMode .tsx).allowsYield = false := rfl
  obtain ⟨operand, stop, hObject, hGoal⟩ := goal_layout hLayout hYield hRoom typed
    (frontOf lead imports collection).length ((frontOf lead imports collection).length - 1) ending
  have hBegins : BeginsToken value := ⟨'\x7b', _, rfl, by decide⟩
  have hValue : readGoal .tsx (levelFor (lead ++ moduleOf imports collection value)) (.assignment true) (topMode .tsx)
      (.before .tsx (lead.length + (importsText imports).length + 13 + collection.length + 2) (' ' :: value)) =
      some (operand, .before .tsx stop (';' :: ending)) := by
    have hPlace : State.before .tsx (lead.length + (importsText imports).length + 13 + collection.length + 2)
        (' ' :: value) = .facing (frontOf lead imports collection).length value
          ((frontOf lead imports collection).length - 1) := by
      rw [length_frontOf]
      exact facing_blank hBegins _ _
    rw [hLevel, hPlace]
    exact hGoal
  have hStatements := statements?_moduleOf h.lead h.imports h.collection hValue h.ending
  rw [hObject] at hStatements
  exact ⟨by rw [hText]; exact Outline.read_of_statements hStatements, by simp [outlineOf, collectionIn?, Editor.ofDialect]⟩

/-- Between the two parts of a module the reader takes every layout. -/
theorem IsModule.takes (h : IsModule lead imports collection ending) (typed : Bool) :
    (Editor.ofDialect collection .tsx).Takes .members (frontOf lead imports collection) (backOf typed ending)
      (imports.map (·.1.content)) :=
  fun _ hLayout => ⟨_, h.reads typed hLayout, importContent_importsFrom lead.length imports⟩

/-- A module is viewed, and it admits members. -/
theorem IsModule.exists_view (h : IsModule lead imports collection ending) (typed : Bool)
    (hLayout : layout.WellFormed .members) :
    ∃ view, (Editor.ofDialect collection .tsx).view
        (layout.between (frontOf lead imports collection) (backOf typed ending)) = .ok view ∧
      view.Shows (frontOf lead imports collection) layout (backOf typed ending) ∧
      view.imports.map importContent = imports.map (·.1.content) ∧
      (Editor.ofDialect collection .tsx).Admits .members view := by
  obtain ⟨view, hView, hShows, hImports⟩ := (h.takes typed).exists_view hLayout
  exact ⟨view, hView, hShows, hImports, (h.takes typed).admits hLayout hShows hImports⟩

end Reading

section Words

variable {layout : Layout} {item : Option Text × Text}

/-- A member of an object literal whose value is a word: under a plain name, or spread. -/
def isWordMember (item : Option Text × Text) : Bool :=
  componentWords.any fun word =>
    match item.1 with
    | some name => decide (IsIdentifier name) && item.2 == name ++ ": ".toList ++ word
    | none => item.2 == "...".toList ++ word

/-- A name with a name behind its colon is a member of an object. -/
theorem isMember_of_isWordMember (h : isWordMember item = true) : IsMember item.1 item.2 := by
  obtain ⟨name?, text⟩ := item
  obtain ⟨word, hWord, hItem⟩ := List.any_eq_true.mp h
  cases name? with
  | some name =>
      simp only [Bool.and_eq_true, decide_eq_true_eq, beq_iff_eq] at hItem
      obtain ⟨hName, rfl⟩ := hItem
      exact isMember_word hName (isExpression_word hWord)
  | none =>
      simp only [beq_iff_eq] at hItem
      subst hItem
      exact isMember_spread (isExpression_word hWord)

/-- A layout of such members. -/
def Layout.HasWords (layout : Layout) : Prop :=
  isGap layout.front = true ∧
    (∀ p ∈ layout.properties, isWordMember p.shown = true ∧ isGap p.gap = true ∧ p.afterComma?.all isGap = true) ∧
    ∀ p ∈ layout.properties.dropLast, p.afterComma?.isSome = true

instance (layout : Layout) : Decidable layout.HasWords :=
  inferInstanceAs (Decidable (_ ∧ _ ∧ _))

/-- A layout of such members with gaps around them is well-formed. -/
theorem Layout.HasWords.wellFormed (h : layout.HasWords) : layout.WellFormed .members where
  front := h.1
  properties p hp := by
    obtain ⟨hMember, hGap, hComma⟩ := h.2.1 p hp
    refine ⟨isMember_of_isWordMember hMember, hGap, ?_⟩
    intro after hAfter
    rwa [hAfter] at hComma
  separated := h.2.2

/-- The module that exports the collection and does nothing else. -/
theorem isModule_icons : IsModule [] [] "Icons".toList ['\n'] :=
  ⟨by decide, List.forall_mem_nil _, ⟨by decide, by decide, fun _ => by decide⟩, by decide⟩

end Words

end IconRegistry.Registry
