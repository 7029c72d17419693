import IconRegistry.Proofs.Script.ImportLine

/-! Modules of imports and one exported constant. A gap may stand in front of them, between them and behind them; what is
read of such a module are the imports and the constant, each where it stands. -/
namespace IconRegistry.Script

variable {dialect : Dialect} {imports : List (ImportLine × Text)} {lead name value ending : Text}

theorem length_le_importsText (imports : List (ImportLine × Text)) : imports.length ≤ (importsText imports).length := by
  induction imports with
  | nil => exact Nat.zero_le _
  | cons item rest ih =>
      have hLine := item.1.length_text
      rw [importsText_cons, List.length_cons, List.length_append, List.length_append]
      omega

/-- The level of a module leaves room for its imports. -/
theorem exists_levelFor (lead : Text) (imports : List (ImportLine × Text)) (name value : Text) :
    ∃ level, levelFor (lead ++ moduleOf imports name value) = level + 2 ∧ imports.length + 2 ≤ level := by
  have hImports := length_le_importsText imports
  have hLength : (lead ++ moduleOf imports name value).length =
      lead.length + (importsText imports).length + (exportOf name value).length := by
    rw [moduleOf, List.length_append, List.length_append, Nat.add_assoc]
  refine ⟨levelFor (lead ++ moduleOf imports name value) - 2, ?_⟩
  rw [levelFor, hLength]
  omega

/-- No line at the front of a module tells which program runs it. -/
theorem interpreterLine_moduleOf (hLead : isGap lead = true) (imports : List (ImportLine × Text)) (name value : Text) :
    interpreterLine (lead ++ moduleOf imports name value) = 0 := by
  have hOther : ∀ {c : Char} {s : Text}, c ≠ '#' → interpreterLine (c :: s) = 0 := by
    intro c s hc
    rw [interpreterLine]
    rintro rest hSame
    exact hc (List.cons_eq_cons.mp hSame).1
  cases lead with
  | nil =>
      cases imports with
      | nil => exact hOther (by decide)
      | cons item rest => exact hOther (by decide)
  | cons c lead =>
      refine hOther ?_
      rintro rfl
      rw [isGap_iff, GapState.run_cons, show GapState.clear.step '#' = none by decide] at hLead
      cases hLead

/-- A gap at the end of a text has no token behind it. -/
theorem endOfText_of_isGap (hEnding : isGap ending = true) (dialect : Dialect) (position : Nat) :
    (State.before dialect position ending).lexeme.token = .endOfText := by
  have hNothing : Unskipped (!dialect.isModule) [] := nofun
  obtain ⟨found, hNext⟩ := exists_next_gap hNothing hEnding position false
  rw [List.append_nil] at hNext
  rw [State.before, State.on_lexeme, hNext]
  rfl

/-- The statements of a module, where the value of its constant is read up to a semicolon. -/
theorem statements?_moduleOf (hLead : isGap lead = true)
    (hImports : ∀ item ∈ imports, item.1.IsReadable dialect ∧ isGap item.2 = true) (hName : Rule.IsBindable dialect name)
    {operand : Operand} {stop : Nat}
    (hValue : readGoal dialect (levelFor (lead ++ moduleOf imports name value)) (.assignment true) (topMode dialect)
      (.before dialect (lead.length + (importsText imports).length + 13 + name.length + 2) (' ' :: value)) =
        some (operand, .before dialect stop (';' :: ending)))
    (hEnding : isGap ending = true) :
    statements? dialect (lead ++ moduleOf imports name value) =
      some ((importsFrom lead.length imports).map Import.statement ++
        [⟨lead.length + (importsText imports).length, .exportsVariables [⟨some name, operand.object?⟩]⟩]) := by
  obtain ⟨level, hLevel, hRoom⟩ := exists_levelFor lead imports name value
  obtain ⟨newline, hOpening⟩ :=
    exists_opening_gap hLead (unskipped_moduleOf (!dialect.isModule) imports name value) true 0 0
  rw [Nat.zero_add] at hOpening
  obtain ⟨newline', previousStop', hMore⟩ := manyWithin_moduleOf hImports level name value newline lead.length 0
  obtain ⟨fuel, hFuel⟩ : ∃ fuel, level + 2 = fuel + 1 + 1 + imports.length := ⟨level - imports.length, by omega⟩
  rw [hLevel] at hValue
  have hItem := statementItem_exportOf hName newline' previousStop' hValue
  have hEnd : ({ State.before dialect (stop + 1) ending with exported := [name] }).lexeme.token = .endOfText :=
    endOfText_of_isGap hEnding dialect (stop + 1)
  have hLast : Rule.manyWithin (fuel + 1 + 1) _ _ _ = _ :=
    Rule.manyWithin_some hItem (Rule.manyWithin_none (statementItem_end hEnd))
  have hAll := hMore (fuel + 1 + 1)
  rw [← hFuel, hLast, Option.map_some] at hAll
  rw [statements?_eq, interpreterLine_moduleOf hLead, List.drop_zero, hOpening, hLevel, hAll, sound?_some rfl rfl]

/-- Where there are no types, no module that imports one can be read. -/
theorem statements?_moduleOf_eq_none (hTypes : dialect.hasTypes = false) (hLead : isGap lead = true)
    (hImports : ∀ item ∈ imports, Rule.IsImportable item.1.name ∧ isGap item.2 = true) {marked : ImportLine × Text}
    (hMarked : marked ∈ imports) (hType : marked.1.typeOnly = true) :
    statements? dialect (lead ++ moduleOf imports name value) = none := by
  obtain ⟨level, hLevel, -⟩ := exists_levelFor lead imports name value
  obtain ⟨newline, hOpening⟩ :=
    exists_opening_gap hLead (unskipped_moduleOf (!dialect.isModule) imports name value) true 0 0
  rw [statements?_eq, interpreterLine_moduleOf hLead, List.drop_zero, hOpening, hLevel,
    manyWithin_moduleOf_eq_none hTypes hImports hMarked hType]
  rfl

/-- What is kept of imports and an export behind them. -/
theorem Outline.read_of_statements {source : Text} {declarations : List Import} {start : Nat}
    {declarators : List Declarator}
    (h : statements? dialect source =
      some (declarations.map Import.statement ++ [⟨start, .exportsVariables declarators⟩])) :
    Outline.read dialect source =
      some ⟨declarations, [declarators], (declarations.head?.map (·.start)).getD start⟩ := by
  obtain ⟨last, hLast⟩ : ∃ last : Statement, last = ⟨start, .exportsVariables declarators⟩ := ⟨_, rfl⟩
  have hBody : (declarations.map Import.statement ++ [last]).dropWhile (·.isDirective) =
      declarations.map Import.statement ++ [last] := by
    rw [hLast]
    cases declarations <;> rfl
  have hImports : (declarations.map Import.statement).filterMap (·.import?) = declarations := by
    rw [List.filterMap_map]
    exact List.filterMap_some
  have hExports : (declarations.map Import.statement).filterMap (·.exported?) = [] := by
    rw [List.filterMap_map, List.filterMap_eq_nil_iff]
    exact fun _ _ => rfl
  rw [← hLast] at h
  simp only [Outline.read, h, Option.bind_eq_bind, Option.bind_some, hBody, List.filterMap_append, hImports, hExports]
  rw [hLast]
  cases declarations <;> simp [Statement.import?, Statement.exported?, Import.statement]

end IconRegistry.Script
