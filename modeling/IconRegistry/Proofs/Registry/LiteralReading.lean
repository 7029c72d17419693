import IconRegistry.Proofs.Registry.Reading
import IconRegistry.Proofs.Script.ModuleReading
import IconRegistry.Proofs.Script.TypeReference

/-! Object literals that are read back. Members with gaps around them and commas between them are read as the layout
that they are, and so is what a module exports with such a literal. -/
namespace IconRegistry.Registry

open Script

/-- The grammar of the members of object literals, as the reader of scripts takes them. -/
def Grammar.members : Grammar where
  property := IsMember
  begins h := h.begins
  isIdentifier h := h.isIdentifier _ rfl

section Members

variable {mode : Mode} {level : Nat} {name? : Option Text} {text gap : Text} {properties : List Property}

/-- A member is read as one turn, together with the comma behind it. -/
theorem commaItem_member (h : IsMember name? text) (hYield : mode.allowsYield = false) (hLevel : 2 * text.length ≤ level)
    (hGap : isGap gap = true) (position previousStop : Nat) (newline : Bool) (rest : Text) :
    ∃ target?, commaItem .rightBrace objectItem (Env.tsx mode level)
        (.on (Lexeme.next false position newline (text ++ (gap ++ ',' :: rest))) previousStop) =
      some (some ((⟨position, position + text.length, name?⟩, target?), true),
        .facing (position + text.length + gap.length + 1) rest (position + text.length + gap.length + 1)) := by
  have hRest : Closes (gap ++ ',' :: rest) := .behind (p := .comma) rest hGap (by decide) (by decide)
  obtain ⟨target?, hItem⟩ := h.objectItem_run hYield hLevel hRest position previousStop newline
  have hOpens : (Lexeme.next false position newline (text ++ (gap ++ ',' :: rest))).token ≠ .punct .rightBrace :=
    h.opens position newline hRest
  have hComma : Rule.eat .comma (Env.tsx mode level)
      (.facing (position + text.length) (gap ++ ',' :: rest) (position + text.length)) =
      some (true, .facing (position + text.length + gap.length + 1) rest (position + text.length + gap.length + 1)) :=
    Rule.eat_behind (by decide) hGap _ _ _
  exact ⟨target?, by simp [commaItem, hOpens, hItem, hComma]⟩

/-- Without a comma behind it, a member is the last one. -/
theorem commaItem_lastMember (h : IsMember name? text) (hYield : mode.allowsYield = false)
    (hLevel : 2 * text.length ≤ level) (hGap : isGap gap = true) (position previousStop : Nat) (newline : Bool)
    (rest : Text) :
    ∃ target?, commaItem .rightBrace objectItem (Env.tsx mode level)
        (.on (Lexeme.next false position newline (text ++ (gap ++ '}' :: rest))) previousStop) =
      some (some ((⟨position, position + text.length, name?⟩, target?), false),
        .facing (position + text.length) (gap ++ '}' :: rest) (position + text.length)) := by
  have hRest : Closes (gap ++ '}' :: rest) := .behind (p := .rightBrace) rest hGap (by decide) (by decide)
  obtain ⟨target?, hItem⟩ := h.objectItem_run hYield hLevel hRest position previousStop newline
  have hOpens : (Lexeme.next false position newline (text ++ (gap ++ '}' :: rest))).token ≠ .punct .rightBrace :=
    h.opens position newline hRest
  obtain ⟨found, hNext⟩ := exists_next_alone (c := '}') (p := .rightBrace) (by decide) hGap (position + text.length) false
    rest
  have hClose : (Lexeme.next false (position + text.length) false (gap ++ '}' :: rest)).token = .punct .rightBrace := by
    rw [hNext]
    rfl
  have hComma : Rule.eat .comma (Env.tsx mode level)
      (.facing (position + text.length) (gap ++ '}' :: rest) (position + text.length)) =
      some (false, .facing (position + text.length) (gap ++ '}' :: rest) (position + text.length)) :=
    Rule.eat_of_ne (by rw [State.facing_lexeme, hClose]; rintro ⟨⟩)
  exact ⟨target?, by simp [commaItem, hOpens, hItem, hComma, hClose]⟩

theorem length_le_writtenAll {grammar : Grammar} (h : ∀ p ∈ properties, p.WellFormed grammar) :
    properties.length ≤ (writtenAll properties).length := by
  induction properties with
  | nil => exact Nat.zero_le _
  | cons p rest ih =>
      obtain ⟨hFirst, hRest⟩ := List.forall_mem_cons.mp h
      obtain ⟨c, more, hText, -⟩ := grammar.begins hFirst.property
      have hMore := ih hRest
      rw [writtenAll_cons, hText]
      simp only [List.length_cons, List.length_append]
      omega

/-- A property is read as one turn, up to a gap in front of what is left between the braces. -/
theorem commaItem_property {p : Property} (h : p.WellFormed .members) (hSeparated : Separated (p :: properties))
    (hYield : mode.allowsYield = false) (hLevel : 2 * p.text.length ≤ level) (position previousStop : Nat)
    (newline : Bool) (rest : Text) :
    ∃ target? comma between start, isGap between = true ∧ start + between.length = position + p.written.length ∧
      commaItem .rightBrace objectItem (Env.tsx mode level) (.on (Lexeme.next false position newline
          (p.text ++ (p.tail ++ (writtenAll properties ++ '}' :: rest)))) previousStop) =
        some (some ((⟨position, position + p.text.length, p.name?⟩, target?), comma),
          .facing start (between ++ (writtenAll properties ++ '}' :: rest)) start) := by
  cases hComma : p.afterComma? with
  | some after =>
      have hTail : p.tail = p.gap ++ ',' :: after := by simp [Property.tail, tailText, hComma]
      obtain ⟨target?, hItem⟩ := commaItem_member h.property hYield hLevel h.gap position previousStop newline
        (after ++ (writtenAll properties ++ '}' :: rest))
      have hText : p.tail ++ (writtenAll properties ++ '}' :: rest) =
          p.gap ++ ',' :: (after ++ (writtenAll properties ++ '}' :: rest)) := by simp [hTail]
      have hLength : position + p.text.length + p.gap.length + 1 + after.length = position + p.written.length := by
        rw [Property.written, hTail, List.length_append, List.length_append, List.length_cons]
        omega
      rw [hText]
      exact ⟨target?, _, after, _, h.afterComma after hComma, hLength, hItem⟩
  | none =>
      obtain rfl : properties = [] := by
        refine Classical.byContradiction fun hNonempty => ?_
        obtain ⟨after, hAfter⟩ := hSeparated.exists_comma hNonempty
        cases hComma.symm.trans hAfter
      have hTail : p.tail = p.gap := by simp [Property.tail, tailText, hComma]
      obtain ⟨target?, hItem⟩ := commaItem_lastMember h.property hYield hLevel h.gap position previousStop newline rest
      have hLength : position + p.text.length + p.gap.length = position + p.written.length := by
        rw [Property.written, hTail, List.length_append, Nat.add_assoc]
      rw [hTail]
      exact ⟨target?, _, p.gap, _, h.gap, hLength, hItem⟩

/-- Members are read up to the brace behind them, each at its place. The induction goes by the members; the gap that it
carries along is the one behind the brace or the last comma. -/
theorem manyWithin_members (h : ∀ p ∈ properties, p.WellFormed .members) (hSeparated : Separated properties)
    (hYield : mode.allowsYield = false) (hLevel : 2 * (writtenAll properties).length ≤ level) (hGap : isGap gap = true)
    {fuel : Nat} (hFuel : properties.length < fuel) (position previousStop : Nat) (rest : Text) :
    ∃ found s, Rule.manyWithin fuel (commaItem .rightBrace objectItem) (Env.tsx mode level)
        (.facing position (gap ++ (writtenAll properties ++ '}' :: rest)) previousStop) = some (found, s) ∧
      found.map (·.1.1) = spansFrom (position + gap.length) properties ∧
      Rule.expect .rightBrace (Env.tsx mode level) s =
        some ((), .facing (position + gap.length + (writtenAll properties).length + 1) rest
          (position + gap.length + (writtenAll properties).length + 1)) := by
  induction properties generalizing gap position previousStop fuel with
  | nil =>
      obtain ⟨fuel, rfl⟩ := Nat.exists_eq_succ_of_ne_zero (Nat.ne_zero_of_lt hFuel)
      obtain ⟨found, hNext⟩ := exists_next_alone (c := '}') (p := .rightBrace) (by decide) hGap position false rest
      have hClose : (State.facing position (gap ++ '}' :: rest) previousStop).lexeme.token = .punct .rightBrace := by
        rw [State.facing_lexeme, hNext]
        rfl
      exact ⟨[], _, Rule.manyWithin_none (commaItem_close hClose), rfl, Rule.expect_behind (by decide) hGap _ _ _⟩
  | cons p more ih =>
      obtain ⟨fuel, rfl⟩ := Nat.exists_eq_succ_of_ne_zero (Nat.ne_zero_of_lt hFuel)
      obtain ⟨hFirst, hMore⟩ := List.forall_mem_cons.mp h
      have hLength : (writtenAll (p :: more)).length = p.written.length + (writtenAll more).length := by
        simp [Property.written, Nat.add_assoc]
      have hWritten : p.written.length = p.text.length + p.tail.length := List.length_append
      have hRoom : 2 * p.text.length ≤ level := by omega
      obtain ⟨newline, hFacing⟩ := exists_facing_gap
        (hFirst.property.begins.append (p.tail ++ (writtenAll more ++ '}' :: rest))) hGap position previousStop
      obtain ⟨target?, comma, between, start, hBetween, hStart, hItem⟩ :=
        commaItem_property hFirst hSeparated hYield hRoom (position + gap.length) previousStop newline rest
      obtain ⟨found, s, hFound, hSpans, hEnd⟩ :=
        ih hMore hSeparated.tail (by omega) hBetween (Nat.lt_of_succ_lt_succ hFuel) start start
      have hText : gap ++ (writtenAll (p :: more) ++ '}' :: rest) =
          gap ++ (p.text ++ (p.tail ++ (writtenAll more ++ '}' :: rest))) := by simp
      rw [hText, hFacing, spansFrom, hLength, ← Nat.add_assoc, ← hStart]
      refine ⟨_, s, Rule.manyWithin_some hItem hFound, ?_, hEnd⟩
      rw [List.map_cons, hSpans]

end Members

section Literals

variable {mode : Mode} {level : Nat} {layout : Layout}

/-- An object literal is read as its layout tells. -/
theorem primary_layout (hLayout : layout.WellFormed .members) (hYield : mode.allowsYield = false)
    (hLevel : 2 * layout.text.length ≤ level) (position previousStop : Nat) (rest : Text) :
    ∃ operand : Operand, operand.object? = some (layout.literalAt position) ∧
      Rule.primary (Env.tsx mode level)
          (.facing position ('\x7b' :: (layout.text ++ '\x7d' :: rest)) previousStop) =
        some (operand, .facing (position + layout.text.length + 2) rest (position + layout.text.length + 2)) := by
  have hLength : layout.text.length = layout.front.length + (writtenAll layout.properties).length := by
    rw [Layout.text, List.length_append]
  have hCount := length_le_writtenAll hLayout.properties
  have hRoom : 2 * (writtenAll layout.properties).length ≤ level := by omega
  have hFuel : layout.properties.length < level + 1 := by omega
  have hText : layout.text ++ '\x7d' :: rest = layout.front ++ (writtenAll layout.properties ++ '\x7d' :: rest) := by
    rw [Layout.text, List.append_assoc]
  obtain ⟨found, s, hFound, hSpans, hEnd⟩ := manyWithin_members hLayout.properties hLayout.separated hYield
    hRoom hLayout.front hFuel (position + 1) (position + 1) rest
  have hPosition : position + 1 + layout.front.length + (writtenAll layout.properties).length + 1 =
      position + layout.text.length + 2 := by omega
  rw [hPosition] at hEnd
  have hToken : ∀ t : Text, (State.facing position ('\x7b' :: t) previousStop).lexeme.token = .punct .leftBrace :=
    fun _ => rfl
  have hStart : ∀ t : Text, (State.facing position ('\x7b' :: t) previousStop).lexeme.start = position := fun _ => rfl
  refine ⟨{ Operand.plain position .other with
    destructures? := patternDefaults? (found.map (·.1.2)), object? := some (layout.literalAt position) }, rfl, ?_⟩
  rw [hText, Rule.primary]
  simp only [Rule.bind_run, Rule.position_run, Rule.token_run, Option.bind_some, hToken]
  rw [objectLiteral_eq, commaList_eq]
  simp only [Rule.bind_run, Rule.position_run, Option.bind_some,
    Rule.expect_alone (c := '\x7b') (p := .leftBrace) (by decide), Rule.many_run, Env.tsx_level, hFound, hEnd,
    Rule.pure_run, Rule.previousStop_run, State.facing_previousStop, hStart, List.map_map]
  rw [Layout.literalAt, ← hSpans]
  rfl

/-- What may stand between an object literal and the end of its statement. -/
def assertion (typed : Bool) : Text :=
  if typed then " as const".toList else []

/-- An object literal is the value of a constant, whether it is asserted to be constant or not. -/
theorem goal_layout (hLayout : layout.WellFormed .members) (hYield : mode.allowsYield = false)
    (hLevel : 2 * layout.text.length + 10 < level) (typed : Bool) (position previousStop : Nat) (rest : Text) :
    ∃ (operand : Operand) (stop : Nat), operand.object? = some (layout.literalAt position) ∧
      readGoal .tsx (level + 1) (.assignment true) mode
          (.facing position ('\x7b' :: (layout.text ++ '\x7d' :: (assertion typed ++ ';' :: rest))) previousStop) =
        some (operand, .facing stop (';' :: rest) stop) := by
  have hRoom : 2 * layout.text.length ≤ level := by omega
  obtain ⟨operand, hObject, hPrimary⟩ := primary_layout hLayout hYield hRoom position previousStop
    (assertion typed ++ ';' :: rest)
  have hCloses : ∀ q, (State.facing q (';' :: rest) q).lexeme.token.closes = true := fun _ => rfl
  have hToken : (State.facing position ('\x7b' :: (layout.text ++ '\x7d' :: (assertion typed ++ ';' :: rest)))
      previousStop).lexeme.token = .punct .leftBrace := rfl
  have hOpens := congrArg Token.opens hToken
  have hArrow : Rule.arrowProspect (Env.tsx mode level) _ = _ :=
    Rule.arrowProspect_of_opens hOpens (by rw [hToken]; rintro ⟨⟩)
  cases typed with
  | false =>
      have hLeft := Rule.leftHandSide_of_primary hOpens (Nat.succ_pos level) hPrimary
        (Rule.extendWithin_none (Rule.access_of_closes (hCloses _)))
      have hUnary := Rule.unary_of_leftHandSide hOpens hLeft (Rule.no_update_of_closes (hCloses _))
      have hBinary := Rule.binary_of_unary (by rw [hToken]; rintro word ⟨⟩) hUnary (hCloses _) (Nat.succ_pos level)
      exact ⟨operand, _, hObject, Rule.assignment_of_binary hYield (by rw [hToken]; rintro ⟨⟩) hArrow hBinary (hCloses _)⟩
  | true =>
      have hConst : IsType "const".toList := isType_name (.plain (by decide) (by decide))
      have hLength : "const".toList.length = 5 := rfl
      have hAs : ∀ q, (State.facing q (assertion true ++ ';' :: rest) q).lexeme.token = .name "as".toList false :=
        fun _ => rfl
      have hLeft := Rule.leftHandSide_of_primary hOpens (Nat.succ_pos level) hPrimary
        (Rule.extendWithin_none (Rule.access_of_name (hAs _)))
      have hUnary := Rule.unary_of_leftHandSide hOpens hLeft (by rw [hAs]; rintro p _ ⟨⟩)
      have hBinary := Rule.binary_as (by rw [hToken]; rintro word ⟨⟩) hUnary hConst (by rw [hLength]; omega)
        (.semicolon rest)
      exact ⟨operand.wrapped operand.start .other, _, hObject,
        Rule.assignment_of_binary hYield (by rw [hToken]; rintro ⟨⟩) hArrow hBinary (hCloses _)⟩

end Literals

end IconRegistry.Registry
