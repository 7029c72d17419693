import IconRegistry.Proofs.Script.Tag

/-! Elements of JSX as a whole: children between tags, and the element around them. Between two tags a run of text is
one token, however many texts it was written from, so the reading of the children carries along the run in front of
them. -/
namespace IconRegistry.Script

open Component (inBraces)

/-- A text that is an element, read with its opening angle bracket as the current token. Behind the bracket and a name
no parameters of an arrow function can go on. -/
structure IsElement (text : Text) : Prop where
  begins : ∃ c more, text = '<' :: c :: more ∧ isNameStart c = true
  noArrow : ∀ {mode : Mode} {level position previousStop : Nat} (rest : Text),
    Rule.arrowProspect (Env.tsx mode level) (.facing position (text ++ rest) previousStop) =
      some (.no, .facing position (text ++ rest) previousStop)
  reads : ∀ {mode : Mode} {level : Nat} (inChild : Bool) (position previousStop : Nat) (rest : Text),
    2 * text.length ≤ level →
    Rule.jsxElement inChild (Env.tsx mode level)
        (.on (Lexeme.cut (.punct .less) position 1 (text ++ rest) false) previousStop) =
      some ((), .behindTag inChild (position + text.length) rest)

/-- A child of an element: an element, text without characters of the syntax, or an expression in braces. -/
inductive IsChild : Text → Prop
  | element {text : Text} : IsElement text → IsChild text
  | text {content : Text} : (∀ c ∈ content, isRunChar c = true) → IsChild content
  | braced {value : Text} : IsExpression value → IsChild (inBraces value)

/-- Children are read from one state to another, whatever fuel there is beyond a bound. -/
def ReadsChildren (mode : Mode) (level bound : Nat) (s s' : State) : Prop :=
  ∀ fuel, bound < fuel → ∃ found, Rule.manyWithin fuel Rule.jsxChild (Env.tsx mode level) s = some (found, s')

namespace ReadsChildren

variable {mode : Mode} {level bound : Nat} {s s₁ s' : State}

theorem done (h : Rule.jsxChild (Env.tsx mode level) s = some (none, s')) : ReadsChildren mode level 0 s s' := by
  intro fuel hFuel
  obtain ⟨fuel, rfl⟩ := Nat.exists_eq_succ_of_ne_zero (Nat.ne_zero_of_lt hFuel)
  exact ⟨[], Rule.manyWithin_none h⟩

theorem child (h : Rule.jsxChild (Env.tsx mode level) s = some (some (), s₁))
    (hMore : ReadsChildren mode level bound s₁ s') : ReadsChildren mode level (bound + 1) s s' := by
  intro fuel hFuel
  obtain ⟨fuel, rfl⟩ := Nat.exists_eq_succ_of_ne_zero (Nat.ne_zero_of_lt hFuel)
  obtain ⟨found, hFound⟩ := hMore fuel (by omega)
  exact ⟨_, Rule.manyWithin_some h hFound⟩

theorem mono {more : Nat} (h : ReadsChildren mode level bound s s') (hBound : bound ≤ more) :
    ReadsChildren mode level more s s' :=
  fun fuel hFuel => h fuel (by omega)

end ReadsChildren

section Children

variable {mode : Mode} {level : Nat} {run : Text}

/-- A run of text in front of a tag or a brace is one child; without characters it is none. -/
theorem ReadsChildren.behindRun {bound position : Nat} {c : Char} {more : Text} {s' : State}
    (hRun : ∀ d ∈ run, isRunChar d = true) (hEnd : c = '<' ∨ c = '\x7b')
    (h : ReadsChildren mode level bound (.facingChild (position + run.length) (c :: more)) s') :
    ReadsChildren mode level (run.length + bound) (.facingChild position (run ++ c :: more)) s' := by
  cases run with
  | nil => simpa using h
  | cons d run =>
      have hText : Rule.jsxChild (Env.tsx mode level) (.facingChild position (d :: run ++ c :: more)) =
          some (some (), .facingChild (position + (d :: run).length) (c :: more)) := by
        rw [State.facingChild, nextJsx_run (by simp) hRun hEnd, Rule.jsxChild]
        simp only [Rule.bind_run, Rule.token_run, State.on_lexeme, Lexeme.cut, Option.bind_some, stepWith_run,
          List.drop_left, Rule.pure_run]
        rfl
      have hBound : bound + 1 ≤ (d :: run).length + bound := by
        rw [List.length_cons]
        omega
      exact (ReadsChildren.child hText h).mono hBound

/-- A child that is no text ends the run in front of it. -/
theorem ReadsChildren.piece {bound position : Nat} {text tail : Text} {s' : State}
    (hRun : ∀ d ∈ run, isRunChar d = true) (hBegins : ∃ c more, text = c :: more ∧ (c = '<' ∨ c = '\x7b'))
    (hChild : ∀ q, Rule.jsxChild (Env.tsx mode level) (.facingChild q (text ++ tail)) =
      some (some (), .facingChild (q + text.length) tail))
    (hMore : ReadsChildren mode level bound (.facingChild (position + run.length + text.length) tail) s') :
    ReadsChildren mode level (run.length + text.length + bound) (.facingChild position (run ++ (text ++ tail))) s' := by
  have hBoth := ReadsChildren.child (hChild _) hMore
  obtain ⟨c, more, rfl, hc⟩ := hBegins
  exact (ReadsChildren.behindRun hRun hc hBoth).mono (by simp; omega)

/-- A closing tag is no child. -/
theorem jsxChild_closing {c : Char} (hc : isNameStart c = true) (position : Nat) (more : Text) :
    Rule.jsxChild (Env.tsx mode level) (.facingChild position ('<' :: '/' :: c :: more)) =
      some (none, .facingChild position ('<' :: '/' :: c :: more)) := by
  have hSlash : Rule.afterToken (Rule.atPunct .slash) (Env.tsx mode level)
      (.facingChild position ('<' :: '/' :: c :: more)) =
      some (true, .facingChild position ('<' :: '/' :: c :: more)) := by
    refine Rule.afterToken_cut (.punct .less) ['<'] ?_
    rw [Rule.atPunct_run, State.facing_lexeme, next_slash _ _ hc]
    rfl
  have hToken : (State.facingChild position ('<' :: '/' :: c :: more)).lexeme.token = .punct .less := rfl
  rw [Rule.jsxChild]
  simp only [Rule.bind_run, Rule.token_run, hToken, Option.bind_some, hSlash, Rule.ite_run, if_true, Rule.pure_run]

theorem jsxChild_element {text : Text} (h : IsElement text) (hLevel : 2 * text.length < level) (position : Nat)
    (rest : Text) :
    Rule.jsxChild (Env.tsx mode level) (.facingChild position (text ++ rest)) =
      some (some (), .facingChild (position + text.length) rest) := by
  obtain ⟨below, rfl⟩ := Nat.exists_eq_succ_of_ne_zero (Nat.ne_zero_of_lt hLevel)
  have hRead : readGoal .tsx (below + 1) (.jsxElement true) mode
      (.on (Lexeme.cut (.punct .less) position 1 (text ++ rest) false) position) =
      some ((), .facingChild (position + text.length) rest) := h.reads true position position rest (by omega)
  obtain ⟨c, more, rfl, hc⟩ := h.begins
  have hState : State.facingChild position ('<' :: c :: more ++ rest) =
      .on (Lexeme.cut (.punct .less) position 1 ('<' :: c :: more ++ rest) false) position := rfl
  have hSlash : Rule.afterToken (Rule.atPunct .slash) (Env.tsx mode (below + 1))
      (.on (Lexeme.cut (.punct .less) position 1 ('<' :: c :: more ++ rest) false) position) =
      some (false, .on (Lexeme.cut (.punct .less) position 1 ('<' :: c :: more ++ rest) false) position) := by
    refine Rule.afterToken_cut (.punct .less) ['<'] ?_
    rw [Rule.atPunct_run, State.facing_lexeme, beq_eq_false_iff_ne.mpr (next_ne_punct _ _ hc _ _)]
  have hToken : (Lexeme.cut (.punct .less) position 1 ('<' :: c :: more ++ rest) false).token = .punct .less := rfl
  rw [hState, Rule.jsxChild]
  simp only [Rule.bind_run, Rule.token_run, State.on_lexeme, hToken, Option.bind_some, hSlash, Rule.ite_run,
    Bool.false_eq_true, if_false, Rule.goal_run, Env.tsx_deeper, Env.tsx_mode, hRead, Rule.pure_run]

theorem jsxChild_braced {value : Text} (h : IsExpression value) (hLevel : 2 * value.length + 1 < level) (position : Nat)
    (rest : Text) :
    Rule.jsxChild (Env.tsx mode level) (.facingChild position (inBraces value ++ rest)) =
      some (some (), .facingChild (position + (inBraces value).length) rest) := by
  have hText : inBraces value ++ rest = '\x7b' :: (value ++ '\x7d' :: rest) := by simp [inBraces]
  have hPosition : position + (inBraces value).length = position + 1 + value.length + 1 := by
    simp [inBraces]
    omega
  have hBrace : State.facingChild position ('\x7b' :: (value ++ '\x7d' :: rest)) =
      .on (Lexeme.cut (.punct .leftBrace) position 1 ('\x7b' :: (value ++ '\x7d' :: rest)) false) position := rfl
  have hToken : (Lexeme.cut (.punct .leftBrace) position 1 ('\x7b' :: (value ++ '\x7d' :: rest)) false).token =
      .punct .leftBrace := rfl
  have hStep : Rule.step (Env.tsx mode level)
      (.on (Lexeme.cut (.punct .leftBrace) position 1 ('\x7b' :: (value ++ '\x7d' :: rest)) false) position) =
      some ((), .facing (position + 1) (value ++ '\x7d' :: rest) (position + 1)) := rfl
  have hFirst := punct_ne_of_opens (h.opens (position + 1) (.brace rest)) (p := .rightBrace) (by decide)
  have hClose : ∀ q : Nat, Rule.stepWith Lexeme.nextJsx (Env.tsx mode level) (.facing q ('\x7d' :: rest) q) =
      some ((), .facingChild (q + 1) rest) := fun _ => rfl
  have hLast : ∀ q : Nat, (Lexeme.next false q false ('\x7d' :: rest)).token = .punct .rightBrace := fun _ => rfl
  rw [hText, hPosition, hBrace, Rule.jsxChild]
  simp only [Rule.bind_run, Rule.token_run, State.on_lexeme, hToken, Option.bind_some, hStep]
  rw [Rule.jsxChildExpression]
  simp only [Rule.bind_run, h.eat_ellipsis (.brace rest), Option.bind_some, Rule.ite_run, Bool.false_eq_true, if_false,
    Rule.atPunct_run, State.facing_lexeme, beq_eq_false_iff_ne.mpr hFirst, Bool.not_false, if_true,
    jsxExpression_run mode h hLevel, hLast, beq_self_eq_true, Bool.not_true, hClose, Rule.pure_run]

/-- Children behind a run of text are read up to the closing tag. -/
theorem readsChildren_flatten (mode : Mode) {children : List Text} (h : ∀ t ∈ children, IsChild t) {c : Char}
    (hc : isNameStart c = true) (more : Text) (hRun : ∀ d ∈ run, isRunChar d = true)
    (hLevel : 2 * children.flatten.length < level) (position : Nat) :
    ReadsChildren mode level (run.length + children.flatten.length)
      (.facingChild position (run ++ (children.flatten ++ '<' :: '/' :: c :: more)))
      (.facingChild (position + run.length + children.flatten.length) ('<' :: '/' :: c :: more)) := by
  induction children generalizing run position with
  | nil => exact .behindRun hRun (.inl rfl) (.done (jsxChild_closing hc _ _))
  | cons text children ih =>
      obtain ⟨hChild, hMore⟩ := List.forall_mem_cons.mp h
      have hLength : (text :: children).flatten.length = text.length + children.flatten.length := by simp
      rw [hLength] at hLevel ⊢
      rw [List.flatten_cons, List.append_assoc, ← Nat.add_assoc]
      have hBehind : ∀ q : Nat, ReadsChildren mode level children.flatten.length
          (.facingChild q (children.flatten ++ '<' :: '/' :: c :: more))
          (.facingChild (q + children.flatten.length) ('<' :: '/' :: c :: more)) := by
        intro q
        have hNoRun := ih hMore (List.forall_mem_nil _) (by omega) q
        rwa [List.length_nil, Nat.zero_add] at hNoRun
      cases hChild with
      | text hContent =>
          have hLonger := ih hMore (List.forall_mem_append.mpr ⟨hRun, hContent⟩) (by omega) position
          simpa only [List.append_assoc, List.length_append, ← Nat.add_assoc] using hLonger
      | element hElement =>
          obtain ⟨d, rest, hText, -⟩ := hElement.begins
          rw [← Nat.add_assoc]
          exact .piece hRun ⟨_, _, hText, .inl rfl⟩ (fun q => jsxChild_element hElement (by omega) q _) (hBehind _)
      | braced hValue =>
          rename_i value
          have hShorter : value.length + 2 = (inBraces value).length := by simp [inBraces]
          rw [← Nat.add_assoc]
          exact .piece hRun ⟨_, _, rfl, .inr rfl⟩ (fun q => jsxChild_braced hValue (by omega) q _) (hBehind _)

end Children

section Elements

variable {mode : Mode} {level : Nat} {tag : Text} {attributes children : List Text}

/-- A tag that closes itself ends the element. -/
theorem elementRest_self (opening : Text) (inChild : Bool) (position : Nat) (rest : Text) :
    elementRest opening inChild (Env.tsx mode level) (.facing position (" />".toList ++ rest) position) =
      some ((), .behindTag inChild (position + 3) rest) := by
  cases inChild <;> rfl

/-- The children of an element and its closing tag are read behind its opening tag. -/
theorem elementRest_children (mode : Mode) (hTag : IsElementName tag) (h : ∀ t ∈ children, IsChild t)
    (hLevel : 2 * (children.flatten.length + tag.length) < level) (inChild : Bool) (position : Nat) (rest : Text) :
    elementRest tag inChild (Env.tsx mode level)
        (.facing position ('>' :: (children.flatten ++ '<' :: '/' :: (tag ++ '>' :: rest))) position) =
      some ((), .behindTag inChild (position + 1 + children.flatten.length + 2 + tag.length + 1) rest) := by
  obtain ⟨c, more, hText, hc⟩ := hTag.exists_cons
  have hSlash : Rule.eat .slash (Env.tsx mode level)
      (.facing position ('>' :: (children.flatten ++ '<' :: '/' :: (tag ++ '>' :: rest))) position) =
      some (false, .facing position ('>' :: (children.flatten ++ '<' :: '/' :: (tag ++ '>' :: rest))) position) :=
    Rule.eat_facing_of_ne (by rintro ⟨⟩)
  have hOpen : Rule.stepWith Lexeme.nextJsx (Env.tsx mode level)
      (.facing position ('>' :: (children.flatten ++ '<' :: '/' :: (tag ++ '>' :: rest))) position) =
      some ((), .facingChild (position + 1) (children.flatten ++ '<' :: '/' :: (tag ++ '>' :: rest))) := rfl
  have hMany : ∃ found, Rule.manyWithin (level + 1) Rule.jsxChild (Env.tsx mode level)
      (.facingChild (position + 1) (children.flatten ++ '<' :: '/' :: (tag ++ '>' :: rest))) =
      some (found, .facingChild (position + 1 + children.flatten.length) ('<' :: '/' :: (tag ++ '>' :: rest))) := by
    have hShort : 2 * children.flatten.length < level := by omega
    have hRead := readsChildren_flatten mode h hc (more ++ '>' :: rest) (List.forall_mem_nil _) hShort (position + 1)
      (level + 1) (by simp only [List.length_nil]; omega)
    rwa [hText]
  have hLess : ∀ q : Nat, Rule.expect .less (Env.tsx mode level)
      (.facingChild q ('<' :: '/' :: (tag ++ '>' :: rest))) =
      some ((), .facing (q + 1) ('/' :: (tag ++ '>' :: rest)) (q + 1)) := fun _ => rfl
  have hClosing : ∀ q : Nat, Rule.expect .slash (Env.tsx mode level) (.facing q ('/' :: (tag ++ '>' :: rest)) q) =
      some ((), .facing (q + 1) (tag ++ '>' :: rest) (q + 1)) := by
    intro q
    rw [hText, List.cons_append, State.facing, next_slash _ _ hc, Rule.expect_of_eq rfl]
    rfl
  have hEnds : EndsElementName ('>' :: rest) :=
    ⟨endsJsxWord_cons (by decide) (by decide) (by decide) _, by rintro q ⟨⟩, by rintro q ⟨⟩⟩
  have hGreater : ∀ more : Text, (Lexeme.next false position false ('>' :: more)).token = .punct .greater := fun _ => rfl
  have hShort : tag.length ≤ level := by omega
  obtain ⟨found, hFound⟩ := hMany
  rw [elementRest]
  simp only [Rule.bind_run, hSlash, Option.bind_some, Rule.ite_run, Bool.false_eq_true, if_false]
  rw [Rule.jsxChildren]
  simp only [Rule.bind_run, Rule.atPunct_run, State.facing_lexeme, hGreater, beq_self_eq_true, Bool.not_true,
    Option.bind_some, Rule.ite_run, Bool.false_eq_true, if_false, hOpen, Rule.many_run, Env.tsx_level,
    hFound, hLess, hClosing, jsxElementName_run mode hTag hEnds hShort, bne_self_eq_false,
    Rule.flawIf_false, endTag_run]

end Elements

section Prospects

variable {mode : Mode} {level : Nat}

theorem exists_of_ahead {rule : Rule Bool} {env : Env} {s : State} (h : Rule.ahead rule env s = some (true, s)) :
    ∃ s', rule env s = some (true, s') := by
  rw [Rule.ahead] at h
  split at h
  · rename_i answer s' hRule
    cases h
    exact ⟨s', hRule⟩
  · cases h

/-- What joins the names in the name of an element begins a token and is part of no name. -/
theorem joint_char : ∀ d ∈ ['-', ':', '.'], beginsToken d = true ∧ isNamePart d = false ∧
    (isNameStart d || d == '\\') = false ∧ d ≠ ',' ∧ d ≠ '=' := by
  decide

/-- The name of an element begins with a name of the script language. -/
theorem IsElementName.exists_front {tag : Text} (h : IsElementName tag) :
    ∃ front back, tag = front ++ back ∧ IsIdentifier front ∧ front = tag.takeWhile isNamePart ∧
      (back = [] ∨ ∃ d more, back = d :: more ∧ d ∈ ['-', ':', '.']) := by
  have hWord : ∀ {word after : Text}, IsJsxWord word → (after = [] ∨ ∃ d more, after = d :: more ∧ d ∈ [':', '.']) →
      ∃ front back, word ++ after = front ++ back ∧ IsIdentifier front ∧ front = (word ++ after).takeWhile isNamePart ∧
        (back = [] ∨ ∃ d more, back = d :: more ∧ d ∈ ['-', ':', '.']) := by
    intro word after hWord hAfter
    obtain ⟨front, back, rfl, hFront, hBack, -⟩ := hWord.exists_split
    have hBehind : back ++ after = [] ∨ ∃ d more, back ++ after = d :: more ∧ d ∈ ['-', ':', '.'] := by
      rcases hBack with rfl | ⟨more, rfl⟩
      · rcases hAfter with rfl | ⟨d, more, rfl, hd⟩
        · exact .inl rfl
        · exact .inr ⟨d, more, rfl, List.mem_cons_of_mem _ hd⟩
      · exact .inr ⟨'-', more ++ after, rfl, List.mem_cons_self⟩
    refine ⟨front, back ++ after, List.append_assoc .., hFront, ?_, hBehind⟩
    rw [List.append_assoc, hFront.takeWhile_append]
    rcases hBehind with hNone | ⟨d, more, hSome, hd⟩
    · exact .inl hNone
    · exact .inr ⟨d, more, hSome, (joint_char d hd).2.1⟩
  cases h with
  | spaced hSpace => exact hWord hSpace (.inr ⟨':', _, rfl, by decide⟩)
  | dotted hFirst =>
      rename_i parts _
      refine hWord hFirst ?_
      cases parts with
      | nil => exact .inl rfl
      | cons part parts => exact .inr ⟨'.', _, rfl, by decide⟩

/-- What stands behind the first name of a tag when no arrow function is to begin there. -/
structure RefusesParameters (after : Text) : Prop where
  ends : EndsWord after
  whole : ∀ {mode : Mode} {level position previousStop : Nat},
    (Lexeme.next false position false after).token = .name "extends".toList false →
    Rule.afterToken (Rule.atAnyPunct [.assign, .greater, .slash]) (Env.tsx mode level)
        (.facing position after previousStop) = some (true, .facing position after previousStop)
  others : ∀ position, ∀ p ∈ [Punct.comma, .assign], (Lexeme.next false position false after).token ≠ .punct p

/-- A hyphen, a colon or a dot behind a name refuses type parameters. -/
theorem refusesParameters_cons {d : Char} (hd : d ∈ ['-', ':', '.']) (more : Text) : RefusesParameters (d :: more) := by
  obtain ⟨hBegins, hPart, hName, hOther⟩ := joint_char d hd
  refine ⟨endsWord_cons hPart (by rintro rfl; simp at hName) _, ?_, ?_⟩
  · intro mode level position previousStop hExtends
    rw [next_of_beginsToken _ _ hBegins] at hExtends
    have hStart := isNameStart_of_scanToken hExtends
    rw [hName] at hStart
    cases hStart
  · intro position p hp hToken
    rw [next_of_beginsToken _ _ hBegins] at hToken
    obtain ⟨length, hPunct⟩ := exists_punct?_of_scanToken hToken
    have hHead := head?_of_punct? hPunct (by simpa using hp)
    simp only [List.head?_cons, Option.some.injEq] at hHead
    rcases hHead with rfl | rfl
    · exact hOther.1 rfl
    · exact hOther.2 rfl

theorem refusesParameters_attributes {attributes : List Text} {ending : Text} (h : ∀ a ∈ attributes, IsAttribute a)
    (hEnding : ClosesTag ending) : RefusesParameters (attributes.flatMap (' ' :: ·) ++ ending) where
  ends := (endsElementName_attributes h hEnding).word.endsWord
  whole := by
    intro mode level position previousStop hExtends
    cases attributes with
    | nil =>
        cases hEnding
        all_goals cases hExtends
    | cons a attributes =>
        have hFirst := h a List.mem_cons_self
        have hText : (a :: attributes).flatMap (' ' :: ·) ++ ending =
            ' ' :: (a ++ (attributes.flatMap (' ' :: ·) ++ ending)) := by simp
        have hBlank := facing_blank (hFirst.beginsToken.append (attributes.flatMap (' ' :: ·) ++ ending))
          position previousStop
        have hToken := congrArg (·.lexeme.token) hBlank
        simp only [State.facing_lexeme] at hToken
        rw [hText] at hExtends ⊢
        rw [hBlank]
        exact hFirst.whole (by rw [← hToken, hExtends])
  others := fun position p hp => attributes_ne_punct h hEnding (by revert p; decide) position

/-- Where type parameters are refused, no arrow function is to be expected. -/
theorem prospectAfterAngle_name (mode : Mode) (level : Nat) {front after : Text} (hFront : IsIdentifier front)
    (hConst : front ≠ "const".toList) (hAfter : RefusesParameters after) (position previousStop : Nat) :
    ∃ s', Rule.prospectAfterAngle (Env.tsx mode level) (.facing position (front ++ after) previousStop) =
      some (.no, s') := by
  have hToken : (Lexeme.next false position false (front ++ after)).token = .name front false := by
    rw [next_word _ _ hFront hAfter.ends]
    rfl
  have hStep : Rule.step (Env.tsx mode level) (.facing position (front ++ after) previousStop) =
      some ((), .facing (position + front.length) after (position + front.length)) := by
    rw [State.facing, next_word _ _ hFront hAfter.ends, ← facing_cut (.name front false) _ _ position false]
    rfl
  have hNotConst : (Lexeme.next false position false (front ++ after)).token ≠ .name "const".toList false := by
    rw [hToken]
    rintro ⟨rfl⟩
    exact hConst rfl
  rw [Rule.prospectAfterAngle, Rule.bind_run, Rule.atWord_of_ne hNotConst, Rule.atIdentifier]
  simp only [Option.bind_some, Rule.bind_run, Rule.token_run, State.facing_lexeme, hToken]
  cases isReserved front with
  | true => exact ⟨_, rfl⟩
  | false =>
      have hJsx : Dialect.tsx.hasJsx = true := rfl
      simp only [Rule.pure_run, Option.bind_some, Bool.not_false, Bool.not_true, Bool.false_and, Bool.false_eq_true,
        if_false, Rule.ite_run, Rule.bind_run, Rule.dialect_run, Env.tsx_dialect, hJsx, if_true, hStep]
      by_cases hExtends : (Lexeme.next false (position + front.length) false after).token = .name "extends".toList false
      · obtain ⟨s', hTag⟩ := exists_of_ahead (hAfter.whole hExtends)
        have hWord : Rule.eatWord "extends" (Env.tsx mode level)
            (.facing (position + front.length) after (position + front.length)) =
            (Rule.step (Env.tsx mode level)
              (.facing (position + front.length) after (position + front.length))).map fun r => (true, r.2) := by
          rw [Rule.eatWord, Rule.bind_run, Rule.atWord_run, State.facing_lexeme, hExtends]
          rfl
        rw [Rule.bind_run] at hTag
        obtain ⟨⟨_, behind⟩, hBehind, hTag⟩ := Option.bind_eq_some_iff.mp hTag
        refine ⟨s', ?_⟩
        rw [hWord, hBehind]
        simp only [Option.map_some, Option.bind_some, if_true]
        rw [hTag]
        rfl
      · have hOther : Rule.atAnyPunct [.comma, .assign] (Env.tsx mode level)
            (.facing (position + front.length) after (position + front.length)) =
            some (false, .facing (position + front.length) after (position + front.length)) :=
          Rule.atAnyPunct_of_forall_ne (hAfter.others _)
        rw [Rule.eatWord_of_ne hExtends]
        simp only [Option.bind_some, Bool.false_eq_true, if_false, hOther]
        exact ⟨_, rfl⟩

/-- No arrow function begins with an angle bracket that opens a tag. -/
theorem arrowProspect_tag {front after : Text} (hFront : IsIdentifier front) (hConst : front ≠ "const".toList)
    (hAfter : RefusesParameters after) (position previousStop : Nat) :
    Rule.arrowProspect (Env.tsx mode level) (.facing position ('<' :: (front ++ after)) previousStop) =
      some (.no, .facing position ('<' :: (front ++ after)) previousStop) := by
  have hAngle : State.facing position ('<' :: (front ++ after)) previousStop =
      .on (Lexeme.cut (.punct .less) position 1 ('<' :: (front ++ after)) false) previousStop := by
    obtain ⟨c, more, rfl, hc, -⟩ := hFront.exists_cons
    rw [List.cons_append, State.facing, next_less _ _ hc]
  have hAsync : (Lexeme.cut (.punct .less) position 1 ('<' :: (front ++ after)) false).token ≠
      .name "async".toList false := by rintro ⟨⟩
  have hToken : (Lexeme.cut (.punct .less) position 1 ('<' :: (front ++ after)) false).token = .punct .less := rfl
  have hOpen : Rule.step (Env.tsx mode level)
      (.on (Lexeme.cut (.punct .less) position 1 ('<' :: (front ++ after)) false) previousStop) =
      some ((), .facing (position + 1) (front ++ after) (position + 1)) := rfl
  obtain ⟨s', hBehind⟩ := prospectAfterAngle_name mode level hFront hConst hAfter (position + 1) (position + 1)
  rw [hAngle]
  refine Rule.prospect_of_rule _ _ ⟨s', ?_⟩
  rw [Rule.bind_run, Rule.atWord_of_ne hAsync]
  simp only [Option.bind_some, Bool.false_eq_true, if_false, Rule.bind_run, Rule.token_run, State.on_lexeme, hToken, hOpen,
    hBehind]

end Prospects

section Elements

variable {tag : Text} {attributes children : List Text}

/-- Behind its attributes an element goes on with what ends its opening tag, and it is read from there to its end. -/
theorem exists_ending (hTag : IsElementName tag) (hChildren : ∀ t ∈ children, IsChild t) :
    ∃ ending, (∀ rest, ClosesTag (ending ++ rest)) ∧
      (∀ written, Component.jsxElement tag written children = '<' :: (tag ++ (written ++ ending))) ∧
      ∀ {mode : Mode} {level : Nat} (inChild : Bool) (position : Nat) (rest : Text),
        2 * (tag.length + ending.length) ≤ level →
        elementRest tag inChild (Env.tsx mode level) (.facing position (ending ++ rest) position) =
          some ((), .behindTag inChild (position + ending.length) rest) := by
  cases children with
  | nil =>
      refine ⟨" />".toList, .self, fun written => by simp [Component.jsxElement], ?_⟩
      exact fun inChild position rest _ => elementRest_self tag inChild position rest
  | cons child children =>
      refine ⟨'>' :: ((child :: children).flatten ++ '<' :: '/' :: (tag ++ ['>'])), fun _ => .opening _,
        fun written => by simp [Component.jsxElement], ?_⟩
      intro mode level inChild position rest hLevel
      have hLength : ('>' :: ((child :: children).flatten ++ '<' :: '/' :: (tag ++ ['>']))).length =
          1 + (child :: children).flatten.length + 2 + tag.length + 1 := by
        simp only [List.length_cons, List.length_append, List.length_nil]
        omega
      rw [hLength] at hLevel ⊢
      have hShort : 2 * ((child :: children).flatten.length + tag.length) < level := by omega
      have hRead := elementRest_children mode hTag hChildren hShort inChild position rest
      have hText : '>' :: ((child :: children).flatten ++ '<' :: '/' :: (tag ++ ['>'])) ++ rest =
          '>' :: ((child :: children).flatten ++ '<' :: '/' :: (tag ++ '>' :: rest)) := by simp
      rw [hText, hRead]
      congr 3
      omega

/-- An element is read as a whole: its tag, its attributes behind a blank each, and its children. -/
theorem isElement_jsxElement (hTag : IsElementName tag) (hConst : tag.takeWhile isNamePart ≠ "const".toList)
    (h : ∀ a ∈ attributes, IsAttribute a) (hChildren : ∀ t ∈ children, IsChild t) :
    IsElement (Component.jsxElement tag (attributes.flatMap (' ' :: ·)) children) := by
  obtain ⟨ending, hEnding, hText, hRest⟩ := exists_ending hTag hChildren
  have hWhole : ∀ rest : Text, '<' :: (tag ++ (attributes.flatMap (' ' :: ·) ++ ending)) ++ rest =
      '<' :: (tag ++ (attributes.flatMap (' ' :: ·) ++ (ending ++ rest))) := by simp
  rw [hText]
  refine ⟨?_, ?_, ?_⟩
  · obtain ⟨c, more, rfl, hc⟩ := hTag.exists_cons
    exact ⟨c, _, rfl, hc⟩
  · intro mode level position previousStop rest
    obtain ⟨front, back, rfl, hFront, hTake, hBack⟩ := hTag.exists_front
    have hAfter : RefusesParameters (back ++ (attributes.flatMap (' ' :: ·) ++ (ending ++ rest))) := by
      rcases hBack with rfl | ⟨d, more, rfl, hd⟩
      · exact refusesParameters_attributes h (hEnding rest)
      · exact refusesParameters_cons hd _
    rw [hWhole, List.append_assoc]
    exact arrowProspect_tag hFront (by rwa [hTake]) hAfter position previousStop
  · intro mode level inChild position previousStop rest hLevel
    have hLength : ('<' :: (tag ++ (attributes.flatMap (' ' :: ·) ++ ending))).length =
        1 + tag.length + (attributes.flatMap (' ' :: ·)).length + ending.length := by
      simp only [List.length_cons, List.length_append]
      omega
    rw [hLength] at hLevel ⊢
    rw [hWhole, jsxElement_opening hTag h (hEnding rest) (by omega), hRest inChild _ rest (by omega)]
    congr 3
    omega

end Elements

end IconRegistry.Script
