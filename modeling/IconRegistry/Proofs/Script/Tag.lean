import IconRegistry.Component.Jsx
import IconRegistry.Proofs.Script.Expression

/-! Elements of JSX that are read to their end: their names, their attributes, and their children. Between tags a run of
text is one token, however many pieces it was written in. -/
namespace IconRegistry.Script

/-- A text is a name of JSX, in which hyphens may stand. -/
def IsJsxWord : Text → Prop
  | [] => False
  | c :: rest => isNameStart c = true ∧ ∀ d ∈ rest, d = '-' ∨ isNamePart d = true

instance : DecidablePred IsJsxWord
  | [] => inferInstanceAs (Decidable False)
  | c :: rest => inferInstanceAs (Decidable (isNameStart c = true ∧ ∀ d ∈ rest, d = '-' ∨ isNamePart d = true))

/-- A name of JSX that ends in front of a text ends there. -/
def EndsJsxWord (rest : Text) : Prop :=
  ∀ c ∈ rest.head?, isNamePart c = false ∧ c ≠ '\\' ∧ c ≠ '-'

/-- Names of elements may hold hyphens, so those do not end them. -/
theorem endsJsxWord_cons {c : Char} (hPart : isNamePart c = false) (hEscape : c ≠ '\\') (hHyphen : c ≠ '-')
    (rest : Text) : EndsJsxWord (c :: rest) := by
  rintro d ⟨rfl⟩
  exact ⟨hPart, hEscape, hHyphen⟩

theorem EndsJsxWord.endsWord {rest : Text} (h : EndsJsxWord rest) : EndsWord rest :=
  fun c hc => ⟨(h c hc).1, (h c hc).2.1⟩

/-- A hyphen ends a name of the script language, too. -/
theorem EndsJsxWord.endsWord_behind {back rest : Text} (h : EndsJsxWord rest)
    (hBack : back = [] ∨ ∃ more, back = '-' :: more) : EndsWord (back ++ rest) := by
  rcases hBack with rfl | ⟨more, rfl⟩
  · exact h.endsWord
  · exact endsWord_cons (by decide) (by decide) _

/-- A name of JSX is a name of the script language up to its first hyphen. -/
theorem IsJsxWord.exists_split {word : Text} (h : IsJsxWord word) :
    ∃ front back, word = front ++ back ∧ IsIdentifier front ∧ (back = [] ∨ ∃ more, back = '-' :: more) ∧
      ∀ d ∈ back, d = '-' ∨ isNamePart d = true := by
  cases word with
  | nil => exact h.elim
  | cons c rest =>
      obtain ⟨hStart, hParts⟩ := h
      refine ⟨c :: rest.takeWhile isNamePart, rest.dropWhile isNamePart, ?_, ⟨hStart, ?_⟩, ?_, ?_⟩
      · rw [List.cons_append, List.takeWhile_append_dropWhile]
      · intro d hd
        exact List.all_eq_true.mp List.all_takeWhile d hd
      · cases hBack : rest.dropWhile isNamePart with
        | nil => exact .inl rfl
        | cons d more =>
            have hOther := List.head?_dropWhile_not isNamePart rest
            rw [hBack] at hOther
            have hMember : d ∈ rest := (List.dropWhile_suffix isNamePart).subset (by rw [hBack]; exact List.mem_cons_self)
            rcases hParts d hMember with rfl | hPart
            · exact .inr ⟨more, rfl⟩
            · simp [hPart] at hOther
      · intro d hd
        exact hParts d ((List.dropWhile_suffix isNamePart).subset hd)

/-- The token at the front of a name of JSX. -/
theorem IsJsxWord.next {word rest : Text} (h : IsJsxWord word) (hEnds : EndsJsxWord rest) (position : Nat)
    (newline : Bool) :
    ∃ front back, word = front ++ back ∧ front = word.takeWhile isNamePart ∧
      Lexeme.next false position newline (word ++ rest) =
        Lexeme.cut (.name front false) position front.length (word ++ rest) newline := by
  obtain ⟨front, back, rfl, hFront, hBack, -⟩ := h.exists_split
  have hEndsFront := hEnds.endsWord_behind hBack
  refine ⟨front, back, rfl, ?_, ?_⟩
  · refine (hFront.takeWhile_append ?_).symm
    rcases hBack with rfl | ⟨more, rfl⟩
    · exact .inl rfl
    · exact .inr ⟨'-', more, rfl, by decide⟩
  · rw [List.append_assoc, next_word _ _ hFront hEndsFront]

namespace Rule

variable {mode : Mode} {level : Nat} {word rest : Text}

/-- A name of JSX is the current name with the hyphens and names behind it. -/
theorem jsxName_run {l : Lexeme} {name more : Text} {length previousStop : Nat} (hToken : l.token = .name name false)
    (hMore : (if l.rest.head? == some '-' then l.rest.takeWhile fun c => c == '-' || isNamePart c else []) = more)
    (hLength : l.stop - l.start + more.length = length) :
    jsxName (Env.tsx mode level) (.on l previousStop) =
      some (l.source.take length, .facing (l.start + length) (l.source.drop length) (l.start + length)) := by
  subst hMore hLength
  rw [jsxName, bind_run, lexeme_run, Option.bind_some]
  simp only [State.on_lexeme, hToken]
  rfl

/-- A name of markup is read as a whole. -/
theorem jsxName_word (h : IsJsxWord word) (hEnds : EndsJsxWord rest) (position previousStop : Nat) :
    jsxName (Env.tsx mode level) (.facing position (word ++ rest) previousStop) =
      some (word, .facing (position + word.length) rest (position + word.length)) := by
  obtain ⟨front, back, rfl, hFront, hBack, hParts⟩ := h.exists_split
  have hEndsFront := hEnds.endsWord_behind hBack
  have hMore : (if (back ++ rest).head? == some '-' then (back ++ rest).takeWhile fun c => c == '-' || isNamePart c
      else []) = back := by
    rcases hBack with rfl | ⟨more, rfl⟩
    · refine if_neg ?_
      intro hHyphen
      exact (hEnds '-' (by simpa using hHyphen)).2.2 rfl
    · rw [if_pos (by rfl), List.takeWhile_append_of_pos]
      · have hStop : rest.takeWhile (fun c => c == '-' || isNamePart c) = [] := by
          cases rest with
          | nil => rfl
          | cons c rest =>
              obtain ⟨hPart, -, hHyphen⟩ := hEnds c rfl
              simp [hPart, hHyphen]
        rw [hStop, List.append_nil]
      · intro d hd
        simpa using hParts d hd
  have hRest : (Lexeme.cut (.name front false) position front.length (front ++ (back ++ rest)) false).rest =
      back ++ rest := by simp [Lexeme.cut]
  have hLength : position + front.length - position + back.length = (front ++ back).length := by
    rw [List.length_append]
    omega
  rw [List.append_assoc, facing_word hFront hEndsFront, jsxName_run rfl (by rw [hRest]; exact hMore) hLength]
  dsimp only [Lexeme.cut]
  rw [← List.append_assoc, List.take_left, List.drop_left]

end Rule

/-- A text is the name of an element: a name, a name in a namespace, or names joined by dots. Behind a dot no hyphen
stands. -/
inductive IsElementName : Text → Prop
  | spaced {space word : Text} : IsJsxWord space → IsJsxWord word → IsElementName (space ++ ':' :: word)
  | dotted {first : Text} {parts : List Text} : IsJsxWord first → (∀ part ∈ parts, IsJsxWord part ∧ '-' ∉ part) →
      IsElementName (first ++ parts.flatMap ('.' :: ·))

/-- What stands behind the name of an element does not go on with the name. -/
structure EndsElementName (rest : Text) : Prop where
  word : EndsJsxWord rest
  colon : ∀ position, (Lexeme.next false position false rest).token ≠ .punct .colon
  dot : ∀ position, (Lexeme.next false position false rest).token ≠ .punct .dot

section Names

variable {mode : Mode} {level : Nat} {word rest : Text} {parts : List Text}

theorem IsJsxWord.exists_cons (h : IsJsxWord word) : ∃ c more, word = c :: more ∧ isNameStart c = true := by
  cases word with
  | nil => exact h.elim
  | cons c more => exact ⟨c, more, rfl, h.1⟩

theorem IsElementName.exists_cons {text : Text} (h : IsElementName text) :
    ∃ c more, text = c :: more ∧ isNameStart c = true := by
  cases h with
  | spaced hSpace =>
      obtain ⟨c, more, rfl, hc⟩ := hSpace.exists_cons
      exact ⟨c, _, rfl, hc⟩
  | dotted hFirst =>
      obtain ⟨c, more, rfl, hc⟩ := hFirst.exists_cons
      exact ⟨c, _, rfl, hc⟩

theorem length_le_flatMap_cons (c : Char) (texts : List Text) : texts.length ≤ (texts.flatMap (c :: ·)).length := by
  induction texts with
  | nil => exact Nat.le_refl _
  | cons text texts ih =>
      simp only [List.flatMap_cons, List.length_append, List.length_cons]
      omega

def dottedPart : Rule (Option Text) := do
  if ← Rule.eat .dot then
    let next ← Rule.jsxName
    if next.contains '-' then failure
    return some ('.' :: next)
  else return none

/-- The name of an element is a name with further ones behind dots, or behind a colon. -/
theorem jsxElementName_eq :
    Rule.jsxElementName = (do
      let first ← Rule.jsxName
      if ← Rule.eat .colon then return first ++ ':' :: (← Rule.jsxName)
      else
        let more ← Rule.many dottedPart
        return first ++ more.flatten) := rfl

theorem endsJsxWord_parts (hRest : EndsJsxWord rest) : EndsJsxWord (parts.flatMap ('.' :: ·) ++ rest) := by
  cases parts with
  | nil => exact hRest
  | cons part parts => exact endsJsxWord_cons (by decide) (by decide) (by decide) _

/-- The parts of a name are read one by one. -/
theorem manyWithin_dottedPart (mode : Mode) (level : Nat) (hParts : ∀ part ∈ parts, IsJsxWord part ∧ '-' ∉ part)
    (hRest : EndsElementName rest) {fuel : Nat} (hFuel : parts.length < fuel) (position : Nat) :
    Rule.manyWithin fuel dottedPart (Env.tsx mode level)
        (.facing position (parts.flatMap ('.' :: ·) ++ rest) position) =
      some (parts.map ('.' :: ·), .facing (position + (parts.flatMap ('.' :: ·)).length) rest
        (position + (parts.flatMap ('.' :: ·)).length)) := by
  obtain ⟨fuel, rfl⟩ := Nat.exists_eq_succ_of_ne_zero (Nat.ne_zero_of_lt hFuel)
  induction parts generalizing position fuel with
  | nil =>
      refine Rule.manyWithin_none ?_
      rw [dottedPart, Rule.bind_run, List.flatMap_nil, List.nil_append, Rule.eat_facing_of_ne (hRest.dot _)]
      rfl
  | cons part parts ih =>
      obtain ⟨⟨hWord, hHyphen⟩, hMore⟩ := List.forall_mem_cons.mp hParts
      have hText : (part :: parts).flatMap ('.' :: ·) ++ rest = '.' :: (part ++ (parts.flatMap ('.' :: ·) ++ rest)) := by
        simp
      have hPosition : position + ((part :: parts).flatMap ('.' :: ·)).length =
          position + 1 + part.length + (parts.flatMap ('.' :: ·)).length := by
        simp
        omega
      have hDot : Rule.eat .dot (Env.tsx mode level)
          (.facing position ('.' :: (part ++ (parts.flatMap ('.' :: ·) ++ rest))) position) =
          some (true, .facing (position + 1) (part ++ (parts.flatMap ('.' :: ·) ++ rest)) (position + 1)) := by
        obtain ⟨c, more, rfl, hc⟩ := hWord.exists_cons
        rw [List.cons_append, State.facing, next_dot _ _ hc, Rule.eat_of_eq rfl]
        rfl
      have hName : Rule.jsxName (Env.tsx mode level)
          (.facing (position + 1) (part ++ (parts.flatMap ('.' :: ·) ++ rest)) (position + 1)) =
          some (part, .facing (position + 1 + part.length) (parts.flatMap ('.' :: ·) ++ rest)
            (position + 1 + part.length)) := Rule.jsxName_word hWord (endsJsxWord_parts hRest.word) _ _
      have hPart : dottedPart (Env.tsx mode level)
          (.facing position ('.' :: (part ++ (parts.flatMap ('.' :: ·) ++ rest))) position) =
          some (some ('.' :: part), .facing (position + 1 + part.length) (parts.flatMap ('.' :: ·) ++ rest)
            (position + 1 + part.length)) := by
        rw [dottedPart, Rule.bind_run, hDot]
        simp [hName, hHyphen]
      obtain ⟨fuel, rfl⟩ := Nat.exists_eq_succ_of_ne_zero (n := fuel) (by simp at hFuel; omega)
      rw [hText, hPosition, List.map_cons]
      exact Rule.manyWithin_some hPart (ih hMore (position + 1 + part.length) fuel (by simp at hFuel ⊢; omega))

/-- The name of an element is read up to its attributes or its end. -/
theorem jsxElementName_run {text : Text} (mode : Mode) (h : IsElementName text) (hRest : EndsElementName rest)
    (hLevel : text.length ≤ level) (position previousStop : Nat) :
    Rule.jsxElementName (Env.tsx mode level) (.facing position (text ++ rest) previousStop) =
      some (text, .facing (position + text.length) rest (position + text.length)) := by
  rw [jsxElementName_eq]
  cases h with
  | spaced hSpace hWord =>
      rename_i space word
      have hText : space ++ ':' :: word ++ rest = space ++ ':' :: (word ++ rest) := by simp
      have hPosition : position + (space ++ ':' :: word).length = position + space.length + 1 + word.length := by
        simp
        omega
      have hColon : EndsJsxWord (':' :: (word ++ rest)) :=
        endsJsxWord_cons (by decide) (by decide) (by decide) _
      rw [hText, hPosition]
      simp only [Rule.bind_run, Rule.jsxName_word hSpace hColon, Option.bind_some, Rule.ite_run,
        Rule.eat_alone (c := ':') (p := .colon) (by decide), if_true, Rule.jsxName_word hWord hRest.word, Rule.pure_run]
  | dotted hFirst hParts =>
      rename_i first parts
      have hPosition : position + (first ++ parts.flatMap ('.' :: ·)).length =
          position + first.length + (parts.flatMap ('.' :: ·)).length := by
        simp
        omega
      have hColon : (Lexeme.next false (position + first.length) false (parts.flatMap ('.' :: ·) ++ rest)).token ≠
          .punct .colon := by
        cases parts with
        | nil => exact hRest.colon _
        | cons part parts =>
            obtain ⟨c, more, rfl, hc⟩ := (hParts part List.mem_cons_self).1.exists_cons
            simp only [List.flatMap_cons, List.cons_append]
            rw [next_dot _ _ hc]
            rintro ⟨⟩
      have hCount := length_le_flatMap_cons '.' parts
      rw [List.length_append] at hLevel
      have hFuel : parts.length < level + 1 := by omega
      have hMany := manyWithin_dottedPart mode level hParts hRest hFuel (position + first.length)
      rw [List.append_assoc, hPosition]
      simp only [Rule.bind_run, Rule.jsxName_word hFirst (endsJsxWord_parts hRest.word), Option.bind_some, Rule.ite_run,
        Rule.eat_facing_of_ne hColon, Bool.false_eq_true, if_false, Rule.many_run, Env.tsx_level, hMany, Rule.pure_run]
      rfl

end Names

/-- A text is the name of an attribute: a name, or a name in a namespace. Behind an angle bracket and a name, the word
`extends` belongs to an arrow function unless a value is assigned to it. -/
structure IsAttributeName (text : Text) : Prop where
  words : IsJsxWord text ∨ ∃ space word, text = space ++ ':' :: word ∧ IsJsxWord space ∧ IsJsxWord word
  whole : text.takeWhile isNamePart = "extends".toList → text = "extends".toList

/-- An attribute is read as a whole, whatever stands behind it. -/
structure IsAttribute (text : Text) : Prop where
  begins : (∃ more, text = '\x7b' :: more) ∨ ∃ c more, text = c :: more ∧ isNameStart c = true
  whole : ∀ {mode : Mode} {level position previousStop : Nat} {rest : Text},
    (Lexeme.next false position false (text ++ rest)).token = .name "extends".toList false →
    Rule.afterToken (Rule.atAnyPunct [.assign, .greater, .slash]) (Env.tsx mode level)
        (.facing position (text ++ rest) previousStop) =
      some (true, .facing position (text ++ rest) previousStop)
  reads : ∀ {mode : Mode} {level position previousStop : Nat} {rest : Text}, 2 * text.length ≤ level →
    Rule.jsxAttribute (Env.tsx mode level) (.facing position (text ++ rest) previousStop) =
      some ((), .facing (position + text.length) rest (position + text.length))

section Attributes

open Component (inBraces)

variable {mode : Mode} {level : Nat} {name value rest : Text}

/-- The first token of an attribute's name is the part of it that is a name of scripts. -/
theorem IsAttributeName.next (h : IsAttributeName name) (hEnds : EndsJsxWord rest) (position : Nat) (newline : Bool) :
    ∃ front back, name = front ++ back ∧ front = name.takeWhile isNamePart ∧
      Lexeme.next false position newline (name ++ rest) =
        Lexeme.cut (.name front false) position front.length (name ++ rest) newline := by
  rcases h.words with hWord | ⟨space, word, rfl, hSpace, -⟩
  · exact hWord.next hEnds position newline
  · have hColon : EndsJsxWord (':' :: (word ++ rest)) := endsJsxWord_cons (by decide) (by decide) (by decide) _
    have hText : space ++ ':' :: word ++ rest = space ++ ':' :: (word ++ rest) := by simp
    obtain ⟨front, back, hSplit, hFront, hNext⟩ := hSpace.next hColon position newline
    refine ⟨front, back ++ ':' :: word, by rw [hSplit, List.append_assoc], ?_, by rw [hText, hNext]⟩
    rw [hFront, List.takeWhile_append, List.takeWhile_cons_of_neg (by decide), List.append_nil]
    split
    · rename_i hAll
      exact (List.takeWhile_prefix _).eq_of_length hAll
    · rfl

theorem stepWith_run (cut : Nat → Text → Lexeme) (env : Env) (l : Lexeme) (previousStop : Nat) :
    Rule.stepWith cut env (.on l previousStop) = some ((), .on (cut l.stop l.rest) l.stop) := rfl

/-- The name of an attribute is read up to its equals sign. -/
theorem jsxAttribute_name (h : IsAttributeName name) {first : Char} (hFirst : first = '"' ∨ first = '\x7b')
    (position previousStop : Nat) (more : Text) :
    Rule.jsxAttribute (Env.tsx mode level) (.facing position (name ++ '=' :: first :: more) previousStop) =
      Rule.jsxAttributeValue (Env.tsx mode level)
        (.on (Lexeme.nextJsxValue false (position + name.length + 1) (first :: more)) (position + name.length + 1)) := by
  have hEquals : EndsJsxWord ('=' :: first :: more) := endsJsxWord_cons (by decide) (by decide) (by decide) _
  have hBrace : (Lexeme.next false position false (name ++ '=' :: first :: more)).token ≠ .punct .leftBrace := by
    obtain ⟨front, -, -, -, hNext⟩ := h.next hEquals position false
    rw [hNext]
    rintro ⟨⟩
  have hAssign : ∀ q : Nat, State.facing q ('=' :: first :: more) q =
      .on (Lexeme.cut (.punct .assign) q 1 ('=' :: first :: more) false) q := by
    rcases hFirst with rfl | rfl <;> exact fun _ => rfl
  have hColon : ∀ q : Nat, (Lexeme.next false q false ('=' :: first :: more)).token ≠ .punct .colon := by
    rcases hFirst with rfl | rfl
    all_goals rintro q ⟨⟩
  rcases h.words with hWord | ⟨space, word, rfl, hSpace, hWord⟩
  · rw [Rule.jsxAttribute]
    simp only [Rule.bind_run, Rule.eat_facing_of_ne hBrace, Option.bind_some, Rule.ite_run, Bool.false_eq_true, if_false,
      Rule.jsxName_word hWord hEquals, Rule.eat_facing_of_ne (hColon _)]
    rw [hAssign]
    rfl
  · have hText : space ++ ':' :: word ++ '=' :: first :: more = space ++ ':' :: (word ++ '=' :: first :: more) := by simp
    have hMiddle : EndsJsxWord (':' :: (word ++ '=' :: first :: more)) :=
      endsJsxWord_cons (by decide) (by decide) (by decide) _
    have hPosition : position + (space ++ ':' :: word).length + 1 = position + space.length + 1 + word.length + 1 := by
      simp
      omega
    rw [hText] at hBrace ⊢
    rw [hPosition, Rule.jsxAttribute]
    simp only [Rule.bind_run, Rule.eat_facing_of_ne hBrace, Option.bind_some, Rule.ite_run, Bool.false_eq_true, if_false,
      Rule.jsxName_word hSpace hMiddle, Rule.eat_alone (c := ':') (p := .colon) (by decide), if_true,
      Rule.jsxName_word hWord hEquals]
    rw [hAssign]
    rfl

theorem jsxAttributeName_begins (h : IsAttributeName name) : ∃ c more, name = c :: more ∧ isNameStart c = true := by
  rcases h.words with hWord | ⟨space, word, rfl, hSpace, -⟩
  · exact hWord.exists_cons
  · obtain ⟨c, more, rfl, hc⟩ := hSpace.exists_cons
    exact ⟨c, more ++ ':' :: word, rfl, hc⟩

/-- Behind the word `extends` at the front of an attribute stands its equals sign. -/
theorem afterToken_extends (h : IsAttributeName name) {first : Char} (hFirst : first = '"' ∨ first = '\x7b')
    {position previousStop : Nat} {more : Text}
    (hExtends : (Lexeme.next false position false (name ++ '=' :: first :: more)).token =
      .name "extends".toList false) :
    Rule.afterToken (Rule.atAnyPunct [.assign, .greater, .slash]) (Env.tsx mode level)
        (.facing position (name ++ '=' :: first :: more) previousStop) =
      some (true, .facing position (name ++ '=' :: first :: more) previousStop) := by
  have hEquals : EndsJsxWord ('=' :: first :: more) := endsJsxWord_cons (by decide) (by decide) (by decide) _
  obtain ⟨front, back, -, hFront, hNext⟩ := h.next hEquals position false
  have hName : front = "extends".toList := by
    rw [hNext] at hExtends
    cases hExtends
    rfl
  have hWhole : name = front := by rw [hName, h.whole (by rw [← hFront, hName])]
  rw [State.facing, hNext, ← hWhole]
  refine Rule.afterToken_cut _ _ ?_
  rcases hFirst with rfl | rfl
  all_goals rfl

/-- A name with a value in double quotes is an attribute. -/
theorem isAttribute_quoted (h : IsAttributeName name) (hValue : '"' ∉ value) :
    IsAttribute (name ++ ("=\"".toList ++ value ++ ['"'])) where
  begins := by
    obtain ⟨c, more, rfl, hc⟩ := jsxAttributeName_begins h
    exact .inr ⟨c, _, rfl, hc⟩
  whole := by
    intro mode level position previousStop rest hExtends
    have hText : name ++ ("=\"".toList ++ value ++ ['"']) ++ rest = name ++ '=' :: '"' :: (value ++ '"' :: rest) := by simp
    rw [hText] at hExtends ⊢
    exact afterToken_extends h (.inl rfl) hExtends
  reads := by
    intro mode level position previousStop rest _
    have hText : name ++ ("=\"".toList ++ value ++ ['"']) ++ rest = name ++ '=' :: '"' :: (value ++ '"' :: rest) := by simp
    have hPosition : position + (name ++ ("=\"".toList ++ value ++ ['"'])).length =
        position + name.length + 1 + (value.length + 2) := by
      simp
      omega
    have hDrop : ('"' :: (value ++ '"' :: rest)).drop (value.length + 2) = rest := by simp
    have hString : ∀ (source : Text) (q n : Nat), Rule.jsxAttributeValue (Env.tsx mode level)
        (.on (Lexeme.cut (.string value) q n source false) q) =
          some ((), .facing (q + n) (source.drop n) (q + n)) := fun _ _ _ => rfl
    rw [hText, hPosition, jsxAttribute_name h (.inl rfl), nextJsxValue_quoted hValue, hString, hDrop]

/-- An expression of JSX in braces is read up to its closing brace. -/
theorem jsxExpression_run (mode : Mode) (hValue : IsExpression value) (hLevel : 2 * value.length + 1 < level)
    (position previousStop : Nat) (rest : Text) :
    Rule.jsxExpression (Env.tsx mode level) (.facing position (value ++ '\x7d' :: rest) previousStop) =
      some ((), .facing (position + value.length) ('\x7d' :: rest) (position + value.length)) := by
  obtain ⟨operand, hForm, hRead⟩ := hValue.goal_expression
    { mode with allowsIn := true, allowsYield := false, inDecorator := false } rfl hLevel (.brace rest)
    (by rintro position ⟨⟩) position previousStop
  have hFlaw : (operand.form == .sequence) = false := beq_eq_false_iff_ne.mpr hForm
  rw [Rule.jsxExpression]
  simp only [Rule.bind_run, Rule.withMode_tsx, Rule.goal_run, Env.tsx_deeper, Env.tsx_mode, hRead, Option.bind_some, hFlaw,
    Rule.flawIf_false]

theorem isAttribute_braced (h : IsAttributeName name) (hValue : IsExpression value) :
    IsAttribute (name ++ '=' :: inBraces value) where
  begins := by
    obtain ⟨c, more, rfl, hc⟩ := jsxAttributeName_begins h
    exact .inr ⟨c, _, rfl, hc⟩
  whole := by
    intro mode level position previousStop rest hExtends
    have hText : name ++ '=' :: inBraces value ++ rest = name ++ '=' :: '\x7b' :: (value ++ '\x7d' :: rest) := by
      simp [inBraces]
    rw [hText] at hExtends ⊢
    exact afterToken_extends h (.inr rfl) hExtends
  reads := by
    intro mode level position previousStop rest hLevel
    have hText : name ++ '=' :: inBraces value ++ rest = name ++ '=' :: '\x7b' :: (value ++ '\x7d' :: rest) := by
      simp [inBraces]
    have hLength : (name ++ '=' :: inBraces value).length = name.length + 1 + 1 + value.length + 1 := by
      simp [inBraces]
      omega
    have hPosition : position + (name ++ '=' :: inBraces value).length =
        position + name.length + 1 + 1 + value.length + 1 := by omega
    have hFirst := punct_ne_of_opens (hValue.opens (position + name.length + 1 + 1) (.brace rest))
      (p := .rightBrace) (by decide)
    have hShort : 2 * value.length + 1 < level := by omega
    have hExpression := jsxExpression_run mode hValue hShort (position + name.length + 1 + 1)
      (position + name.length + 1 + 1) rest
    have hBrace : ∀ (q : Nat) (more : Text), Lexeme.nextJsxValue false q ('\x7b' :: more) =
        Lexeme.cut (.punct .leftBrace) q 1 ('\x7b' :: more) false := fun _ _ => rfl
    rw [hText, hPosition, jsxAttribute_name h (.inr rfl), hBrace, Rule.jsxAttributeValue]
    simp only [Rule.bind_run, Rule.token_run, State.on_lexeme, Lexeme.cut, Option.bind_some, Rule.step_tsx,
      List.drop_succ_cons, List.drop_zero, Rule.atPunct_run, State.facing_lexeme, beq_eq_false_iff_ne.mpr hFirst,
      Bool.not_false, Rule.ite_run, if_true, hExpression]
    exact Rule.expect_alone (by decide) _ _

theorem isAttribute_spread (hValue : IsExpression value) : IsAttribute (inBraces ("...".toList ++ value)) where
  begins := .inl ⟨_, rfl⟩
  whole := by
    intro mode level position previousStop rest hExtends
    cases hExtends
  reads := by
    intro mode level position previousStop rest hLevel
    have hText : inBraces ("...".toList ++ value) ++ rest =
        '\x7b' :: '.' :: '.' :: '.' :: (value ++ '\x7d' :: rest) := by simp [inBraces]
    have hLength : (inBraces ("...".toList ++ value)).length = 4 + value.length + 1 := by
      simp [inBraces]
      omega
    have hDots : Rule.expect .ellipsis (Env.tsx mode level)
        (.facing (position + 1) ('.' :: '.' :: '.' :: (value ++ '\x7d' :: rest)) (position + 1)) =
        some ((), .facing (position + 4) (value ++ '\x7d' :: rest) (position + 4)) := rfl
    have hShort : 2 * value.length + 1 < level := by omega
    have hExpression := jsxExpression_run mode hValue hShort (position + 4) (position + 4) rest
    have hPosition : position + (inBraces ("...".toList ++ value)).length = position + 4 + value.length + 1 := by omega
    rw [hText, hPosition, Rule.jsxAttribute]
    simp only [Rule.bind_run, Rule.eat_alone (c := '\x7b') (p := .leftBrace) (by decide), Option.bind_some, Rule.ite_run,
      if_true, hDots, hExpression, Rule.expect_alone (c := '\x7d') (p := .rightBrace) (by decide)]

end Attributes

/-- What ends a tag: a slash and an angle bracket behind a blank, or an angle bracket. -/
inductive ClosesTag : Text → Prop
  | self (rest : Text) : ClosesTag (' ' :: '/' :: '>' :: rest)
  | opening (rest : Text) : ClosesTag ('>' :: rest)

section Tags

variable {mode : Mode} {level : Nat} {attributes : List Text} {ending : Text}

theorem IsAttribute.beginsToken {text : Text} (h : IsAttribute text) : BeginsToken text := by
  rcases h.begins with ⟨more, rfl⟩ | ⟨c, more, rfl, hc⟩
  · exact ⟨_, more, rfl, by decide⟩
  · exact ⟨c, more, rfl, beginsToken_of_isNameStart hc⟩

/-- An attribute begins with no punctuator but a brace. -/
theorem IsAttribute.ne_punct {text : Text} (h : IsAttribute text) {p : Punct} (hOther : p ≠ .leftBrace)
    (position : Nat) (rest : Text) : (Lexeme.next false position false (text ++ rest)).token ≠ .punct p := by
  rcases h.begins with ⟨more, rfl⟩ | ⟨c, more, rfl, hc⟩
  · rintro ⟨rfl⟩
    exact hOther rfl
  · exact next_ne_punct _ _ hc _ _

def attributeItem : Rule (Option Unit) := do
  if ← Rule.atAnyPunct [.less, .greater, .slash] then return none
  Rule.jsxAttribute
  return some ()

/-- Attributes are read one by one up to the end of the tag. -/
theorem manyWithin_attributeItem (mode : Mode) (h : ∀ a ∈ attributes, IsAttribute a) (hEnding : ClosesTag ending)
    (hLevel : 2 * (attributes.flatMap (' ' :: ·)).length ≤ level) {fuel : Nat} (hFuel : attributes.length < fuel)
    (position : Nat) :
    ∃ found, Rule.manyWithin fuel attributeItem (Env.tsx mode level)
        (.facing position (attributes.flatMap (' ' :: ·) ++ ending) position) =
      some (found, .facing (position + (attributes.flatMap (' ' :: ·)).length) ending
        (position + (attributes.flatMap (' ' :: ·)).length)) := by
  obtain ⟨fuel, rfl⟩ := Nat.exists_eq_succ_of_ne_zero (Nat.ne_zero_of_lt hFuel)
  induction attributes generalizing position fuel with
  | nil =>
      refine ⟨[], Rule.manyWithin_none ?_⟩
      cases hEnding <;> rfl
  | cons a attributes ih =>
      obtain ⟨hFirst, hMore⟩ := List.forall_mem_cons.mp h
      have hText : (a :: attributes).flatMap (' ' :: ·) ++ ending =
          ' ' :: (a ++ (attributes.flatMap (' ' :: ·) ++ ending)) := by simp
      have hLength : ((a :: attributes).flatMap (' ' :: ·)).length =
          1 + a.length + (attributes.flatMap (' ' :: ·)).length := by
        rw [List.flatMap_cons, List.length_append, List.length_cons]
        omega
      have hPosition : position + ((a :: attributes).flatMap (' ' :: ·)).length =
          position + 1 + a.length + (attributes.flatMap (' ' :: ·)).length := by omega
      have hEnd : Rule.atAnyPunct [.less, .greater, .slash] (Env.tsx mode level)
          (.facing (position + 1) (a ++ (attributes.flatMap (' ' :: ·) ++ ending)) position) =
          some (false, .facing (position + 1) (a ++ (attributes.flatMap (' ' :: ·) ++ ending)) position) :=
        Rule.atAnyPunct_of_forall_ne fun p hp => hFirst.ne_punct (by rintro rfl; simp at hp) _ _
      have hRead : Rule.jsxAttribute (Env.tsx mode level)
          (.facing (position + 1) (a ++ (attributes.flatMap (' ' :: ·) ++ ending)) position) =
          some ((), .facing (position + 1 + a.length) (attributes.flatMap (' ' :: ·) ++ ending)
            (position + 1 + a.length)) := hFirst.reads (by omega)
      have hItem : attributeItem (Env.tsx mode level)
          (.facing (position + 1) (a ++ (attributes.flatMap (' ' :: ·) ++ ending)) position) =
          some (some (), .facing (position + 1 + a.length) (attributes.flatMap (' ' :: ·) ++ ending)
            (position + 1 + a.length)) := by
        simp only [attributeItem, Rule.bind_run, hEnd, Option.bind_some, Rule.ite_run, Bool.false_eq_true, if_false, hRead,
          Rule.pure_run]
      obtain ⟨fuel, rfl⟩ := Nat.exists_eq_succ_of_ne_zero (n := fuel) (by simp at hFuel; omega)
      obtain ⟨found, hFound⟩ := ih hMore (by omega) (position + 1 + a.length) fuel (by simp at hFuel ⊢; omega)
      rw [hText, hPosition, facing_blank (hFirst.beginsToken.append _)]
      exact ⟨_, Rule.manyWithin_some hItem hFound⟩

theorem attributes_ne_punct (h : ∀ a ∈ attributes, IsAttribute a) (hEnding : ClosesTag ending) {p : Punct}
    (hOther : p ∉ [Punct.leftBrace, .slash, .greater]) (position : Nat) :
    (Lexeme.next false position false (attributes.flatMap (' ' :: ·) ++ ending)).token ≠ .punct p := by
  cases attributes with
  | nil =>
      cases hEnding
      all_goals
        rintro ⟨rfl⟩
        exact hOther (by decide)
  | cons a attributes =>
      have hFirst := h a List.mem_cons_self
      have hNext := facing_blank (hFirst.beginsToken.append (attributes.flatMap (' ' :: ·) ++ ending)) position 0
      have hToken := congrArg (·.lexeme.token) hNext
      simp only [State.facing_lexeme] at hToken
      rw [List.flatMap_cons, List.cons_append, List.cons_append, List.append_assoc, hToken]
      exact hFirst.ne_punct (by rintro rfl; exact hOther (by decide)) _ _

theorem endsElementName_attributes (h : ∀ a ∈ attributes, IsAttribute a) (hEnding : ClosesTag ending) :
    EndsElementName (attributes.flatMap (' ' :: ·) ++ ending) where
  word := by
    cases attributes with
    | nil => cases hEnding <;> exact endsJsxWord_cons (by decide) (by decide) (by decide) _
    | cons a attributes => exact endsJsxWord_cons (by decide) (by decide) (by decide) _
  colon := attributes_ne_punct h hEnding (by decide)
  dot := attributes_ne_punct h hEnding (by decide)

/-- A reading that stands in front of a child of an element, or of the element's closing tag. -/
def State.facingChild (position : Nat) (s : Text) : State :=
  .on (Lexeme.nextJsx position s) position

/-- Where a reading stands behind an element: in front of a child, or of a token. -/
def State.behindTag (inChild : Bool) (position : Nat) (s : Text) : State :=
  if inChild then .facingChild position s else .facing position s position

/-- The end of a tag is read, and children may follow. -/
theorem endTag_run (inChild : Bool) (position : Nat) (rest : Text) :
    Rule.endTag inChild (Env.tsx mode level) (.facing position ('>' :: rest) position) =
      some ((), .behindTag inChild (position + 1) rest) := by
  cases inChild <;> rfl

/-- An element is a tag with attributes, and children unless the tag closes itself. -/
theorem jsxElement_eq (inChild : Bool) :
    Rule.jsxElement inChild = (do
      Rule.expect .less
      if ← Rule.atPunct .greater then
        Rule.jsxChildren
        Rule.endTag inChild
      else
        let opening ← Rule.jsxElementName
        if (← Rule.dialect).hasTypes && (← Rule.atAnyPunct [.less, .shiftLeft]) then Rule.typeArguments
        let _ ← Rule.many attributeItem
        if ← Rule.eat .slash then Rule.endTag inChild
        else
          Rule.jsxChildren
          let closing ← Rule.jsxElementName
          Rule.flawIf (opening != closing)
          Rule.endTag inChild) := rfl

/-- The body of an element behind its opening tag. -/
def elementRest (opening : Text) (inChild : Bool) : Rule Unit := do
  if ← Rule.eat .slash then Rule.endTag inChild
  else
    Rule.jsxChildren
    let closing ← Rule.jsxElementName
    Rule.flawIf (opening != closing)
    Rule.endTag inChild

/-- An opening tag is read up to what ends it. -/
theorem jsxElement_opening {tag : Text} (hTag : IsElementName tag) (h : ∀ a ∈ attributes, IsAttribute a)
    (hEnding : ClosesTag ending) (hLevel : 2 * (tag.length + (attributes.flatMap (' ' :: ·)).length) ≤ level)
    (inChild : Bool) (position previousStop : Nat) :
    Rule.jsxElement inChild (Env.tsx mode level)
        (.on (Lexeme.cut (.punct .less) position 1 ('<' :: (tag ++ (attributes.flatMap (' ' :: ·) ++ ending))) false)
          previousStop) =
      elementRest tag inChild (Env.tsx mode level)
        (.facing (position + 1 + tag.length + (attributes.flatMap (' ' :: ·)).length) ending
          (position + 1 + tag.length + (attributes.flatMap (' ' :: ·)).length)) := by
  have hLess : Rule.expect .less (Env.tsx mode level)
      (.on (Lexeme.cut (.punct .less) position 1 ('<' :: (tag ++ (attributes.flatMap (' ' :: ·) ++ ending))) false)
        previousStop) =
      some ((), .facing (position + 1) (tag ++ (attributes.flatMap (' ' :: ·) ++ ending)) (position + 1)) :=
    Rule.expect_of_eq rfl
  have hGreater : (Lexeme.next false (position + 1) false (tag ++ (attributes.flatMap (' ' :: ·) ++ ending))).token ≠
      .punct .greater := by
    obtain ⟨c, more, rfl, hc⟩ := hTag.exists_cons
    exact next_ne_punct _ _ hc _ _
  have hShort : tag.length ≤ level ∧ 2 * (attributes.flatMap (' ' :: ·)).length ≤ level := by omega
  have hNames := jsxElementName_run mode hTag (endsElementName_attributes h hEnding) hShort.1 (position + 1) (position + 1)
  have hTypes : Rule.atAnyPunct [.less, .shiftLeft] (Env.tsx mode level)
      (.facing (position + 1 + tag.length) (attributes.flatMap (' ' :: ·) ++ ending) (position + 1 + tag.length)) =
      some (false, .facing (position + 1 + tag.length) (attributes.flatMap (' ' :: ·) ++ ending)
        (position + 1 + tag.length)) :=
    Rule.atAnyPunct_of_forall_ne fun p hp => attributes_ne_punct h hEnding (by revert p; decide) _
  have hCount := length_le_flatMap_cons ' ' attributes
  have hFuel : attributes.length < level + 1 := by omega
  obtain ⟨found, hFound⟩ := manyWithin_attributeItem mode h hEnding hShort.2 hFuel (position + 1 + tag.length)
  rw [jsxElement_eq, elementRest]
  simp only [Rule.bind_run, hLess, Option.bind_some, Rule.atPunct_run, State.facing_lexeme,
    beq_eq_false_iff_ne.mpr hGreater, Rule.ite_run, Bool.false_eq_true, if_false, hNames, Rule.dialect_run, hTypes,
    Env.tsx_dialect, Rule.many_run, Env.tsx_level, hFound, Bool.and_false]

end Tags

end IconRegistry.Script
