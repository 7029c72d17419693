import IconRegistry.Proofs.Registry.Grammar
import IconRegistry.Proofs.Script.AdvancingStatements
import IconRegistry.Proofs.Script.Expression
import IconRegistry.Proofs.Script.Yielding

/-! Object literals as the reader reports them: each is laid out in the text, at the spans that it is reported with. -/
namespace IconRegistry.Registry

open Script

section Properties

variable {text : Text} {good : (wanted : Goal) → wanted.Result → Prop} {env : Env} {s t u : State}

/-- The name of a property begins where a property may begin, and if it is a plain one, it is a name. -/
structure KeyAt (s t : State) (name? : Option Text) : Prop where
  leads : s.lexeme.token.leads = true
  le : s.lexeme.stop ≤ t.previousStop
  isIdentifier : ∀ {name}, name? = some name → IsIdentifier name

theorem KeyAt.trans {name? : Option Text} (h : KeyAt s t name?) (hReaches : t.Reaches u text) : KeyAt s u name? :=
  ⟨h.leads, Nat.le_trans h.le hReaches.le, h.isIdentifier⟩

/-- What begins behind a key lies behind what the key begins with. -/
theorem KeyAt.behind {name? other? : Option Text} (h : KeyAt s t name?) (ht : t.Fits text) (h' : KeyAt t u other?) :
    KeyAt s u other? :=
  ⟨h.leads, Nat.le_trans h.le (Nat.le_trans ht.le (Nat.le_trans ht.standsIn.le h'.le)), h'.isIdentifier⟩

/-- What is read behind a step stands behind the token that is stepped over. -/
theorem ensures_step {α : Type} {f : Unit → Rule α} [∀ a, (f a).Advances] (name? : α → Option Text)
    (hEnv : Env.Sound env text good) (hs : s.Fits text) (hLeads : s.lexeme.token.leads = true)
    (hName : ∀ {u}, u.Fits text →
      (f ()).Ensures env u fun a _ => ∀ {name}, name? a = some name → IsIdentifier name) :
    (Rule.step >>= f).Ensures env s fun a t => KeyAt s t (name? a) := by
  intro a t h
  obtain ⟨⟨⟩, u, hStep, hRest⟩ := Rule.bind_eq_some.mp h
  obtain ⟨hu, hStop⟩ := Rule.reaches_step hEnv.isModule hs hStep
  exact ⟨hLeads, hStop ▸ (Rule.Advances.reaches hEnv hu hRest).le, hName hu a t hRest⟩

/-- The name of a property is its key, unless it is private. -/
theorem ensures_propertyName (hEnv : Env.Sound env text good) (hs : s.Fits text) :
    Rule.propertyName.Ensures env s fun key t => key.isPrivate = false → KeyAt s t key.name? := by
  have hStep : ∀ {f : Unit → Rule Rule.PropertyName} [∀ a, (f a).Advances], s.lexeme.token.leads = true →
      (∀ {u}, u.Fits text → (f ()).Ensures env u fun key _ => ∀ {name}, key.name? = some name → IsIdentifier name) →
      (Rule.step >>= f).Ensures env s fun key t => key.isPrivate = false → KeyAt s t key.name? :=
    fun hLeads hName => (ensures_step _ hEnv hs hLeads hName).mono fun _ _ h _ => h
  refine Rule.ensures_bind_of_eq rfl ?_
  split
  case h_1 hToken =>
    refine hStep (by rw [hToken]; rfl) fun _ => Rule.ensures_pure ?_
    rintro _ ⟨⟩
    exact hs.standsIn.heads.name hToken
  case h_2 hToken => exact hStep (by rw [hToken]; rfl) fun _ => Rule.ensures_pure (by rintro _ ⟨⟩)
  case h_3 hToken => exact hStep (by rw [hToken]; rfl) fun _ => Rule.ensures_pure (by rintro _ ⟨⟩)
  case h_4 => exact Rule.ensures_skip fun _ _ => Rule.ensures_pure (by rintro ⟨⟩)
  case h_5 hToken =>
    refine hStep (by rw [hToken]; rfl) fun _ => ?_
    exact Rule.ensures_skip fun _ _ => Rule.ensures_skip fun _ _ => Rule.ensures_pure (by rintro _ ⟨⟩)
  case h_6 => exact Rule.ensures_failure

/-- The key of a property in a literal takes the token there. -/
theorem ensures_literalKey (hEnv : Env.Sound env text good) (hs : s.Fits text) :
    Rule.literalKey.Ensures env s fun name? t => KeyAt s t name? := by
  refine (ensures_propertyName hEnv hs).bind fun key u hKey => ?_
  cases hPrivate : key.isPrivate with
  | false => exact Rule.ensures_pure (hKey hPrivate)
  | true => exact Rule.ensures_failure

theorem ensures_literalMethod (kind : Rule.FunctionKind) (hEnv : Env.Sound env text good) (hs : s.Fits text) :
    (Rule.literalMethod kind).Ensures env s fun name? t => KeyAt s t name? := by
  refine (ensures_literalKey hEnv hs).bind_onwards hEnv hs fun name? u hKey hu => ?_
  exact (Rule.Advances.ensures hEnv hu.fits).bind fun _ v hv => Rule.ensures_pure (hKey.trans hv)

/-- Behind a word it is told without reading anything whether it begins something. -/
theorem ensures_behindWord (word : String) (r : Rule Bool) :
    (do if ← Rule.atWord word then Rule.afterToken r else return false : Rule Bool).Ensures env s fun answer t =>
      t = s ∧ (answer = true → s.lexeme.token.leads = true) := by
  refine Rule.ensures_bind_of_eq (Rule.atWord_run env s word) ?_
  split
  · rename_i hWord
    have hLeads : s.lexeme.token.leads = true := by
      rw [beq_iff_eq.mp hWord]
      rfl
    obtain ⟨answer, hAhead⟩ := Rule.exists_ahead env s (do Rule.step; r)
    exact (Rule.ensures_of_eq hAhead).mono fun _ _ h => ⟨h.2, fun _ => hLeads⟩
  · exact Rule.ensures_pure ⟨rfl, by rintro ⟨⟩⟩

/-- Looking for a shorthand takes nothing. -/
theorem ensures_atShorthand : Rule.atShorthand.Ensures env s fun _ t => t = s := by
  have hIdentifier : Rule.atIdentifier.Ensures env s fun _ t => t = s := by
    refine Rule.ensures_bind_of_eq rfl ?_
    split
    all_goals exact Rule.ensures_pure rfl
  refine hIdentifier.bind fun answer t hSame => ?_
  cases answer with
  | false => exact Rule.ensures_pure hSame
  | true =>
      obtain ⟨answer, hAhead⟩ := Rule.exists_ahead env t (do
        Rule.step
        return !(← Rule.atAnyPunct [.leftParen, .colon, .less, .shiftLeft, .dot, .bang]))
      exact (Rule.ensures_of_eq hAhead).mono fun _ _ h => h.2.trans hSame

theorem ensures_flawIf (condition : Bool) : (Rule.flawIf condition).Ensures env s fun _ t => t.lexeme = s.lexeme := by
  rw [Rule.flawIf]
  split
  · rintro _ _ ⟨⟩
    rfl
  · exact Rule.ensures_pure rfl

/-- An identifier is a key that is called as it is written. -/
theorem ensures_identifier (hEnv : Env.Sound env text good) (hs : s.Fits text) :
    Rule.identifier.Ensures env s fun word t => KeyAt s t (some word) ∧ t.Fits text := by
  refine Rule.Ensures.and ?_ ((Rule.Advances.ensures hEnv hs).mono fun _ _ h => h.fits)
  refine Rule.ensures_bind_of_eq rfl ?_
  split
  · rename_i word escaped hToken
    have hStep : ∀ {u : State}, u.Fits text → u.lexeme = s.lexeme →
        (Rule.step >>= fun _ => pure word : Rule Text).Ensures env u fun word t => KeyAt s t (some word) := by
      intro u hu hSame
      rw [← hSame] at hToken
      have hLeads : u.lexeme.token.leads = true := by
        rw [hToken]
        rfl
      refine (ensures_step some hEnv hu hLeads fun _ => ?_).mono fun _ _ hKey => ?_
      · exact Rule.ensures_pure (by rintro _ ⟨⟩; exact hu.standsIn.heads.name hToken)
      · exact ⟨hSame ▸ hKey.leads, hSame ▸ hKey.le, hKey.isIdentifier⟩
    split
    · exact Rule.ensures_failure.bind fun _ _ => False.elim
    · refine Rule.ensures_bind_of_eq (Rule.mode_run env s) ?_
      refine (ensures_flawIf _).bind_onwards hEnv hs fun _ u hu hReaches => ?_
      exact (ensures_flawIf _).bind_onwards hEnv hReaches.fits fun _ v hv hMore => hStep hMore.fits (hv.trans hu)
  · exact Rule.ensures_failure

/-- Where a punctuator may stand, it is stepped over, or the reading goes on without it. -/
theorem ensures_bind_eat {α : Type} {f : Bool → Rule α} {post : α → State → Prop} (p : Punct)
    (hEnv : Env.Sound env text good) (hs : s.Fits text)
    (hEaten : ∀ u, s.lexeme.token = .punct p → u.Fits text → u.previousStop = s.lexeme.stop →
      (f true).Ensures env u post)
    (hOther : (f false).Ensures env s post) : (Rule.eat p >>= f).Ensures env s post := by
  rw [Rule.eat, bind_assoc]
  refine Rule.ensures_bind_of_eq (Rule.atPunct_run env s p) ?_
  split
  · rename_i hToken
    rw [bind_assoc]
    intro a t h
    obtain ⟨⟨⟩, u, hStep, hRest⟩ := Rule.bind_eq_some.mp h
    obtain ⟨hu, hStop⟩ := Rule.reaches_step hEnv.isModule hs hStep
    exact hEaten u (beq_iff_eq.mp hToken) hu hStop a t (by rwa [pure_bind] at hRest)
  · rwa [pure_bind]

/-- A punctuator that is expected is stepped over. -/
theorem ensures_expect (p : Punct) (hEnv : Env.Sound env text good) (hs : s.Fits text) :
    (Rule.expect p).Ensures env s fun _ t =>
      s.lexeme.token = .punct p ∧ t.Fits text ∧ t.previousStop = s.lexeme.stop :=
  ensures_bind_eat p hEnv hs (fun _ hToken hu hStop => Rule.ensures_pure ⟨hToken, hu, hStop⟩) Rule.ensures_failure

/-- A punctuator that may begin a property is the key of one without a plain name. -/
theorem KeyAt.of_punct {p : Punct} (hToken : s.lexeme.token = .punct p) (hLeads : (Token.punct p).leads = true)
    (hStop : t.previousStop = s.lexeme.stop) : KeyAt s t none :=
  ⟨hToken ▸ hLeads, Nat.le_of_eq hStop.symm, by rintro _ ⟨⟩⟩

/-- What is read behind the name of a property leaves its name. -/
theorem KeyAt.ensures {α : Type} {r : Rule α} [r.Advances] {name? : Option Text} (nameOf? : α → Option Text)
    (hKey : KeyAt s u name?) (hEnv : Env.Sound env text good) (hu : u.Fits text)
    (hName : r.Ensures env u fun a _ => nameOf? a = name?) : r.Ensures env u fun a t => KeyAt s t (nameOf? a) :=
  ((Rule.Advances.ensures hEnv hu).and hName).mono fun _ _ h => h.2 ▸ hKey.trans h.1

/-- A property begins where one may begin, and takes the token there. -/
theorem ensures_literalProperty (start : Nat) (hEnv : Env.Sound env text good) (hs : s.Fits text) :
    (Rule.literalProperty start).Ensures env s fun found t => KeyAt s t found.1 := by
  have hMethod : ∀ {kind u}, u.Fits text → (do return (← Rule.literalMethod kind, none) :
      Rule (Option Text × Option (List Nat))).Ensures env u fun found t => KeyAt u t found.1 := fun hu =>
    (ensures_literalMethod _ hEnv hu).bind fun _ _ hKey => Rule.ensures_pure hKey
  rw [Rule.literalProperty]
  refine ensures_bind_eat .ellipsis hEnv hs (fun u hToken hu hStop => ?spread) ?_
  case spread =>
    rw [if_pos rfl]
    refine (KeyAt.of_punct hToken rfl hStop).ensures Prod.fst hEnv hu ?_
    refine Rule.ensures_skip fun _ _ => Rule.ensures_skip fun _ _ => ?_
    split
    all_goals exact Rule.ensures_skip fun _ _ => Rule.ensures_pure rfl
  rw [if_neg (by decide)]
  refine (ensures_behindWord "get" _).bind_same fun isGetter hGetter => ?_
  refine (ensures_behindWord "set" _).bind_same fun isSetter hSetter => ?_
  split
  case isTrue hAccessor =>
    have hLeads := (Bool.or_eq_true _ _ ▸ hAccessor).elim hGetter hSetter
    exact ensures_step Prod.fst hEnv hs hLeads fun hu => (hMethod hu).mono fun _ _ hKey => hKey.isIdentifier
  refine (ensures_behindWord "async" _).bind_same fun isAsync hAsync => ?_
  split
  case isTrue hTrue =>
    exact ensures_step Prod.fst hEnv hs (hAsync hTrue) fun hu =>
      (Rule.Advances.ensures hEnv hu).bind fun _ _ hv => (hMethod hv.fits).mono fun _ _ hKey => hKey.isIdentifier
  refine ensures_bind_eat .star hEnv hs (fun u hToken hu hStop => ?generator) ?_
  case generator =>
    rw [if_pos rfl]
    exact (hMethod hu).mono fun _ _ hMore => (KeyAt.of_punct hToken rfl hStop).behind hu hMore
  rw [if_neg (by decide)]
  refine ensures_atShorthand.bind fun isShorthand u hSame => ?_
  subst hSame
  split
  case isTrue =>
    refine (ensures_identifier hEnv hs).bind fun word u hRead => ?_
    obtain ⟨hKey, hu⟩ := hRead
    have := Rule.Advances.modify (f := fun s => { s with pending := start :: s.pending }) (fun _ => rfl) fun _ => rfl
    refine hKey.ensures Prod.fst hEnv hu (Rule.ensures_skip fun _ _ => ?_)
    split
    · exact Rule.ensures_skip fun _ _ => Rule.ensures_skip fun _ _ => Rule.ensures_pure rfl
    · exact Rule.ensures_pure rfl
  refine (ensures_literalKey hEnv hs).bind_onwards hEnv hs fun name? u hKey hu => ?_
  refine hKey.ensures Prod.fst hEnv hu.fits (Rule.ensures_skip fun _ _ => ?_)
  split
  all_goals exact Rule.ensures_skip fun _ _ => Rule.ensures_pure rfl

end Properties

/-- A piece stands in a text between two positions. -/
structure Piece (text : Text) (i : Nat) (piece : Text) (j : Nat) : Prop where
  drop : text.drop i = piece ++ text.drop j
  length : j = i + piece.length

namespace Piece

variable {text a b : Text} {i j k : Nat}

/-- Pieces side by side are one piece. -/
theorem trans (h : Piece text i a j) (h' : Piece text j b k) : Piece text i (a ++ b) k where
  drop := by rw [h.drop, h'.drop, List.append_assoc]
  length := by rw [h'.length, h.length, List.length_append, Nat.add_assoc]

/-- What stands between two positions, the second of which the text reaches. -/
theorem between (hle : i ≤ j) (hText : j ≤ text.length) : Piece text i ((text.drop i).take (j - i)) j where
  drop := by
    have hBack : (text.drop i).drop (j - i) = text.drop j := by rw [List.drop_drop, Nat.add_sub_cancel' hle]
    rw [← hBack, List.take_append_drop]
  length := by
    rw [List.length_take, List.length_drop]
    omega

end Piece

section Readings

variable {text : Text} {s : State} {c : Char} {p : Punct}

/-- A token that is cut from some text starts inside it. -/
theorem start_le_of_standsIn {l : Lexeme} (h : l.StandsIn text) (hSource : l.source ≠ []) : l.start ≤ text.length := by
  rw [h.source, List.ne_nil_iff_length_pos, List.length_drop] at hSource
  omega

/-- A delimiter that is the current token stands in the text. -/
theorem piece_of_delimiter (hs : s.Fits text) (hToken : s.lexeme.token = .punct p) (hDelimits : (c, p) ∈ delimiters) :
    s.lexeme.source ≠ [] ∧ Piece text s.lexeme.start [c] s.lexeme.stop := by
  obtain ⟨hLength, rest, hSource⟩ := hs.standsIn.heads.delimits hToken hDelimits
  have hStop : s.lexeme.stop = s.lexeme.start + 1 := by
    have := hs.standsIn.le
    omega
  refine ⟨by simp [hSource], ⟨?_, hStop⟩⟩
  rw [hStop, ← List.drop_drop, ← hs.standsIn.source, hSource]
  rfl

/-- Behind a token the next one stands behind a gap. -/
theorem exists_gap_of_fits (hs : s.Fits text) (hStop : 0 < s.previousStop) (hSource : s.lexeme.source ≠ []) :
    ∃ gap, isGap gap = true ∧ Piece text s.previousStop gap s.lexeme.start := by
  obtain ⟨gap, hGap, hDrop, hStart⟩ := hs.gap hSource hStop
  exact ⟨gap, hGap, hs.standsIn.source ▸ hDrop, hStart⟩

end Readings

section Items

variable {text : Text} {good : (wanted : Goal) → wanted.Result → Prop} {env : Env} {s t u : State}

instance : objectItem.Advances := by
  unfold objectItem
  infer_instance

instance : (commaItem .rightBrace objectItem).Advances := by
  unfold commaItem
  infer_instance

/-- A property with what ends it: a comma, behind which the reading goes on, or the brace that closes the literal. -/
structure Turn (text : Text) (s u t : State) (span : PropertySpan) (comma : Bool) : Prop where
  key : KeyAt s u span.name?
  fits : u.Fits text
  span : span = ⟨s.lexeme.start, u.previousStop, span.name?⟩
  ends : if comma then u.lexeme.token = .punct .comma ∧ t.Fits text ∧ t.previousStop = u.lexeme.stop
    else u.lexeme.token = .punct .rightBrace ∧ t = u

/-- A property is read from its first token up to where the reading stops. -/
theorem ensures_objectItem (hEnv : Env.Sound env text good) (hs : s.Fits text) :
    objectItem.Ensures env s fun found t => KeyAt s t found.1.name? ∧ t.Fits text ∧
      found.1 = ⟨s.lexeme.start, t.previousStop, found.1.name?⟩ := by
  refine Rule.ensures_bind_of_eq (Rule.position_run env s) ?_
  refine (ensures_literalProperty _ hEnv hs).bind_onwards hEnv hs fun found u hKey hu => ?_
  exact Rule.ensures_bind_of_eq (Rule.previousStop_run env u) (Rule.ensures_pure ⟨hKey, hu.fits, rfl⟩)

/-- One turn of the reading of an object literal. -/
theorem ensures_commaItem (hEnv : Env.Sound env text good) (hs : s.Fits text) :
    (commaItem .rightBrace objectItem).Ensures env s fun found t =>
      match found with
      | none => t = s ∧ s.lexeme.token = .punct .rightBrace
      | some ((span, _), comma) => ∃ u, Turn text s u t span comma := by
  refine Rule.ensures_bind_of_eq (Rule.atPunct_run env s _) ?_
  split
  · rename_i hToken
    exact Rule.ensures_pure ⟨rfl, beq_iff_eq.mp hToken⟩
  · refine (ensures_objectItem hEnv hs).bind fun item u hItem => ?_
    obtain ⟨span, target?⟩ := item
    obtain ⟨hKey, hu, hSpan⟩ := hItem
    refine ensures_bind_eat .comma hEnv hu (fun t hToken ht hStop => ?comma) ?_
    case comma => exact Rule.ensures_pure ⟨u, hKey, hu, hSpan, hToken, ht, hStop⟩
    refine Rule.ensures_bind_of_eq (Rule.atPunct_run env u _) ?_
    split
    · exact Rule.ensures_failure
    · rename_i hToken
      exact Rule.ensures_pure ⟨u, hKey, hu, hSpan, by simpa using hToken, rfl⟩

/-- What may begin a property takes characters, the first of which is in no gap. -/
theorem KeyAt.beginsToken {name? : Option Text} (h : KeyAt s u name?) (hs : s.Fits text) :
    s.lexeme.start < u.previousStop ∧
      BeginsToken ((text.drop s.lexeme.start).take (u.previousStop - s.lexeme.start)) := by
  obtain ⟨hLength, c, rest, hSource, hc⟩ := hs.standsIn.heads.begins h.leads
  have hLt : s.lexeme.start < u.previousStop := by
    have := h.le
    omega
  refine ⟨hLt, c, rest.take (u.previousStop - s.lexeme.start - 1), ?_, hc⟩
  rw [← hs.standsIn.source, hSource, ← Nat.sub_one_add_one (Nat.sub_ne_zero_of_lt hLt), List.take_succ_cons]
  rfl

/-- A property is laid out with what stands between it and the next token, which is another property or the brace. -/
theorem Turn.exists_property {span : PropertySpan} {comma : Bool} (h : Turn text s u t span comma) (hs : s.Fits text)
    (hNext : t.lexeme.source ≠ []) : ∃ p : Property, p.WellFormed .any ∧ p.afterComma?.isSome = comma ∧
      span = ⟨s.lexeme.start, s.lexeme.start + p.text.length, p.name?⟩ ∧
      Piece text s.lexeme.start p.written t.lexeme.start := by
  have hDelimiter : ∃ c p, u.lexeme.token = .punct p ∧ (c, p) ∈ delimiters := by
    cases comma with
    | true => exact ⟨',', _, h.ends.1, by decide⟩
    | false => exact ⟨'\x7d', _, h.ends.1, by decide⟩
  obtain ⟨c, p, hToken, hDelimits⟩ := hDelimiter
  obtain ⟨hSource, -⟩ := piece_of_delimiter h.fits hToken hDelimits
  have hLength : u.previousStop ≤ text.length := Nat.le_trans h.fits.le (start_le_of_standsIn h.fits.standsIn hSource)
  obtain ⟨hLt, hBegins⟩ := h.key.beginsToken hs
  have hText := Piece.between (Nat.le_of_lt hLt) hLength
  obtain ⟨gap, hGap, hBehind⟩ := exists_gap_of_fits h.fits (Nat.zero_lt_of_lt hLt) hSource
  have hSpan : span = ⟨s.lexeme.start,
      s.lexeme.start + ((text.drop s.lexeme.start).take (u.previousStop - s.lexeme.start)).length,
      span.name?⟩ := by
    rw [← hText.length]
    exact h.span
  cases comma with
  | false =>
      obtain ⟨-, rfl⟩ := h.ends
      exact ⟨⟨span.name?, _, gap, none⟩, ⟨⟨hBegins, fun _ => h.key.isIdentifier⟩, hGap, by rintro _ ⟨⟩⟩, rfl, hSpan,
        hText.trans hBehind⟩
  | true =>
      obtain ⟨hComma, ht, hStop⟩ := h.ends
      obtain ⟨-, hCommaPiece⟩ := piece_of_delimiter (c := ',') h.fits hComma (by decide)
      have hPositive : 0 < t.previousStop := by rw [hStop, hCommaPiece.length]; exact Nat.succ_pos _
      obtain ⟨after, hAfter, hLast⟩ := exists_gap_of_fits ht hPositive hNext
      rw [hStop] at hLast
      exact ⟨⟨span.name?, _, gap, some after⟩,
        ⟨⟨hBegins, fun _ => h.key.isIdentifier⟩, hGap, by rintro _ ⟨⟩; exact hAfter⟩, rfl, hSpan,
        hText.trans (hBehind.trans (hCommaPiece.trans hLast))⟩

theorem spansFrom_cons (position : Nat) (p : Property) (rest : List Property) :
    spansFrom position (p :: rest) =
      ⟨position, position + p.text.length, p.name?⟩ :: spansFrom (position + p.written.length) rest := rfl

/-- Nothing is read at the closing brace. -/
theorem eq_nil_of_brace {fuel : Nat} {found : List ((PropertySpan × Option (List Nat)) × Bool)}
    (hToken : s.lexeme.token = .punct .rightBrace)
    (h : Rule.manyWithin fuel (commaItem .rightBrace objectItem) env s = some (found, t)) : found = [] := by
  cases fuel with
  | zero => cases h
  | succ fuel =>
      cases (Rule.manyWithin_none (commaItem_close hToken)).symm.trans h
      rfl

/-- The properties of an object literal are laid out up to its closing brace. -/
theorem exists_properties (hEnv : Env.Sound env text good) {fuel : Nat}
    {found : List ((PropertySpan × Option (List Nat)) × Bool)} (hs : s.Fits text)
    (h : Rule.manyWithin fuel (commaItem .rightBrace objectItem) env s = some (found, t)) :
    s.lexeme.source ≠ [] ∧ t.Fits text ∧ t.lexeme.token = .punct .rightBrace ∧ ∃ properties : List Property,
      (∀ p ∈ properties, p.WellFormed .any) ∧ Separated properties ∧
      found.map (·.1.1) = spansFrom s.lexeme.start properties ∧
      Piece text s.lexeme.start (writtenAll properties) t.lexeme.start := by
  induction fuel generalizing s found with
  | zero => cases h
  | succ fuel ih =>
      obtain ⟨item?, u, hItem, hRest⟩ := Rule.bind_eq_some.mp h
      have hTurn := ensures_commaItem hEnv hs item? u hItem
      cases item? with
      | none =>
          cases hRest
          obtain ⟨rfl, hToken⟩ := hTurn
          have hSource := (piece_of_delimiter (c := '\x7d') hs hToken (by decide)).1
          exact ⟨hSource, hs, hToken, [], by simp, by simp [Separated], rfl, rfl, rfl⟩
      | some item =>
          obtain ⟨⟨span, target?⟩, comma⟩ := item
          obtain ⟨more, w, hMore, hPure⟩ := Rule.bind_eq_some.mp hRest
          cases hPure
          obtain ⟨v, hTurn⟩ := hTurn
          have hu : u.Fits text := (Rule.Advances.reaches (r := commaItem .rightBrace objectItem) hEnv hs hItem).fits
          obtain ⟨hSource, ht, hToken, properties, hWell, hSeparated, hSpans, hPiece⟩ := ih hu hMore
          obtain ⟨p, hp, hComma, hSpan, hFirst⟩ := hTurn.exists_property hs hSource
          refine ⟨?_, ht, hToken, p :: properties, ?_, ?_, ?_, ?_⟩
          · obtain ⟨-, c, rest, hFirstSource, -⟩ := hs.standsIn.heads.begins hTurn.key.leads
            simp [hFirstSource]
          · simpa using ⟨hp, hWell⟩
          · cases properties with
            | nil => exact separated_singleton p
            | cons q rest =>
                refine separated_cons_cons.mpr ⟨hComma.trans ?_, hSeparated⟩
                cases comma with
                | true => rfl
                | false =>
                    obtain ⟨hBrace, rfl⟩ := hTurn.ends
                    cases eq_nil_of_brace hBrace hMore
                    cases hSpans
          · rw [List.map_cons, hSpans, spansFrom_cons, hSpan, hFirst.length]
          · simpa [writtenAll, List.flatMap_cons] using hFirst.trans hPiece

/-- The items of a literal are the turns of a repetition. -/
theorem ensures_items (s : State) :
    (do
      let items ← Rule.many (commaItem .rightBrace objectItem)
      return (items.map (·.1), items.getLast?.any (·.2)) :
      Rule (List (PropertySpan × Option (List Nat)) × Bool)).Ensures env s fun found t =>
        ∃ items, found.1 = items.map (·.1) ∧
          Rule.manyWithin env.level (commaItem .rightBrace objectItem) env s = some (items, t) := by
  intro found t h
  obtain ⟨items, v, hMany, hPure⟩ := Rule.bind_eq_some.mp h
  cases hPure
  exact ⟨items, rfl, hMany⟩

/-- An object literal is reported where it is laid out. -/
theorem ensures_objectLiteral (hEnv : Env.Sound env text good) (hs : s.Fits text) :
    Rule.objectLiteral.Ensures env s fun operand _ =>
      ∀ literal, operand.object? = some literal → LaidOutIn text literal := by
  rw [objectLiteral_eq, commaList_eq]
  refine Rule.ensures_bind_of_eq (Rule.position_run env s) ?_
  refine (ensures_expect .leftBrace hEnv hs).bind fun _ u hRead => ?_
  obtain ⟨hOpen, hu, hFront⟩ := hRead
  refine (ensures_items u).bind fun read v hRead => ?_
  obtain ⟨found, _⟩ := read
  obtain ⟨items, hFound, hItems⟩ := hRead
  obtain ⟨hSource, hv, hClose, properties, hWell, hSeparated, hSpans, hPiece⟩ := exists_properties hEnv hu hItems
  refine (ensures_expect .rightBrace hEnv hv).bind fun _ t hRead => ?_
  obtain ⟨_, ht, hStop⟩ := hRead
  refine Rule.ensures_bind_of_eq (Rule.previousStop_run env t) (Rule.ensures_pure ?_)
  rintro _ ⟨⟩
  obtain ⟨hFirst, hOpening⟩ := piece_of_delimiter (c := '\x7b') hs hOpen (by decide)
  obtain ⟨-, hClosing⟩ := piece_of_delimiter (c := '\x7d') hv hClose (by decide)
  have hPositive : 0 < u.previousStop := by
    rw [hFront, hOpening.length]
    exact Nat.succ_pos _
  obtain ⟨front, hGap, hBehind⟩ := exists_gap_of_fits hu hPositive hSource
  rw [hFront] at hBehind
  have hLength : (text.take s.lexeme.start).length = s.lexeme.start :=
    List.length_take_of_le (start_le_of_standsIn hs.standsIn hFirst)
  refine ⟨text.take s.lexeme.start, text.drop v.lexeme.stop, ⟨front, properties⟩, ?_, ⟨hGap, hWell, hSeparated⟩, ?_⟩
  · have hWhole := hOpening.trans (hBehind.trans (hPiece.trans hClosing))
    conv => lhs; rw [← List.take_append_drop s.lexeme.start text, hWhole.drop]
    simp [Layout.between, Layout.text]
  · have hSpan : (found.map (·.1)) = spansFrom u.lexeme.start properties := by
      obtain rfl := hFound
      rw [← hSpans, List.map_map]
      rfl
    have hInner : u.lexeme.start = s.lexeme.start + 1 + front.length := by
      rw [hBehind.length, hOpening.length]
      rfl
    have hEnd : t.previousStop = s.lexeme.start + (front ++ writtenAll properties).length + 2 := by
      rw [hStop, hClosing.length, (hBehind.trans hPiece).length, hOpening.length]
      simp only [List.length_append, List.length_cons, List.length_nil]
      omega
    simp only [Layout.literalAt, Layout.text, hLength, hSpan, hInner, hEnd]

end Items

end IconRegistry.Registry
