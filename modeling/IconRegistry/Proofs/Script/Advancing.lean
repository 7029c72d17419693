import IconRegistry.Proofs.Script.TokenPlaces

/-! Every rule of the grammar advances: it leaves the reading at a token that stands in the text, behind where the reading
was before. That is shown of the steps that rules are made of, and closed under the ways in which they are put
together; of the rules themselves it then follows from their parts. -/
namespace IconRegistry.Script

/-- Where a reading of a text stands: its token stands in the text, behind where the one before it stopped. At the front
of the text there may be more than a gap before a token. -/
structure State.Fits (s : State) (text : Text) : Prop where
  standsIn : s.lexeme.StandsIn text
  le : s.previousStop ≤ s.lexeme.start
  gap : s.lexeme.source ≠ [] → 0 < s.previousStop → ∃ gap, isGap gap = true ∧
    text.drop s.previousStop = gap ++ s.lexeme.source ∧ s.lexeme.start = s.previousStop + gap.length

/-- A state whose token stands behind what was read fits the text. -/
theorem State.Fits.of_standsBehind {s : State} {text : Text} (h : s.lexeme.StandsBehind text s.previousStop) :
    s.Fits text where
  standsIn := h.standsIn
  le := h.le
  gap hSource _ := h.gap hSource

/-- Whether a reading fits depends on its token and on where the one before it stopped. -/
theorem State.Fits.congr {s t : State} {text : Text} (h : s.Fits text) (hLexeme : t.lexeme = s.lexeme)
    (hStop : t.previousStop = s.previousStop) : t.Fits text := by
  obtain ⟨standsIn, le, gap⟩ := h
  rw [← hLexeme] at standsIn le gap
  rw [← hStop] at le gap
  exact ⟨standsIn, le, gap⟩

/-- One reading of a text is reached from another one: it fits, and it is no less far. -/
structure State.Reaches (s t : State) (text : Text) : Prop where
  fits : t.Fits text
  le : s.previousStop ≤ t.previousStop

theorem State.Fits.refl {s : State} {text : Text} (h : s.Fits text) : s.Reaches s text :=
  ⟨h, Nat.le_refl _⟩

/-- What is reached from a state that is reached is reached. -/
theorem State.Reaches.trans {s t u : State} {text : Text} (h : s.Reaches t text) (h' : t.Reaches u text) :
    s.Reaches u text :=
  ⟨h'.fits, Nat.le_trans h.le h'.le⟩

/-- What surrounds a rule in a module: the goals one level deeper advance, and what they yield is as it should be. -/
structure Env.Sound (env : Env) (text : Text) (good : (wanted : Goal) → wanted.Result → Prop) : Prop where
  isModule : env.dialect.isModule = true
  deeper : ∀ {wanted mode s a t}, s.Fits text → env.deeper wanted mode s = some (a, t) →
    s.Reaches t text ∧ good wanted a

namespace Rule

/-- A rule advances in every module. -/
class Advances {α : Type} (r : Rule α) : Prop where
  reaches : ∀ {text good env s a t}, Env.Sound env text good → s.Fits text → r env s = some (a, t) → s.Reaches t text

section Combinators

variable {α β : Type}

instance (a : α) : (pure a : Rule α).Advances where
  reaches _ hs h := by
    cases h
    exact hs.refl

instance : (failure : Rule α).Advances where
  reaches _ _ h := by cases h

instance Advances.bind {x : Rule α} {f : α → Rule β} [hx : x.Advances] [hf : ∀ a, (f a).Advances] :
    (x >>= f).Advances where
  reaches hEnv hs h := by
    obtain ⟨⟨a, u⟩, hFirst, hRest⟩ := Option.bind_eq_some_iff.mp h
    have hReaches := hx.reaches hEnv hs hFirst
    exact hReaches.trans ((hf a).reaches hEnv hReaches.fits hRest)

/-- A rule that goes on with what is read first. -/
theorem Advances.first {x : Rule α} {f : α → Rule β} [x.Advances] (h : ∀ a, (f a).Advances) : (x >>= f).Advances :=
  .bind

instance {p : Prop} [Decidable p] {x y : Rule α} [x.Advances] [y.Advances] : (if p then x else y : Rule α).Advances := by
  split <;> infer_instance

instance (wanted : Goal) : @Advances (no_index wanted.Result) (goal wanted) where
  reaches hEnv hs h := (hEnv.deeper hs h).1

instance (change : Mode → Mode) {r : Rule α} [hr : r.Advances] : (withMode change r).Advances where
  reaches {text _ env _ _ _} hEnv hs h := by
    have hChanged : Env.Sound { env with mode := change env.mode } text _ := ⟨hEnv.isModule, hEnv.deeper⟩
    exact hr.reaches hChanged hs h

/-- A change of what else a reading carries along. -/
theorem Advances.modify {f : State → State} (hLexeme : ∀ s, (f s).lexeme = s.lexeme)
    (hStop : ∀ s, (f s).previousStop = s.previousStop) : (modify f : Rule Unit).Advances where
  reaches {_ _ _ s _ _} _ hs h := by
    cases h
    exact ⟨hs.congr (hLexeme s) (hStop s), Nat.le_of_eq (hStop s).symm⟩

instance {r : Rule α} [hr : r.Advances] : (attempt r).Advances where
  reaches {_ _ env s _ _} hEnv hs h := by
    rw [attempt] at h
    split at h
    · rename_i hRun
      cases h
      exact hr.reaches hEnv hs hRun
    · cases h
      exact hs.refl

/-- A look ahead reads nothing. -/
instance {r : Rule Bool} : (ahead r).Advances where
  reaches {_ _ env s _ _} _ hs h := by
    obtain ⟨answer, hAhead⟩ := exists_ahead env s r
    cases hAhead.symm.trans h
    exact hs.refl

instance {r : Rule Bool} : (afterToken r).Advances := by
  unfold afterToken
  infer_instance

instance {r : Rule Prospect} : (prospect r).Advances where
  reaches _ hs h := by
    rw [prospect] at h
    split at h
    all_goals
      cases h
      exact hs.refl

/-- A repetition of what advances advances. -/
theorem Advances.manyWithin {r : Rule (Option α)} [hr : r.Advances] (fuel : Nat) : (manyWithin fuel r).Advances := by
  induction fuel with
  | zero => exact inferInstanceAs (failure : Rule (List α)).Advances
  | succ fuel ih =>
      unfold Rule.manyWithin
      refine .first fun found => ?_
      cases found <;> infer_instance

instance Advances.many {r : Rule (Option α)} [r.Advances] : (many r).Advances where
  reaches {_ _ env _ _ _} hEnv hs h := (Advances.manyWithin env.level).reaches hEnv hs h

theorem Advances.extendWithin {r : α → Rule (Option α)} [hr : ∀ a, (r a).Advances] (fuel : Nat) (a : α) :
    (extendWithin fuel a r).Advances := by
  induction fuel generalizing a with
  | zero => exact inferInstanceAs (failure : Rule α).Advances
  | succ fuel ih =>
      unfold Rule.extendWithin
      refine @Advances.bind _ _ _ _ (hr a) fun found => ?_
      cases found with
      | none => infer_instance
      | some b => exact ih b

instance Advances.extend (a : α) {r : α → Rule (Option α)} [∀ a, (r a).Advances] : (extend a r).Advances where
  reaches {_ _ env _ _ _} hEnv hs h := (Advances.extendWithin env.level a).reaches hEnv hs h

instance (items : List α) {f : α → Rule PUnit} [∀ a, (f a).Advances] : (items.forM f).Advances := by
  induction items with
  | nil => exact inferInstanceAs (pure ⟨⟩ : Rule PUnit).Advances
  | cons a items ih => exact inferInstanceAs (f a >>= fun _ => items.forM f).Advances

end Combinators

section Steps

instance : lexeme.Advances where
  reaches _ hs h := by
    cases h
    exact hs.refl

instance : mode.Advances where
  reaches _ hs h := by
    cases h
    exact hs.refl

instance : dialect.Advances where
  reaches _ hs h := by
    cases h
    exact hs.refl

instance : previousStop.Advances where
  reaches _ hs h := by
    cases h
    exact hs.refl

instance : (get : Rule State).Advances where
  reaches _ hs h := by
    cases h
    exact hs.refl

instance : token.Advances := by
  unfold token
  infer_instance

instance : position.Advances := by
  unfold position
  infer_instance

instance : onNewLine.Advances := by
  unfold onNewLine
  infer_instance

/-- A step leads behind the current token, if the next one is cut from what stands there. -/
theorem reaches_stepWith {cut : Nat → Text → Lexeme} {text : Text} {env : Env} {s t : State} {a : Unit}
    (hCut : ∀ {position rest}, rest = text.drop position → (cut position rest).StandsBehind text position)
    (hs : s.Fits text) (h : stepWith cut env s = some (a, t)) : t.Fits text ∧ t.previousStop = s.lexeme.stop := by
  cases h
  exact ⟨.of_standsBehind (hCut hs.standsIn.rest), rfl⟩

/-- A step advances if the token that it cuts stands behind the last one. -/
theorem advances_stepWith {cut : Nat → Text → Lexeme}
    (hCut : ∀ {text position rest}, rest = text.drop position → (cut position rest).StandsBehind text position) :
    (stepWith cut).Advances where
  reaches _ hs h := by
    obtain ⟨ht, hStop⟩ := reaches_stepWith hCut hs h
    exact ⟨ht, hStop ▸ Nat.le_trans hs.le hs.standsIn.le⟩

/-- In a module a step leads behind the current token. -/
theorem reaches_step {text : Text} {env : Env} {s t : State} {a : Unit} (hModule : env.dialect.isModule = true)
    (hs : s.Fits text) (h : step env s = some (a, t)) : t.Fits text ∧ t.previousStop = s.lexeme.stop := by
  simp only [step, bind_run, dialect_run, Option.bind_some, hModule, Bool.not_true] at h
  exact reaches_stepWith (fun hs => Lexeme.next_standsBehind hs false) hs h

instance : step.Advances where
  reaches hEnv hs h := by
    obtain ⟨ht, hStop⟩ := reaches_step hEnv.isModule hs h
    exact ⟨ht, hStop ▸ Nat.le_trans hs.le hs.standsIn.le⟩

/-- A token that is cut again as one that heads the same text stands where it did. -/
theorem reaches_recut {t : Token} {length : Nat} {text : Text} {env : Env} {s u : State} {a : Unit}
    (heads : t.Heads length s.lexeme.source) (hs : s.Fits text) (h : recut t length env s = some (a, u)) :
    s.Reaches u text := by
  cases h
  exact ⟨⟨.cut hs.standsIn.source heads _, hs.le, hs.gap⟩, Nat.le_refl _⟩

theorem advances_recut {t : Token} (h : t.matters = false) (length : Nat) : (recut t length).Advances where
  reaches _ hs hRun := reaches_recut (.of_other h _ _) hs hRun

/-- In front of a step it does not matter what the current token is cut again as. -/
instance (t : Token) (length : Nat) : (recut t length >>= fun _ => step).Advances where
  reaches {text _ env s _ u} hEnv hs h := by
    have hRest : (s.lexeme.source.drop length) = text.drop (s.lexeme.start + length) := by
      rw [hs.standsIn.source, List.drop_drop]
    simp only [bind_run, step, dialect_run, Option.bind_some, hEnv.isModule, Bool.not_true] at h
    cases h
    exact ⟨.of_standsBehind (Lexeme.next_standsBehind hRest false), Nat.le_trans hs.le (Nat.le_add_right ..)⟩

instance {α : Type} (t : Token) (length : Nat) {f : Unit → Rule α} [∀ a, (f a).Advances] :
    (recut t length >>= fun _ => step >>= f).Advances :=
  inferInstanceAs ((recut t length >>= fun _ => step) >>= f).Advances

instance : (stepWith Lexeme.nextJsx).Advances :=
  advances_stepWith Lexeme.nextJsx_standsBehind

/-- A step to where the value of an attribute may stand. -/
instance : (dialect >>= fun d => stepWith (Lexeme.nextJsxValue !d.isModule)).Advances where
  reaches {_ _ env s _ _} hEnv hs h := by
    simp only [bind_run, dialect_run, Option.bind_some, hEnv.isModule, Bool.not_true] at h
    exact (advances_stepWith Lexeme.nextJsxValue_standsBehind).reaches hEnv hs h

instance {α : Type} {f : Unit → Rule α} [∀ a, (f a).Advances] :
    (dialect >>= fun d => stepWith (Lexeme.nextJsxValue !d.isModule) >>= f).Advances :=
  inferInstanceAs ((dialect >>= fun d => stepWith (Lexeme.nextJsxValue !d.isModule)) >>= f).Advances

end Steps

section Core

instance : flaw.Advances :=
  .modify (fun _ => rfl) fun _ => rfl

instance (condition : Bool) : (flawIf condition).Advances := by
  unfold flawIf
  infer_instance

instance (p : Punct) : (atPunct p).Advances := by
  unfold atPunct
  infer_instance

instance (ps : List Punct) : (atAnyPunct ps).Advances := by
  unfold atAnyPunct
  repeat' first | infer_instance | refine .first fun _ => ?_ | split

instance (word : String) : (atWord word).Advances := by
  unfold atWord
  infer_instance

instance (words : List String) : (atAnyWord words).Advances := by
  unfold atAnyWord
  repeat' first | infer_instance | refine .first fun _ => ?_ | split

instance (p : Punct) : (eat p).Advances := by
  unfold eat
  infer_instance

instance (word : String) : (eatWord word).Advances := by
  unfold eatWord
  infer_instance

instance (p : Punct) : (expect p).Advances := by
  unfold expect
  infer_instance

instance (word : String) : (expectWord word).Advances := by
  unfold expectWord
  infer_instance

instance {α : Type} (close : Punct) (item : Rule α) [item.Advances] : (commaList close item).Advances := by
  unfold commaList
  infer_instance

instance {α : Type} (item : Rule α) [item.Advances] : (separated item).Advances := by
  unfold separated
  infer_instance

instance : atName.Advances := by
  unfold atName
  repeat' first | infer_instance | refine .first fun _ => ?_ | split

instance : atIdentifier.Advances := by
  unfold atIdentifier
  repeat' first | infer_instance | refine .first fun _ => ?_ | split

instance : name.Advances := by
  unfold name
  repeat' first | infer_instance | refine .first fun _ => ?_ | split

instance : identifier.Advances := by
  unfold identifier
  repeat' first | infer_instance | refine .first fun _ => ?_ | split

instance : atString.Advances := by
  unfold atString
  repeat' first | infer_instance | refine .first fun _ => ?_ | split

instance : string.Advances := by
  unfold string
  repeat' first | infer_instance | refine .first fun _ => ?_ | split

instance : canEndStatement.Advances := by
  unfold canEndStatement
  repeat' first | infer_instance | refine .first fun _ => ?_ | split

instance : endStatement.Advances := by
  unfold endStatement
  infer_instance

instance : joinGreater.Advances := by
  unfold joinGreater
  refine .first fun l => ?_
  split
  · rename_i hOperator
    have := advances_recut (not_matters_of_greaterOperator? hOperator)
    infer_instance
  · infer_instance

instance : splitLess.Advances := by
  unfold splitLess
  have := advances_recut (t := .punct .less) rfl
  refine .first fun l => ?_
  split <;> infer_instance

instance : expectGreater.Advances := by
  unfold expectGreater
  have := advances_recut (t := .punct .greater) rfl
  refine .first fun l => ?_
  split <;> infer_instance

instance (target? : Option (List Nat)) : (assignTo target?).Advances := by
  unfold assignTo
  split
  · infer_instance
  · exact .modify (fun _ => rfl) fun _ => rfl

instance : expressionWithIn.Advances := by
  unfold expressionWithIn
  infer_instance

instance : assignmentWithIn.Advances := by
  unfold assignmentWithIn
  infer_instance

end Core

end Rule

end IconRegistry.Script
