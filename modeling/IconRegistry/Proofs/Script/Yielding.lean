import IconRegistry.Proofs.Script.Advancing

/-! What is known of a rule where it reads something: of a reading that it starts from, and, where the goals one level
deeper yield what they should, of what it yields. Both are shown of a rule along the ways in which it is put together. -/
namespace IconRegistry.Script.Rule

/-- What holds of all that a rule reads. -/
def Ensures {α : Type} (r : Rule α) (env : Env) (s : State) (post : α → State → Prop) : Prop :=
  ∀ a t, r env s = some (a, t) → post a t

section Ensures

variable {α β : Type} {env : Env} {s : State} {x r : Rule α} {f : α → Rule β} {mid post : α → State → Prop}
  {after : β → State → Prop}

/-- What a rule ensures, the rule behind it may rely on. -/
theorem Ensures.bind (h : x.Ensures env s mid) (hf : ∀ a u, mid a u → (f a).Ensures env u after) :
    (x >>= f).Ensures env s after := by
  intro b t hRun
  obtain ⟨a, u, hx, hRest⟩ := bind_eq_some.mp hRun
  exact hf a u (h a u hx) b t hRest

theorem ensures_pure {a : α} (h : post a s) : (pure a : Rule α).Ensures env s post := by
  rintro _ _ ⟨⟩
  exact h

theorem ensures_failure : (failure : Rule α).Ensures env s post := by
  rintro _ _ ⟨⟩

/-- What is known of the result of a rule that reads nothing. -/
theorem ensures_of_eq {a : α} (h : r env s = some (a, s)) : r.Ensures env s fun b t => b = a ∧ t = s := by
  intro b t hRun
  cases h.symm.trans hRun
  exact ⟨rfl, rfl⟩

/-- What is said with a rule that reads nothing, is said of what comes behind it. -/
theorem ensures_bind_of_eq {a : α} (h : x env s = some (a, s)) (hf : (f a).Ensures env s after) :
    (x >>= f).Ensures env s after :=
  (ensures_of_eq h).bind fun _ _ hSame => hSame.1 ▸ hSame.2 ▸ hf

variable {text : Text} {good : (wanted : Goal) → wanted.Result → Prop}

/-- A rule that advances ensures that it leads onwards. -/
theorem Advances.ensures [r.Advances] (hEnv : Env.Sound env text good) (hs : s.Fits text) :
    r.Ensures env s fun _ t => s.Reaches t text :=
  fun _ _ hRun => Advances.reaches hEnv hs hRun

theorem Ensures.and {post' : α → State → Prop} (h : r.Ensures env s post) (h' : r.Ensures env s post') :
    r.Ensures env s fun a t => post a t ∧ post' a t :=
  fun a t hRun => ⟨h a t hRun, h' a t hRun⟩

theorem Ensures.mono {post' : α → State → Prop} (h : r.Ensures env s post) (hPost : ∀ a t, post a t → post' a t) :
    r.Ensures env s post' :=
  fun a t hRun => hPost a t (h a t hRun)

/-- Whatever is read first, the rule behind it ensures what it should. -/
theorem ensures_skip (hf : ∀ a u, (f a).Ensures env u after) : (x >>= f).Ensures env s after := by
  have hAny : x.Ensures env s fun _ _ => True := fun _ _ _ => trivial
  exact hAny.bind fun a u _ => hf a u

/-- What is told without reading is known where the reading goes on. -/
theorem Ensures.bind_same {known : α → Prop} (h : x.Ensures env s fun a t => t = s ∧ known a)
    (hf : ∀ a, known a → (f a).Ensures env s after) : (x >>= f).Ensures env s after :=
  h.bind fun a _ hRead => hRead.1.symm ▸ hf a hRead.2

/-- Behind a rule that advances, the reading goes on at a place that is reached. -/
theorem Ensures.bind_onwards [x.Advances] (h : x.Ensures env s mid) (hEnv : Env.Sound env text good) (hs : s.Fits text)
    (hf : ∀ a u, mid a u → s.Reaches u text → (f a).Ensures env u after) : (x >>= f).Ensures env s after :=
  (h.and (Advances.ensures hEnv hs)).bind fun a u hRead => hf a u hRead.1 hRead.2

end Ensures

/-- What holds of all that a rule yields in a text, where it starts from a reading that fits. -/
structure Yields {α : Type} (r : Rule α) (text : Text) (good : (wanted : Goal) → wanted.Result → Prop)
    (post : α → Prop) : Prop where
  yields : ∀ {env s a t}, Env.Sound env text good → s.Fits text → r env s = some (a, t) → post a

namespace Yields

variable {α β : Type} {text : Text} {good : (wanted : Goal) → wanted.Result → Prop} {x r : Rule α} {f : α → Rule β}
  {mid post : α → Prop} {after : β → Prop}

theorem pure {a : α} (h : post a) : (Pure.pure a : Rule α).Yields text good post where
  yields _ _ hRun := by
    cases hRun
    exact h

theorem failure : (failure : Rule α).Yields text good post where
  yields _ _ hRun := by cases hRun

/-- What a rule yields, the rule behind it may rely on. -/
theorem bind [x.Advances] (h : x.Yields text good mid) (hf : ∀ a, mid a → (f a).Yields text good after) :
    (x >>= f).Yields text good after where
  yields hEnv hs hRun := by
    obtain ⟨a, u, hx, hRest⟩ := bind_eq_some.mp hRun
    exact (hf a (h.yields hEnv hs hx)).yields hEnv (Advances.reaches hEnv hs hx).fits hRest

/-- Whatever is read first, what a rule goes on with yields what it should. -/
theorem skip [x.Advances] (hf : ∀ a, (f a).Yields text good after) : (x >>= f).Yields text good after := by
  have hAny : x.Yields text good fun _ => True := ⟨fun _ _ _ => trivial⟩
  exact hAny.bind fun a _ => hf a

theorem goal (wanted : Goal) : (goal wanted).Yields text good (good wanted) where
  yields hEnv hs hRun := (hEnv.deeper hs hRun).2

theorem withMode (change : Mode → Mode) (h : r.Yields text good post) : (withMode change r).Yields text good post where
  yields {env _ _ _} hEnv hs hRun := by
    have hChanged : Env.Sound { env with mode := change env.mode } text good := ⟨hEnv.isModule, hEnv.deeper⟩
    exact h.yields hChanged hs hRun

/-- A repetition yields what each of its turns does. -/
theorem manyWithin {r : Rule (Option α)} [r.Advances] (h : r.Yields text good fun found => ∀ a, found = some a → post a)
    (fuel : Nat) : (manyWithin fuel r).Yields text good fun found => ∀ a ∈ found, post a := by
  induction fuel with
  | zero => exact failure
  | succ fuel ih =>
      have := Advances.manyWithin (r := r) fuel
      refine h.bind fun found hFound => ?_
      cases found with
      | none => exact .pure (by simp)
      | some a => exact ih.bind fun more hMore => .pure (List.forall_mem_cons.mpr ⟨hFound a rfl, hMore⟩)

theorem many {r : Rule (Option α)} [r.Advances] (h : r.Yields text good fun found => ∀ a, found = some a → post a) :
    (many r).Yields text good fun found => ∀ a ∈ found, post a where
  yields {env _ _ _} hEnv hs hRun := (manyWithin h env.level).yields hEnv hs hRun

theorem separated [r.Advances] (h : r.Yields text good post) :
    (separated r).Yields text good fun found => ∀ a ∈ found, post a := by
  unfold Rule.separated
  have hTurn : (do if ← eat .comma then return some (← r) else return none : Rule (Option α)).Yields text good
      fun found => ∀ a, found = some a → post a := by
    refine .skip fun comma => ?_
    split
    · exact h.bind fun a ha => .pure (by rintro _ ⟨⟩; exact ha)
    · exact .pure (by rintro _ ⟨⟩)
  exact h.bind fun first hFirst => hTurn.many.bind fun more hMore => .pure (List.forall_mem_cons.mpr ⟨hFirst, hMore⟩)

/-- An extension keeps what its first value and each turn have. -/
theorem extendWithin {r : α → Rule (Option α)} [∀ a, (r a).Advances]
    (h : ∀ a, post a → (r a).Yields text good fun found => ∀ b, found = some b → post b) (fuel : Nat) {a : α}
    (ha : post a) : (extendWithin fuel a r).Yields text good post := by
  induction fuel generalizing a with
  | zero => exact failure
  | succ fuel ih =>
      refine (h a ha).bind fun found hFound => ?_
      cases found with
      | none => exact .pure ha
      | some b => exact ih (hFound b rfl)

theorem extend {r : α → Rule (Option α)} [∀ a, (r a).Advances]
    (h : ∀ a, post a → (r a).Yields text good fun found => ∀ b, found = some b → post b) {a : α} (ha : post a) :
    (extend a r).Yields text good post where
  yields {env _ _ _} hEnv hs hRun := (extendWithin h env.level ha).yields hEnv hs hRun

end Yields

end IconRegistry.Script.Rule
