import IconRegistry.Proofs.Command.Batching

/-! Batches that are run again. A run leaves each name with the component that it writes last, and a second run writes
no other components. So the second run comes back to where it began, although names may be written several times on the
way. -/
namespace IconRegistry

open Component

def Outcome.isReplaced : Outcome → Bool
  | replaced _ => true
  | _ => false

/-- What may be told of an icon by a run that finds everything as an earlier run over it left it. -/
def Outcome.Repeated (mode : AddMode) (outcome : Outcome) : Prop :=
  outcome.isFailed = true ∨ mode ≠ .upsert ∧ outcome.isSkipped = true ∨ mode ≠ .add ∧ outcome.isReplaced = true

/-- An icon that is added again is skipped or fails again. -/
theorem Outcome.Repeated.of_add {outcome : Outcome} (h : outcome.Repeated .add) :
    outcome.isSkipped = true ∨ outcome.isFailed = true := by
  rcases h with hFailed | ⟨-, hSkipped⟩ | ⟨hMode, -⟩
  · exact .inr hFailed
  · exact .inl hSkipped
  · exact absurd rfl hMode

/-- One that is put in again is replaced or fails again. -/
theorem Outcome.Repeated.of_upsert {outcome : Outcome} (h : outcome.Repeated .upsert) :
    outcome.isReplaced = true ∨ outcome.isFailed = true := by
  rcases h with hFailed | ⟨hMode, -⟩ | ⟨-, hReplaced⟩
  · exact .inr hFailed
  · exact absurd rfl hMode
  · exact .inl hReplaced

namespace Command

/-- The component that a run over icons writes last under a name, where it finds certain names registered. -/
def lastWrite (mode : AddMode) (registered : Text → Bool) (made : Text → Option Text) : List Text → Text → Option Text
  | [], _ => none
  | icon :: rest, name =>
    (lastWrite mode registered made rest name).or
      (if nameOf icon = name ∧ mode.skipReason? (registered name) = none then made icon else none)

/-- Where a run comes to rest: it has registered what it could, and each name has what was written last under it. -/
structure Settled (mode : AddMode) (registered : Text → Bool) (value made : Text → Option Text) (icons : List Text) :
    Prop where
  complete : mode ≠ .replace → ∀ icon ∈ icons, (made icon).isSome = true → registered (nameOf icon) = true
  current : ∀ name component, lastWrite mode registered made icons name = some component → value name = some component

/-- Steps that keep what is registered, and write the components of icons under their names. -/
structure Tracks {σ : Type} (step : σ → Text → σ → Outcome → Prop) (mode : AddMode) (made : Text → Option Text)
    (registered : σ → Text → Bool) (value : σ → Text → Option Text) (icons : List Text) : Prop where
  kept : ∀ {s icon s' outcome}, step s icon s' outcome → icon ∈ icons → ∀ other ∈ icons,
    registered s (nameOf other) = true → registered s' (nameOf other) = true
  closed : mode = .replace → ∀ {s icon s' outcome}, step s icon s' outcome → icon ∈ icons → ∀ other ∈ icons,
    registered s' (nameOf other) = true → registered s (nameOf other) = true
  written : ∀ {s icon s' outcome component}, step s icon s' outcome → icon ∈ icons →
    mode.skipReason? (registered s (nameOf icon)) = none → made icon = some component →
    registered s' (nameOf icon) = true ∧ value s' (nameOf icon) = some component
  held : ∀ {s icon s' outcome component}, step s icon s' outcome → icon ∈ icons → ∀ other ∈ icons,
    value s (nameOf other) = some component → (nameOf icon = nameOf other → made icon = none) →
    value s' (nameOf other) = some component

/-- Steps that can be taken from a state that is like a settled one, but for components that are still to be written. -/
structure Rewrites {σ : Type} (step : σ → Text → σ → Outcome → Prop) (mode : AddMode) (made : Text → Option Text)
    (registered : Text → Bool) (like : (Text → Option Text) → σ → Prop) (icons : List Text) : Prop where
  skipped : ∀ {pending s icon reason}, like pending s → icon ∈ icons →
    mode.skipReason? (registered (nameOf icon)) = some reason → step s icon s (.skipped icon reason)
  failed : ∀ {pending s icon}, like pending s → icon ∈ icons →
    mode.skipReason? (registered (nameOf icon)) = none → made icon = none →
    ∃ outcome, step s icon s outcome ∧ outcome.isFailed = true
  replaced : ∀ {pending s icon component},
    like (fun name => (pending name).or (if nameOf icon = name then some component else none)) s → icon ∈ icons →
    mode.skipReason? (registered (nameOf icon)) = none → registered (nameOf icon) = true →
    made icon = some component → ∃ s', step s icon s' (.replaced icon) ∧ like pending s'

namespace Steps

variable {σ : Type} {step other : σ → Text → σ → Outcome → Prop} {relation : σ → σ → Prop} {holds : σ → Prop} {a b : σ}
  {icons : List Text} {outcomes : List Outcome}

theorem imp (h : ∀ s icon s' outcome, step s icon s' outcome → other s icon s' outcome)
    (steps : Steps step a icons b outcomes) : Steps other a icons b outcomes := by
  induction steps with
  | nil => exact .nil
  | cons first _ ih => exact .cons (h _ _ _ _ first) ih

/-- What each step preserves holds in front of each step, and in the end. -/
theorem holding (h : ∀ {s icon s' outcome}, icon ∈ icons → step s icon s' outcome → holds s → holds s') (hFirst : holds a)
    (steps : Steps step a icons b outcomes) :
    Steps (fun s icon s' outcome => step s icon s' outcome ∧ holds s) a icons b outcomes ∧ holds b := by
  induction steps with
  | nil => exact ⟨.nil, hFirst⟩
  | cons first _ ih =>
      obtain ⟨others, hEnd⟩ := ih (fun hIcon => h (List.mem_cons_of_mem _ hIcon)) (h List.mem_cons_self first hFirst)
      exact ⟨.cons ⟨first, hFirst⟩ others, hEnd⟩

/-- What relates a state to the next one relates all states that steps go through. -/
theorem between (refl : ∀ s, relation s s) (trans : ∀ {s t u}, relation s t → relation t u → relation s u)
    (h : ∀ {s icon s' outcome}, step s icon s' outcome → relation s s') (steps : Steps step a icons b outcomes) :
    relation a b ∧
      Steps (fun s icon s' outcome => step s icon s' outcome ∧ relation a s ∧ relation s b) a icons b outcomes := by
  induction steps with
  | nil => exact ⟨refl _, .nil⟩
  | cons first _ ih =>
      have hFirst := h first
      obtain ⟨hRest, others⟩ := ih
      refine ⟨trans hFirst hRest, .cons ⟨first, refl _, trans hFirst hRest⟩ (others.imp ?_)⟩
      rintro s icon s' outcome ⟨hStep, hBefore, hAfter⟩
      exact ⟨hStep, trans hFirst hBefore, hAfter⟩

end Steps

section

variable {σ : Type} {step : σ → Text → σ → Outcome → Prop} {mode : AddMode} {made : Text → Option Text}
  {registered : Text → Bool} {icon name component : Text} {batch icons : List Text} {outcomes : List Outcome}

/-- A name that is registered is skipped by additions only. -/
theorem skipReason?_eq_none : mode.skipReason? true = none ↔ mode ≠ .add := by
  cases mode <;> simp [AddMode.skipReason?]

theorem registered_of_skipReason? {found : Bool} (hMode : mode = .replace) (h : mode.skipReason? found = none) :
    found = true := by
  subst hMode
  cases found <;> simp_all [AddMode.skipReason?]

/-- Only names that were found registered are skipped for it, and only those that were not for the other reason. -/
theorem skipReason?_eq_none_of_imp {found later : Bool} (h : mode.skipReason? later = none)
    (hKept : found = true → later = true) (hClosed : mode = .replace → later = true → found = true) :
    mode.skipReason? found = none := by
  cases mode <;> cases found <;> cases later <;> simp_all [AddMode.skipReason?]

/-- The last icon of a name that could be written decides. -/
theorem lastWrite_cons (mode : AddMode) (registered : Text → Bool) (made : Text → Option Text) (icon : Text)
    (rest : List Text) (name : Text) : lastWrite mode registered made (icon :: rest) name =
      (lastWrite mode registered made rest name).or
        (if nameOf icon = name ∧ mode.skipReason? (registered name) = none then made icon else none) := rfl

/-- An icon whose component is not written makes no difference. -/
theorem lastWrite_cons_of_idle (h : mode.skipReason? (registered (nameOf icon)) = none → made icon = none)
    (rest : List Text) : lastWrite mode registered made (icon :: rest) = lastWrite mode registered made rest := by
  funext name
  rw [lastWrite_cons]
  split_ifs with hName
  · obtain ⟨rfl, hSkip⟩ := hName
    rw [h hSkip, Option.or_none]
  · rw [Option.or_none]

theorem lastWrite_cons_of_written (hSkip : mode.skipReason? (registered (nameOf icon)) = none)
    (hMade : made icon = some component) (rest : List Text) :
    lastWrite mode registered made (icon :: rest) = fun name =>
      (lastWrite mode registered made rest name).or (if nameOf icon = name then some component else none) := by
  funext name
  rw [lastWrite_cons, hMade]
  by_cases hName : nameOf icon = name
  · subst hName
    simp [hSkip]
  · simp [hName]

/-- Where nothing is written under a name that is not skipped, nothing is made for it. -/
theorem made_eq_none_of_lastWrite (h : lastWrite mode registered made batch name = none)
    (hSkip : mode.skipReason? (registered name) = none) : ∀ icon ∈ batch, nameOf icon = name → made icon = none := by
  induction batch with
  | nil => simp
  | cons first rest ih =>
      rw [lastWrite_cons, Option.or_eq_none_iff] at h
      rw [List.forall_mem_cons]
      exact ⟨fun hName => by simpa [hName, hSkip] using h.2, ih h.1⟩

namespace Tracks

variable {registered : σ → Text → Bool} {value : σ → Text → Option Text} {s s' : σ} {other : Text}

/-- Names stay registered along a run. -/
theorem kept_of_steps (h : Tracks step mode made registered value icons) (steps : Steps step s batch s' outcomes)
    (hBatch : ∀ icon ∈ batch, icon ∈ icons) (hOther : other ∈ icons) (hRegistered : registered s (nameOf other) = true) :
    registered s' (nameOf other) = true := by
  induction steps with
  | nil => exact hRegistered
  | cons first _ ih =>
      obtain ⟨hIcon, hRest⟩ := List.forall_mem_cons.mp hBatch
      exact ih hRest (h.kept first hIcon other hOther hRegistered)

/-- Replacements register no names. -/
theorem closed_of_steps (h : Tracks step mode made registered value icons) (hMode : mode = .replace)
    (steps : Steps step s batch s' outcomes) (hBatch : ∀ icon ∈ batch, icon ∈ icons) (hOther : other ∈ icons)
    (hRegistered : registered s' (nameOf other) = true) : registered s (nameOf other) = true := by
  induction steps with
  | nil => exact hRegistered
  | cons first _ ih =>
      obtain ⟨hIcon, hRest⟩ := List.forall_mem_cons.mp hBatch
      exact h.closed hMode first hIcon other hOther (ih hRest hRegistered)

/-- A component stays where no icon of its name could be made. -/
theorem held_of_steps (h : Tracks step mode made registered value icons) (steps : Steps step s batch s' outcomes)
    (hBatch : ∀ icon ∈ batch, icon ∈ icons) (hOther : other ∈ icons) (hHeld : value s (nameOf other) = some component)
    (hNone : ∀ icon ∈ batch, nameOf icon = nameOf other → made icon = none) :
    value s' (nameOf other) = some component := by
  induction steps with
  | nil => exact hHeld
  | cons first _ ih =>
      obtain ⟨hIcon, hRest⟩ := List.forall_mem_cons.mp hBatch
      obtain ⟨hFirst, hOthers⟩ := List.forall_mem_cons.mp hNone
      exact ih hRest (h.held first hIcon other hOther hHeld hFirst) hOthers

/-- But for replacements, all that could be made is registered in the end. -/
theorem registered_of_steps (h : Tracks step mode made registered value icons) (hMode : mode ≠ .replace)
    (steps : Steps step s batch s' outcomes) (hBatch : ∀ icon ∈ batch, icon ∈ icons) :
    ∀ icon ∈ batch, (made icon).isSome = true → registered s' (nameOf icon) = true := by
  induction steps with
  | nil => simp
  | @cons s between s' icon rest outcome outcomes first others ih =>
      obtain ⟨hIcon, hRest⟩ := List.forall_mem_cons.mp hBatch
      refine List.forall_mem_cons.mpr ⟨fun hMade => ?_, ih hRest⟩
      refine h.kept_of_steps others hRest hIcon ?_
      cases hBefore : registered s (nameOf icon) with
      | true => exact h.kept first hIcon icon hIcon hBefore
      | false =>
          obtain ⟨component, hMade⟩ := Option.isSome_iff_exists.mp hMade
          have hSkip : mode.skipReason? (registered s (nameOf icon)) = none := by
            rw [hBefore]
            cases mode <;> first | rfl | exact absurd rfl hMode
          exact (h.written first hIcon hSkip hMade).1

/-- In the end, a name has the component that was written last. -/
theorem value_of_lastWrite (h : Tracks step mode made registered value icons) (steps : Steps step s batch s' outcomes)
    (hBatch : ∀ icon ∈ batch, icon ∈ icons)
    (hLast : lastWrite mode (registered s') made batch name = some component) : value s' name = some component := by
  induction steps with
  | nil => cases hLast
  | @cons s between s' icon rest outcome outcomes first others ih =>
      obtain ⟨hIcon, hRest⟩ := List.forall_mem_cons.mp hBatch
      rw [lastWrite_cons, Option.or_eq_some_iff] at hLast
      rcases hLast with hLater | ⟨hNone, hNow⟩
      · exact ih hRest hLater
      · split at hNow
        · rename_i hName
          obtain ⟨rfl, hSkip⟩ := hName
          -- the name was not skipped in front of the run either, and nothing is written under it behind this icon
          have steps := Steps.cons first others
          have hFirst : mode.skipReason? (registered s (nameOf icon)) = none :=
            skipReason?_eq_none_of_imp hSkip (h.kept_of_steps steps hBatch hIcon)
              fun hMode => h.closed_of_steps hMode steps hBatch hIcon
          exact h.held_of_steps others hRest hIcon (h.written first hIcon hFirst hNow).2
            (made_eq_none_of_lastWrite hNone hSkip)
        · cases hNow

/-- A run comes to rest. -/
theorem settled (h : Tracks step mode made registered value icons) (steps : Steps step s icons s' outcomes) :
    Settled mode (registered s') (value s') made icons :=
  ⟨fun hMode => h.registered_of_steps hMode steps fun _ => id,
    fun _ _ => h.value_of_lastWrite steps fun _ => id⟩

end Tracks

/-- From a state that is settled, a batch leads to one that is like it. -/
theorem Rewrites.exists_steps {like : (Text → Option Text) → σ → Prop} {s : σ}
    (h : Rewrites step mode made registered like icons)
    (hRegistered : mode ≠ .replace → ∀ icon ∈ icons, (made icon).isSome = true → registered (nameOf icon) = true)
    (hBatch : ∀ icon ∈ batch, icon ∈ icons) (hLike : like (lastWrite mode registered made batch) s) :
    ∃ s' outcomes, Steps step s batch s' outcomes ∧ like (fun _ => none) s' ∧
      ∀ outcome ∈ outcomes, outcome.Repeated mode := by
  -- what is still to be written is what the rest of the batch writes last
  induction batch generalizing s with
  | nil => exact ⟨s, [], .nil, hLike, by simp⟩
  | cons icon rest ih =>
      obtain ⟨hIcon, hRest⟩ := List.forall_mem_cons.mp hBatch
      cases hSkip : mode.skipReason? (registered (nameOf icon)) with
      | some reason =>
          rw [lastWrite_cons_of_idle (by simp [hSkip])] at hLike
          obtain ⟨s', outcomes, steps, hEnd, hTold⟩ := ih hRest hLike
          refine ⟨s', _, .cons (h.skipped hLike hIcon hSkip) steps, hEnd, List.forall_mem_cons.mpr ⟨?_, hTold⟩⟩
          refine .inr (.inl ⟨?_, rfl⟩)
          rintro rfl
          cases hSkip
      | none =>
          cases hMade : made icon with
          | none =>
              rw [lastWrite_cons_of_idle fun _ => hMade] at hLike
              obtain ⟨outcome, hStep, hFailed⟩ := h.failed hLike hIcon hSkip hMade
              obtain ⟨s', outcomes, steps, hEnd, hTold⟩ := ih hRest hLike
              exact ⟨s', _, .cons hStep steps, hEnd, List.forall_mem_cons.mpr ⟨.inl hFailed, hTold⟩⟩
          | some component =>
              have hThere : registered (nameOf icon) = true := by
                by_cases hMode : mode = .replace
                · exact registered_of_skipReason? hMode hSkip
                · exact hRegistered hMode icon hIcon (by simp [hMade])
              rw [lastWrite_cons_of_written hSkip hMade] at hLike
              obtain ⟨between, hStep, hBetween⟩ := h.replaced hLike hIcon hSkip hThere hMade
              obtain ⟨s', outcomes, steps, hEnd, hTold⟩ := ih hRest hBetween
              refine ⟨s', _, .cons hStep steps, hEnd, List.forall_mem_cons.mpr ⟨.inr (.inr ⟨?_, rfl⟩), hTold⟩⟩
              rw [hThere] at hSkip
              exact skipReason?_eq_none.mp hSkip

end

end Command

end IconRegistry
