import IconRegistry.Command.List
import IconRegistry.Proofs.Command.Removing
import IconRegistry.Proofs.Command.Stepping
import IconRegistry.Proofs.Store.Holding

/-! Sequences of requests. What has to be answered is told by a set of names alone; a placement serves requests if it
answers so and goes on from the names that are left. Placements that serve the same requests agree. -/
namespace IconRegistry

open Config Component Registry

/-- What a project is asked for. -/
inductive Request
  | add (mode : AddMode) (icons : List Text)
  | remove (icons : List Text)
  | clear

def Request.icons : Request → List Text
  | add _ icons | remove icons => icons
  | clear => []

/-- Whether a command failed over a file that could not be read or changed. -/
def CommandError.isOfFile : CommandError → Bool
  | .file _ _ => true
  | _ => false

def Registry.Names.after (names : Names) (outcome : Outcome) : Names :=
  match outcome.written? with
  | some icon => names.set (nameOf icon) true
  | none => names

namespace Command

/-- Does what is asked for. -/
def serve (editor : Editor) (settings : Settings) : Request → Command (List Outcome)
  | .add mode icons => add editor settings icons mode
  | .remove icons => remove editor settings icons
  | .clear => do
    clear settings true
    return []

/-- The answer to a request: the outcomes, or why the command failed, and what is listed then. -/
structure Answer where
  result : Except CommandError (List Outcome)
  listed : Except CommandError (List Text)

/-- Whether the command failed over a file. -/
def Answer.failsOnFile (answer : Answer) : Bool :=
  (failure? answer.result).any CommandError.isOfFile

/-- The answers to requests, each from the workspace that the one before it left. -/
def answers (editor : Editor) (settings : Settings) : Workspace → List Request → List Answer
  | _, [] => []
  | w, request :: rest =>
    let (result, served) := (serve editor settings request).run.run w
    let (listed, told) := (list editor settings false).run.run served
    ⟨result, listed⟩ :: answers editor settings told rest

/-- Two answers with the same outcomes or the same failure, and with the same names, each listed once. -/
structure Answer.Agrees (a b : Answer) : Prop where
  result : a.result = b.result
  listed : ∃ names others, a.listed = .ok names ∧ b.listed = .ok others ∧ names.Nodup ∧ others.Nodup ∧
    ∀ name, name ∈ names ↔ name ∈ others

section

variable (made : Text → Except IconError Text)

/-- What is told of icons that are added to names, and the names then, given what their components come to. -/
def tellAdded (mode : AddMode) : Names → List Text → List Outcome × Names
  | names, [] => ([], names)
  | names, icon :: rest =>
    let outcome := outcomeOf mode (names (nameOf icon)) icon (made icon)
    let (outcomes, final) := tellAdded mode (names.after outcome) rest
    (outcome :: outcomes, final)

/-- What is told of icons that are removed from names, and the names then. -/
def tellRemoved (names : Names) (icons : List Text) : Except CommandError (List Outcome) × Names :=
  let missing := (mentioned icons).filter fun name => !names name
  if missing.isEmpty then
    (.ok ((distinctIcons [] icons).map .removed), names.without (mentioned icons))
  else (.error (.registry (.missingEntries missing)), names)

/-- What has to be answered to a request where certain names are registered, and the names then. -/
def tell (names : Names) : Request → Except CommandError (List Outcome) × Names
  | .add mode icons =>
    let (outcomes, final) := tellAdded made mode names icons
    (.ok outcomes, final)
  | .remove icons => tellRemoved names icons
  | .clear => (.ok [], fun _ => false)

/-- Settings serve requests about certain icons: as long as a state holds for the names, each request is answered as
they tell or fails for an excuse, and the names are what is listed. -/
structure Serves (editor : Editor) (settings : Settings) (icons : List Text) (excuse : CommandError → Prop)
    (State : Names → Store → Prop) : Prop where
  answered : ∀ {names w request}, State names w.store → (∀ icon ∈ request.icons, icon ∈ icons) →
    (∃ w', (serve editor settings request).run.run w = ((tell made names request).1, w') ∧
      State (tell made names request).2 w'.store) ∨
    ∃ e w', (serve editor settings request).Fails w e w' ∧ excuse e
  listed : ∀ {names w}, State names w.store →
    ∃ listed w', (list editor settings false).Gives w listed w' ∧ w'.store = w.store ∧ listed.Nodup ∧
      ∀ name, name ∈ listed ↔ names name = true

end

section

variable {made : Text → Except IconError Text} {editor : Registry.Editor} {settings others : Settings}
  {icons : List Text} {excuse : CommandError → Prop} {State Other : Names → Store → Prop} {names : Names}
  {v w : Workspace} {request : Request} {rest : List Request}

/-- Without an excuse the first answer is what the names tell, and the others go on from there. -/
theorem Serves.exists_answer (serves : Serves made editor settings icons excuse State) (hState : State names w.store)
    (hIcons : ∀ icon ∈ request.icons, icon ∈ icons)
    (hFine : ∀ answer ∈ answers editor settings w (request :: rest), ∀ e, answer.result = .error e → ¬excuse e) :
    ∃ listed w', answers editor settings w (request :: rest) =
        ⟨(tell made names request).1, .ok listed⟩ :: answers editor settings w' rest ∧
      State (tell made names request).2 w'.store ∧ listed.Nodup ∧
      ∀ name, name ∈ listed ↔ (tell made names request).2 name = true := by
  rcases serves.answered hState hIcons with ⟨served, hServed, hAfter⟩ | ⟨e, served, hFails, hExcuse⟩
  · obtain ⟨listed, w', hGives, hStore, hNodup, hMem⟩ := serves.listed hAfter
    rw [Gives] at hGives
    refine ⟨listed, w', ?_, hStore ▸ hAfter, hNodup, hMem⟩
    rw [answers, hServed]
    simp only [hGives]
  · refine absurd hExcuse (hFine ⟨.error e, ((list editor settings false).run.run served).1⟩ ?_ e rfl)
    rw [Fails] at hFails
    rw [answers, hFails]
    exact List.mem_cons_self ..

/-- Settings that serve the same requests give answers that agree. -/
theorem Serves.agree {other : Registry.Editor} {pardon : CommandError → Prop}
    (serves : Serves made editor settings icons excuse State) (serves' : Serves made other others icons pardon Other)
    {requests : List Request} (hIcons : ∀ request ∈ requests, ∀ icon ∈ request.icons, icon ∈ icons)
    (hState : State names w.store) (hOther : Other names v.store)
    (hFine : ∀ answer ∈ answers editor settings w requests, ∀ e, answer.result = .error e → ¬excuse e)
    (hPardon : ∀ answer ∈ answers other others v requests, ∀ e, answer.result = .error e → ¬pardon e) :
    List.Forall₂ Answer.Agrees (answers editor settings w requests) (answers other others v requests) := by
  induction requests generalizing names v w with
  | nil => exact .nil
  | cons request rest ih =>
      obtain ⟨hFirst, hRest⟩ := List.forall_mem_cons.mp hIcons
      obtain ⟨listed, w', hAnswer, hState', hNodup, hMem⟩ := serves.exists_answer hState hFirst hFine
      obtain ⟨listed', v', hAnswer', hOther', hNodup', hMem'⟩ := serves'.exists_answer hOther hFirst hPardon
      rw [hAnswer] at hFine ⊢
      rw [hAnswer'] at hPardon ⊢
      refine .cons ⟨rfl, listed, listed', rfl, rfl, hNodup, hNodup', fun name => ?_⟩ ?_
      · rw [hMem, hMem']
      · exact ih hRest hState' hOther' (List.forall_mem_cons.mp hFine).2 (List.forall_mem_cons.mp hPardon).2

end

/-- The paths of the files that requests about icons write or remove. -/
def outputs (settings : Settings) (framework : Framework) (icons : List Text) : List Text :=
  match settings.placement with
  | .inline => [settings.registryPath]
  | .standalone => icons.map fun icon => componentPath settings framework (nameOf icon)

/-- No icon is fetched along a path that comes by an output. -/
def IconsApart (settings : Settings) (framework : Framework) (icons : List Text) (store : Store) : Prop :=
  ∀ icon ∈ icons, ∀ path ∈ IconSource.path? settings.iconsDirectory icon, ∀ here ∈ store.trail path,
    ∀ output ∈ outputs settings framework icons, store.locate output ≠ .ok here

instance (settings : Settings) (framework : Framework) (icons : List Text) (store : Store) :
    Decidable (IconsApart settings framework icons store) :=
  inferInstanceAs (Decidable (∀ icon ∈ icons, ∀ path ∈ IconSource.path? settings.iconsDirectory icon,
    ∀ here ∈ store.trail path, ∀ output ∈ outputs settings framework icons, store.locate output ≠ .ok here))

/-- A store that differs from another one in the files of outputs at most. -/
structure Kept (settings : Settings) (framework : Framework) (icons : List Text) (before now : Store) : Prop where
  files : before.SameExcept (fun here => ∃ output ∈ outputs settings framework icons, before.locate output = .ok here) now
  directories : before.SameDirectories now

namespace Kept

variable {settings : Settings} {framework : Framework} {icons : List Text} {before now : Store} {path icon : Text}
  {here : Location}

theorem refl (settings : Settings) (framework : Framework) (icons : List Text) (store : Store) :
    Kept settings framework icons store store :=
  ⟨.refl _ store, .refl store⟩

/-- A file that is put among the outputs keeps all others. -/
theorem put (h : Kept settings framework icons before now) (hOutput : path ∈ outputs settings framework icons)
    (hLocate : now.locate path = .ok here) (hNode : now.node? here ≠ some .directory) (text : Text) :
    Kept settings framework icons before (now.put here (.file text)) :=
  ⟨h.files.trans (Store.sameExcept_put ⟨path, hOutput, h.directories.locate_iff.mp hLocate⟩ _),
    h.directories.trans (Store.sameDirectories_put hNode text)⟩

/-- An output that is taken away keeps all other files. -/
theorem erase (h : Kept settings framework icons before now) (hOutput : path ∈ outputs settings framework icons)
    (hLocate : now.locate path = .ok here) (hNode : now.node? here ≠ some .directory) :
    Kept settings framework icons before (now.erase here) :=
  ⟨h.files.trans (Store.sameExcept_erase ⟨path, hOutput, h.directories.locate_iff.mp hLocate⟩),
    h.directories.trans (Store.sameDirectories_erase hNode)⟩

/-- Icons that are apart from the outputs become what they became before. -/
theorem componentOf_eq (h : Kept settings framework icons before now)
    (hApart : IconsApart settings framework icons before) (hIcon : icon ∈ icons) :
    componentOf settings framework now icon = componentOf settings framework before icon := by
  have hFetch : IconSource.fetch now settings.iconsDirectory icon =
      IconSource.fetch before settings.iconsDirectory icon := by
    rw [IconSource.fetch, IconSource.fetch]
    split
    · rfl
    · rename_i path hPath
      rw [h.files.readText fun here hHere ⟨output, hOutput, hLocate⟩ =>
        hApart icon hIcon path hPath here hHere output hOutput hLocate]
  rw [componentOf, componentOf, hFetch]

end Kept

end Command

end IconRegistry
