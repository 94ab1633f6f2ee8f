import Mathlib.Data.List.Forall2
import SharedPair.Machine

/-!
# Runs of a machine

What holds of every machine: its run on two lists of steps, the entries of a transcript
one by one, invariants, which are preserved by a run if they are by a step, and relations
between two runs, which hold of the runs if they are kept by a step.

Some steps set the filter of the log.  A machine can be muted, so that it starts with
the filter that keeps nothing and sets no other.  If it then goes through the same
states and effects without logging, its transcript is that of before without what was
written, and so no filter has an influence on anything else.
-/

namespace SharedPair
namespace Machine

variable {State Step Effect : Type} {machine : Machine State Step Effect}

/-! ## Runs -/

section Runs

variable (machine)

theorem run_cons
    (s : State) (step : Step) (rest : List Step) :
    machine.run s (step :: rest) =
      ((machine.run (machine.step s step).1 rest).1,
        ⟨(machine.step s step).2, machine.counts (machine.step s step).1⟩ ::
          (machine.run (machine.step s step).1 rest).2) := by
  rfl

theorem run_append
    (s : State) (first second : List Step) :
    machine.run s (first ++ second) =
      ((machine.run (machine.run s first).1 second).1,
        (machine.run s first).2 ++ (machine.run (machine.run s first).1 second).2) := by
  induction first generalizing s with
  | nil => rfl
  | cons step rest ih =>
      rw [List.cons_append, run_cons, run_cons, ih]
      rfl

theorem length_run
    (s : State) (steps : List Step) :
    (machine.run s steps).2.length = steps.length := by
  induction steps generalizing s with
  | nil => rfl
  | cons step rest ih => exact congrArg Nat.succ (ih (machine.step s step).1)

theorem transcript_eq
    (filter : Filter) (steps : List Step) :
    machine.transcript filter steps =
      (machine.run (machine.initial filter) steps).2 ++
        [machine.last (machine.run (machine.initial filter) steps).1] := by
  rfl

theorem transcript_append
    (filter : Filter) (first second : List Step) :
    machine.transcript filter (first ++ second) =
      (machine.run (machine.initial filter) first).2 ++
        ((machine.run (machine.run (machine.initial filter) first).1 second).2 ++
          [machine.last
            (machine.run (machine.run (machine.initial filter) first).1 second).1]) := by
  rw [transcript_eq, run_append, List.append_assoc]

/-- The entry of a step is what the step comes to after those before it. -/
theorem entry_of_transcript
    (filter : Filter) (before : List Step) (step : Step) (more : List Step) :
    let after := machine.step (machine.run (machine.initial filter) before).1 step
    (machine.transcript filter (before ++ step :: more))[before.length]? =
      some ⟨after.2, machine.counts after.1⟩ := by
  intro after
  rw [transcript_append, ← machine.length_run (machine.initial filter) before,
    List.getElem?_append_right (Nat.le_refl _), Nat.sub_self]
  rfl

theorem last_of_transcript
    (filter : Filter) (steps : List Step) :
    (machine.transcript filter steps)[steps.length]? =
      some (machine.last (machine.run (machine.initial filter) steps).1) := by
  rw [← machine.length_run (machine.initial filter) steps]
  exact List.getElem?_concat_length

end Runs

/-- What every step preserves, a run preserves. -/
theorem run_invariant
    {P : State → Prop}
    (preserves : ∀ s step, P s → P (machine.step s step).1)
    (steps : List Step) {s : State}
    (holds : P s) :
    P (machine.run s steps).1 := by
  induction steps generalizing s with
  | nil => exact holds
  | cons step rest ih => exact ih (preserves s step holds)

/-- Two runs go side by side.  If related steps keep what relates two states and have related
entries, the runs of related steps do and have. -/
theorem run_related
    (machine : Machine State Step Effect)
    {R : State → State → Prop} {T : Step → Step → Prop} {E : Entry Effect → Entry Effect → Prop}
    (keeps : ∀ {s t step step'}, R s t → T step step' →
      R (machine.step s step).1 (machine.step t step').1 ∧
        E ⟨(machine.step s step).2, machine.counts (machine.step s step).1⟩
          ⟨(machine.step t step').2, machine.counts (machine.step t step').1⟩)
    {steps steps' : List Step} {s t : State}
    (along : List.Forall₂ T steps steps')
    (related : R s t) :
    R (machine.run s steps).1 (machine.run t steps').1 ∧
      List.Forall₂ E (machine.run s steps).2 (machine.run t steps').2 := by
  induction along generalizing s t with
  | nil => exact ⟨related, .nil⟩
  | cons first _ ih =>
      obtain ⟨between, entry⟩ := keeps related first
      obtain ⟨after, entries⟩ := ih between
      exact ⟨after, .cons entry entries⟩

/-! ## The filter in force -/

/-- The steps that set the filter, among all steps of a machine. -/
structure Control (Step : Type) where
  set : Filter → Step
  /-- The filter that a step sets, if it sets one. -/
  set? : Step → Option Filter
  set?_set : ∀ filter, set? (set filter) = some filter

namespace Control

variable {control : Control Step}

/-- The filter in force after some steps: the one that was set last, or the one at the start. -/
def inForce (control : Control Step) (filter : Filter) : List Step → Filter
  | [] => filter
  | step :: rest => control.inForce ((control.set? step).getD filter) rest

/-- If every step leaves the filter that it sets, or the one before it, a run leaves the one that is
in force after it. -/
theorem filter_run
    {filter : State → Filter}
    (obeys : ∀ s step, filter (machine.step s step).1 = control.inForce (filter s) [step])
    (steps : List Step) (s : State) :
    filter (machine.run s steps).1 = control.inForce (filter s) steps := by
  induction steps generalizing s with
  | nil => rfl
  | cons step rest ih =>
      rw [run_cons, ih, obeys]
      rfl

/-- The step, unless it sets a filter: then it turns logging off. -/
def mute (control : Control Step) (step : Step) : Step :=
  match control.set? step with
  | some _ => control.set .off
  | none => step

/-- Two steps that are the same, or both set the filter. -/
def Alike (control : Control Step) (step step' : Step) : Prop :=
  step = step' ∨ ∃ filter filter', step = control.set filter ∧ step' = control.set filter'

theorem mute_set
    (control : Control Step) (filter : Filter) :
    control.mute (control.set filter) = control.set .off := by
  rw [mute, control.set?_set]

theorem map_mute_of_alike
    {steps steps' : List Step}
    (alike : List.Forall₂ control.Alike steps steps') :
    steps.map control.mute = steps'.map control.mute := by
  induction alike with
  | nil => rfl
  | cons first _ ih =>
      rcases first with rfl | ⟨filter, filter', rfl, rfl⟩
      · exact congrArg (_ :: ·) ih
      · rw [List.map_cons, List.map_cons, mute_set, mute_set, ih]

end Control

/-! ## Muting -/

/-- The entry with its effect changed. -/
def Entry.map {Effect' : Type} (f : Effect → Effect') (entry : Entry Effect) : Entry Effect' :=
  ⟨f entry.effect, entry.counts⟩

/-- How a machine does without logging: it goes through the same states and effects, but for what
has to do with the log. -/
structure Muting (machine : Machine State Step Effect) (control : Control Step) where
  state : State → State
  effect : Effect → Effect
  initial : ∀ filter, machine.initial .off = state (machine.initial filter)
  step : ∀ s step, machine.step (state s) (control.mute step) =
    Prod.map state effect (machine.step s step)
  finish : ∀ s, machine.finish (state s) = Prod.map state effect (machine.finish s)
  counts : ∀ s, machine.counts (state s) = machine.counts s

namespace Muting

variable {control : Control Step} (muting : Muting machine control)

/-- The entry without what was written. -/
def entry : Entry Effect → Entry Effect := Entry.map muting.effect

theorem run_mute
    (steps : List Step) (s : State) :
    machine.run (muting.state s) (steps.map control.mute) =
      Prod.map muting.state (List.map muting.entry) (machine.run s steps) := by
  induction steps generalizing s with
  | nil => rfl
  | cons step rest ih =>
      rw [List.map_cons, run_cons, muting.step, Prod.map_fst, ih, muting.counts]
      rfl

theorem last_mute
    (s : State) :
    machine.last (muting.state s) = muting.entry (machine.last s) := by
  show Entry.mk (machine.finish _).2 (machine.counts (machine.finish _).1) = _
  rw [muting.finish, Prod.map_fst, muting.counts]
  rfl

/-- **Muting.**  A muted machine tells the entries of the machine without what was written. -/
theorem transcript_mute
    (filter : Filter) (steps : List Step) :
    machine.transcript .off (steps.map control.mute) =
      (machine.transcript filter steps).map muting.entry := by
  rw [transcript_eq, transcript_eq, muting.initial filter, muting.run_mute, Prod.map_fst,
    muting.last_mute, List.map_append]
  rfl

/-- Runs that differ in the filters alone tell the same but for what was written. -/
theorem transcript_eq_of_alike
    (filter filter' : Filter) {steps steps' : List Step}
    (alike : List.Forall₂ control.Alike steps steps') :
    (machine.transcript filter steps).map muting.entry =
      (machine.transcript filter' steps').map muting.entry := by
  rw [← muting.transcript_mute, ← muting.transcript_mute, Control.map_mute_of_alike alike]

end Muting
end Machine
end SharedPair
