import SharedPair.Proofs.Session.Rejection

/-!
# Logging in a session

A call that succeeds writes the record of its pair, if the filter keeps the record; no
other step writes anything, and neither does the end of the slots.

Nothing depends on the filter but what is written, as one sees by muting a session: it
starts with the filter that keeps nothing and sets no other, and tells the same entries
without their records.
-/

namespace SharedPair
namespace Session

/-! ## The filter in force -/

/-- The steps that set the filter. -/
def control : Machine.Control Step where
  set := .setFilter
  set?
    | .setFilter filter => some filter
    | _ => none
  set?_set _ := rfl

/-- The filter in force after some steps: the one that was set last, or the one at the start. -/
abbrev inForce (filter : Filter) (steps : List Step) : Filter := control.inForce filter steps

namespace State

variable {s : State}

/-! ## What a step writes -/

/-- Leaves the filter as it is and writes given records. -/
structure Writes (s : State) (records : List Record) (after : State × Effect) : Prop where
  filter : after.1.filter = s.filter
  log : after.2.log = records

theorem filter_hold
    (s : State) (name : String) (ref : Ref) :
    (s.hold name ref).1.filter = s.filter := by
  unfold hold
  split <;> rfl

theorem writes_answer
    (s : State) (reply : Reply) :
    s.Writes [] (s.answer reply) :=
  ⟨rfl, rfl⟩

theorem writes_ask
    (s : State) (question : Except Failure Reply) :
    s.Writes [] (s.ask question) := by
  cases question <;> exact ⟨rfl, rfl⟩

theorem writes_hold
    {store : Store}
    (name : String) (ref : Ref) :
    s.Writes [] (done ({ s with store }.hold name ref)) :=
  ⟨filter_hold _ name ref, rfl⟩

theorem writes_evaluating
    {α : Type} {made : Evaluation α} {next : α → State × Effect}
    (quiet : ∀ a, s.Writes [] (next a)) :
    s.Writes [] (s.evaluating made next) := by
  unfold evaluating
  cases made.result with
  | error failure => exact ⟨rfl, rfl⟩
  | ok a => exact ⟨(quiet a).filter, (quiet a).log⟩

theorem writes_change
    (s : State) (container : String) (value : Argument)
    (how : Node → Ref → Node → Except Failure Node.Change) :
    s.Writes [] (s.change container value how) := by
  refine writes_evaluating fun source => ?_
  simp only
  split <;> exact ⟨rfl, rfl⟩

/-- Whether a step is a call that succeeds. -/
def Calls (s : State) (step : Step) : Prop :=
  (∃ arguments name, step = .call arguments name) ∧ (s.step step).2.reply = .done

/-- A call writes the record of its pair, or fails and writes nothing. -/
theorem writes_call
    (s : State) (arguments : Arguments Argument) (name : String) :
    (s.call arguments name).2.reply = .done ∧
        s.Writes (s.filter.log packRecord) (s.call arguments name) ∨
      (s.call arguments name).2.reply ≠ .done ∧ s.Writes [] (s.call arguments name) := by
  unfold call evaluating
  cases (s.sources arguments).result with
  | error failure => exact .inr ⟨nofun, rfl, rfl⟩
  | ok sources =>
      simp only
      cases (s.store.takeArguments sources).1.bind with
      | error e => exact .inr ⟨nofun, rfl, rfl⟩
      | ok pair =>
          have log := packInto_log { s with store := (s.store.takeArguments sources).2 } name
            (s.store.takeArguments sources).1.inOrder pair.1 pair.2
          exact .inl ⟨rfl, filter_hold _ name _, log⟩

/-- A step that is no call writes nothing, and only one that sets the filter changes it. -/
theorem writes_step
    {step : Step}
    (other : ∀ arguments name, step ≠ .call arguments name)
    (unset : ∀ set, step ≠ .setFilter set) :
    s.Writes [] (s.step step) := by
  cases step with
  | call arguments name => exact absurd rfl (other arguments name)
  | setFilter set => exact absurd rfl (unset set)
  | new name expression =>
      exact writes_evaluating fun form => writes_hold name _
  | «alias» source name =>
      rw [State.step]
      cases s.slot source with
      | error failure => exact writes_answer s _
      | ok ref => exact writes_hold name ref
  | get source index name =>
      rw [State.step, get]
      cases s.slot source with
      | error failure => exact writes_answer s _
      | ok container =>
          simp only
          cases (s.store.contents container).item index with
          | error failure => exact writes_answer s _
          | ok item => cases item <;> exact writes_hold name _
  | set container index value =>
      exact writes_change s container value fun node ref content => node.assign index ref content
  | append container value =>
      rw [State.step, append]
      cases s.slot container with
      | error failure => exact writes_answer s _
      | ok ref =>
          simp only
          split
          · exact writes_change s container value _
          · exact writes_answer s _
  | drop name =>
      rw [State.step, remove]
      cases s.slot name with
      | error failure => exact writes_answer s _
      | ok ref => exact ⟨rfl, rfl⟩
  | same first second => exact writes_ask s _
  | length name => exact writes_ask s _
  | display name => exact writes_ask s _

theorem log_of_calls
    {step : Step}
    (calls : s.Calls step) :
    (s.step step).2.log = s.filter.log packRecord := by
  obtain ⟨⟨arguments, name, rfl⟩, done⟩ := calls
  rcases s.writes_call arguments name with ⟨-, writes⟩ | ⟨failed, -⟩
  · exact writes.log
  · exact absurd done failed

theorem log_of_not_calls
    {step : Step}
    (other : ¬ s.Calls step) :
    (s.step step).2.log = [] := by
  cases step with
  | call arguments name =>
      rcases s.writes_call arguments name with ⟨done, -⟩ | ⟨-, writes⟩
      · exact absurd ⟨⟨arguments, name, rfl⟩, done⟩ other
      · exact writes.log
  | setFilter filter => rfl
  | _ =>
      refine (writes_step ?_ ?_).log
      · exact fun _ _ => nofun
      · exact fun _ => nofun

theorem filter_step
    (s : State) (step : Step) :
    (s.step step).1.filter = inForce s.filter [step] := by
  cases step with
  | call arguments name =>
      rcases s.writes_call arguments name with ⟨-, writes⟩ | ⟨-, writes⟩
      · exact writes.filter
      · exact writes.filter
  | setFilter filter => rfl
  | _ =>
      refine (writes_step ?_ ?_).filter
      · exact fun _ _ => nofun
      · exact fun _ => nofun

end State

theorem filter_run
    (steps : List Step) (s : State) :
    (machine.run s steps).1.filter = inForce s.filter steps :=
  Machine.Control.filter_run State.filter_step steps s

/-! ## Muting -/

/-- The state with logging turned off. -/
def State.mute (s : State) : State := { s with filter := .off }

/-- The effect without what was written. -/
def Effect.mute (effect : Effect) : Effect := { effect with log := [] }

namespace State

variable {s : State}

theorem mute_hold
    (s : State) (name : String) (ref : Ref) :
    s.mute.hold name ref = Prod.map mute id (s.hold name ref) := by
  unfold hold
  rw [show s.mute.slots = s.slots from rfl]
  cases s.slots.find? name <;> rfl

theorem mute_source
    (s : State) (argument : Argument) :
    s.mute.source argument = s.source argument := by
  cases argument <;> rfl

theorem mute_sources
    (s : State) (arguments : Arguments Argument) :
    s.mute.sources arguments = s.sources arguments :=
  congrArg (arguments.evaluate Source.names) (funext s.mute_source)

theorem mute_ask
    (s : State) (question : Except Failure Reply) :
    s.mute.ask question = Prod.map mute Effect.mute (s.ask question) := by
  cases question <;> rfl

theorem mute_done_hold
    (s : State) (store : Store) (name : String) (ref : Ref) :
    done ({ s.mute with store }.hold name ref) =
      Prod.map mute Effect.mute (done ({ s with store }.hold name ref)) :=
  congrArg done (mute_hold { s with store } name ref)

/-- Muting goes through an evaluation. -/
theorem mute_evaluating
    {α : Type}
    (s : State) (made : Evaluation α) {next next' : α → State × Effect}
    (same : ∀ a, next' a = Prod.map mute Effect.mute (next a)) :
    s.mute.evaluating made next' = Prod.map mute Effect.mute (s.evaluating made next) := by
  unfold evaluating
  cases made.result with
  | error failure => rfl
  | ok a =>
      simp only [same]
      rfl

theorem mute_packInto
    (s : State) (name : String) (given : List Ref) (first second : Ref) :
    s.mute.packInto name given first second =
      Prod.map mute Effect.mute (s.packInto name given first second) := by
  have packed : s.store.pack .off first second = ((s.store.pack s.filter first second).1, []) := by
    rw [Store.pack_eq, Store.pack_eq]
    rfl
  let called := { s with store := (s.store.pack s.filter first second).1.2 }.discard given
  have held := mute_hold called.1 name (s.store.pack s.filter first second).1.1
  have muted : s.mute.packInto name given first second =
      let stored := called.1.mute.hold name (s.store.pack s.filter first second).1.1
      (stored.1, ⟨.done, sortNames (called.2 ++ stored.2), []⟩) := by
    unfold packInto
    rw [show s.mute.store = s.store from rfl, show s.mute.filter = .off from rfl, packed]
    rfl
  rw [muted, held]
  rfl

theorem mute_call
    (s : State) (arguments : Arguments Argument) (name : String) :
    s.mute.call arguments name = Prod.map mute Effect.mute (s.call arguments name) := by
  unfold call
  rw [mute_sources]
  refine mute_evaluating s _ fun sources => ?_
  simp only [show s.mute.store = s.store from rfl]
  cases (s.store.takeArguments sources).1.bind with
  | error e => rfl
  | ok pair => exact mute_packInto { s with store := _ } name _ pair.1 pair.2

theorem mute_change
    (s : State) (container : String) (value : Argument)
    (how : Node → Ref → Node → Except Failure Node.Change) :
    s.mute.change container value how =
      Prod.map mute Effect.mute (s.change container value how) := by
  unfold change
  rw [mute_source, show s.mute.slot container = s.slot container from rfl]
  refine mute_evaluating s _ fun source => ?_
  simp only
  rw [show s.mute.store = s.store from rfl]
  cases (do
    let target ← s.slot container
    return (target, ← how ((s.store.take source).2.contents target) (s.store.take source).1
      ((s.store.take source).2.contents (s.store.take source).1))) with
  | error failure => rfl
  | ok changed => rfl

/-- A muted step does what the step does, and writes nothing. -/
theorem mute_step
    (s : State) (step : Step) :
    s.mute.step (control.mute step) = Prod.map mute Effect.mute (s.step step) := by
  cases step with
  | new name expression =>
      exact mute_evaluating s _ fun form => mute_done_hold s _ name _
  | «alias» source name =>
      rw [State.step]
      simp only [Machine.Control.mute, control, State.step]
      rw [show s.mute.slot source = s.slot source from rfl]
      cases s.slot source with
      | error failure => rfl
      | ok ref => exact mute_done_hold s _ name ref
  | call arguments name => exact mute_call s arguments name
  | get source index name =>
      simp only [Machine.Control.mute, control, State.step, get]
      rw [show s.mute.slot source = s.slot source from rfl]
      cases s.slot source with
      | error failure => rfl
      | ok container =>
          simp only
          rw [show s.mute.store = s.store from rfl]
          cases (s.store.contents container).item index with
          | error failure => rfl
          | ok item => cases item <;> exact mute_done_hold s _ name _
  | set container index value =>
      exact mute_change s container value fun node ref content => node.assign index ref content
  | append container value =>
      simp only [Machine.Control.mute, control, State.step, append]
      rw [show s.mute.slot container = s.slot container from rfl]
      cases s.slot container with
      | error failure => rfl
      | ok ref =>
          simp only
          rw [show s.mute.store = s.store from rfl]
          split
          · exact mute_change s container value _
          · rfl
  | drop name =>
      simp only [Machine.Control.mute, control, State.step, remove]
      rw [show s.mute.slot name = s.slot name from rfl]
      cases s.slot name <;> rfl
  | same first second => exact mute_ask s _
  | length name => exact mute_ask s _
  | display name => exact mute_ask s _
  | setFilter filter => rfl

end State

/-- A session does without logging. -/
def muting : machine.Muting control where
  state := State.mute
  effect := Effect.mute
  initial _ := rfl
  step := State.mute_step
  finish _ := rfl
  counts _ := rfl

end Session
end SharedPair
