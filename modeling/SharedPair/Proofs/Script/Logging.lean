import SharedPair.Proofs.Script.Ways

/-!
# Logging in a script

A step writes the record of a pair when it packs one and the filter keeps the record;
no other step writes anything.  In the step that packs, the record comes when both
copies are finished and before the value that the slot held is given up.

Nothing depends on the filter but what is written.  To see that, a script is muted: it
starts with the filter that keeps nothing and sets no other.  The muted script goes
through the same states but for their filters, and tells the same entries without their
records.
-/

namespace SharedPair

namespace Filter

/-- What a filter leaves of the record of a pair. -/
theorem log_packRecord
    (filter : Filter) :
    filter.log packRecord = if filter = .all then [packRecord] else [] := by
  have kept : filter.keeps packRecord.level = true ↔ filter = .all := keeps_trace_iff
  rw [log]
  simp only [kept]

example :
    packRecord.render =
      "log TRACE compiled_function_with_cpp_args::pair " ++
        "event=pack_pair module=pair status=ok len=2" := by
  rfl

end Filter

namespace Event

/-- Events without the records among them. -/
def unlogged (events : List Event) : List Event :=
  events.filter fun event => event.logged?.isNone

theorem unlogged_append
    (first second : List Event) :
    unlogged (first ++ second) = unlogged first ++ unlogged second :=
  List.filter_append _ _

theorem unlogged_logged
    (records : List Record) :
    unlogged (records.map .logged) = [] := by
  refine List.filter_eq_nil_iff.mpr fun event member => ?_
  obtain ⟨record, -, rfl⟩ := List.mem_map.mp member
  exact Bool.false_ne_true

/-- Events without a record are all kept. -/
theorem unlogged_of_records_eq_nil
    {events : List Event}
    (none : records events = []) :
    unlogged events = events := by
  refine List.filter_eq_self.mpr fun event member => ?_
  rw [Option.isNone_iff_eq_none]
  exact List.filterMap_eq_nil_iff.mp none event member

theorem records_logged
    (written : List Record) :
    records (written.map .logged) = written := by
  simp [records, List.filterMap_map, Function.comp_def, logged?]

/-- What a release reports are ends of cells and of probes. -/
theorem freed_or_dropped_of_release
    {memory : Memory} {leaves : List (Leaf String Probe)} {event : Event}
    (member : event ∈ (memory.release leaves).2) :
    (∃ cell, event = .freed cell) ∨ ∃ p, event = .dropped p := by
  obtain ⟨ending, -, rfl⟩ := List.mem_map.mp member
  cases ending with
  | freed cell => exact .inl ⟨cell, rfl⟩
  | ended p => exact .inr ⟨p, rfl⟩

theorem records_release
    (memory : Memory) (leaves : List (Leaf String Probe)) :
    records (memory.release leaves).2 = [] := by
  refine List.filterMap_eq_nil_iff.mpr fun event member => ?_
  rcases freed_or_dropped_of_release member with ⟨cell, rfl⟩ | ⟨p, rfl⟩ <;> rfl

/-- What a pass reports are clonings. -/
theorem cloned_of_copyLeaves
    {l : List (Leaf String Probe)} {memory : Memory} {event : Event}
    (member : event ∈ (memory.copyLeaves l).events) :
    ∃ source serial, event = .cloned source serial := by
  induction l generalizing memory with
  | nil => cases member
  | cons leaf rest ih =>
      cases leaf with
      | handle cell => exact ih member
      | token p =>
          rw [Memory.copyLeaves] at member
          by_cases h : memory.Refuses p.family
          · rw [if_pos h] at member
            cases member
          · rw [if_neg h] at member
            rcases List.mem_cons.mp member with rfl | member
            · exact ⟨_, _, rfl⟩
            · exact ih member

end Event

namespace Copying

/-- What a finished copy has made, or what is left of a refused one, is the same whatever it
writes. -/
theorem Copies.run_unlogged
    {copy copy' : Copying Value} {value : Value} {records : List Record}
    (copies : copy.Copies value records) (copies' : copy'.Copies value [])
    (memory : Memory) :
    run copy' memory =
      ⟨(run copy memory).result, (run copy memory).memory,
        Event.unlogged (run copy memory).events⟩ := by
  have follows := value.clone_follows memory
  have quiet := (Memory.events_copyLeaves value.leaves memory).2
  generalize eq : value.clone memory = progress at follows
  generalize memory.copyLeaves value.leaves = pass at follows quiet
  cases follows with
  | finished same =>
      have kept := Event.unlogged_of_records_eq_nil quiet
      rw [run_of_ok (copies.finished eq), run_of_ok (copies'.finished eq)]
      simp only [Event.unlogged_append, Event.unlogged_logged, kept, List.map_nil]
  | refused same =>
      have kept := Event.unlogged_of_records_eq_nil quiet
      have ended := fun memory leaves =>
        Event.unlogged_of_records_eq_nil (Event.records_release memory leaves)
      rw [run_of_error (copies.refused eq), run_of_error (copies'.refused eq)]
      simp only [Event.unlogged_append, kept, ended]

end Copying

namespace Script

/-! ## The filter in force -/

/-- The steps that set the filter. -/
def control : Machine.Control Step where
  set := .setFilter
  set?
    | .setFilter filter => some filter
    | _ => none
  set?_set _ := rfl

/-- The filter in force after some steps: the one that was set last, or the one at the start. -/
abbrev inForce (filter : Filter) (steps : List Step) : Filter := control.inForce filter steps

namespace State

variable {s : State}

theorem filter_store
    (s : State) (name : String) (value : Value) :
    (s.store name value).1.filter = s.filter := by
  unfold store
  split <;> rfl

theorem filter_storeCopy
    (s : State) (name : String) (copy : Copying Value) :
    (s.storeCopy name copy).1.filter = s.filter := by
  unfold storeCopy
  simp only
  split
  · exact filter_store _ _ _
  · rfl

/-- No step changes the filter but the one that sets it. -/
theorem filter_step
    (s : State) (step : Step) :
    (s.step step).1.filter = inForce s.filter [step] := by
  cases step with
  | new name draft =>
      rw [State.step, create]
      split
      · exact filter_store _ _ _
      · rfl
  | pack first second name =>
      rw [State.step]
      split
      · exact filter_storeCopy _ _ _
      · rfl
      · rfl
  | clone source name =>
      rw [State.step]
      split
      · exact filter_storeCopy _ _ _
      · rfl
  | take source first second =>
      rw [State.step, split]
      split
      · rfl
      · exact (filter_store _ _ _).trans (filter_store _ _ _)
      · rfl
  | drop name =>
      rw [State.step, remove]
      split <;> rfl
  | put cell source =>
      rw [State.step, fill]
      split
      · rfl
      · split <;> rfl
      · rfl
  | unwrap name =>
      rw [State.step, unwrap]
      split
      · rfl
      · split <;> rfl
      · rfl
  | same first second =>
      rw [State.step, ask_fst]
      rfl
  | display path =>
      rw [State.step, ask_fst]
      rfl
  | setFilter filter => rfl

end State

theorem filter_run
    (steps : List Step) (s : State) :
    (machine.run s steps).1.filter = inForce s.filter steps :=
  Machine.Control.filter_run State.filter_step steps s

/-! ## What a step writes -/

namespace State

variable {s : State}

/-- Whether a step packs a pair. -/
def Packs (s : State) (step : Step) : Prop :=
  (∃ first second name, step = .pack first second name) ∧ (s.step step).2.reply = .done

theorem records_store
    (s : State) (name : String) (value : Value) :
    Event.records (s.store name value).2 = [] := by
  unfold store
  split
  · exact Event.records_release _ _
  · rfl

/-- A copy that is stored has cloned, then written, then given up what was in its slot; one that is
refused has written nothing. -/
inductive Wrote (s : State) (value : Value) (records : List Record) (name : String) :
    State × Effect → Prop
  | stored
      {after : State}
      (memory : Memory) :
      Wrote s value records name (after, ⟨.done,
        (s.memory.copyLeaves value.leaves).events ++ records.map .logged ++
          ((s.slots.find? name).map fun old => (memory.drop old).2).getD []⟩)
  | refused
      {after : State} {fault : Fault} {events : List Event}
      (quiet : Event.records events = []) :
      Wrote s value records name (after, ⟨.fault fault, events⟩)

theorem wrote_storeCopy
    {copy : Copying Value} {value : Value} {records : List Record}
    (copies : copy.Copies value records)
    (name : String) :
    Wrote s value records name (s.storeCopy name copy) := by
  have follows := value.clone_follows s.memory
  have quiet := (Memory.events_copyLeaves value.leaves s.memory).2
  have stored : ∀ (after : State) (memory : Memory), Wrote s value records name (after, ⟨.done,
      (s.memory.copyLeaves value.leaves).events ++ records.map .logged ++
        ((s.slots.find? name).map fun old => (memory.drop old).2).getD []⟩) :=
    fun _ memory => .stored memory
  generalize eq : value.clone s.memory = progress at follows
  generalize s.memory.copyLeaves value.leaves = pass at follows quiet stored
  cases follows with
  | @finished made copied memory events same =>
      rw [storeCopy, Copying.run_of_ok (copies.finished eq)]
      simp only
      rw [store]
      cases found : s.slots.find? name with
      | none =>
          rw [found] at stored
          exact stored _ memory
      | some old =>
          rw [found] at stored
          exact stored _ memory
  | refused same =>
      rw [storeCopy, Copying.run_of_error (copies.refused eq)]
      refine .refused ?_
      rw [Event.records_append, Event.records_release, List.append_nil]
      exact quiet

theorem Wrote.records_of_done
    {value : Value} {records : List Record} {name : String} {after : State × Effect}
    (wrote : Wrote s value records name after)
    (done : after.2.reply = .done) :
    Event.records after.2.events = records := by
  cases wrote with
  | stored memory =>
      have before := (Memory.events_copyLeaves value.leaves s.memory).2
      have later : Event.records (((s.slots.find? name).map fun old =>
          (memory.drop old).2).getD []) = [] := by
        cases s.slots.find? name with
        | none => rfl
        | some old => exact Event.records_release _ _
      rw [Event.records_append, Event.records_append, before, later, List.nil_append,
        List.append_nil, Event.records_logged]
  | refused quiet => cases done

theorem Wrote.records_of_fault
    {value : Value} {records : List Record} {name : String} {after : State × Effect}
    (wrote : Wrote s value records name after)
    (faulted : after.2.reply ≠ .done) :
    Event.records after.2.events = [] := by
  cases wrote with
  | stored memory => exact absurd rfl faulted
  | refused quiet => exact quiet

/-- A step that packs has found both values. -/
theorem wrote_of_packs
    {first second : Path} {name : String}
    (done : (s.step (.pack first second name)).2.reply = .done) :
    ∃ x y, s.resolve first = .ok x ∧ s.resolve second = .ok y ∧
      Wrote s (.pair x y) (s.filter.log packRecord) name (s.step (.pack first second name)) := by
  rw [State.step] at done ⊢
  cases reached : s.resolve first with
  | error fault =>
      rw [reached] at done
      cases done
  | ok x =>
      cases reached' : s.resolve second with
      | error fault =>
          rw [reached, reached'] at done
          cases done
      | ok y =>
          have copies := Copying.copies_packPair s.filter x y
          exact ⟨x, y, rfl, rfl, wrote_storeCopy copies name⟩

/-- A step that packs writes what the filter keeps of the record of a pair. -/
theorem records_of_packs
    {step : Step}
    (packs : s.Packs step) :
    Event.records (s.step step).2.events = s.filter.log packRecord := by
  obtain ⟨⟨first, second, name, rfl⟩, done⟩ := packs
  obtain ⟨x, y, -, -, wrote⟩ := wrote_of_packs done
  exact wrote.records_of_done done

/-- **The order in a pack.**  First come the clonings, then the record, and last what ends with the
value that the slot held. -/
theorem events_of_pack
    {first second : Path} {name : String}
    (done : (s.step (.pack first second name)).2.reply = .done) :
    ∃ clones endings, ∃ copied : Memory,
      (s.step (.pack first second name)).2.events =
        clones ++ (s.filter.log packRecord).map .logged ++ endings ∧
      (∀ event ∈ clones, ∃ source serial, event = .cloned source serial) ∧
      endings = ((s.slots.find? name).map fun old => (copied.drop old).2).getD [] ∧
      ∀ event ∈ endings, (∃ cell, event = .freed cell) ∨ ∃ p, event = .dropped p := by
  obtain ⟨x, y, -, -, wrote⟩ := wrote_of_packs done
  generalize s.step (.pack first second name) = after at done wrote
  cases wrote with
  | stored memory =>
      refine ⟨_, _, memory, rfl, fun event member => Event.cloned_of_copyLeaves member, rfl, ?_⟩
      cases s.slots.find? name with
      | none => exact fun event member => nomatch member
      | some old => exact fun event member => Event.freed_or_dropped_of_release member
  | refused quiet => cases done

theorem records_remove
    (s : State) (name : String) :
    Event.records (s.remove name).2.events = [] := by
  unfold remove
  split
  · rfl
  · exact Event.records_release _ _

/-- Any other step writes nothing. -/
theorem records_of_not_packs
    {step : Step}
    (other : ¬ s.Packs step) :
    Event.records (s.step step).2.events = [] := by
  cases step with
  | new name draft =>
      rw [State.step, create]
      split
      · exact records_store _ _ _
      · rfl
  | pack first second name =>
      have undone : (s.step (.pack first second name)).2.reply ≠ .done := fun done =>
        other ⟨⟨first, second, name, rfl⟩, done⟩
      rw [State.step] at undone ⊢
      cases reached : s.resolve first with
      | error fault => rfl
      | ok x =>
          cases reached' : s.resolve second with
          | error fault => rfl
          | ok y =>
              rw [reached, reached'] at undone
              exact (wrote_storeCopy (Copying.copies_packPair s.filter x y)
                name).records_of_fault undone
  | clone source name =>
      rw [State.step]
      cases reached : s.resolve source with
      | error fault => rfl
      | ok value =>
          have wrote : Wrote s value [] name (s.storeCopy name value.clone) :=
            wrote_storeCopy (Copying.copies_clone value) name
          simp only
          by_cases done : (s.storeCopy name value.clone).2.reply = .done
          · exact wrote.records_of_done done
          · exact wrote.records_of_fault done
  | take source first second =>
      rw [State.step, split]
      split
      · rfl
      · rw [Event.records_append, records_store, records_store]
        rfl
      · rfl
  | drop name => exact records_remove s name
  | put cell source =>
      rw [State.step, fill]
      split
      · rfl
      · split
        · rfl
        · exact Event.records_release _ _
      · rfl
  | unwrap name =>
      rw [State.step, unwrap]
      split
      · rfl
      · split <;> rfl
      · rfl
  | same first second =>
      rw [State.step, ask_events]
      rfl
  | display path =>
      rw [State.step, ask_events]
      rfl
  | setFilter filter => rfl

theorem records_finish
    (s : State) :
    Event.records s.finish.2.events = [] := by
  have drops : ∀ (names : List String) (s : State),
      Event.records (s.dropAll names).2 = [] := by
    intro names
    induction names with
    | nil => exact fun _ => rfl
    | cons name rest ih =>
        intro s
        show Event.records ((s.remove name).2.events ++ ((s.remove name).1.dropAll rest).2) = []
        rw [Event.records_append, records_remove, ih]
        rfl
  exact drops _ s

end State

/-! ## Muting -/

/-- The state with logging turned off. -/
def State.mute (s : State) : State := { s with filter := .off }

/-- The effect without what was written. -/
def Effect.mute (effect : Effect) : Effect := ⟨effect.reply, Event.unlogged effect.events⟩

namespace State

variable {s : State}

theorem mute_store
    (s : State) (name : String) (value : Value) :
    s.mute.store name value = ((s.store name value).1.mute, (s.store name value).2) := by
  unfold store mute
  simp only
  cases s.slots.find? name <;> rfl

theorem mute_resolve
    (s : State) (path : Path) :
    s.mute.resolve path = s.resolve path := by
  have follow : ∀ (segments : List Segment) (value : Value),
      s.mute.follow segments value = s.follow segments value := by
    intro segments value
    fun_induction State.follow s segments value with
    | case1 value => rfl
    | case2 rest first second ih => exact ih
    | case3 rest first second ih => exact ih
    | case4 rest sharing cell content found ih =>
        rw [State.follow, show Heap.value? s.mute.memory.cells cell = some content from found]
        exact ih
    | case5 rest sharing cell missing =>
        rw [State.follow, show Heap.value? s.mute.memory.cells cell = none from missing]
    | case6 segment rest value first second inside =>
        cases segment <;> cases value <;> first | rfl | grind
  unfold resolve
  simp only [follow]
  rfl

theorem mute_storeCopy
    {copy copy' : Copying Value} {value : Value} {records : List Record}
    (copies : copy.Copies value records) (copies' : copy'.Copies value [])
    (s : State) (name : String) :
    s.mute.storeCopy name copy' = Prod.map mute Effect.mute (s.storeCopy name copy) := by
  have same := copies.run_unlogged copies' s.memory
  unfold storeCopy
  simp only [show s.mute.memory = s.memory from rfl, same]
  cases (copy.run s.memory).result with
  | error refusal => rfl
  | ok made =>
      have stored := mute_store { s with memory := (copy.run s.memory).memory } name made
      have quiet := Event.unlogged_of_records_eq_nil
        (records_store { s with memory := (copy.run s.memory).memory } name made)
      unfold mute at stored ⊢
      simp only [stored, Prod.map, Effect.mute, Event.unlogged_append, quiet]

theorem mute_create
    (s : State) (name : String) (draft : Draft) :
    s.mute.create name draft = ((s.create name draft).1.mute, (s.create name draft).2) := by
  unfold create
  rw [show s.mute.admits draft = s.admits draft from rfl]
  by_cases admitted : s.admits draft = true
  · rw [if_pos admitted, if_pos admitted]
    let founded : State := { s with
      memory := (s.memory.found draft).2, founded := draft.cells ++ s.founded }
    exact congrArg done (mute_store founded name (s.memory.found draft).1)
  · rw [if_neg admitted, if_neg admitted]
    rfl

theorem mute_split
    (s : State) (source first second : String) :
    s.mute.split source first second =
      ((s.split source first second).1.mute, (s.split source first second).2) := by
  unfold split
  rw [show s.mute.slot source = s.slot source from rfl]
  cases s.slot source with
  | error fault => rfl
  | ok value =>
      cases value with
      | pair x y =>
          have earlier := mute_store (s.vacate source) first x
          have later := mute_store ((s.vacate source).store first x).1 second y
          simp only [show s.mute.vacate source = (s.vacate source).mute from rfl, earlier, later]
      | scalar _ | list _ | handle _ _ | probe _ => rfl

theorem mute_remove
    (s : State) (name : String) :
    s.mute.remove name = ((s.remove name).1.mute, (s.remove name).2) := by
  unfold remove
  rw [show s.mute.slot name = s.slot name from rfl]
  cases s.slot name <;> rfl

theorem mute_fill
    (s : State) (path : Path) (source : String) :
    s.mute.fill path source = ((s.fill path source).1.mute, (s.fill path source).2) := by
  unfold fill
  rw [mute_resolve, show s.mute.slot source = s.slot source from rfl]
  cases s.resolve path with
  | error fault => rfl
  | ok value =>
      cases value with
      | handle sharing cell => cases s.slot source <;> rfl
      | scalar _ | list _ | pair _ _ | probe _ => rfl

theorem mute_unwrap
    (s : State) (name : String) :
    s.mute.unwrap name = ((s.unwrap name).1.mute, (s.unwrap name).2) := by
  unfold unwrap
  rw [show s.mute.slot name = s.slot name from rfl, show s.mute.memory = s.memory from rfl]
  split
  · rfl
  · split <;> rfl
  · rfl

theorem mute_ask
    (s : State) (question : Except Fault Reply) :
    s.mute.ask question = ((s.ask question).1.mute, (s.ask question).2) := by
  cases question <;> rfl

/-- A step that writes nothing comes to the same without logging. -/
theorem muted_of_quiet
    {after : State × Effect}
    (quiet : Event.records after.2.events = []) :
    Prod.map mute Effect.mute after = (after.1.mute, after.2) := by
  rw [Prod.map, Effect.mute, Event.unlogged_of_records_eq_nil quiet]

/-- A muted step does what the step does, and writes nothing. -/
theorem mute_step
    (s : State) (step : Step) :
    s.mute.step (control.mute step) = Prod.map mute Effect.mute (s.step step) := by
  have quiet : (∀ first second name, step ≠ .pack first second name) →
      Prod.map mute Effect.mute (s.step step) = ((s.step step).1.mute, (s.step step).2) :=
    fun other =>
    muted_of_quiet (records_of_not_packs fun ⟨⟨_, _, _, packs⟩, _⟩ => other _ _ _ packs)
  cases step with
  | pack first second name =>
      simp only [Machine.Control.mute, control, State.step, mute_resolve]
      cases s.resolve first with
      | error fault => rfl
      | ok x =>
          cases s.resolve second with
          | error fault => rfl
          | ok y =>
              have copies := Copying.copies_packPair s.filter x y
              have copies' := Copying.copies_packPair .off x y
              exact mute_storeCopy copies copies' s name
  | clone source name =>
      simp only [Machine.Control.mute, control, State.step, mute_resolve]
      cases s.resolve source with
      | error fault => rfl
      | ok value =>
          have copies := Copying.copies_clone value
          exact mute_storeCopy copies copies s name
  | setFilter filter => rfl
  | new name draft =>
      rw [quiet (by simp)]
      exact mute_create s name draft
  | take source first second =>
      rw [quiet (by simp)]
      exact mute_split s source first second
  | drop name =>
      rw [quiet (by simp)]
      exact mute_remove s name
  | put cell source =>
      rw [quiet (by simp)]
      exact mute_fill s cell source
  | unwrap name =>
      rw [quiet (by simp)]
      exact mute_unwrap s name
  | same first second =>
      rw [quiet (by simp)]
      simp only [Machine.Control.mute, control, State.step, mute_resolve]
      exact mute_ask s _
  | display path =>
      rw [quiet (by simp)]
      simp only [Machine.Control.mute, control, State.step, mute_resolve]
      exact mute_ask s _

theorem mute_finish
    (s : State) :
    s.mute.finish = Prod.map mute Effect.mute s.finish := by
  have drops : ∀ (names : List String) (s : State),
      s.mute.dropAll names = ((s.dropAll names).1.mute, (s.dropAll names).2) := by
    intro names
    induction names with
    | nil => exact fun _ => rfl
    | cons name rest ih =>
        intro s
        rw [dropAll, dropAll]
        simp only [mute_remove, ih]
  rw [muted_of_quiet (records_finish s)]
  exact congrArg (Prod.map id (Effect.mk .ended)) (drops _ s)

end State

/-- A script does without logging. -/
def muting : machine.Muting control where
  state := State.mute
  effect := Effect.mute
  initial _ := rfl
  step := State.mute_step
  finish := State.mute_finish
  counts _ := rfl

end Script
end SharedPair
