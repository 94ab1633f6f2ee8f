import SharedPair.Proofs.Script.Births

/-!
# Faults leave no trace

A step that faults has either found, by one of its checks, that it cannot do what it
says, and then it has not begun to; or a probe refused to be cloned in the middle of
a copy.  By then any number of handles and probes may have been copied, at any depth
of the value and in either half of a pair.  All of that is undone: the cells are the
very table that they were, and what was cloned is dropped again.

Only the counted attempts stay.
-/

namespace SharedPair
namespace Script

namespace State

variable {s : State} {fault : Fault}

/-! ## What a fault leaves -/

/-- What a step comes to when it faults: it has not begun, or a copy was refused and undone. -/
inductive Faulted (s : State) (fault : Fault) : State × Effect → Prop
  | checked
      (early : fault.refusal? = none) :
      Faulted s fault (s.answer (.fault fault))
  | refused
      {value : Value} {refusal : Refusal} {dropped : List Probe}
      (reason : fault.refusal? = some refusal)
      (borrowed : ∀ leaf ∈ value.leaves, leaf ∈ s.roots ++ s.memory.cells.leaves)
      (stopped : (s.memory.copyLeaves value.leaves).refusal = some refusal)
      (same : dropped.Perm (Leaf.tokens (s.memory.copyLeaves value.leaves).copied)) :
      Faulted s fault
        ({ s with memory := ⟨s.memory.cells, (s.memory.copyLeaves value.leaves).memory.families⟩ },
          ⟨.fault fault, (s.memory.copyLeaves value.leaves).events ++ dropped.map .dropped⟩)

theorem faulted_storeCopy
    {copy : Copying Value} {value : Value} {records : List Record}
    (owned : s.Owned)
    (copies : copy.Copies value records)
    (borrowed : ∀ leaf ∈ value.leaves, leaf ∈ s.roots ++ s.memory.cells.leaves)
    (name : String) :
    (s.storeCopy name copy).2.reply = .fault fault →
      Faulted s fault (s.storeCopy name copy) := by
  have ends := copies.run_ends owned.counted.positive
  unfold storeCopy
  generalize copy.run s.memory = outcome at ends
  cases ends with
  | finished accepted same =>
      intro faulted
      cases faulted
  | refused stopped same =>
      intro faulted
      cases faulted
      exact .refused rfl borrowed stopped same

/-- A step that answers a fault has come to it in one of the two ways. -/
theorem faulted_step
    (owned : s.Owned)
    (step : Step) :
    (s.step step).2.reply = .fault fault →
      Faulted s fault (s.step step) := by
  have way := way_step s step
  generalize step.families s = families at way
  generalize s.step step = after at way
  intro faulted
  cases way with
  | checked early =>
      cases faulted
      exact .checked early
  | created admitted =>
      rw [create, if_pos admitted] at faulted
      cases faulted
  | copied copies borrowed =>
      exact faulted_storeCopy owned copies borrowed _ faulted
  | moved families clones fine =>
      exact absurd faulted (fine fault)

/-! ## No trace -/

variable {after : State × Effect}

/-- Nothing changes but the counted attempts. -/
theorem Faulted.state
    (faulted : Faulted s fault after) :
    after.1 = { s with memory := ⟨s.memory.cells, after.1.memory.families⟩ } := by
  cases faulted with
  | checked early =>
      rfl
  | refused reason borrowed stopped same =>
      rfl

/-- What happens in a step that faults are clonings and drops, and as many of the one as of the
other. -/
theorem Faulted.events
    (faulted : Faulted s fault after) :
    Event.records after.2.events = [] ∧ Event.frees after.2.events = [] ∧
      (Event.drops after.2.events).Perm (Event.clones after.2.events) := by
  cases faulted with
  | checked early =>
      exact ⟨rfl, rfl, List.Perm.refl _⟩
  | @refused value refusal dropped reason borrowed stopped same =>
      obtain ⟨turnover, records⟩ := Memory.events_copyLeaves value.leaves s.memory
      have whole : Turnover.ofEvents ((s.memory.copyLeaves value.leaves).events ++
          dropped.map .dropped) =
          ⟨[], [], Leaf.tokens (s.memory.copyLeaves value.leaves).copied, dropped⟩ := by
        rw [Turnover.ofEvents_append, turnover, Turnover.ofEvents_dropped]
        exact congrArg (Turnover.mk [] [] · dropped) (List.append_nil _)
      have clones := congrArg Turnover.born whole
      have drops := congrArg Turnover.ended whole
      refine ⟨?_, congrArg Turnover.freed whole, ?_⟩
      · rw [Event.records_append, records, Event.records_dropped]
        rfl
      · exact (List.Perm.of_eq drops).trans (same.trans (List.Perm.of_eq clones.symm))

/-- A check that fails is all that happens. -/
theorem Faulted.early
    (faulted : Faulted s fault after)
    (checked : fault.refusal? = none) :
    after.2.events = [] ∧ after.1.memory.families = s.memory.families := by
  cases faulted with
  | checked early =>
      exact ⟨rfl, rfl⟩
  | refused reason borrowed stopped same =>
      rw [reason] at checked
      cases checked

/-- A refused copy leaves behind that its attempts are counted: the accepted ones, which are those
of the clonings, and the refused one. -/
theorem Faulted.counted
    (faulted : Faulted s fault after)
    {refusal : Refusal}
    (reason : fault.refusal? = some refusal)
    (number : Nat) :
    after.1.memory.families[number]? =
      s.memory.families[number]?.map (Family.advance ·
        (countFamily number (Event.clones after.2.events) +
          if refusal.family.number = number then 1 else 0)) := by
  cases faulted with
  | checked early =>
      rw [early] at reason
      cases reason
  | @refused value refusal' dropped reason' borrowed stopped same =>
      have passed := Memory.families_copyLeaves number value.leaves s.memory
      rw [reason', Option.some.injEq] at reason
      rw [stopped, reason] at passed
      simp only [Event.clones_append, Event.clones_copyLeaves, Event.clones_dropped,
        List.append_nil]
      simpa [countRefusal] using passed

end State

/-- What has become of a state in a step that answered a fault. -/
structure Harmless (s : State) (fault : Fault) (after : State × Effect) : Prop where
  /-- The slots have their values. -/
  slots : after.1.slots = s.slots
  /-- The cells have their values and counts. -/
  cells : after.1.memory.cells = s.memory.cells
  /-- The cells have their names. -/
  founded : after.1.founded = s.founded
  /-- The filter is in force as before. -/
  filter : after.1.filter = s.filter
  /-- Nothing is written. -/
  records : Event.records after.2.events = []
  /-- No cell is freed. -/
  frees : Event.frees after.2.events = []
  /-- If a check found the fault, nothing happens and the counters of the families stand still. -/
  checked : fault.refusal? = none →
    after.2.events = [] ∧ after.1.memory.families = s.memory.families
  /-- If a copy was refused, the counter of each family moves on by the attempts made in it. -/
  counted : ∀ refusal, fault.refusal? = some refusal →
    ∀ number, after.1.memory.families[number]? =
      s.memory.families[number]?.map (Family.advance ·
        (countFamily number (Event.clones after.2.events) +
          if refusal.family.number = number then 1 else 0))
  /-- Each probe that was cloned is dropped once. -/
  once : ∀ p ∈ Event.clones after.2.events, (Event.drops after.2.events).count p = 1
  /-- No other probe is dropped, and none that was there before. -/
  fresh : ∀ p ∈ Event.drops after.2.events, p ∈ Event.clones after.2.events ∧ p ∉ s.probes

/-- **Exception safety.**  Whatever steps went before, a step that answers a fault leaves nothing
behind but the attempts that are counted: what it made is gone with it, and what was there stays. -/
theorem state_of_fault
    (filter : Filter) (steps : List Step) (step : Step) (fault : Fault) :
    let s := (machine.run (State.initial filter) steps).1
    (s.step step).2.reply = .fault fault → Harmless s fault (s.step step) := by
  intro s reply
  have start := State.owned_initial filter
  have owned : s.Owned := State.owned_run steps start
  have enrolled : s.Enrolled := State.enrolled_run steps start (State.enrolled_initial filter)
  have faulted := State.faulted_step owned step reply
  have births := State.births_step owned enrolled step
  rcases faulted.events with ⟨records, frees, balanced⟩
  have same : (s.step step).1 =
      { s with memory := ⟨s.memory.cells, (s.step step).1.memory.families⟩ } :=
    faulted.state
  exact {
    slots := by rw [same]
    cells := by rw [same]
    founded := by rw [same]
    filter := by rw [same]
    records := records
    frees := frees
    checked := faulted.early
    counted := fun refusal => faulted.counted
    once := fun p member => by
      have once : (Event.clones (s.step step).2.events).Nodup :=
        (List.nodup_append.mp births.nodup).2.1
      rw [balanced.count_eq, once.count, if_pos member]
    fresh := fun p member => by
      have cloned := balanced.mem_iff.mp member
      have unused : ¬ s.memory.Issued p := (births.fresh p (List.mem_append_right _ cloned)).1
      exact ⟨cloned, fun before => unused (enrolled p before)⟩ }

/-- The second half of a pair is refused at its last probe, when two handles and three probes have
been copied. -/
theorem state_of_fault_midway :
    let steps : List Step := [.new "x" (.list
      [.cell .acrossThreads "c" (.probe "p" []), .probe "p" [], .probe "q" [2]])]
    let s := (machine.run (State.initial (.upTo .trace)) steps).1
    let step := Step.pack ⟨"x", []⟩ ⟨"x", []⟩ "y"
    (s.step step).2.reply = .fault (.refused ⟨⟨"q", 2⟩, 2⟩) ∧
      (s.step step).1.slots = s.slots ∧
      (s.step step).1.memory.cells = s.memory.cells ∧
      (∀ p ∈ Event.clones (s.step step).2.events,
        (Event.drops (s.step step).2.events).count p = 1) := by
  intro steps s step
  have refused : (s.step step).2.reply = .fault (.refused ⟨⟨"q", 2⟩, 2⟩) := rfl
  have law := state_of_fault (.upTo .trace) steps step (.refused ⟨⟨"q", 2⟩, 2⟩) refused
  unfold s at refused ⊢
  exact ⟨refused, law.slots, law.cells, law.once⟩

end Script
end SharedPair
