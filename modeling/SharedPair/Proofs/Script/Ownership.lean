import SharedPair.Proofs.Machine
import SharedPair.Proofs.Script.Books

/-!
# Ownership of cells

The strong count of a cell is the number of handles to it, wherever they are: in
the slots and in the values of living cells, at any depth of lists and pairs.  The
count is exact after every step of every script, whatever the steps share, replace,
take apart, make circular or fail to copy.

What follows from it: no handle leads to a cell that is gone, a cell without handles
is gone, and it went in the step that took its last handle away.
-/

namespace SharedPair

namespace Value

mutual

/-- How many handles to a cell occur in a value, at any depth of lists and pairs. -/
def handlesTo (cell : String) : Value → Nat
  | scalar _ => 0
  | list items => handlesToInAll cell items
  | pair first second => handlesTo cell first + handlesTo cell second
  | handle _ target => if target = cell then 1 else 0
  | probe _ => 0

def handlesToInAll (cell : String) : List Value → Nat
  | [] => 0
  | value :: rest => handlesTo cell value + handlesToInAll cell rest

end

mutual

theorem handlesTo_eq_count
    (cell : String) :
    ∀ value : Value, value.handlesTo cell = value.leaves.count (.handle cell)
  | scalar _ => by
      rw [handlesTo, leaves, List.count_nil]
  | list items => by
      rw [handlesTo, leaves]
      exact handlesToInAll_eq_count cell items
  | pair first second => by
      rw [handlesTo, leaves, List.count_append, handlesTo_eq_count cell first,
        handlesTo_eq_count cell second]
  | handle _ target => by
      rw [handlesTo, leaves, List.count_singleton]
      simp
  | probe p => by
      rw [handlesTo, leaves, List.count_singleton]
      simp

theorem handlesToInAll_eq_count
    (cell : String) :
    ∀ values : List Value,
      handlesToInAll cell values = (leavesOfAll values).count (.handle cell)
  | [] => by
      rw [handlesToInAll, leavesOfAll, List.count_nil]
  | value :: rest => by
      rw [handlesToInAll, leavesOfAll, List.count_append, handlesTo_eq_count cell value,
        handlesToInAll_eq_count cell rest]

end

end Value

namespace Event

theorem count_freed
    (cell : String) (events : List Event) :
    events.count (.freed cell) = (frees events).count cell := by
  rw [frees, List.count_filterMap, List.count]
  refine List.countP_congr fun event _ => ?_
  cases event <;> simp [freed?]

end Event

namespace Script

namespace State

variable {s : State}

/-- How many handles to a cell there are in the slots and in the values of the living cells. -/
def handlesTo (s : State) (cell : String) : Nat :=
  Value.handlesToInAll cell s.slots.values +
    Value.handlesToInAll cell (s.memory.cells.values.map Cell.value)

/-- Whether a cell was founded and has lost its last handle. -/
def Forsaken (s : State) (cell : String) : Prop :=
  cell ∈ s.founded ∧ s.handlesTo cell = 0

instance (s : State) (cell : String) : Decidable (s.Forsaken cell) :=
  inferInstanceAs (Decidable (_ ∧ _))

theorem handlesTo_eq_held
    (s : State) (cell : String) :
    s.handlesTo cell = Heap.held s.memory.cells s.roots cell := by
  rw [Heap.held_eq_count, handlesTo, Value.handlesToInAll_eq_count, Value.handlesToInAll_eq_count,
    Value.leavesOfAll_eq_flatMap (s.memory.cells.values.map _), List.flatMap_map]
  rfl

/-! ## What every step keeps -/

/-- The counts are exact, and the names of cells are known and never taken twice. -/
structure Owned (s : State) : Prop where
  counted : Heap.Counted s.memory.cells s.roots
  known : ∀ id ∈ s.memory.cells.keys, id ∈ s.founded
  nodup : s.founded.Nodup

theorem owned_initial
    (filter : Filter) :
    (initial filter).Owned where
  counted := Heap.counted_empty
  known _ member := by
    cases member
  nodup := List.nodup_nil

theorem founded_store
    (s : State) (name : String) (value : Value) :
    (s.store name value).1.founded = s.founded := by
  unfold store
  split <;> rfl

theorem founded_storeCopy
    (s : State) (name : String) (copy : Copying Value) :
    (s.storeCopy name copy).1.founded = s.founded := by
  unfold storeCopy
  simp only
  split
  · exact founded_store _ _ _
  · rfl

/-- A step adds the cells that it founds to the known ones. -/
theorem founded_step
    (s : State) (step : Step) :
    (s.step step).1.founded = step.made s ++ s.founded := by
  cases step with
  | new name draft =>
      rw [Step.made, State.step, create]
      by_cases admitted : s.admits draft = true
      · rw [if_pos admitted, if_pos admitted]
        exact founded_store _ _ _
      · rw [if_neg admitted, if_neg admitted]
        rfl
  | pack first second name =>
      rw [State.step]
      split
      · exact founded_storeCopy _ _ _
      · rfl
      · rfl
  | clone source name =>
      rw [State.step]
      split
      · exact founded_storeCopy _ _ _
      · rfl
  | take source first second =>
      rw [State.step, split]
      split
      · rfl
      · exact (founded_store _ _ _).trans (founded_store _ _ _)
      · rfl
  | drop name =>
      rw [State.step, remove]
      split <;> rfl
  | put cell source =>
      rw [State.step, fill]
      split
      · rfl
      · split <;> rfl
      · rfl
  | unwrap name =>
      rw [State.step, unwrap]
      split
      · rfl
      · split <;> rfl
      · rfl
  | same first second =>
      rw [State.step, ask_fst]
      rfl
  | display path =>
      rw [State.step, ask_fst]
      rfl
  | setFilter filter =>
      rfl

theorem nodup_founded_step
    (nodup : s.founded.Nodup)
    (step : Step) :
    (step.made s ++ s.founded).Nodup := by
  cases step with
  | new name draft =>
      rw [Step.made]
      by_cases admitted : s.admits draft = true
      · rw [if_pos admitted]
        obtain ⟨distinct, fresh⟩ := admits_iff.mp admitted
        refine List.nodup_append.mpr ⟨distinct, nodup, ?_⟩
        rintro id member other known rfl
        exact fresh id member known
      · rw [if_neg admitted]
        exact nodup
  | _ =>
      exact nodup

/-- **Every step keeps the counts exact.** -/
theorem owned_step
    (owned : s.Owned)
    (step : Step) :
    (s.step step).1.Owned where
  counted := (shift_step owned.counted owned.known step).counted
  known id living := by
    rw [founded_step]
    have shift := shift_step owned.counted owned.known step
    have before := shift.keys.mem_iff.mpr (List.mem_append_right _ living)
    rw [Turnover.append_made] at before
    rcases List.mem_append.mp before with old | made
    · exact List.mem_append_right _ (owned.known id old)
    · rcases List.mem_append.mp made with made | none
      · exact List.mem_append_left _ made
      · cases none
  nodup := by
    rw [founded_step]
    exact nodup_founded_step owned.nodup step

/-! ## What exact counts mean -/

theorem Owned.count_eq
    (owned : s.Owned)
    {id : String} {cell : Cell Value}
    (found : s.memory.cells.find? id = some cell) :
    cell.count = s.handlesTo id := by
  rw [handlesTo_eq_held, ← owned.counted.exact, Heap.count_of_find? found]

theorem Owned.handlesTo_eq_zero_iff
    (owned : s.Owned)
    {id : String} :
    s.handlesTo id = 0 ↔ s.memory.cells.find? id = none := by
  cases found : s.memory.cells.find? id with
  | none =>
      rw [handlesTo_eq_held, ← owned.counted.exact, Heap.count_of_find?_eq_none found]
      simp
  | some cell =>
      have positive := owned.counted.positive id cell found
      rw [owned.count_eq found] at positive
      simp
      omega

/-- A cell is known once for each time that it is alive or forsaken. -/
theorem Owned.count_founded
    (owned : s.Owned)
    (id : String) :
    s.founded.count id =
      s.memory.cells.keys.count id + if s.Forsaken id then 1 else 0 := by
  by_cases known : id ∈ s.founded
  · rw [owned.nodup.count, if_pos known]
    by_cases living : id ∈ s.memory.cells.keys
    · have held : ¬ s.Forsaken id := by
        rintro ⟨-, none⟩
        rw [owned.handlesTo_eq_zero_iff, Table.find?_eq_none_iff] at none
        exact none living
      rw [s.memory.cells.keys_nodup.count, if_pos living, if_neg held]
    · have gone : s.Forsaken id :=
        ⟨known, owned.handlesTo_eq_zero_iff.mpr (Table.find?_eq_none_iff.mpr living)⟩
      rw [List.count_eq_zero.mpr living, if_pos gone]
  · have dead : id ∉ s.memory.cells.keys := fun living => known (owned.known id living)
    have held : ¬ s.Forsaken id := fun gone => known gone.1
    rw [List.count_eq_zero.mpr known, List.count_eq_zero.mpr dead, if_neg held]

/-- A cell is freed in the step that takes its last handle away. -/
theorem Owned.freed_step
    (owned : s.Owned)
    (step : Step) (id : String) :
    (if (s.step step).1.Forsaken id then 1 else 0) =
      (if s.Forsaken id then 1 else 0) + (s.step step).2.events.count (.freed id) := by
  have shift := shift_step owned.counted owned.known step
  have balance : s.memory.cells.keys.count id + (step.made s).count id =
      (s.step step).2.events.count (.freed id) +
        (s.step step).1.memory.cells.keys.count id := by
    have keys := shift.keys.count_eq id
    rw [Event.count_freed]
    simpa [Turnover.ofEvents] using keys
  have before := owned.count_founded id
  have after := (owned_step owned step).count_founded id
  rw [founded_step, List.count_append] at after
  omega

end State

/-! ## Runs -/

/-- The events of some entries, in their order. -/
def eventsOf (entries : List Entry) : List Event :=
  entries.flatMap fun entry => entry.effect.events

theorem eventsOf_append
    (first second : List Entry) :
    eventsOf (first ++ second) = eventsOf first ++ eventsOf second :=
  List.flatMap_append

theorem eventsOf_run_cons
    (s : State) (step : Step) (rest : List Step) :
    eventsOf (machine.run s (step :: rest)).2 =
      (s.step step).2.events ++ eventsOf (machine.run (s.step step).1 rest).2 := by
  rfl

namespace State

variable {s : State}

theorem owned_run
    (steps : List Step) {s : State}
    (owned : s.Owned) :
    (machine.run s steps).1.Owned :=
  Machine.run_invariant (P := Owned) (fun _ step owned => owned_step owned step) steps owned

theorem Owned.freed_run
    (id : String) (steps : List Step) {s : State}
    (owned : s.Owned) :
    (if (machine.run s steps).1.Forsaken id then 1 else 0) =
      (if s.Forsaken id then 1 else 0) + (eventsOf (machine.run s steps).2).count (.freed id) := by
  induction steps generalizing s with
  | nil => rfl
  | cons step rest ih =>
      have first := owned.freed_step step id
      have later := ih (owned_step owned step)
      rw [eventsOf_run_cons, List.count_append, Machine.run_cons]
      simp only
      omega

/-- Dropping slots one after the other is a run of drops. -/
theorem dropAll_eq_run
    (names : List String) (s : State) :
    s.dropAll names =
      ((machine.run s (names.map .drop)).1, eventsOf (machine.run s (names.map .drop)).2) := by
  induction names generalizing s with
  | nil => rfl
  | cons name rest ih =>
      have later := ih (s.remove name).1
      show ((dropAll (s.remove name).1 rest).1, _ ++ (dropAll (s.remove name).1 rest).2) = _
      rw [later]
      rfl

theorem finish_eq_run
    (s : State) :
    ∃ names : List String,
      s.finish.1 = (machine.run s (names.map .drop)).1 ∧
        s.finish.2.events = eventsOf (machine.run s (names.map .drop)).2 := by
  refine ⟨s.slots.keys.mergeSort fun a b => decide (a ≤ b), ?_⟩
  have drops := dropAll_eq_run (s.slots.keys.mergeSort fun a b => decide (a ≤ b)) s
  exact ⟨congrArg Prod.fst drops, congrArg Prod.snd drops⟩

end State

theorem eventsOf_transcript_append
    (filter : Filter) (steps : List Step) :
    eventsOf (transcript filter steps) =
      eventsOf (machine.run (State.initial filter) steps).2 ++
        (machine.run (State.initial filter) steps).1.finish.2.events := by
  show eventsOf (_ ++ [_]) = _
  rw [eventsOf_append]
  exact congrArg (_ ++ ·) (List.append_nil _)

/-- The events of a whole script are those of a run that drops the slots last. -/
theorem eventsOf_transcript
    (filter : Filter) (steps : List Step) :
    ∃ drops : List Step,
      eventsOf (transcript filter steps) =
        eventsOf (machine.run (State.initial filter) (steps ++ drops)).2 := by
  obtain ⟨names, -, ended⟩ := (machine.run (State.initial filter) steps).1.finish_eq_run
  refine ⟨names.map .drop, ?_⟩
  rw [eventsOf_transcript_append, ended, Machine.run_append, eventsOf_append]

/-! ## Other handles -/

namespace State

variable {s : State}

theorem handlesTo_of_slot
    {name : String} {value : Value}
    (found : s.slots.find? name = some value)
    (id : String) :
    s.handlesTo id = value.handlesTo id + (s.vacate name).handlesTo id := by
  have apart := (roots_perm_vacate found).count_eq (.handle id)
  rw [List.count_append] at apart
  rw [handlesTo_eq_held, handlesTo_eq_held, Heap.held_eq_count, Heap.held_eq_count,
    Value.handlesTo_eq_count]
  show _ = _ + (_ + s.memory.cells.leaves.count _)
  omega

/-- A cell is shared when there is a handle to it beside the one in the slot. -/
theorem Owned.unwrap_shared_iff
    (owned : s.Owned)
    (name : String) :
    (s.unwrap name).2.reply = .fault .shared ↔
      ∃ sharing id, s.slots.find? name = some (.handle sharing id) ∧
        0 < (s.vacate name).handlesTo id := by
  unfold unwrap slot
  cases found : s.slots.find? name with
  | none =>
      simp [answer]
  | some value =>
      cases value with
      | handle sharing id =>
          have total := handlesTo_of_slot found id
          rw [Value.handlesTo, if_pos rfl] at total
          obtain ⟨⟨content, count⟩, living⟩ : ∃ cell, s.memory.cells.find? id = some cell := by
            cases living : s.memory.cells.find? id with
            | some cell =>
                exact ⟨cell, rfl⟩
            | none =>
                have none := owned.handlesTo_eq_zero_iff.mpr living
                omega
          have counted := owned.count_eq living
          simp only [living] at counted ⊢
          by_cases last : count = 1
          · subst last
            have alone : (s.vacate name).handlesTo id = 0 := by omega
            simp [alone]
          · have more : 0 < (s.vacate name).handlesTo id := by omega
            constructor
            · intro _
              exact ⟨sharing, id, rfl, more⟩
            · intro _
              split
              · next value eq =>
                  cases eq
                  exact absurd rfl last
              · rfl
      | scalar _ | list _ | pair _ _ | probe _ =>
          simp [answer]

end State

/-- **Ownership.**  After any steps, whether they succeed, fail or have a copy refused midway:

* the strong count of a living cell is the number of handles to it, and there is one;
* a cell without handles is gone, and no handle leads to a cell that is gone;
* every cell founded so far has been freed once if its last handle is gone, and otherwise never;
* a step frees just the cells that lose their last handle in it;
* up to the end of the slots, no cell is freed twice;
* a handle cannot be unwrapped, as shared, just when there is another one to its cell. -/
theorem counts_exact_of_run
    (filter : Filter) (steps : List Step) :
    let s := (machine.run (State.initial filter) steps).1
    let past := eventsOf (machine.run (State.initial filter) steps).2
    (∀ id cell, s.memory.cells.find? id = some cell →
      cell.count = s.handlesTo id ∧ 0 < cell.count) ∧
    (∀ id, s.handlesTo id = 0 ↔ s.memory.cells.find? id = none) ∧
    (∀ id, past.count (.freed id) = if s.Forsaken id then 1 else 0) ∧
    (∀ step id, (s.step step).2.events.count (.freed id) =
      if (s.step step).1.Forsaken id ∧ ¬ s.Forsaken id then 1 else 0) ∧
    (∀ id, (eventsOf (transcript filter steps)).count (.freed id) ≤ 1) ∧
    (∀ name, (s.step (.unwrap name)).2.reply = .fault .shared ↔
      ∃ sharing id, s.slots.find? name = some (.handle sharing id) ∧
        0 < (s.vacate name).handlesTo id) := by
  intro s past
  have start := State.owned_initial filter
  have owned : s.Owned := State.owned_run steps start
  have known : ∀ id, ¬ (State.initial filter).Forsaken id := by
    rintro id ⟨member, -⟩
    cases member
  refine ⟨?_, ?_, ?_, ?_, ?_, ?_⟩
  · intro id cell found
    exact ⟨owned.count_eq found, owned.counted.positive id cell found⟩
  · intro id
    exact owned.handlesTo_eq_zero_iff
  · intro id
    have total := start.freed_run id steps
    rw [if_neg (known id), Nat.zero_add] at total
    exact total.symm
  · intro step id
    have total := owned.freed_step step id
    by_cases before : s.Forsaken id
    · rw [if_pos before] at total
      rw [if_neg (fun both => both.2 before)]
      split at total <;> omega
    · rw [if_neg before, Nat.zero_add] at total
      rw [← total]
      simp [before]
  · intro id
    obtain ⟨drops, ended⟩ := eventsOf_transcript filter steps
    have total := start.freed_run id (steps ++ drops)
    rw [ended]
    split at total <;> omega
  · intro name
    exact owned.unwrap_shared_iff name

end Script
end SharedPair
