import SharedPair.Proofs.Copy.Numbering
import SharedPair.Proofs.Heap.Cycles
import SharedPair.Proofs.Script.Copies
import SharedPair.Proofs.Script.Logging

/-!
# What a pack builds

A pack that succeeds stores a pair of likenesses.  It takes one more handle to a cell for
each handle to it in the two values, clones their probes from left to right, and leaves
everything else as it was.

The old value of the slot is given up when the pair is in place.  It may be the very
value that was packed, or hold it, or be held by one of the cells that the pair shares:
the pair has handles of its own by then, and what they lead to lives on.
-/

namespace SharedPair

namespace Value

mutual

/-- The handles of a value are those of its likeness. -/
theorem handlesTo_unnumbered
    (cell : String) :
    ∀ value : Value, value.unnumbered.handlesTo cell = value.handlesTo cell
  | scalar _ => by
      rw [unnumbered]
  | list items => by
      rw [unnumbered, handlesTo, handlesTo, handlesToInAll_unnumbered cell items]
  | pair first second => by
      rw [unnumbered, handlesTo, handlesTo, handlesTo_unnumbered cell first,
        handlesTo_unnumbered cell second]
  | handle _ _ => by
      rw [unnumbered]
  | probe _ => by
      rw [unnumbered, handlesTo, handlesTo]

theorem handlesToInAll_unnumbered
    (cell : String) :
    ∀ values : List Value,
      handlesToInAll cell (unnumberedAll values) = handlesToInAll cell values
  | [] => by
      rw [unnumberedAll]
  | value :: rest => by
      rw [unnumberedAll, handlesToInAll, handlesToInAll, handlesTo_unnumbered cell value,
        handlesToInAll_unnumbered cell rest]

end

theorem handlesTo_of_alike
    {made value : Value}
    (alike : made.unnumbered = value.unnumbered)
    (cell : String) :
    made.handlesTo cell = value.handlesTo cell := by
  rw [← handlesTo_unnumbered, alike, handlesTo_unnumbered]

end Value

namespace Script
namespace State

variable {s : State} {first second : Path} {name : String}

theorem remove_of_used
    {old : Value}
    (used : s.slots.find? name = some old) :
    s.remove name = done ((s.vacate name).discard old) := by
  have held : s.slot name = .ok old := by
    rw [slot, used]
  rw [remove, held]

/-- A cell that is alive after a step was not freed in it. -/
theorem not_freed_of_alive
    (owned : s.Owned)
    {step : Step} {id : String} {value : Value}
    (alive : Heap.value? (s.step step).1.memory.cells id = some value) :
    .freed id ∉ (s.step step).2.events := by
  have counts := owned.freed_step step id
  have owned' := owned_step owned step
  have held : ¬ (s.step step).1.Forsaken id := by
    rintro ⟨-, none⟩
    rw [Heap.value?, owned'.handlesTo_eq_zero_iff.mp none] at alive
    cases alive
  rw [if_neg held] at counts
  exact List.count_eq_zero.mp (by omega)

/-- A pack that succeeds: both values are found, no probe refuses, and the same pair would be stored
in any slot. -/
structure Packing (s : State) (first second : Path) (x y x' y' : Value) : Prop where
  reached : s.resolve first = .ok x
  reached' : s.resolve second = .ok y
  accepted : (s.memory.copyLeaves (x.leaves ++ y.leaves)).refusal = none
  alike : x'.unnumbered = x.unnumbered
  alike' : y'.unnumbered = y.unnumbered
  held : x'.leaves ++ y'.leaves = (s.memory.copyLeaves (x.leaves ++ y.leaves)).copied
  unused : ∀ {name}, s.slots.find? name = none →
    s.step (.pack first second name) =
      ({ s with
          slots := s.slots.insert name (.pair x' y'),
          memory := (s.memory.copyLeaves (x.leaves ++ y.leaves)).memory },
        ⟨.done, (s.memory.copyLeaves (x.leaves ++ y.leaves)).events ++
          (s.filter.log packRecord).map .logged⟩)
  used : ∀ {name old}, s.slots.find? name = some old →
    s.step (.pack first second name) =
      ({ s with
          slots := s.slots.insert name (.pair x' y'),
          memory := ((s.memory.copyLeaves (x.leaves ++ y.leaves)).memory.drop old).1 },
        ⟨.done, (s.memory.copyLeaves (x.leaves ++ y.leaves)).events ++
          (s.filter.log packRecord).map .logged ++
          ((s.memory.copyLeaves (x.leaves ++ y.leaves)).memory.drop old).2⟩)

theorem packing_of_done
    (owned : s.Owned)
    (done : (s.step (.pack first second name)).2.reply = .done) :
    ∃ x y x' y', s.Packing first second x y x' y' := by
  obtain ⟨x, y, reached, reached', -⟩ := wrote_of_packs done
  cases refusal : (s.memory.copyLeaves (x.leaves ++ y.leaves)).refusal with
  | some refused =>
      obtain ⟨dropped, -, stopped⟩ :=
        step_pack_of_refused reached reached' owned.counted.positive refusal name
      rw [stopped] at done
      cases done
  | none =>
      obtain ⟨x', y', alike, alike', held, stored⟩ :=
        step_pack_of_accepted reached reached' refusal
      refine ⟨x, y, x', y', reached, reached', refusal, alike, alike', held, fun {name} free => ?_,
        fun {name old} found => ?_⟩
      · rw [stored name]
        simp only [store, free, List.append_nil]
      · rw [stored name]
        simp only [store, found]
        rfl

namespace Packing

variable {x y x' y' : Value}

/-- What a cell is left with when likenesses of two values are made. -/
theorem find?_copied
    (packing : s.Packing first second x y x' y')
    (id : String) :
    (s.memory.copyLeaves (x.leaves ++ y.leaves)).memory.cells.find? id =
      (s.memory.cells.find? id).map fun cell =>
        ⟨cell.value, cell.count + (x.handlesTo id + y.handlesTo id)⟩ := by
  rw [Memory.cells_copyLeaves, ← packing.held, Heap.find?_acquireAll, List.count_append,
    ← Value.handlesTo_eq_count, ← Value.handlesTo_eq_count,
    Value.handlesTo_of_alike packing.alike, Value.handlesTo_of_alike packing.alike']

theorem slots
    (packing : s.Packing first second x y x' y')
    (name : String) :
    (s.step (.pack first second name)).1.slots = s.slots.insert name (.pair x' y') := by
  cases found : s.slots.find? name with
  | none => rw [packing.unused found]
  | some old => rw [packing.used found]

theorem stored
    (packing : s.Packing first second x y x' y')
    (name : String) :
    (s.step (.pack first second name)).1.slots.find? name = some (.pair x' y') := by
  rw [packing.slots, Table.find?_insert, if_pos rfl]

theorem find?_other
    {other : String}
    (packing : s.Packing first second x y x' y')
    (apart : other ≠ name) :
    (s.step (.pack first second name)).1.slots.find? other = s.slots.find? other := by
  rw [packing.slots, Table.find?_insert, if_neg (Ne.symm apart)]

/-- No cell that stays gets another value. -/
theorem value?_before
    {id : String} {value : Value}
    (packing : s.Packing first second x y x' y')
    (alive : Heap.value? (s.step (.pack first second name)).1.memory.cells id = some value) :
    Heap.value? s.memory.cells id = some value := by
  rw [← Memory.value?_copyLeaves id (x.leaves ++ y.leaves)]
  cases found : s.slots.find? name with
  | none =>
      rw [packing.unused found] at alive
      exact alive
  | some old =>
      rw [packing.used found] at alive
      exact Heap.value?_of_release alive

/-- A pack that succeeds follows its plan to the end. -/
theorem events
    (packing : s.Packing first second x y x' y')
    (enrolled : s.Enrolled) :
    (s.memory.copyLeaves (x.leaves ++ y.leaves)).events =
      (s.memory.plan (Leaf.tokens x.leaves ++ Leaf.tokens y.leaves)).map Attempt.event := by
  have planned := Memory.planned_copyLeaves _
    (issued_of_resolve_pair enrolled packing.reached packing.reached')
  have none : s.memory.rejected? _ = none :=
    Option.map_eq_none_iff.mp (planned.refusal.symm.trans packing.accepted)
  rw [planned.events, Memory.accepted_of_rejected?_eq_none none, Leaf.tokens_append]

/-- **A pack into a slot in use** comes to what a pack into an unused slot comes to when the old
value is dropped after it. -/
theorem used_eq
    {unused : String} {old : Value}
    (packing : s.Packing first second x y x' y')
    (found : s.slots.find? name = some old) (free : s.slots.find? unused = none) :
    let after := s.step (.pack first second name)
    let fresh := s.step (.pack first second unused)
    let dropped := fresh.1.step (.drop name)
    dropped.2.reply = .done ∧ after.1.memory = dropped.1.memory ∧
      after.2.events = fresh.2.events ++ dropped.2.events ∧
      ∀ other, other ≠ name → other ≠ unused →
        after.1.slots.find? other = dropped.1.slots.find? other := by
  intro after fresh dropped
  have apart : unused ≠ name := by
    rintro rfl
    rw [free] at found
    cases found
  have still : fresh.1.slots.find? name = some old :=
    (packing.find?_other (Ne.symm apart)).trans found
  have gone : dropped = done ((fresh.1.vacate name).discard old) := remove_of_used still
  refine ⟨?_, ?_, ?_, fun other notName notUnused => ?_⟩
  · rw [gone]
    rfl
  · rw [gone]
    show (s.step _).1.memory = ((s.step _).1.memory.drop old).1
    rw [packing.used found, packing.unused free]
  · rw [gone]
    show (s.step _).2.events = (s.step _).2.events ++ ((s.step _).1.memory.drop old).2
    rw [packing.used found, packing.unused free]
  · rw [gone]
    show (s.step _).1.slots.find? other = ((s.step _).1.slots.erase name).find? other
    rw [Table.find?_erase, if_neg (Ne.symm notName), packing.find?_other notName,
      packing.find?_other notUnused]

end Packing
end State

/-- What a step that packs the values at two paths into a slot has built. -/
structure Builds (s : State) (first second : Path) (name : String) (x y x' y' : Value)
    (after : State × Effect) : Prop where
  /-- The first value is that at the first path. -/
  reached : s.resolve first = .ok x
  /-- The second value is that at the second path. -/
  reached' : s.resolve second = .ok y
  /-- The slot holds a pair. -/
  stored : after.1.slots.find? name = some (.pair x' y')
  /-- Its first component is the first value but for the serials of the probes. -/
  alike : x'.unnumbered = x.unnumbered
  /-- Its second component is the second value but for the serials of the probes. -/
  alike' : y'.unnumbered = y.unnumbered
  /-- The other slots hold what they held. -/
  others : ∀ other, other ≠ name → after.1.slots.find? other = s.slots.find? other
  /-- No cell is founded. -/
  founded : after.1.founded = s.founded
  /-- The filter is in force as before. -/
  filter : after.1.filter = s.filter
  /-- If the slot was unused, the same cells have the same values, and the count of each has grown
  by the number of handles to it in the two values. -/
  counted : s.slots.find? name = none →
    ∀ id, after.1.memory.cells.find? id = (s.memory.cells.find? id).map fun cell =>
      ⟨cell.value, cell.count + (x.handlesTo id + y.handlesTo id)⟩
  /-- If the slot was unused, the events are the clonings of the probes of the first value and then
  of the second, outside cells and from left to right, and then the record of the pair. -/
  events : s.slots.find? name = none →
    after.2.events =
      (s.memory.plan (Leaf.tokens x.leaves ++ Leaf.tokens y.leaves)).map Attempt.event ++
        (s.filter.log packRecord).map .logged
  /-- If the slot was in use, the step comes to what it comes to to pack into any unused slot, to
  drop the old value after that, and to have the pair in the slot instead. -/
  overwrites : s.slots.find? name ≠ none → ∀ unused, s.slots.find? unused = none →
    let fresh := s.step (.pack first second unused)
    let dropped := fresh.1.step (.drop name)
    fresh.2.reply = .done ∧ dropped.2.reply = .done ∧
    after.1.memory = dropped.1.memory ∧
    after.2.events = fresh.2.events ++ dropped.2.events ∧
    fresh.1.slots.find? unused = some (.pair x' y') ∧
    ∀ other, other ≠ name → other ≠ unused →
      after.1.slots.find? other = dropped.1.slots.find? other
  /-- No cell is freed that the handles of the pair lead to, directly or through other cells, and
  its value stays what it was. -/
  kept : ∀ root id, .handle root ∈ (Value.pair x' y').leaves →
    Relation.ReflTransGen (Heap.Holds s.memory.cells) root id →
    .freed id ∉ after.2.events ∧
      ∃ value, Heap.value? s.memory.cells id = some value ∧
        Heap.value? after.1.memory.cells id = some value

/-- **What a pack builds.**  Any step that packs the values at two paths into a slot, in any state
that steps lead to, and succeeds, builds a pair of likenesses of the two values. -/
theorem pack_builds_pair
    (filter : Filter) (steps : List Step) (first second : Path) (name : String) :
    let s := (machine.run (State.initial filter) steps).1
    let after := s.step (.pack first second name)
    after.2.reply = .done → ∃ x y x' y', Builds s first second name x y x' y' after := by
  intro s after done
  have start := State.owned_initial filter
  have owned : s.Owned := State.owned_run steps start
  have enrolled : s.Enrolled := State.enrolled_run steps start (State.enrolled_initial filter)
  obtain ⟨x, y, x', y', packing⟩ := State.packing_of_done owned done
  have there : after.1.slots.find? name = some (.pair x' y') := packing.stored name
  have owned' : after.1.Owned := State.owned_step owned (.pack first second name)
  exact ⟨x, y, x', y', {
    reached := packing.reached
    reached' := packing.reached'
    stored := there
    alike := packing.alike
    alike' := packing.alike'
    others := fun other => packing.find?_other
    founded := State.founded_step s (.pack first second name)
    filter := State.filter_step s (.pack first second name)
    counted := fun free id => by
      show (s.step _).1.memory.cells.find? id = _
      rw [packing.unused free]
      exact packing.find?_copied id
    events := fun free => by
      show (s.step _).2.events = _
      rw [packing.unused free, ← packing.events enrolled]
    overwrites := fun used unused free => by
      obtain ⟨old, found⟩ := Option.ne_none_iff_exists'.mp used
      obtain ⟨gone, memory, events, slots⟩ := packing.used_eq found free
      refine ⟨?_, gone, memory, events, packing.stored unused, slots⟩
      rw [packing.unused free]
    kept := fun root id member path => by
      have inside : .handle root ∈ after.1.roots :=
        (State.roots_perm_vacate there).mem_iff.mpr (List.mem_append_left _ member)
      obtain ⟨value, alive⟩ :=
        owned'.counted.alive_of_reached (fun _ _ => packing.value?_before) inside path
      exact ⟨State.not_freed_of_alive owned alive, value, packing.value?_before alive, alive⟩ }⟩

/-- A list with a handle and a probe is packed with itself into its own slot. -/
theorem pack_builds_pair_overwriting :
    let steps : List Step :=
      [.new "x" (.list [.cell .acrossThreads "c" (.probe "p" []), .probe "q" []])]
    let s := (machine.run (State.initial .all) steps).1
    let pack := Step.pack ⟨"x", []⟩ ⟨"x", []⟩
    let copy : Nat → Value := fun serial =>
      .list [.handle .acrossThreads "c", .probe ⟨⟨"q", 1⟩, serial⟩]
    (s.step (pack "x")).2.reply = .done ∧
      (s.step (pack "x")).1.slots.find? "x" = some (.pair (copy 1) (copy 2)) ∧
      (s.step (pack "x")).2.events =
        (s.step (pack "y")).2.events ++ ((s.step (pack "y")).1.step (.drop "x")).2.events ∧
      .freed "c" ∉ (s.step (pack "x")).2.events := by
  intro steps s pack copy
  have done : (s.step (pack "x")).2.reply = .done := rfl
  have stored : (s.step (pack "x")).1.slots.find? "x" = some (.pair (copy 1) (copy 2)) := rfl
  obtain ⟨x, y, x', y', builds⟩ := pack_builds_pair .all steps ⟨"x", []⟩ ⟨"x", []⟩ "x" done
  obtain ⟨rfl, rfl⟩ : copy 1 = x' ∧ copy 2 = y' := by
    have same := stored.symm.trans builds.stored
    injection same with same
    injection same with one two
    exact ⟨one, two⟩
  have inside : .handle "c" ∈ (Value.pair (copy 1) (copy 2)).leaves := by decide
  obtain ⟨-, -, -, events, -⟩ := builds.overwrites (Option.some_ne_none _) "y" rfl
  exact ⟨done, stored, events, (builds.kept "c" "c" inside .refl).1⟩

end Script
end SharedPair
