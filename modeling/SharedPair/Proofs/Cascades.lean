import SharedPair.Proofs.Heap.Cascade
import SharedPair.Proofs.Script.Packing
import SharedPair.Proofs.Session.Packing

/-!
# Cascades end and are complete

When a slot is dropped, or a pair takes the place of its value, the old value is given up.
In both machines that is a cascade over the cells alive, whatever they hold and whatever
cycles there are among them.  It starts with exact counts, because states that steps lead
to have exact counts, and so it is complete.

A value that is overwritten is given up when the pair is in its slot.  The cells that its
cascade starts with are those that the same step leaves when it stores into an unused slot.

That a cascade is complete is said in `Cascade.Completes`:

* its moves are finitely many, there is no choice between them, and they lead to where
  nothing waits;
* counts are exact wherever the moves lead, and a cell that is found at zero is freed by the
  very next move;
* what waits at the start and what comes out of freed cells is given up, each leaf once, and
  nothing else is;
* no cell is freed twice, and those that are left have the values that they had.
-/

namespace SharedPair

/-! ## Scripts -/

namespace Script
namespace State

variable {s : State} {name : String} {old : Value}

theorem completes_discard
    {outside : List (Leaf String Probe)}
    (counted : Heap.Counted s.memory.cells (old.leaves ++ outside)) :
    ∃ moves,
      Cascade.Completes ⟨s.memory.cells, old.leaves⟩ outside moves
        (s.discard old).1.memory.cells ∧
      (s.discard old).2 = (moves.filterMap Cascade.Move.ending?).map Event.ofEnding := by
  obtain ⟨moves, completes, told⟩ := Cascade.release_completes counted
  exact ⟨moves, completes, congrArg (List.map Event.ofEnding) told⟩

theorem completes_drop
    (owned : s.Owned) (used : s.slots.find? name = some old) :
    let after := s.step (.drop name)
    ∃ moves,
      Cascade.Completes ⟨s.memory.cells, old.leaves⟩ after.1.roots moves after.1.memory.cells ∧
      after.2.events = (moves.filterMap Cascade.Move.ending?).map Event.ofEnding := by
  intro after
  have removed : after = done ((s.vacate name).discard old) := remove_of_used used
  rw [removed]
  exact completes_discard (s := s.vacate name) (owned.counted.perm (roots_perm_vacate used))

theorem Packing.completes
    {first second : Path} {x y x' y' : Value} {unused : String}
    (packing : s.Packing first second x y x' y')
    (owned : s.Owned)
    (used : s.slots.find? name = some old) (free : s.slots.find? unused = none) :
    let after := s.step (.pack first second name)
    let fresh := s.step (.pack first second unused)
    ∃ moves,
      Cascade.Completes ⟨fresh.1.memory.cells, old.leaves⟩ after.1.roots moves
        after.1.memory.cells ∧
      after.2.events =
        fresh.2.events ++ (moves.filterMap Cascade.Move.ending?).map Event.ofEnding := by
  intro after fresh
  have made : fresh = _ := packing.unused free
  have placed : after = _ := packing.used used
  have roots : fresh.1.roots.Perm (old.leaves ++ after.1.roots) := by
    rw [made, placed]
    show (Value.leavesOfAll (s.slots.insert unused _).values).Perm
      (old.leaves ++ Value.leavesOfAll (s.slots.insert name _).values)
    rw [Value.leavesOfAll_eq_flatMap, Value.leavesOfAll_eq_flatMap]
    exact (Table.values_insert_elsewhere_perm used free _).flatMap_right _
  have counted : Heap.Counted fresh.1.memory.cells (old.leaves ++ after.1.roots) :=
    (owned_step owned _).counted.perm roots
  obtain ⟨moves, completes, told⟩ := completes_discard counted
  refine ⟨moves, ?_, ?_⟩
  · have cells : after.1.memory.cells = (fresh.1.discard old).1.memory.cells := by
      rw [placed, made]
      rfl
    rw [cells]
    exact completes
  · rw [← told, placed, made]
    rfl

end State
end Script

/-! ## Sessions -/

namespace Session
namespace State

variable {s : State} {name : String} {old : Ref}

theorem completes_discard
    {outside : List (Leaf Nat String)}
    (counted : Heap.Counted s.store.cells (old.leaves ++ outside)) :
    ∃ moves,
      Cascade.Completes ⟨s.store.cells, old.leaves⟩ outside moves
        (s.discard [old]).1.store.cells ∧
      (s.discard [old]).2 =
        (moves.filterMap Cascade.Move.ending?).filterMap Store.endedName? := by
  obtain ⟨moves, completes, told⟩ := Cascade.release_completes counted
  have given : [old].flatMap Ref.leaves = old.leaves := List.flatMap_singleton _ _
  refine ⟨moves, ?_, ?_⟩
  · show Cascade.Completes _ _ _ (Heap.release s.store.cells ([old].flatMap Ref.leaves)).1
    rw [given]
    exact completes
  · show (Heap.release s.store.cells ([old].flatMap Ref.leaves)).2.filterMap _ = _
    rw [given, told]

theorem completes_drop
    (sound : s.store.Sound s.roots) (used : s.slots.find? name = some old) :
    let after := s.step (.drop name)
    ∃ moves,
      Cascade.Completes ⟨s.store.cells, old.leaves⟩ (Ref.handles after.1.roots) moves
        after.1.store.cells ∧
      after.2.freed =
        sortNames ((moves.filterMap Cascade.Move.ending?).filterMap Store.endedName?) := by
  intro after
  have removed : after = done (State.discard { s with slots := s.slots.erase name } [old]) :=
    drop_of_used used
  have roots := Ref.handles_perm (Table.values_perm_erase used)
  obtain ⟨moves, completes, told⟩ :=
    completes_discard (s := { s with slots := s.slots.erase name }) (sound.counted.perm roots)
  rw [removed]
  exact ⟨moves, completes, congrArg sortNames told⟩

theorem Calling.completes
    {arguments : Arguments Argument} {unused : String}
    (calling : s.Calling arguments)
    (used : s.slots.find? name = some old) (free : s.slots.find? unused = none) :
    let after := s.step (.call arguments name)
    let fresh := s.step (.call arguments unused)
    ∃ moves,
      Cascade.Completes ⟨fresh.1.store.cells, old.leaves⟩ (Ref.handles after.1.roots) moves
        after.1.store.cells ∧
      after.2.freed = sortNames (fresh.2.freed ++
        (moves.filterMap Cascade.Move.ending?).filterMap Store.endedName?) := by
  intro after fresh
  have made : fresh = _ := calling.call_of_unused free
  have placed : after = _ := calling.call_of_used used
  have roots : fresh.1.roots.Perm (old :: after.1.roots) := by
    rw [made, placed]
    exact Table.values_insert_elsewhere_perm used free _
  have counted : Heap.Counted fresh.1.store.cells (old.leaves ++ Ref.handles after.1.roots) :=
    (shift_call calling.sound arguments unused).sound.counted.perm (Ref.handles_perm roots)
  obtain ⟨moves, completes, told⟩ := completes_discard counted
  refine ⟨moves, ?_, ?_⟩
  · have cells : after.1.store.cells = (fresh.1.discard [old]).1.store.cells := by
      rw [placed, made]
      rfl
    rw [cells]
    exact completes
  · rw [← told, placed, made]
    exact sortNames_eq_of_perm ((List.mergeSort_perm _ _).symm.append_right _)

end State
end Session

/-- **Cascades end and are complete.**  In any state that steps of a script lead to, or steps of a
session, no step leaves a living cell or object with a count of zero.  When a slot that is used is
dropped, or a pack or a call into it succeeds, its old value is given up within the step by a
complete cascade.  That starts with the cells before the drop, or with those that the same step
would leave if it stored into an unused slot.  It leaves the cells that the step does, and the step
reports what ends with its moves, beside what it would report without it. -/
theorem cascades_complete :
    (∀ (filter : Filter) (steps : List Script.Step),
      let s := (Script.machine.run (.initial filter) steps).1
      (∀ step, Heap.Settled (s.step step).1.memory.cells) ∧
      ∀ name old, s.slots.find? name = some old →
        (let after := s.step (.drop name)
         after.2.reply = .done ∧ ∃ moves,
           Cascade.Completes ⟨s.memory.cells, old.leaves⟩ after.1.roots moves
             after.1.memory.cells ∧
           after.2.events = (moves.filterMap Cascade.Move.ending?).map Event.ofEnding) ∧
        ∀ first second unused, s.slots.find? unused = none →
          let after := s.step (.pack first second name)
          let elsewhere := s.step (.pack first second unused)
          after.2.reply = .done → ∃ moves,
            Cascade.Completes ⟨elsewhere.1.memory.cells, old.leaves⟩ after.1.roots moves
              after.1.memory.cells ∧
            after.2.events = elsewhere.2.events ++
              (moves.filterMap Cascade.Move.ending?).map Event.ofEnding) ∧
    ∀ (filter : Filter) (steps : List Session.Step),
      let s := (Session.machine.run (.initial filter) steps).1
      (∀ step, Heap.Settled (s.step step).1.store.cells) ∧
      ∀ name old, s.slots.find? name = some old →
        (let after := s.step (.drop name)
         after.2.reply = .done ∧ ∃ moves,
           Cascade.Completes ⟨s.store.cells, old.leaves⟩ (Ref.handles after.1.roots) moves
             after.1.store.cells ∧
           after.2.freed = Session.sortNames
             ((moves.filterMap Cascade.Move.ending?).filterMap Store.endedName?)) ∧
        ∀ arguments unused, s.slots.find? unused = none →
          let after := s.step (.call arguments name)
          let elsewhere := s.step (.call arguments unused)
          after.2.reply = .done → ∃ moves,
            Cascade.Completes ⟨elsewhere.1.store.cells, old.leaves⟩ (Ref.handles after.1.roots)
              moves after.1.store.cells ∧
            after.2.freed = Session.sortNames (elsewhere.2.freed ++
              (moves.filterMap Cascade.Move.ending?).filterMap Store.endedName?) := by
  constructor
  · intro filter steps s
    have owned : s.Owned := Script.State.owned_run steps (Script.State.owned_initial filter)
    refine ⟨fun step => (Script.State.owned_step owned step).counted.positive,
      fun name old used => ⟨⟨?_, Script.State.completes_drop owned used⟩,
        fun first second unused free => ?_⟩⟩
    · show (s.remove name).2.reply = .done
      rw [Script.State.remove_of_used used]
      rfl
    · intro after elsewhere accepted
      obtain ⟨x, y, x', y', packing⟩ := Script.State.packing_of_done owned accepted
      exact packing.completes owned used free
  · intro filter steps s
    have sound : s.store.Sound s.roots :=
      Session.State.sound_run steps (Session.State.sound_initial filter)
    refine ⟨fun step => (Session.State.shift_step sound step).sound.counted.positive,
      fun name old used => ⟨⟨?_, Session.State.completes_drop sound used⟩,
        fun arguments unused free => ?_⟩⟩
    · rw [Session.State.drop_of_used used]
      rfl
    · intro after elsewhere accepted
      obtain ⟨calling⟩ := Session.State.Calling.of_accepted sound accepted
      exact calling.completes used free

/-- A pair and a tuple that are packed of others are given up beside a cycle that they lead to. -/
theorem cascades_complete_beside_cycles :
    (let s := (Script.machine.run (.initial .off)
        [.new "c" (.cell .acrossThreads "k" (.scalar .unit)),
          .pack ⟨"c", []⟩ ⟨"c", []⟩ "p", .put ⟨"c", []⟩ "p",
          .new "m" (.cell .acrossThreads "m" (.probe "a" [])),
          .pack ⟨"c", []⟩ ⟨"m", []⟩ "n", .drop "m"]).1
     let dropped := s.step (.drop "n")
     let after := s.step (.pack ⟨"c", []⟩ ⟨"c", []⟩ "n")
     let elsewhere := s.step (.pack ⟨"c", []⟩ ⟨"c", []⟩ "o")
     (∃ moves, Cascade.Completes ⟨s.memory.cells, [.handle "k", .handle "m"]⟩
       dropped.1.roots moves dropped.1.memory.cells) ∧
     dropped.2.events = [.freed "m", .dropped ⟨⟨"a", 0⟩, 0⟩] ∧
     (∃ moves, Cascade.Completes ⟨elsewhere.1.memory.cells, [.handle "k", .handle "m"]⟩
       after.1.roots moves after.1.memory.cells) ∧
     after.2.events = [.freed "m", .dropped ⟨⟨"a", 0⟩, 0⟩]) ∧
    let s := (Session.machine.run (.initial .off)
      [.new "l" (.list []), .append "l" (.slot "l"),
        .call ⟨[.slot "l", .fresh (.named "m")], []⟩ "p",
        .call ⟨[.slot "p", .slot "p"], []⟩ "q", .drop "p"]).1
    let dropped := s.step (.drop "q")
    let after := s.step (.call ⟨[.slot "l", .slot "l"], []⟩ "q")
    let elsewhere := s.step (.call ⟨[.slot "l", .slot "l"], []⟩ "r")
    (∃ moves, Cascade.Completes ⟨s.store.cells, [.handle 3]⟩ (Ref.handles dropped.1.roots) moves
      dropped.1.store.cells) ∧
    dropped.2.freed = ["m"] ∧
    (∃ moves, Cascade.Completes ⟨elsewhere.1.store.cells, [.handle 3]⟩
      (Ref.handles after.1.roots) moves after.1.store.cells) ∧
    after.2.freed = ["m"] := by
  constructor
  · intro s dropped after elsewhere
    obtain ⟨-, every⟩ := cascades_complete.1 .off
      [.new "c" (.cell .acrossThreads "k" (.scalar .unit)),
        .pack ⟨"c", []⟩ ⟨"c", []⟩ "p", .put ⟨"c", []⟩ "p",
        .new "m" (.cell .acrossThreads "m" (.probe "a" [])),
        .pack ⟨"c", []⟩ ⟨"m", []⟩ "n", .drop "m"]
    obtain ⟨⟨-, moves, given, -⟩, packed⟩ := every "n"
      (.pair (.handle .acrossThreads "k") (.handle .acrossThreads "m")) rfl
    obtain ⟨moves', overwritten, -⟩ := packed ⟨"c", []⟩ ⟨"c", []⟩ "o" rfl rfl
    exact ⟨⟨moves, given⟩, by decide +kernel, ⟨moves', overwritten⟩, by decide +kernel⟩
  · intro s dropped after elsewhere
    obtain ⟨-, every⟩ := cascades_complete.2 .off
      [.new "l" (.list []), .append "l" (.slot "l"),
        .call ⟨[.slot "l", .fresh (.named "m")], []⟩ "p",
        .call ⟨[.slot "p", .slot "p"], []⟩ "q", .drop "p"]
    obtain ⟨⟨-, moves, given, -⟩, called⟩ := every "q" (.object 3) rfl
    obtain ⟨moves', overwritten, -⟩ := called ⟨[.slot "l", .slot "l"], []⟩ "r" rfl rfl
    exact ⟨⟨moves, given⟩, by decide +kernel, ⟨moves', overwritten⟩, by decide +kernel⟩

end SharedPair
