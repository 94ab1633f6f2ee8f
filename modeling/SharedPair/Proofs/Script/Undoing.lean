import SharedPair.Proofs.Script.Packing

/-!
# A pack that is undone

A pack into an unused slot only adds: a slot, one handle for each handle that it copies,
and the clones of its probes.  To drop the slot is to give up what was copied, leaf by
leaf and in the order in which it was made.  The values that were packed still have
their own handles, so no count comes down to zero on the way.
-/

namespace SharedPair
namespace Script
namespace State

variable {s : State} {first second : Path} {x y x' y' : Value} {name : String}

/-- The drop after a pack gives back what the pack took, all but the counted attempts. -/
theorem Packing.dropped
    (packing : s.Packing first second x y x' y')
    (positive : ∀ key cell, s.memory.cells.find? key = some cell → 0 < cell.count)
    (free : s.slots.find? name = none) :
    (s.step (.pack first second name)).1.step (.drop name) =
      ({ s with memory :=
          ⟨s.memory.cells, (s.memory.copyLeaves (x.leaves ++ y.leaves)).memory.families⟩ },
        ⟨.done,
          (Leaf.tokens (s.memory.copyLeaves (x.leaves ++ y.leaves)).copied).map .dropped⟩) := by
  have held : (Value.pair x' y').leaves = (s.memory.copyLeaves (x.leaves ++ y.leaves)).copied := by
    rw [Value.leaves]
    exact packing.held
  have back := Memory.release_copied positive (List.Perm.of_eq held)
  have gone := remove_of_used (packing.stored name)
  rw [held] at back
  rw [packing.unused free] at gone ⊢
  rw [step, gone]
  simp only [done, discard, vacate, Memory.drop, held, back,
    Table.erase_insert_of_find?_eq_none free]

/-- The clones that a pack tells of are the probes of its pair. -/
theorem Packing.clones
    (packing : s.Packing first second x y x' y')
    (free : s.slots.find? name = none) :
    Event.clones (s.step (.pack first second name)).2.events =
      Leaf.tokens (s.memory.copyLeaves (x.leaves ++ y.leaves)).copied := by
  rw [packing.unused free, Event.clones_append, Event.clones_logged, List.append_nil,
    Event.clones_copyLeaves]

theorem Packing.frees
    (packing : s.Packing first second x y x' y')
    (free : s.slots.find? name = none) :
    Event.frees (s.step (.pack first second name)).2.events = [] := by
  have turnover := (Memory.events_copyLeaves (x.leaves ++ y.leaves) s.memory).1
  have logged := Turnover.ofEvents_logged (s.filter.log packRecord)
  rw [packing.unused free, Event.frees_append, List.append_eq_nil_iff]
  exact ⟨congrArg Turnover.freed turnover, congrArg Turnover.freed logged⟩

end State

/-- **A drop undoes a pack.**  Take any step that packs the values at two paths into an unused slot,
in any state that steps lead to; suppose that it succeeds, and drop the slot right after it.

* The drop succeeds, and the state is the one before the pack again, with its slots and its cells,
  their values and their counts.  Only the families of the probes are left as the pack left them:
  each has as many more attempts counted as the pack has made clones in it.
* The events of the drop are one drop of each clone that the pack has made, in the order in which
  they were made, and nothing else.
* No cell is freed in either step. -/
theorem drop_undoes_pack
    (filter : Filter) (steps : List Step) (first second : Path) (name : String) :
    let s := (machine.run (State.initial filter) steps).1
    let packed := s.step (.pack first second name)
    let dropped := packed.1.step (.drop name)
    s.slots.find? name = none → packed.2.reply = .done →
      dropped.2.reply = .done ∧
      dropped.1 = { s with memory := ⟨s.memory.cells, packed.1.memory.families⟩ } ∧
      (∀ number, packed.1.memory.families[number]? =
        s.memory.families[number]?.map
          (Family.advance · (countFamily number (Event.clones packed.2.events)))) ∧
      dropped.2.events = (Event.clones packed.2.events).map .dropped ∧
      Event.frees packed.2.events = [] ∧ Event.frees dropped.2.events = [] := by
  intro s packed dropped free done
  have owned : s.Owned := State.owned_run steps (State.owned_initial filter)
  obtain ⟨x, y, x', y', packing⟩ := State.packing_of_done owned done
  have back : dropped = _ := packing.dropped owned.counted.positive free
  have clones : Event.clones packed.2.events = _ := packing.clones free
  have families : packed.1.memory.families =
      (s.memory.copyLeaves (x.leaves ++ y.leaves)).memory.families := by
    show (s.step _).1.memory.families = _
    rw [packing.unused free]
  refine ⟨?_, ?_, fun number => ?_, ?_, packing.frees free, ?_⟩
  · rw [back]
  · rw [back, families]
  · have counted := Memory.families_copyLeaves number (x.leaves ++ y.leaves) s.memory
    rw [packing.accepted] at counted
    rw [families, clones]
    exact counted
  · rw [back, clones]
  · rw [back]
    exact congrArg Turnover.freed (Turnover.ofEvents_dropped _)

/-- Two values that share a cell are packed and dropped: the count of the cell goes up by two and
comes down again. -/
theorem drop_undoes_pack_shared :
    let steps : List Step :=
      [.new "x" (.pair (.cell .acrossThreads "c" (.probe "p" [])) (.probe "q" []))]
    let s := (machine.run (State.initial .all) steps).1
    let packed := s.step (.pack ⟨"x", [.first]⟩ ⟨"x", []⟩ "y")
    let dropped := packed.1.step (.drop "y")
    s.slots.find? "y" = none ∧ packed.2.reply = .done ∧
      s.counts = [("c", 1)] ∧ packed.1.counts = [("c", 3)] ∧ dropped.1.counts = s.counts ∧
      dropped.2.events = [.dropped ⟨⟨"q", 1⟩, 1⟩] := by
  intro steps s packed dropped
  obtain ⟨-, state, -, events, -, -⟩ :=
    drop_undoes_pack .all steps ⟨"x", [.first]⟩ ⟨"x", []⟩ "y" rfl rfl
  exact ⟨rfl, rfl, rfl, rfl, (congrArg State.counts state).trans rfl, events⟩

end Script
end SharedPair
