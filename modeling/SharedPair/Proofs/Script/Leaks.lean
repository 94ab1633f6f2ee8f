import SharedPair.Proofs.Heap.Cycles
import SharedPair.Proofs.Script.Conservation
import SharedPair.Proofs.Script.Logging

/-!
# What a script leaks

The slots are dropped one after the other, in the order of their names, and what each
drop frees depends on what the earlier ones have left.  But no drop changes what is
reached from a cycle of cells, and when the last slot is gone, that is what is alive.
-/

namespace SharedPair
namespace Script
namespace State

variable {s : State}

theorem reachedFromCycle_remove_iff
    (owned : s.Owned)
    (name id : String) :
    Heap.ReachedFromCycle (s.remove name).1.memory.cells id ↔
      Heap.ReachedFromCycle s.memory.cells id := by
  unfold remove slot
  cases found : s.slots.find? name with
  | none => exact Iff.rfl
  | some value =>
      have counted := owned.counted.perm (roots_perm_vacate found)
      exact Heap.reachedFromCycle_release_iff counted

theorem reachedFromCycle_dropAll_iff
    (id : String) (names : List String) {s : State}
    (owned : s.Owned) :
    Heap.ReachedFromCycle (s.dropAll names).1.memory.cells id ↔
      Heap.ReachedFromCycle s.memory.cells id := by
  induction names generalizing s with
  | nil => exact Iff.rfl
  | cons name rest ih =>
      exact (ih (owned_step owned (.drop name))).trans (reachedFromCycle_remove_iff owned name id)

/-- When the slots are gone, the cells alive are those that were reached from a cycle. -/
theorem find?_finish_iff
    (owned : s.Owned)
    (id : String) :
    (∃ cell, s.finish.1.memory.cells.find? id = some cell) ↔
      Heap.ReachedFromCycle s.memory.cells id := by
  have counted := (owned_finish owned).counted
  rw [roots_finish] at counted
  exact counted.find?_iff_reached.trans (reachedFromCycle_dropAll_iff id _ owned)

/-- The last entry tells of the cells that cycles keep, and of no others. -/
theorem mem_last_iff
    (owned : s.Owned)
    (id : String) :
    id ∈ (machine.last s).counts.map Prod.fst ↔ Heap.ReachedFromCycle s.memory.cells id := by
  have told : (machine.last s).counts.map Prod.fst = s.finish.1.memory.cells.keys := by
    show s.finish.1.counts.map Prod.fst = _
    rw [State.counts, List.map_map]
    rfl
  rw [told, ← find?_finish_iff owned]
  exact ⟨Table.find?_of_mem_keys, fun ⟨_, found⟩ => Table.mem_keys_of_find? found⟩

end State
end Script
end SharedPair
