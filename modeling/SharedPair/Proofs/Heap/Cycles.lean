import SharedPair.Proofs.Heap.Survival

/-!
# Cycles and releases

A cell on a cycle keeps the next one alive, and the last one keeps the first.  So no
release frees a cell on a cycle, nor one that a cycle leads to, and since a release makes
no new holders it makes no new cycles either.  Whether a cell is reached from a cycle is
the same before a release and afterwards.

Where nothing is held outside, these cells are the ones that are alive.
-/

namespace SharedPair
namespace Heap

variable {κ τ ν : Type} [DecidableEq κ] [Holder ν κ τ] {heap : Heap κ ν}
  {waiting outside : List (Leaf κ τ)} {key : κ}

/-- A release makes no cycles. -/
theorem ReachedFromCycle.of_release
    (reached : ReachedFromCycle (release heap waiting).1 key) :
    ReachedFromCycle heap key := by
  obtain ⟨k, cycle, path⟩ := reached
  have before : ∀ i j, Holds (release heap waiting).1 i j → Holds heap i j := fun _ _ =>
    Holds.of_release
  exact ⟨k, Relation.TransGen.mono before _ _ cycle, Relation.ReflTransGen.mono before _ _ path⟩

/-- A cell that is doomed where nothing is held outside is doomed beside whatever does not lead to
it. -/
theorem Doomed.beside
    (doomed : Doomed heap ([] : List (Leaf κ τ)) key)
    (apart : ∀ k, .handle k ∈ outside → ¬ Relation.ReflTransGen (Holds heap) k key) :
    Doomed heap outside key := by
  induction doomed with
  | @intro key _ _ ih =>
      refine .intro (fun member => apart key member .refl) fun holder holds => ?_
      exact ih holder holds fun k member path => apart k member (path.tail holds)

variable [DecidableEq τ]

theorem Counted.alive_of_outside
    (counted : Counted heap outside)
    (member : .handle key ∈ outside) :
    ∃ value, value? heap key = some value := by
  obtain ⟨cell, found⟩ := counted.alive (List.mem_append_left _ member)
  exact ⟨cell.value, value?_of_find? found⟩

theorem Counted.alive_of_holds
    {holder : κ}
    (counted : Counted heap outside)
    (holds : Holds heap holder key) :
    ∃ value, value? heap key = some value := by
  obtain ⟨value, alive, member⟩ := holds
  obtain ⟨cell, found, rfl⟩ := Option.map_eq_some_iff.mp alive
  have inside := mem_leaves_iff.mpr ⟨holder, cell, found, member⟩
  obtain ⟨cell', found'⟩ := counted.alive (List.mem_append_right _ inside)
  exact ⟨cell'.value, value?_of_find? found'⟩

/-- Where no value changes, what is reached from what is held afterwards lives on. -/
theorem Counted.alive_of_reached
    {heap' : Heap κ ν} {k : κ}
    (counted : Counted heap' outside)
    (same : ∀ k value, value? heap' k = some value → value? heap k = some value)
    (member : .handle k ∈ outside)
    (path : Relation.ReflTransGen (Holds heap) k key) :
    ∃ value, value? heap' key = some value := by
  induction path with
  | refl => exact counted.alive_of_outside member
  | @tail holder key _ holds ih =>
      obtain ⟨value, alive⟩ := ih
      obtain ⟨value', before, inside⟩ := holds
      rw [same holder value alive] at before
      cases before
      exact counted.alive_of_holds ⟨value, alive, inside⟩

/-- A living cell that no cycle leads to is reached from what is held outside. -/
theorem Counted.reached_from_outside
    {value : ν}
    (counted : Counted heap outside)
    (alive : value? heap key = some value)
    (apart : ¬ ReachedFromCycle heap key) :
    ∃ k, .handle k ∈ outside ∧ Relation.ReflTransGen (Holds heap) k key := by
  refine Classical.byContradiction fun away => ?_
  have doomed : Doomed heap outside key := (doomed_of_not_reached apart).beside
    fun k member path => away ⟨k, member, path⟩
  exact counted.not_doomed alive doomed

/-- A cell that is reached from a cycle goes on holding what it holds. -/
theorem ReachedFromCycle.holds_release
    {holder : κ}
    (counted : Counted heap (waiting ++ outside))
    (reached : ReachedFromCycle heap holder)
    (holds : Holds heap holder key) :
    Holds (release heap waiting).1 holder key := by
  obtain ⟨value, alive, member⟩ := holds
  exact ⟨value, (value?_release_eq_some_iff counted).mpr ⟨alive, reached.not_doomed⟩, member⟩

/-- A release breaks no cycles. -/
theorem ReachedFromCycle.release
    (counted : Counted heap (waiting ++ outside))
    (reached : ReachedFromCycle heap key) :
    ReachedFromCycle (Heap.release heap waiting).1 key := by
  obtain ⟨k, cycle, path⟩ := reached
  have kept : ∀ j, Relation.ReflTransGen (Holds heap) k j →
      Relation.ReflTransGen (Holds (Heap.release heap waiting).1) k j := by
    intro j path
    induction path with
    | refl => exact .refl
    | tail path holds ih => exact ih.tail (holds_release counted ⟨k, cycle, path⟩ holds)
  obtain ⟨last, around, holds⟩ := Relation.TransGen.tail'_iff.mp cycle
  have closed := holds_release counted ⟨k, cycle, around⟩ holds
  exact ⟨k, .tail' (kept last around) closed, kept key path⟩

/-- **Cycles last.**  A release changes nothing in what is reached from a cycle. -/
theorem reachedFromCycle_release_iff
    (counted : Counted heap (waiting ++ outside)) :
    ReachedFromCycle (release heap waiting).1 key ↔ ReachedFromCycle heap key :=
  ⟨.of_release, .release counted⟩

/-- When all that is held outside is given up, what is reached from a cycle stays, with its
value. -/
theorem value?_release_all_iff
    {value : ν}
    (counted : Counted heap waiting) :
    value? (release heap waiting).1 key = some value ↔
      value? heap key = some value ∧ ReachedFromCycle heap key := by
  rw [← List.append_nil waiting] at counted
  rw [value?_release_eq_some_iff counted]
  refine and_congr_right fun _ => ⟨fun spared => ?_, ReachedFromCycle.not_doomed⟩
  exact Classical.byContradiction fun apart => spared (doomed_of_not_reached apart)

/-- **Only cycles stay.**  Where nothing is held outside, the cells alive are those that are reached
from a cycle. -/
theorem Counted.find?_iff_reached
    (counted : Counted heap []) :
    (∃ cell, heap.find? key = some cell) ↔ ReachedFromCycle heap key := by
  constructor
  · rintro ⟨cell, found⟩
    exact counted.reached_from_cycle (value?_of_find? found)
  · rintro ⟨k, cycle, path⟩
    have held : ∃ holder, Holds heap holder key := by
      rcases Relation.ReflTransGen.cases_tail path with rfl | ⟨holder, -, holds⟩
      · obtain ⟨last, -, holds⟩ := Relation.TransGen.tail'_iff.mp cycle
        exact ⟨last, holds⟩
      · exact ⟨holder, holds⟩
    obtain ⟨holder, holds⟩ := held
    obtain ⟨value, alive⟩ := counted.alive_of_holds holds
    obtain ⟨cell, found, -⟩ := Option.map_eq_some_iff.mp alive
    exact ⟨cell, found⟩

end Heap
end SharedPair
