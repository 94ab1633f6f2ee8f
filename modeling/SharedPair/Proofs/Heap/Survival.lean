import Mathlib.Data.Set.Finite.Basic
import Mathlib.Logic.Relation
import SharedPair.Proofs.Heap.Turnover

/-!
# What survives a release

Cells hold one another through their values.  A cell is doomed, beside what is held
outside, when nothing outside holds it and all its holders are doomed.  Which cells
are doomed is a matter of the values alone: counts play no part in it, and neither
does the order in which handles are given up.

* `value?_release_eq_some_iff`: a release leaves exactly the living cells that are not
  doomed beside what stays held.
* `Counted.not_doomed`: with exact counts no living cell is doomed.
* `reached_from_cycle`: where nothing is held outside, a cell that is not doomed is
  reached from a cycle of cells.
-/

namespace SharedPair
namespace Heap

variable {κ τ ν : Type} [DecidableEq κ] [Holder ν κ τ]

/-- A living cell whose value holds a handle to another one. -/
def Holds (heap : Heap κ ν) (holder key : κ) : Prop :=
  ∃ value, value? heap holder = some value ∧ Leaf.handle key ∈ Holder.leaves value

/-- Nothing outside holds the cell, and only doomed cells do. -/
inductive Doomed (heap : Heap κ ν) (outside : List (Leaf κ τ)) : κ → Prop
  | intro
      {key : κ}
      (free : .handle key ∉ outside)
      (holders : ∀ k, Holds heap k key → Doomed heap outside k) :
      Doomed heap outside key

variable {heap heap' : Heap κ ν} {outside outside' : List (Leaf κ τ)} {key : κ}

theorem value?_of_find?
    {cell : Cell ν}
    (found : heap.find? key = some cell) :
    value? heap key = some cell.value := by
  rw [value?, found, Option.map_some]

theorem value?_insert_count
    {cell : Cell ν}
    (found : heap.find? key = some cell)
    (count : Nat) (k : κ) :
    value? (heap.insert key ⟨cell.value, count⟩) k = value? heap k := by
  by_cases h : key = k
  · subst h
    simp [value?, found]
  · simp [value?, h]

theorem value?_erase
    (heap : Heap κ ν) (key k : κ) :
    value? (heap.erase key) k = if key = k then none else value? heap k := by
  by_cases h : key = k <;> simp [value?, h]

theorem Holds.alive
    {holder : κ}
    (holds : Holds heap holder key) :
    ∃ value, value? heap holder = some value :=
  ⟨holds.choose, holds.choose_spec.1⟩

/-- What holds a cell after a release held it before. -/
theorem Holds.of_release
    {waiting : List (Leaf κ τ)} {holder : κ}
    (holds : Holds (release heap waiting).1 holder key) :
    Holds heap holder key := by
  obtain ⟨value, survives, member⟩ := holds
  exact ⟨value, value?_of_release survives, member⟩

namespace Doomed

theorem free
    (doomed : Doomed heap outside key) :
    .handle key ∉ outside := by
  cases doomed with
  | intro free holders => exact free

theorem of_holds
    {holder : κ}
    (doomed : Doomed heap outside key)
    (holds : Holds heap holder key) :
    Doomed heap outside holder := by
  cases doomed with
  | intro free holders => exact holders holder holds

/-- A living cell that is doomed stays so while nobody outside, and no cell that is not doomed, gets
hold of a doomed cell. -/
theorem transfer
    (doomed : Doomed heap outside key)
    (alive : ∃ value, value? heap key = some value)
    (keeps : ∀ k, Doomed heap outside k → (∃ value, value? heap k = some value) →
      .handle k ∉ outside' ∧
        ∀ holder, Holds heap' holder k → Holds heap holder k ∨ Doomed heap' outside' holder) :
    Doomed heap' outside' key := by
  induction doomed with
  | @intro key free holders ih =>
      obtain ⟨free', before⟩ := keeps key (.intro free holders) alive
      refine .intro free' fun holder holds => ?_
      rcases before holder holds with old | new
      · exact ih holder old old.alive
      · exact new

/-- Where no cell gets a new holder, what is doomed beside more is doomed beside less. -/
theorem mono
    (doomed : Doomed heap outside key)
    (less : ∀ leaf ∈ outside', leaf ∈ outside)
    (holders : ∀ holder k, Holds heap' holder k → Holds heap holder k) :
    Doomed heap' outside' key := by
  induction doomed with
  | @intro key free _ ih =>
      exact .intro (fun member => free (less _ member)) fun holder holds =>
        ih holder (holders holder key holds)

/-- What is doomed beside two lots of leaves is doomed beside both together. -/
theorem both
    (doomed : Doomed heap outside key)
    (doomed' : Doomed heap outside' key) :
    Doomed heap (outside ++ outside') key := by
  induction doomed with
  | @intro key free _ ih =>
      refine .intro (fun member => ?_) fun holder holds => ih holder holds (doomed'.of_holds holds)
      rcases List.mem_append.mp member with left | right
      · exact free left
      · exact doomed'.free right

end Doomed

/-! ## Counted heaps -/

variable [DecidableEq τ]

/-- A living cell is held outside or by a living cell. -/
theorem Counted.held_somewhere
    {value : ν}
    (counted : Counted heap outside)
    (alive : value? heap key = some value) :
    .handle key ∈ outside ∨ ∃ holder, Holds heap holder key := by
  obtain ⟨cell, found, rfl⟩ := Option.map_eq_some_iff.mp alive
  have positive := counted.positive key cell found
  rw [← count_of_find? found, counted.exact, held_eq_count, ← List.count_append,
    List.count_pos_iff] at positive
  rcases List.mem_append.mp positive with outer | inner
  · exact .inl outer
  · obtain ⟨holder, cell', found', member⟩ := mem_leaves_iff.mp inner
    exact .inr ⟨holder, cell'.value, value?_of_find? found', member⟩

/-- With exact counts, no living cell is doomed. -/
theorem Counted.not_doomed
    {value : ν}
    (counted : Counted heap outside)
    (alive : value? heap key = some value) :
    ¬ Doomed heap outside key := by
  intro doomed
  induction doomed generalizing value with
  | @intro key free _ ih =>
      rcases counted.held_somewhere alive with outer | ⟨holder, holds⟩
      · exact free outer
      · obtain ⟨value', alive'⟩ := holds.alive
        exact ih holder holds alive'

/-- The last handle to a cell is given up only if the cell is doomed. -/
theorem Counted.doomed_of_last
    {rest : List (Leaf κ τ)} {cell : Cell ν}
    (counted : Counted heap (.handle key :: rest ++ outside))
    (found : heap.find? key = some cell)
    (last : cell.count ≤ 1) :
    Doomed heap outside key := by
  have exact := counted.exact key
  rw [count_of_find? found, held_eq_count, List.cons_append, List.count_cons_self,
    List.count_append] at exact
  have outer : outside.count (.handle key) = 0 := by omega
  have inner : heap.leaves.count (.handle key) = 0 := by omega
  refine .intro (List.count_eq_zero.mp outer) ?_
  rintro holder ⟨value, alive, member⟩
  obtain ⟨cell', found', rfl⟩ := Option.map_eq_some_iff.mp alive
  exact absurd (mem_leaves_iff.mpr ⟨holder, cell', found', member⟩) (List.count_eq_zero.mp inner)

/-- A release frees doomed cells only. -/
theorem doomed_of_freed
    {waiting : List (Leaf κ τ)} {k : κ} {value : ν}
    (counted : Counted heap (waiting ++ outside))
    (alive : value? heap k = some value)
    (gone : value? (release heap waiting).1 k = none) :
    Doomed heap outside k := by
  fun_induction release heap waiting with
  | case1 heap =>
      rw [alive] at gone
      cases gone
  | case2 heap it rest after endings eq ih =>
      rw [eq] at ih
      exact ih (Counted.token_iff.mp counted) alive gone
  | case3 heap key rest missing ih =>
      obtain ⟨cell, found⟩ := counted.alive (List.mem_append_left _ List.mem_cons_self)
      rw [missing] at found
      cases found
  | case4 heap key rest cell found last after endings eq ih =>
      rw [eq] at ih
      have own : Doomed heap outside key := counted.doomed_of_last found last
      by_cases h : key = k
      · exact h ▸ own
      · have alive' : value? (heap.erase key) k = some value := by
          rw [value?_erase, if_neg h, alive]
        have counted' := counted.erase found last
        rw [List.append_eq, ← List.append_assoc] at counted'
        -- the erased cell is the only holder that is out of sight below it
        refine (ih counted' alive' gone).transfer ⟨value, alive'⟩ fun j doomed _ => ?_
        refine ⟨doomed.free, fun holder holds => ?_⟩
        by_cases same : key = holder
        · exact .inr (same ▸ own)
        · obtain ⟨content, found', member⟩ := holds
          exact .inl ⟨content, by rw [value?_erase, if_neg same, found'], member⟩
  | case5 heap key rest cell found more ih =>
      have same := value?_insert_count found (cell.count - 1)
      have doomed := ih (counted.lower found (Nat.not_le.mp more)) ((same k).trans alive) gone
      refine doomed.mono (fun _ => id) fun holder j holds => ?_
      obtain ⟨content, found', member⟩ := holds
      exact ⟨content, (same holder).trans found', member⟩

/-- A release frees every doomed cell. -/
theorem freed_of_doomed
    {waiting : List (Leaf κ τ)}
    (counted : Counted heap (waiting ++ outside))
    (doomed : Doomed heap outside key) :
    value? (release heap waiting).1 key = none := by
  have after := counted.release
  induction doomed with
  | @intro key free holders ih =>
      cases survives : value? (release heap waiting).1 key with
      | none => rfl
      | some value =>
          rcases after.held_somewhere survives with outer | ⟨holder, holds⟩
          · exact absurd outer free
          · obtain ⟨value', alive⟩ := holds.alive
            rw [ih holder holds.of_release] at alive
            cases alive

/-- **Survival.**  What is left of a heap after a release are the cells that are not doomed beside
what is still held, each with the value that it had. -/
theorem value?_release_eq_some_iff
    {waiting : List (Leaf κ τ)} {value : ν}
    (counted : Counted heap (waiting ++ outside)) :
    value? (release heap waiting).1 key = some value ↔
      value? heap key = some value ∧ ¬ Doomed heap outside key := by
  constructor
  · intro survives
    refine ⟨value?_of_release survives, fun doomed => ?_⟩
    rw [freed_of_doomed counted doomed] at survives
    cases survives
  · rintro ⟨alive, spared⟩
    cases survives : value? (release heap waiting).1 key with
    | none =>
        exact absurd (doomed_of_freed counted alive survives) spared
    | some value' =>
        rw [value?_of_release survives] at alive
        exact alive

/-! ## Cycles -/

/-- Whether a cell is reached from a cycle of cells that hold one another. -/
def ReachedFromCycle (heap : Heap κ ν) (key : κ) : Prop :=
  ∃ k, Relation.TransGen (Holds heap) k k ∧ Relation.ReflTransGen (Holds heap) k key

omit [DecidableEq τ] in
/-- A cell that is reached from a cycle is not doomed, whatever is held outside. -/
theorem ReachedFromCycle.not_doomed
    (reached : ReachedFromCycle heap key) :
    ¬ Doomed heap outside key := by
  obtain ⟨k, cycle, path⟩ := reached
  have upwards : ∀ j, Relation.ReflTransGen (Holds heap) j key → Doomed heap outside key →
      Doomed heap outside j := by
    intro j path doomed
    induction path using Relation.ReflTransGen.head_induction_on with
    | refl => exact doomed
    | head holds _ ih => exact ih.of_holds holds
  intro doomed
  -- a cell on the cycle would be doomed before itself
  have on_cycle : ∀ j, Doomed heap outside j → ¬ Relation.TransGen (Holds heap) j j := by
    intro j doomed
    induction doomed with
    | @intro j _ _ ih =>
        intro around
        obtain ⟨last, path, holds⟩ := Relation.TransGen.tail'_iff.mp around
        exact ih last holds (Relation.TransGen.head' holds path)
  exact on_cycle k (upwards k path doomed) cycle

omit [DecidableEq τ] in
/-- A heap is finite, so the holders of a cell that no cycle reaches come to an end. -/
theorem doomed_of_not_reached
    (apart : ¬ ReachedFromCycle heap key) :
    Doomed heap ([] : List (Leaf κ τ)) key := by
  -- the cells above the given one, ordered by who leads to whom
  let Above := { k : κ // k ∈ heap.keys ∧ Relation.ReflTransGen (Holds heap) k key }
  let Leads : Above → Above → Prop := fun j k => Relation.TransGen (Holds heap) j.1 k.1
  have : Finite Above := (List.finite_toSet heap.keys).subset fun _ above => above.1
  have : IsTrans Above Leads := ⟨fun _ _ _ => Relation.TransGen.trans⟩
  have : Std.Irrefl Leads := ⟨fun k around => apart ⟨k.1, around, k.2.2⟩⟩
  have founded : WellFounded Leads := Finite.wellFounded_of_trans_of_irrefl Leads
  have alive : ∀ {k j}, Holds heap k j → k ∈ heap.keys := by
    intro k j holds
    obtain ⟨value, alive⟩ := holds.alive
    obtain ⟨cell, found, -⟩ := Option.map_eq_some_iff.mp alive
    exact Table.mem_keys_of_find? found
  have above : ∀ k : Above, Doomed heap ([] : List (Leaf κ τ)) k.1 := by
    intro k
    induction k using founded.induction with
    | _ k ih =>
        refine .intro List.not_mem_nil fun holder holds => ?_
        exact ih ⟨holder, alive holds, k.2.2.head holds⟩ (.single holds)
  refine .intro List.not_mem_nil fun holder holds => ?_
  exact above ⟨holder, alive holds, .single holds⟩

/-- **Cycles.**  When nothing is held outside, what is alive in a counted heap is reached from a
cycle of cells. -/
theorem Counted.reached_from_cycle
    {value : ν}
    (counted : Counted heap [])
    (alive : value? heap key = some value) :
    ReachedFromCycle heap key :=
  Classical.byContradiction fun apart => counted.not_doomed alive (doomed_of_not_reached apart)

end Heap
end SharedPair
