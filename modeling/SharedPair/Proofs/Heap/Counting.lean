import SharedPair.Proofs.Heap.Inventory

/-!
# Exact counts

A heap is counted, relative to the leaves that are held from outside, when the count
of every cell is the number of handles to it and every living cell has one.  Then no
handle dangles, and a cell without handles is gone.

Each operation keeps a heap counted when the leaves held outside change with it:
making a cell takes the leaves of its value and gives one handle to it, writing a
cell exchanges the leaves of two values, and a release takes up what it was given.
In the middle of a cascade the leaves that still wait count as held outside; that is
the invariant which the cascade keeps at every one of its steps.
-/

namespace SharedPair
namespace Heap

variable {κ τ ν : Type} [DecidableEq κ] [DecidableEq τ] [Holder ν κ τ]

/-- No cell is left with a count of zero. -/
def Settled (heap : Heap κ ν) : Prop :=
  ∀ key cell, heap.find? key = some cell → 0 < cell.count

omit [DecidableEq τ] [Holder ν κ τ] in
theorem Settled.insert
    {heap : Heap κ ν} {cell : Cell ν}
    (settled : heap.Settled)
    (key : κ)
    (positive : 0 < cell.count) :
    Settled (Table.insert heap key cell) := by
  intro k cell' found
  rw [Table.find?_insert] at found
  split at found
  · cases found
    exact positive
  · exact settled k cell' found

omit [DecidableEq τ] [Holder ν κ τ] in
theorem Settled.erase
    {heap : Heap κ ν}
    (settled : heap.Settled)
    (key : κ) :
    Settled (Table.erase heap key) := by
  intro k cell found
  rw [Table.find?_erase] at found
  split at found
  · cases found
  · exact settled k cell found

/-- Every count is exact, and every living cell has a handle. -/
structure Counted (heap : Heap κ ν) (outside : List (Leaf κ τ)) : Prop where
  /-- The count of a cell is the number of handles to it. -/
  exact : ∀ key, count heap key = held heap outside key
  /-- A living cell has a handle. -/
  positive : ∀ key cell, heap.find? key = some cell → 0 < cell.count

omit [DecidableEq τ] [Holder ν κ τ] in
theorem count_of_find?
    {heap : Heap κ ν} {key : κ} {cell : Cell ν}
    (found : heap.find? key = some cell) :
    count heap key = cell.count := by
  simp [count, found]

omit [DecidableEq τ] [Holder ν κ τ] in
theorem count_of_find?_eq_none
    {heap : Heap κ ν} {key : κ}
    (missing : heap.find? key = none) :
    count heap key = 0 := by
  simp [count, missing]

omit [DecidableEq τ] [Holder ν κ τ] in
theorem count_insert
    (heap : Heap κ ν) (key k : κ) (cell : Cell ν) :
    count (heap.insert key cell) k = if key = k then cell.count else count heap k := by
  by_cases h : key = k <;> simp [count, h]

omit [DecidableEq τ] [Holder ν κ τ] in
theorem count_erase
    (heap : Heap κ ν) (key k : κ) :
    count (heap.erase key) k = if key = k then 0 else count heap k := by
  by_cases h : key = k <;> simp [count, h]

/-- A handle that is given up is counted no more. -/
theorem count_lower
    {heap : Heap κ ν} {key : κ} {cell : Cell ν} {count : Nat} {outside : List (Leaf κ τ)}
    (exact : ∀ k, Heap.count heap k = held heap (.handle key :: outside) k)
    (found : heap.find? key = some cell)
    (more : cell.count = count + 1)
    (k : κ) :
    Heap.count (heap.insert key ⟨cell.value, count⟩) k =
      held (heap.insert key ⟨cell.value, count⟩) outside k := by
  have before := exact k
  rw [held_cons_handle] at before
  rw [held_insert_count found, count_insert]
  by_cases h : key = k
  · subst h
    rw [count_of_find? found, if_pos rfl, more] at before
    rw [if_pos rfl]
    exact Nat.succ.inj before
  · rw [if_neg h] at before ⊢
    exact before

theorem counted_empty :
    Counted (∅ : Heap κ ν) [] where
  exact _ := rfl
  positive _ _ found := by
    simp at found

namespace Counted

variable {heap : Heap κ ν} {outside outside' : List (Leaf κ τ)}

/-- The order of what is held outside is of no account. -/
theorem perm
    (counted : Counted heap outside)
    (same : outside.Perm outside') :
    Counted heap outside' where
  exact key := (counted.exact key).trans (held_perm heap same key)
  positive := counted.positive

/-- No handle dangles. -/
theorem alive
    (counted : Counted heap outside)
    {key : κ}
    (member : .handle key ∈ outside ++ heap.leaves) :
    ∃ cell, heap.find? key = some cell := by
  cases found : heap.find? key with
  | some cell =>
      exact ⟨cell, rfl⟩
  | none =>
      have none := counted.exact key
      rw [count_of_find?_eq_none found, held_eq_count, ← List.count_append] at none
      exact absurd member (List.count_eq_zero.mp none.symm)

/-- A new cell takes the leaves of its value, and its maker gets the handle to it. -/
theorem allocate
    {key : κ} {value : ν}
    (counted : Counted heap (Holder.leaves value ++ outside))
    (missing : heap.find? key = none) :
    Counted (heap.allocate key value) (.handle key :: outside) where
  exact k := by
    rw [count_allocate, held_cons_handle, held_allocate missing, ← counted.exact]
    split
    · next same => rw [← same, count_of_find?_eq_none missing]
    · rfl
  positive := Settled.insert counted.positive key Nat.zero_lt_one

/-- One more handle is one more leaf outside. -/
theorem acquire
    {key : κ} {cell : Cell ν}
    (counted : Counted heap outside)
    (found : heap.find? key = some cell) :
    Counted (heap.acquire key) (.handle key :: outside) where
  exact k := by
    have living : value? heap key = some cell.value := by
      simp [value?, found]
    rw [count_acquire living, counted.exact, held_cons_handle, acquire_of_find? found,
      held_insert_count found]
  positive := by
    rw [acquire_of_find? found]
    exact Settled.insert counted.positive key (Nat.succ_pos _)

/-- A cell that is written gives the leaves of its old value for those of the new one. -/
theorem write
    {key : κ} {cell : Cell ν} {value : ν}
    (counted : Counted heap outside)
    (found : heap.find? key = some cell)
    (balance : (Holder.leaves cell.value ++ outside).Perm (Holder.leaves value ++ outside')) :
    Counted (heap.write key value) outside' where
  exact k := by
    have before := counted.exact k
    have moved := (leaves_write_perm found value).count_eq (.handle k)
    have given := balance.count_eq (.handle k)
    rw [held_eq_count] at before
    rw [List.count_append, List.count_append] at moved given
    rw [held_eq_count, count_write]
    omega
  positive := by
    rw [write_of_find? found]
    exact Settled.insert counted.positive key (counted.positive key cell found)

/-- A handle that is not the last one is only counted. -/
theorem lower
    {key : κ} {cell : Cell ν}
    (counted : Counted heap (.handle key :: outside))
    (found : heap.find? key = some cell)
    (more : 1 < cell.count) :
    Counted (heap.insert key ⟨cell.value, cell.count - 1⟩) outside where
  exact := count_lower counted.exact found (Nat.sub_add_cancel (Nat.le_of_lt more)).symm
  positive := Settled.insert counted.positive key (Nat.sub_pos_of_lt more)

/-- The last handle to a cell is given for the leaves of its value. -/
theorem erase
    {key : κ} {cell : Cell ν}
    (counted : Counted heap (.handle key :: outside))
    (found : heap.find? key = some cell)
    (last : cell.count ≤ 1) :
    Counted (heap.erase key) (Holder.leaves cell.value ++ outside) where
  exact k := by
    have before := counted.exact k
    rw [held_cons_handle] at before
    rw [held_erase found, count_erase]
    by_cases h : key = k
    · subst h
      rw [count_of_find? found, if_pos rfl] at before
      rw [if_pos rfl]
      omega
    · rw [if_neg h] at before ⊢
      exact before
  positive := Settled.erase counted.positive key

/-- A token holds no handle. -/
theorem token_iff
    {it : τ} :
    Counted heap (.token it :: outside) ↔ Counted heap outside := by
  have same := held_cons_token heap it outside
  constructor
  · intro counted
    exact ⟨fun key => (counted.exact key).trans (same key), counted.positive⟩
  · intro counted
    exact ⟨fun key => (counted.exact key).trans (same key).symm, counted.positive⟩

theorem tokens
    (counted : Counted heap outside)
    (its : List τ) :
    Counted heap (its.map .token ++ outside) := by
  induction its with
  | nil => exact counted
  | cons it rest ih => exact token_iff.mpr ih

/-- Counts are exact when a release is through, and at every point of its cascade. -/
theorem release
    {waiting : List (Leaf κ τ)}
    (counted : Counted heap (waiting ++ outside)) :
    Counted (Heap.release heap waiting).1 outside := by
  fun_induction Heap.release heap waiting with
  | case1 heap =>
      exact counted
  | case2 heap it rest after endings eq ih =>
      rw [eq] at ih
      exact ih (token_iff.mp counted)
  | case3 heap key rest missing ih =>
      obtain ⟨cell, found⟩ := counted.alive (List.mem_append_left _ List.mem_cons_self)
      rw [missing] at found
      cases found
  | case4 heap key rest cell found last after endings eq ih =>
      rw [eq, List.append_assoc] at ih
      exact ih (counted.erase found last)
  | case5 heap key rest cell found more ih =>
      exact ih (counted.lower found (Nat.not_le.mp more))

end Counted

end Heap
end SharedPair
