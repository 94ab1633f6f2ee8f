import SharedPair.Heap
import SharedPair.Proofs.Table

/-!
# The inventory of a heap

Everything that the living cells hold is one list of leaves.  Each operation on a
heap changes that list in one way, up to the order: a new cell brings the leaves of
its value, a cell that is taken off takes them away, and a change of a count moves
no leaf.

Handles are counted in this list, and tokens are read off it.
-/

namespace SharedPair

namespace Leaf

variable {κ τ : Type}

/-- The token that a leaf is, if it is one. -/
def token? : Leaf κ τ → Option τ
  | handle _ => none
  | token it => some it

/-- The tokens among leaves, in their order. -/
def tokens (leaves : List (Leaf κ τ)) : List τ :=
  leaves.filterMap token?

@[simp] theorem tokens_nil :
    tokens ([] : List (Leaf κ τ)) = [] := by
  rfl

@[simp] theorem tokens_cons_handle
    (key : κ) (rest : List (Leaf κ τ)) :
    tokens (.handle key :: rest) = tokens rest := by
  rfl

@[simp] theorem tokens_cons_token
    (it : τ) (rest : List (Leaf κ τ)) :
    tokens (.token it :: rest) = it :: tokens rest := by
  rfl

@[simp] theorem tokens_append
    (first second : List (Leaf κ τ)) :
    tokens (first ++ second) = tokens first ++ tokens second :=
  List.filterMap_append

theorem tokens_map_token
    (its : List τ) :
    tokens (its.map (token : τ → Leaf κ τ)) = its := by
  induction its with
  | nil =>
      rfl
  | cons it rest ih =>
      rw [List.map_cons, tokens_cons_token, ih]

theorem tokens_perm
    {leaves leaves' : List (Leaf κ τ)}
    (perm : leaves.Perm leaves') :
    (tokens leaves).Perm (tokens leaves') :=
  perm.filterMap token?

@[simp] theorem mem_tokens_iff
    {it : τ} {leaves : List (Leaf κ τ)} :
    it ∈ tokens leaves ↔ .token it ∈ leaves := by
  unfold tokens
  rw [List.mem_filterMap]
  constructor
  · rintro ⟨leaf, member, eq⟩
    cases leaf with
    | handle key =>
        cases eq
    | token it' =>
        cases eq
        exact member
  · intro member
    exact ⟨_, member, rfl⟩

end Leaf

namespace Heap

variable {κ τ ν : Type} [DecidableEq κ] [Holder ν κ τ]

/-- The leaves of all living cells. -/
def leaves (heap : Heap κ ν) : List (Leaf κ τ) :=
  heap.values.flatMap fun cell => Holder.leaves cell.value

/-- What a living cell holds is in the inventory. -/
theorem mem_leaves_iff
    {heap : Heap κ ν} {leaf : Leaf κ τ} :
    leaf ∈ heap.leaves ↔
      ∃ key cell, heap.find? key = some cell ∧ leaf ∈ Holder.leaves cell.value := by
  unfold leaves
  rw [List.mem_flatMap]
  constructor
  · rintro ⟨cell, member, held⟩
    obtain ⟨key, found⟩ := Table.mem_values_iff.mp member
    exact ⟨key, cell, found, held⟩
  · rintro ⟨key, cell, found, held⟩
    exact ⟨cell, Table.mem_values_iff.mpr ⟨key, found⟩, held⟩

theorem leaves_perm_erase
    {heap : Heap κ ν} {key : κ} {cell : Cell ν}
    (found : heap.find? key = some cell) :
    heap.leaves.Perm (Holder.leaves cell.value ++ leaves (heap.erase key)) :=
  (Table.values_perm_erase found).flatMap_right _

theorem leaves_insert_perm
    (heap : Heap κ ν) (key : κ) (cell : Cell ν) :
    (leaves (heap.insert key cell)).Perm
      (Holder.leaves cell.value ++ leaves (heap.erase key)) :=
  (Table.values_insert_perm heap key cell).flatMap_right _

theorem leaves_allocate_perm
    {heap : Heap κ ν} {key : κ}
    (missing : heap.find? key = none)
    (value : ν) :
    (leaves (heap.allocate key value)).Perm (Holder.leaves value ++ heap.leaves) := by
  have perm := leaves_insert_perm heap key ⟨value, 1⟩
  rwa [Table.erase_of_find?_eq_none missing] at perm

/-- A change of the count moves no leaf. -/
theorem leaves_insert_count_perm
    {heap : Heap κ ν} {key : κ} {cell : Cell ν}
    (found : heap.find? key = some cell)
    (count : Nat) :
    (leaves (heap.insert key ⟨cell.value, count⟩)).Perm heap.leaves :=
  (leaves_insert_perm heap key _).trans (leaves_perm_erase found).symm

theorem acquire_of_find?
    {heap : Heap κ ν} {key : κ} {cell : Cell ν}
    (found : heap.find? key = some cell) :
    heap.acquire key = heap.insert key ⟨cell.value, cell.count + 1⟩ := by
  simp [acquire, Table.modify, found]

theorem write_of_find?
    {heap : Heap κ ν} {key : κ} {cell : Cell ν}
    (found : heap.find? key = some cell)
    (value : ν) :
    heap.write key value = heap.insert key ⟨value, cell.count⟩ := by
  simp [write, Table.modify, found]

theorem leaves_acquire_perm
    {heap : Heap κ ν} {key : κ} {cell : Cell ν}
    (found : heap.find? key = some cell) :
    (leaves (heap.acquire key)).Perm heap.leaves := by
  rw [acquire_of_find? found]
  exact leaves_insert_count_perm found _

/-- The leaves of the old value give way to those of the new one. -/
theorem leaves_write_perm
    {heap : Heap κ ν} {key : κ} {cell : Cell ν}
    (found : heap.find? key = some cell)
    (value : ν) :
    (Holder.leaves cell.value ++ leaves (heap.write key value)).Perm
      (Holder.leaves value ++ heap.leaves) := by
  rw [write_of_find? found]
  have written := leaves_insert_perm heap key ⟨value, cell.count⟩
  have before := leaves_perm_erase found
  calc
    (Holder.leaves cell.value ++ leaves (heap.insert key ⟨value, cell.count⟩)).Perm
        (Holder.leaves cell.value ++ (Holder.leaves value ++ leaves (heap.erase key))) :=
      written.append_left _
    _ |>.Perm (Holder.leaves value ++ (Holder.leaves cell.value ++ leaves (heap.erase key))) :=
      List.perm_append_comm_assoc _ _ _
    _ |>.Perm (Holder.leaves value ++ heap.leaves) :=
      before.symm.append_left _

/-! ## Handles, counted in the inventory -/

section Held

variable [DecidableEq τ]

theorem heldIn_eq_count
    (key : κ) (entries : List (κ × Cell ν)) :
    heldIn key entries =
      ((entries.map Prod.snd).flatMap fun cell => Holder.leaves cell.value).count
        (.handle key) := by
  induction entries with
  | nil => rfl
  | cons entry rest ih =>
      rw [heldIn, ih, List.map_cons, List.flatMap_cons, List.count_append]

theorem held_eq_count
    (heap : Heap κ ν) (outside : List (Leaf κ τ)) (key : κ) :
    held heap outside key =
      outside.count (.handle key) + heap.leaves.count (.handle key) := by
  rw [held, heldIn_eq_count]
  rfl

theorem held_perm
    {outside outside' : List (Leaf κ τ)}
    (heap : Heap κ ν)
    (same : outside.Perm outside')
    (key : κ) :
    held heap outside key = held heap outside' key := by
  rw [held_eq_count, held_eq_count, same.count_eq]

@[simp] theorem held_cons_token
    (heap : Heap κ ν) (it : τ) (outside : List (Leaf κ τ)) (key : κ) :
    held heap (.token it :: outside) key = held heap outside key := by
  simp [held_eq_count]

@[simp] theorem held_cons_handle
    (heap : Heap κ ν) (key k : κ) (outside : List (Leaf κ τ)) :
    held heap (.handle key :: outside) k = held heap outside k + if key = k then 1 else 0 := by
  rw [held_eq_count, held_eq_count, List.count_cons]
  simp only [beq_iff_eq, Leaf.handle.injEq]
  omega

/-- What a new cell holds is not held from outside any more. -/
theorem held_allocate
    {heap : Heap κ ν} {key : κ}
    (missing : heap.find? key = none)
    (value : ν) (outside : List (Leaf κ τ)) (k : κ) :
    held (heap.allocate key value) outside k = held heap (Holder.leaves value ++ outside) k := by
  rw [held_eq_count, held_eq_count, (leaves_allocate_perm missing value).count_eq,
    List.count_append, List.count_append]
  omega

/-- A change of a count moves no handle. -/
theorem held_insert_count
    {heap : Heap κ ν} {key : κ} {cell : Cell ν}
    (found : heap.find? key = some cell)
    (count : Nat) (outside : List (Leaf κ τ)) (k : κ) :
    held (heap.insert key ⟨cell.value, count⟩) outside k = held heap outside k := by
  rw [held_eq_count, held_eq_count, (leaves_insert_count_perm found count).count_eq]

/-- What a cell holds is held from outside when the cell is gone. -/
theorem held_erase
    {heap : Heap κ ν} {key : κ} {cell : Cell ν}
    (found : heap.find? key = some cell)
    (outside : List (Leaf κ τ)) (k : κ) :
    held (heap.erase key) (Holder.leaves cell.value ++ outside) k = held heap outside k := by
  rw [held_eq_count, held_eq_count, (leaves_perm_erase found).count_eq, List.count_append,
    List.count_append]
  omega

end Held

end Heap
end SharedPair
