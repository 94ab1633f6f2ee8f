import SharedPair.Proofs.Heap.Turnover

/-!
# Taking handles and giving them back

Taking one more handle to each of some living cells and then giving these handles
back, in any order, leaves the heap as it was.  No cell is freed on the way, because
each of them keeps the handles that it had before.
-/

namespace SharedPair
namespace Heap

variable {κ τ ν : Type} [DecidableEq κ]

/-- One more handle for each handle among the given leaves. -/
def acquireAll (heap : Heap κ ν) : List (Leaf κ τ) → Heap κ ν
  | [] => heap
  | .handle key :: rest => acquireAll (heap.acquire key) rest
  | .token _ :: rest => acquireAll heap rest

@[simp] theorem keys_acquireAll
    (leaves : List (Leaf κ τ)) (heap : Heap κ ν) :
    (acquireAll heap leaves).keys = heap.keys := by
  induction leaves generalizing heap with
  | nil => rfl
  | cons leaf rest ih =>
      cases leaf with
      | handle key =>
          rw [acquireAll, ih, acquire, Table.keys_modify]
      | token it =>
          rw [acquireAll, ih]

theorem find?_acquireAll
    [DecidableEq τ]
    (k : κ) (leaves : List (Leaf κ τ)) (heap : Heap κ ν) :
    (acquireAll heap leaves).find? k =
      (heap.find? k).map fun cell => ⟨cell.value, cell.count + leaves.count (.handle k)⟩ := by
  induction leaves generalizing heap with
  | nil =>
      cases found : heap.find? k <;> simp [acquireAll, found]
  | cons leaf rest ih =>
      cases leaf with
      | handle key =>
          rw [acquireAll, ih, acquire, Table.find?_modify, List.count_cons]
          by_cases h : key = k
          · cases found : heap.find? k with
            | none =>
                simp
            | some cell =>
                simp only [h, if_true, Option.map_some, beq_self_eq_true, Option.some.injEq,
                  Cell.mk.injEq, true_and]
                omega
          · simp [h]
      | token it =>
          rw [acquireAll, ih, List.count_cons]
          simp

variable [DecidableEq τ]

/-- It is all the same whether a new cell is made before handles to others are taken or after. -/
theorem allocate_acquireAll
    {heap : Heap κ ν} {key : κ}
    (missing : heap.find? key = none)
    {leaves : List (Leaf κ τ)}
    (apart : .handle key ∉ leaves)
    (value : ν) :
    (acquireAll heap leaves).allocate key value = acquireAll (heap.allocate key value) leaves := by
  have still : (acquireAll heap leaves).find? key = none := by
    rw [find?_acquireAll, missing, Option.map_none]
  apply Table.ext_of_keys
  · rw [allocate, Table.keys_insert_of_find?_eq_none still, keys_acquireAll, keys_acquireAll,
      allocate, Table.keys_insert_of_find?_eq_none missing]
  · intro k
    rw [allocate, allocate, Table.find?_insert, find?_acquireAll, find?_acquireAll,
      Table.find?_insert]
    by_cases h : key = k
    · subst h
      rw [if_pos rfl, if_pos rfl, List.count_eq_zero.mpr apart]
      rfl
    · rw [if_neg h, if_neg h]

/-- The order in which handles are taken is of no account. -/
theorem acquireAll_perm
    {leaves leaves' : List (Leaf κ τ)}
    (same : leaves.Perm leaves')
    (heap : Heap κ ν) :
    acquireAll heap leaves = acquireAll heap leaves' := by
  apply Table.ext_of_keys
  · rw [keys_acquireAll, keys_acquireAll]
  · intro k
    rw [find?_acquireAll, find?_acquireAll, same.count_eq]

variable [Holder ν κ τ]

omit [DecidableEq τ] in
theorem release_dangling
    {heap : Heap κ ν} {key : κ}
    (missing : heap.find? key = none)
    (rest : List (Leaf κ τ)) :
    release heap (.handle key :: rest) = release heap rest := by
  rw [release]
  split
  · rfl
  · next cell found =>
      rw [missing] at found
      cases found

/-- Giving back a handle that was taken on top of others only lowers a count. -/
theorem release_acquireAll_cons
    {heap : Heap κ ν}
    (positive : ∀ key cell, heap.find? key = some cell → 0 < cell.count)
    (key : κ) (rest : List (Leaf κ τ)) :
    release (acquireAll heap (.handle key :: rest)) (.handle key :: rest) =
      release (acquireAll heap rest) rest := by
  have after := find?_acquireAll key (.handle key :: rest) heap
  cases found : heap.find? key with
  | none =>
      rw [found, Option.map_none] at after
      rw [release_dangling after]
      have same : heap.acquire key = heap := by
        simp [acquire, Table.modify, found]
      rw [acquireAll, same]
  | some cell =>
      rw [found, Option.map_some, List.count_cons_self] at after
      have more := positive key cell found
      rw [release_shared after (by simp only; omega)]
      congr 1
      apply Table.ext_of_keys
      · rw [Table.keys_insert_of_find? after, keys_acquireAll, keys_acquireAll]
      · intro k
        rw [Table.find?_insert, find?_acquireAll, find?_acquireAll]
        by_cases h : key = k
        · subst h
          simp [found]
        · simp [h]

/-- What was taken on top can be given back in any order: nothing is freed, and every count is what
it was. -/
theorem release_acquireAll
    {leaves waiting : List (Leaf κ τ)}
    {heap : Heap κ ν}
    (positive : ∀ key cell, heap.find? key = some cell → 0 < cell.count)
    (same : waiting.Perm leaves) :
    release (acquireAll heap leaves) waiting =
      (heap, (Leaf.tokens waiting).map .ended) := by
  rw [← acquireAll_perm same]
  clear same
  induction waiting with
  | nil =>
      rw [acquireAll, release_nil]
      rfl
  | cons leaf rest ih =>
      cases leaf with
      | handle key =>
          rw [release_acquireAll_cons positive, ih]
          rfl
      | token it =>
          rw [acquireAll, release_token, ih]
          rfl

/-- Leaves that are copied one by one become leaves held outside. -/
theorem Shift.acquireAll
    (leaves : List (Leaf κ τ))
    {heap : Heap κ ν} {outside : List (Leaf κ τ)}
    (counted : Counted heap outside)
    (alive : ∀ key, .handle key ∈ leaves → ∃ cell, heap.find? key = some cell) :
    Shift heap outside ⟨[], [], Leaf.tokens leaves, []⟩
      (Heap.acquireAll heap leaves) (leaves ++ outside) := by
  induction leaves generalizing heap outside with
  | nil =>
      exact still counted (List.Perm.refl _)
  | cons leaf rest ih =>
      cases leaf with
      | handle key =>
          obtain ⟨cell, found⟩ := alive key List.mem_cons_self
          have taken := acquire counted found
          have others := ih taken.counted fun k member => by
            obtain ⟨cell', found'⟩ := alive k (List.mem_cons_of_mem _ member)
            by_cases h : key = k
            · exact ⟨⟨cell'.value, cell'.count + 1⟩, by simp [Heap.acquire, h, found']⟩
            · exact ⟨cell', by simp [Heap.acquire, h, found']⟩
          exact (taken.trans others).perm List.perm_middle
      | token it =>
          have taken := born counted [it]
          have others := ih taken.counted fun k member =>
            alive k (List.mem_cons_of_mem _ member)
          exact (taken.trans others).perm List.perm_middle

end Heap
end SharedPair
