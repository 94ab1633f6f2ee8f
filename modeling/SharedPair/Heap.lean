import SharedPair.Table

/-!
# Counted heaps

A heap holds *cells*, each with a value and the number of handles to it.  What a
value holds directly is its list of *leaves*: handles to cells, and tokens that
end together with the value.  A heap does not know what its values are; the class
`Holder` says what their leaves are.

Releasing a list of leaves is the cascade of this library.  A token ends.  A
handle lowers the count of its cell; when it was the last one, the cell is freed
and the leaves of its value are released before anything else that is waiting.
The cascade needs no bound: every leaf it takes up was either waiting at the start
or came out of a cell that is gone.
-/

namespace SharedPair

/-- One thing that a value holds directly. -/
inductive Leaf (κ τ : Type) where
  /-- A handle that keeps a cell alive. -/
  | handle (key : κ)
  /-- A thing of its own, which ends when the value does. -/
  | token (it : τ)
  deriving DecidableEq, Repr

/-- What a release reports, in the order in which it happens. -/
inductive Ending (κ τ : Type) where
  /-- The last handle to a cell went away. -/
  | freed (key : κ)
  /-- A token ended. -/
  | ended (it : τ)
  deriving DecidableEq, Repr

/-- Values whose direct holdings are known, in the order in which they are released. -/
class Holder (ν : Type) (κ τ : outParam Type) where
  leaves : ν → List (Leaf κ τ)

/-- A value with the number of handles to it. -/
structure Cell (ν : Type) where
  value : ν
  count : Nat
  deriving DecidableEq, Repr

/-- The cells that are alive. -/
abbrev Heap (κ ν : Type) := Table κ (Cell ν)

namespace Heap

variable {κ τ ν : Type} [DecidableEq κ]

/-- The value of a living cell. -/
def value? (heap : Heap κ ν) (key : κ) : Option ν := (heap.find? key).map Cell.value

/-- The number of handles to a cell; a cell that is not alive has none. -/
def count (heap : Heap κ ν) (key : κ) : Nat := ((heap.find? key).map Cell.count).getD 0

/-- A new cell, with the one handle that its maker receives. -/
def allocate (heap : Heap κ ν) (key : κ) (value : ν) : Heap κ ν := heap.insert key ⟨value, 1⟩

/-- One more handle to a cell. -/
def acquire (heap : Heap κ ν) (key : κ) : Heap κ ν :=
  heap.modify key fun cell => ⟨cell.value, cell.count + 1⟩

/-- Puts another value in a cell.  What the old one held is for the caller to release. -/
def write (heap : Heap κ ν) (key : κ) (value : ν) : Heap κ ν :=
  heap.modify key fun cell => ⟨value, cell.count⟩

@[simp] theorem value?_allocate (heap : Heap κ ν) (key k : κ) (value : ν) :
    value? (heap.allocate key value) k = if key = k then some value else value? heap k := by
  by_cases h : key = k <;> simp [value?, allocate, h]

@[simp] theorem value?_acquire (heap : Heap κ ν) (key k : κ) :
    value? (heap.acquire key) k = value? heap k := by
  by_cases h : key = k <;> cases found : heap.find? k <;> simp [value?, acquire, h, found]

@[simp] theorem value?_write (heap : Heap κ ν) (key k : κ) (value : ν) :
    value? (heap.write key value) k =
      if key = k then (value? heap k).map fun _ => value else value? heap k := by
  by_cases h : key = k <;> cases found : heap.find? k <;> simp [value?, write, h, found]

@[simp] theorem count_allocate (heap : Heap κ ν) (key k : κ) (value : ν) :
    count (heap.allocate key value) k = if key = k then 1 else count heap k := by
  by_cases h : key = k <;> simp [count, allocate, h]

/-- Only the cell itself gains a handle, and only if it is alive. -/
theorem count_acquire {heap : Heap κ ν} {key : κ} {value : ν} (alive : value? heap key = some value)
    (k : κ) : count (heap.acquire key) k = count heap k + if key = k then 1 else 0 := by
  by_cases h : key = k
  · subst h
    cases found : heap.find? key with
    | none => simp [value?, found] at alive
    | some cell => simp [count, acquire, found]
  · simp [count, acquire, h]

@[simp] theorem count_write (heap : Heap κ ν) (key k : κ) (value : ν) :
    count (heap.write key value) k = count heap k := by
  by_cases h : key = k <;> cases found : heap.find? k <;> simp [count, write, h, found]

/-! ## The measure of the cascade -/

section Release

variable [Holder ν κ τ]

/-- How many leaves the values of a list of cells hold together. -/
def stored : List (κ × Cell ν) → Nat
  | [] => 0
  | (_, cell) :: rest => (Holder.leaves cell.value).length + stored rest

/-- How many leaves the living cells hold together. -/
def load (heap : Heap κ ν) : Nat := stored heap.entries

theorem stored_overwrite {key : κ} {cell cell' : Cell ν} (same : cell'.value = cell.value) :
    {entries : List (κ × Cell ν)} → Table.lookup key entries = some cell →
      stored (Table.overwrite key cell' entries) = stored entries
  | [], found => by simp [Table.lookup] at found
  | (k, c) :: rest, found => by
    by_cases h : k = key
    · simp only [Table.lookup, h, if_true, Option.some.injEq] at found
      simp [Table.overwrite, stored, h, found, same]
    · simp only [Table.lookup, h, if_false] at found
      simp [Table.overwrite, stored, h, stored_overwrite same found]

theorem stored_without {key : κ} {cell : Cell ν} :
    {entries : List (κ × Cell ν)} → Table.lookup key entries = some cell →
      stored (Table.without key entries) + (Holder.leaves cell.value).length = stored entries
  | [], found => by simp [Table.lookup] at found
  | (k, c) :: rest, found => by
    by_cases h : k = key
    · simp only [Table.lookup, h, if_true, Option.some.injEq] at found
      simp only [Table.without, stored, h, if_true, found]
      omega
    · simp only [Table.lookup, h, if_false] at found
      have := stored_without found
      simp only [Table.without, stored, h, if_false]
      omega

/-- Changing a count moves no leaf. -/
theorem load_insert {heap : Heap κ ν} {key : κ} {cell : Cell ν} (found : heap.find? key = some cell)
    (count : Nat) : load (heap.insert key ⟨cell.value, count⟩) = load heap :=
  have same : (Cell.mk cell.value count).value = cell.value := rfl
  stored_overwrite same found

/-- Taking a cell off the heap takes exactly its leaves with it. -/
theorem load_erase {heap : Heap κ ν} {key : κ} {cell : Cell ν}
    (found : heap.find? key = some cell) :
    load (heap.erase key) + (Holder.leaves cell.value).length = load heap :=
  stored_without found

/-- Releases leaves from left to right, with everything that dies of it. -/
def release (heap : Heap κ ν) : List (Leaf κ τ) → Heap κ ν × List (Ending κ τ)
  | [] => (heap, [])
  | .token it :: rest =>
    let (after, endings) := release heap rest
    (after, .ended it :: endings)
  | .handle key :: rest =>
    match found : heap.find? key with
    | none => release heap rest
    | some cell =>
      if cell.count ≤ 1 then
        let (after, endings) := release (heap.erase key) (Holder.leaves cell.value ++ rest)
        (after, .freed key :: endings)
      else
        release (heap.insert key ⟨cell.value, cell.count - 1⟩) rest
termination_by waiting => waiting.length + load heap
decreasing_by
  · simp only [List.length_cons]
    omega
  · simp only [List.length_cons]
    omega
  · have := load_erase found
    simp only [List.length_append, List.length_cons]
    omega
  · rw [load_insert found]
    simp only [List.length_cons]
    omega

@[simp] theorem release_nil (heap : Heap κ ν) : release heap [] = (heap, []) := by
  rw [release]

@[simp] theorem release_token (heap : Heap κ ν) (it : τ) (rest : List (Leaf κ τ)) :
    release heap (.token it :: rest) =
      ((release heap rest).1, .ended it :: (release heap rest).2) := by
  rw [release]

/-- A handle that is not the last one is only counted. -/
theorem release_shared {heap : Heap κ ν} {key : κ} {cell : Cell ν}
    (found : heap.find? key = some cell) (more : 1 < cell.count) (rest : List (Leaf κ τ)) :
    release heap (.handle key :: rest) =
      release (heap.insert key ⟨cell.value, cell.count - 1⟩) rest := by
  rw [release]
  split
  · next missing => simp [missing] at found
  · next cell' found' =>
    obtain rfl : cell' = cell := by simpa [found'] using found
    simp [Nat.not_le.mpr more]

end Release

/-! ## Handles, counted where they are held -/

section Held

variable [Holder ν κ τ] [DecidableEq τ]

/-- How many handles to a cell the values of a list of cells hold. -/
def heldIn (key : κ) : List (κ × Cell ν) → Nat
  | [] => 0
  | (_, cell) :: rest => (Holder.leaves cell.value).count (.handle key) + heldIn key rest

/-- How many handles to a cell there are: among the given leaves, which are held from outside, and
in the values of the living cells. -/
def held (heap : Heap κ ν) (outside : List (Leaf κ τ)) (key : κ) : Nat :=
  outside.count (.handle key) + heldIn key heap.entries

end Held

end Heap

end SharedPair
