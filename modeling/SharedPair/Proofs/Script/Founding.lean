import SharedPair.Memory
import SharedPair.Proofs.Heap.Spare

/-!
# What a draft founds

Founding a draft makes its cells, each of them once, and one probe for each of its
families.  The families get the numbers that come next, from left to right.  The
value that is made holds, directly or through the new cells, all the new probes and
one handle to each of the new cells.
-/

namespace SharedPair

namespace Draft

mutual

/-- The names and refusals of the families that a draft founds, from left to right. -/
def families : Draft → List (String × List Nat)
  | scalar _ => []
  | list items => familiesOfAll items
  | pair first second => families first ++ families second
  | cell _ _ content => families content
  | probe name refused => [(name, refused)]

def familiesOfAll : List Draft → List (String × List Nat)
  | [] => []
  | draft :: rest => families draft ++ familiesOfAll rest

end

end Draft

/-- The first probes of families that are founded under the numbers from a given one on. -/
def firstProbes : List (String × List Nat) → Nat → List Probe
  | [], _ => []
  | (name, _) :: rest, number => ⟨⟨name, number⟩, 0⟩ :: firstProbes rest (number + 1)

theorem firstProbes_append
    (first second : List (String × List Nat)) (number : Nat) :
    firstProbes (first ++ second) number =
      firstProbes first number ++ firstProbes second (number + first.length) := by
  induction first generalizing number with
  | nil => rfl
  | cons family rest ih =>
      simp only [List.cons_append, firstProbes, ih, List.length_cons]
      rw [Nat.add_assoc, Nat.add_comm 1]

namespace Heap
namespace Shift

variable {κ τ ν : Type} [DecidableEq κ] [DecidableEq τ] [Holder ν κ τ]
variable {heap heap' : Heap κ ν} {outside outside' : List (Leaf κ τ)}

/-- The order in which cells are made is of no account. -/
theorem made_perm
    {made made' freed : List κ} {born ended : List τ}
    (shift : Shift heap outside ⟨made, freed, born, ended⟩ heap' outside')
    (same : made.Perm made') :
    Shift heap outside ⟨made', freed, born, ended⟩ heap' outside' where
  counted := shift.counted
  keys := (same.symm.append_left heap.keys).trans shift.keys
  tokens := shift.tokens

/-- Where no cell is freed, the cells afterwards are the old ones and the new ones. -/
theorem find?_eq_none_of_made
    {made : List κ} {born ended : List τ} {key : κ}
    (shift : Shift heap outside ⟨made, [], born, ended⟩ heap' outside')
    (missing : heap.find? key = none)
    (other : key ∉ made) :
    heap'.find? key = none := by
  rw [Table.find?_eq_none_iff] at missing ⊢
  intro member
  rcases List.mem_append.mp (shift.keys.mem_iff.mpr member) with old | new
  · exact missing old
  · exact other new

end Shift
end Heap

namespace Memory

mutual

theorem families_found :
    ∀ (draft : Draft) (memory : Memory),
      (memory.found draft).2.families =
        memory.families ++ draft.families.map fun family => ⟨family.2, 0⟩
  | .scalar _, memory => by
      rw [found, Draft.families, List.map_nil, List.append_nil]
  | .list items, memory => by
      rw [found, Draft.families]
      exact families_foundAll items memory
  | .pair first second, memory => by
      rw [found, Draft.families]
      simp only [families_found second, families_found first, List.map_append, List.append_assoc]
  | .cell sharing id content, memory => by
      rw [found, Draft.families]
      exact families_found content memory
  | .probe name refused, memory => by
      rw [found, Draft.families]
      rfl

theorem families_foundAll :
    ∀ (items : List Draft) (memory : Memory),
      (memory.foundAll items).2.families =
        memory.families ++ (Draft.familiesOfAll items).map fun family => ⟨family.2, 0⟩
  | [], memory => by
      rw [foundAll, Draft.familiesOfAll, List.map_nil, List.append_nil]
  | draft :: rest, memory => by
      rw [foundAll, Draft.familiesOfAll]
      simp only [families_foundAll rest, families_found draft, List.map_append, List.append_assoc]

end

variable {outside : List (Leaf String Probe)}

mutual

/-- The value of a draft takes over everything that is founded for it. -/
theorem shift_found :
    ∀ (draft : Draft) {memory : Memory} {outside : List (Leaf String Probe)},
      Heap.Counted memory.cells outside →
      draft.cells.Nodup →
      (∀ id ∈ draft.cells, memory.cells.find? id = none) →
      Heap.Shift memory.cells outside
        ⟨draft.cells, [], firstProbes draft.families memory.families.length, []⟩
        (memory.found draft).2.cells ((memory.found draft).1.leaves ++ outside)
  | .scalar _, memory, outside, counted, _, _ => by
      rw [found, Draft.families, Draft.cells, Value.leaves]
      exact .still counted (List.Perm.refl _)
  | .list items, memory, outside, counted, nodup, fresh => by
      rw [found, Draft.families, Draft.cells, Value.leaves]
      rw [Draft.cells] at nodup fresh
      exact shift_foundAll items counted nodup fresh
  | .pair first second, memory, outside, counted, nodup, fresh => by
      rw [Draft.cells] at nodup fresh
      obtain ⟨nodup₁, nodup₂, apart⟩ := List.nodup_append.mp nodup
      have earlier := shift_found first counted nodup₁ fun id member =>
        fresh id (List.mem_append_left _ member)
      have later := shift_found second earlier.counted nodup₂ fun id member =>
        earlier.find?_eq_none_of_made (fresh id (List.mem_append_right _ member)) fun other =>
          apart id other id member rfl
      have whole := earlier.trans later
      rw [found, Draft.families, Draft.cells, Value.leaves, firstProbes_append]
      rw [families_found, List.length_append, List.length_map] at whole
      refine whole.perm ?_
      rw [List.append_assoc]
      exact List.perm_append_comm_assoc _ _ _
  | .cell sharing id content, memory, outside, counted, nodup, fresh => by
      rw [Draft.cells] at nodup fresh
      obtain ⟨new, nodup⟩ := List.nodup_cons.mp nodup
      have inner := shift_found content counted nodup fun id member =>
        fresh id (List.mem_cons_of_mem _ member)
      have missing := inner.find?_eq_none_of_made (fresh id List.mem_cons_self) new
      have whole : Heap.Shift memory.cells outside ⟨content.cells ++ [id], [], _ ++ [], []⟩ _ _ :=
        inner.trans (.allocate inner.counted missing)
      rw [List.append_nil] at whole
      rw [found, Draft.families, Draft.cells, Value.leaves]
      exact whole.made_perm (List.perm_append_singleton id content.cells)
  | .probe name refused, memory, outside, counted, _, _ => by
      rw [found, Draft.families, Draft.cells, Value.leaves]
      exact .born counted [_]

theorem shift_foundAll :
    ∀ (items : List Draft) {memory : Memory} {outside : List (Leaf String Probe)},
      Heap.Counted memory.cells outside →
      (Draft.cellsOfAll items).Nodup →
      (∀ id ∈ Draft.cellsOfAll items, memory.cells.find? id = none) →
      Heap.Shift memory.cells outside
        ⟨Draft.cellsOfAll items, [],
          firstProbes (Draft.familiesOfAll items) memory.families.length, []⟩
        (memory.foundAll items).2.cells
        (Value.leavesOfAll (memory.foundAll items).1 ++ outside)
  | [], memory, outside, counted, _, _ => by
      rw [foundAll, Draft.familiesOfAll, Draft.cellsOfAll, Value.leavesOfAll]
      exact .still counted (List.Perm.refl _)
  | draft :: rest, memory, outside, counted, nodup, fresh => by
      rw [Draft.cellsOfAll] at nodup fresh
      obtain ⟨nodup₁, nodup₂, apart⟩ := List.nodup_append.mp nodup
      have earlier := shift_found draft counted nodup₁ fun id member =>
        fresh id (List.mem_append_left _ member)
      have later := shift_foundAll rest earlier.counted nodup₂ fun id member =>
        earlier.find?_eq_none_of_made (fresh id (List.mem_append_right _ member)) fun other =>
          apart id other id member rfl
      have whole := earlier.trans later
      rw [foundAll, Draft.familiesOfAll, Draft.cellsOfAll, Value.leavesOfAll, firstProbes_append]
      rw [families_found, List.length_append, List.length_map] at whole
      refine whole.perm ?_
      rw [List.append_assoc]
      exact List.perm_append_comm_assoc _ _ _

end

end Memory
end SharedPair
