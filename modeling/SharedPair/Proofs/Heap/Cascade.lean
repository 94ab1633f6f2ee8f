import Mathlib.Data.List.Basic
import SharedPair.Proofs.Heap.Turnover

/-!
# The cascade, one move at a time

A release gives up the leaves that wait, the first one first.  To give up a handle lowers
the count of its cell by one.  A cell whose count has come down to zero is freed before
anything else is given up, and the leaves of its value wait in front of all others.  That
is the cascade as a machine, which stops only where it has no move: where nothing waits,
or where a handle dangles.

* `Cascade.Next.size_eq`: every move makes a cascade smaller by one, so none goes on for
  ever.
* `Cascade.Next.unique`: there is never a choice between two moves.
* `Cascade.Next.exact`: every move keeps counts exact, so no handle that waits dangles.
* `Cascade.release_completes`: a release with exact counts is a cascade that stops where
  nothing waits, and it reports the moves of it.
-/

namespace SharedPair

/-- Where a cascade stands: the cells, and the leaves that are still to be given up. -/
structure Cascade (κ τ ν : Type) where
  heap : Heap κ ν
  waiting : List (Leaf κ τ)

namespace Cascade

/-- A move of a cascade. -/
inductive Move (κ τ ν : Type) where
  | giveUp (leaf : Leaf κ τ)
  /-- Frees a cell and takes the value out of it. -/
  | free (key : κ) (value : ν)

namespace Move

variable {κ τ ν : Type}

/-- The leaf that a move gives up. -/
def leaf? : Move κ τ ν → Option (Leaf κ τ)
  | giveUp leaf => some leaf
  | free _ _ => none

/-- The cell that a move frees, with its value. -/
def freed? : Move κ τ ν → Option (κ × ν)
  | giveUp _ => none
  | free key value => some (key, value)

/-- What a release reports of a move. -/
def ending? : Move κ τ ν → Option (Ending κ τ)
  | giveUp (.handle _) => none
  | giveUp (.token it) => some (.ended it)
  | free key _ => some (.freed key)

end Move
end Cascade

namespace Heap

variable {κ τ ν : Type} [DecidableEq κ]

/-- The cells with their values. -/
def contents (heap : Heap κ ν) : List (κ × ν) :=
  heap.entries.map fun (key, cell) => (key, cell.value)

omit [DecidableEq κ] in
theorem keys_contents
    (heap : Heap κ ν) :
    heap.contents.map Prod.fst = heap.keys := by
  rw [contents, List.map_map]
  rfl

/-- A change of a count leaves all values where they are. -/
theorem contents_insert_perm
    {heap : Heap κ ν} {key : κ} {cell : Cell ν}
    (found : heap.find? key = some cell)
    (count : Nat) :
    heap.contents.Perm (contents (heap.insert key ⟨cell.value, count⟩)) := by
  have before := (Table.perm_cons_without found).map fun entry => (entry.1, entry.2.value)
  have after := (Table.overwrite_perm key ⟨cell.value, count⟩ heap.entries).map
    fun entry => (entry.1, entry.2.value)
  exact before.trans after.symm

theorem contents_erase_perm
    {heap : Heap κ ν} {key : κ} {cell : Cell ν}
    (found : heap.find? key = some cell) :
    heap.contents.Perm ((key, cell.value) :: contents (heap.erase key)) :=
  (Table.perm_cons_without found).map fun entry : κ × Cell ν => (entry.1, entry.2.value)

end Heap

namespace Cascade

variable {κ τ ν : Type} [DecidableEq κ] [Holder ν κ τ]

/-- One move leads from a cascade to the next.  While a cell stands at zero, nothing is given up. -/
inductive Next : Cascade κ τ ν → Move κ τ ν → Cascade κ τ ν → Prop
  | token
      {heap : Heap κ ν} {it : τ} {rest : List (Leaf κ τ)}
      (settled : heap.Settled) :
      Next ⟨heap, .token it :: rest⟩ (.giveUp (.token it)) ⟨heap, rest⟩
  | handle
      {heap : Heap κ ν} {key : κ} {value : ν} {count : Nat} {rest : List (Leaf κ τ)}
      (settled : heap.Settled)
      (found : heap.find? key = some ⟨value, count + 1⟩) :
      Next ⟨heap, .handle key :: rest⟩ (.giveUp (.handle key))
        ⟨heap.insert key ⟨value, count⟩, rest⟩
  | free
      {heap : Heap κ ν} {key : κ} {value : ν} {waiting : List (Leaf κ τ)}
      (found : heap.find? key = some ⟨value, 0⟩) :
      Next ⟨heap, waiting⟩ (.free key value) ⟨heap.erase key, Holder.leaves value ++ waiting⟩

/-- Some moves lead from a cascade to a later one. -/
inductive Runs : Cascade κ τ ν → List (Move κ τ ν) → Cascade κ τ ν → Prop
  | refl
      (c : Cascade κ τ ν) :
      Runs c [] c
  | head
      {c c' c'' : Cascade κ τ ν} {move : Move κ τ ν} {moves : List (Move κ τ ν)}
      (next : Next c move c') (rest : Runs c' moves c'') :
      Runs c (move :: moves) c''

variable {c c' c'' : Cascade κ τ ν} {move move' : Move κ τ ν} {moves moves' : List (Move κ τ ν)}

/-! ## Cascades end -/

/-- How large a cascade is: the cells, the leaves in them, and the leaves that wait. -/
def size (c : Cascade κ τ ν) : Nat :=
  c.waiting.length + c.heap.load + c.heap.keys.length

/-- **Every move** makes a cascade smaller. -/
theorem Next.size_eq
    (next : Next c move c') :
    c'.size + 1 = c.size := by
  cases next with
  | token settled =>
      simp only [size, List.length_cons]
      omega
  | handle settled found =>
      simp only [size, List.length_cons]
      rw [Heap.load_insert found, Table.keys_insert_of_find? found]
      omega
  | free found =>
      have load := Heap.load_erase found
      have keys := (Table.keys_perm_erase found).length_eq
      rw [List.length_cons] at keys
      simp only [size, List.length_append]
      simp only at load
      omega

theorem Runs.size_eq
    (runs : Runs c moves c') :
    c'.size + moves.length = c.size := by
  induction runs with
  | refl c => rfl
  | head next rest ih =>
      have first := next.size_eq
      rw [List.length_cons]
      omega

/-! ## There is no choice -/

/-- At most one cell stands at zero. -/
def Single (heap : Heap κ ν) : Prop :=
  ∀ key key' value value', heap.find? key = some ⟨value, 0⟩ →
    heap.find? key' = some ⟨value', 0⟩ → key = key'

theorem not_settled_of_zero
    {heap : Heap κ ν} {key : κ} {value : ν}
    (found : heap.find? key = some ⟨value, 0⟩) :
    ¬ heap.Settled := fun settled =>
  Nat.lt_irrefl 0 (settled key _ found)

theorem single_of_settled
    {heap : Heap κ ν}
    (settled : heap.Settled) :
    Single heap := fun _ _ _ _ found _ =>
  absurd settled (not_settled_of_zero found)

theorem Next.single
    (next : Next c move c')
    (single : Single c.heap) :
    Single c'.heap := by
  cases next with
  | token settled => exact single
  | @handle heap key value count rest settled found =>
      have only : ∀ k value', (heap.insert key ⟨value, count⟩).find? k = some ⟨value', 0⟩ →
          key = k := by
        intro k value' zero
        rw [Table.find?_insert] at zero
        split at zero
        · next same => exact same
        · exact absurd settled (not_settled_of_zero zero)
      exact fun k k' _ _ zero zero' => (only k _ zero).symm.trans (only k' _ zero')
  | @free heap key value waiting found =>
      intro k k' value' value'' zero zero'
      rw [Table.find?_erase] at zero zero'
      split at zero
      · cases zero
      · split at zero'
        · cases zero'
        · exact single k k' _ _ zero zero'

theorem Runs.single
    (runs : Runs c moves c')
    (single : Single c.heap) :
    Single c'.heap := by
  induction runs with
  | refl c => exact single
  | head next rest ih => exact ih (next.single single)

/-- **There is never a choice** between two moves. -/
theorem Next.unique
    (single : Single c.heap)
    (next : Next c move c') (next' : Next c move' c'') :
    move = move' ∧ c' = c'' := by
  cases next with
  | token settled =>
      cases next' with
      | token _ => exact ⟨rfl, rfl⟩
      | free found => exact absurd settled (not_settled_of_zero found)
  | handle settled found =>
      cases next' with
      | handle _ found' =>
          rw [found] at found'
          cases found'
          exact ⟨rfl, rfl⟩
      | free found' => exact absurd settled (not_settled_of_zero found')
  | free found =>
      cases next' with
      | token settled => exact absurd settled (not_settled_of_zero found)
      | handle settled _ => exact absurd settled (not_settled_of_zero found)
      | free found' =>
          obtain rfl := single _ _ _ _ found found'
          rw [found] at found'
          cases found'
          exact ⟨rfl, rfl⟩

/-- A cascade has stopped when nothing waits and no cell stands at zero. -/
theorem Next.not_of_stopped
    {heap : Heap κ ν}
    (settled : heap.Settled) :
    ¬ Next ⟨heap, []⟩ move c' := by
  intro next
  cases next with
  | free found => exact not_settled_of_zero found settled

/-- Whatever moves are made, they are the first of those that lead to where the cascade stops. -/
theorem Runs.initial_of_stopped
    {heap : Heap κ ν}
    (settled : heap.Settled)
    (single : Single c.heap)
    (all : Runs c moves ⟨heap, []⟩) (begun : Runs c moves' c') :
    ∃ more, moves = moves' ++ more ∧ Runs c' more ⟨heap, []⟩ := by
  induction begun generalizing moves with
  | refl c => exact ⟨moves, rfl, all⟩
  | head next rest ih =>
      cases all with
      | refl => exact absurd next (Next.not_of_stopped settled)
      | head next' rest' =>
          obtain ⟨rfl, rfl⟩ := next'.unique single next
          obtain ⟨more, rfl, last⟩ := ih (next.single single) rest'
          exact ⟨more, rfl, last⟩

/-! ## What a cascade gives up and frees -/

/-- What a move gives up has waited, and what it takes out of a cell waits from then on. -/
theorem Next.waiting_perm
    (next : Next c move c') :
    (c.waiting ++ move.freed?.toList.flatMap fun cell => Holder.leaves cell.2).Perm
      (move.leaf?.toList ++ c'.waiting) := by
  cases next with
  | token settled =>
      simp [Move.freed?, Move.leaf?]
  | handle settled found =>
      simp [Move.freed?, Move.leaf?]
  | free found =>
      simpa [Move.freed?, Move.leaf?] using List.perm_append_comm

theorem Next.contents_perm
    (next : Next c move c') :
    c.heap.contents.Perm (move.freed?.toList ++ c'.heap.contents) := by
  cases next with
  | token settled =>
      exact List.Perm.refl _
  | @handle heap key value count rest settled found =>
      exact Heap.contents_insert_perm found count
  | free found =>
      exact Heap.contents_erase_perm found

/-- What waited at first and what came out of freed cells has been given up, or it still waits. -/
theorem Runs.waiting_perm
    (runs : Runs c moves c') :
    (c.waiting ++ (moves.filterMap Move.freed?).flatMap fun cell => Holder.leaves cell.2).Perm
      (moves.filterMap Move.leaf? ++ c'.waiting) := by
  induction runs with
  | refl c =>
      simp
  | @head c c' c'' move moves next rest ih =>
      simp only [List.filterMap_eq_flatMap_toList, List.flatMap_cons, List.flatMap_append,
        List.append_assoc] at ih ⊢
      have first := next.waiting_perm
      rw [← List.append_assoc]
      refine (first.append_right _).trans ?_
      rw [List.append_assoc]
      exact ih.append_left _

/-- The cells that moves free are those that are gone, with the values that they had. -/
theorem Runs.contents_perm
    (runs : Runs c moves c') :
    c.heap.contents.Perm (moves.filterMap Move.freed? ++ c'.heap.contents) := by
  induction runs with
  | refl c =>
      exact List.Perm.refl _
  | head next rest ih =>
      rw [List.filterMap_eq_flatMap_toList] at ih ⊢
      rw [List.flatMap_cons, List.append_assoc]
      exact next.contents_perm.trans (ih.append_left _)

/-- **No cell is freed twice**, and a cell that was freed is gone. -/
theorem Runs.nodup_freed
    (runs : Runs c moves c') :
    ((moves.filterMap Move.freed?).map Prod.fst ++ c'.heap.keys).Nodup := by
  have keys := runs.contents_perm.map Prod.fst
  rw [List.map_append, Heap.keys_contents, Heap.keys_contents] at keys
  exact keys.nodup_iff.mp c.heap.keys_nodup

/-! ## Counts while a cascade goes on -/

variable [DecidableEq τ] {outside : List (Leaf κ τ)}

/-- Every count is the number of handles: of those that wait, of those held outside, and of those in
living cells. -/
def Exact (c : Cascade κ τ ν) (outside : List (Leaf κ τ)) : Prop :=
  ∀ key, Heap.count c.heap key = Heap.held c.heap (c.waiting ++ outside) key

/-- **Every move** keeps counts exact. -/
theorem Next.exact
    (exact : c.Exact outside)
    (next : Next c move c') :
    c'.Exact outside := by
  intro k
  cases next with
  | token settled =>
      simpa only [List.cons_append, Heap.held_cons_token] using exact k
  | handle settled found =>
      exact Heap.count_lower exact found rfl k
  | @free heap key value waiting found =>
      rw [List.append_assoc, Heap.held_erase found, ← exact k, Heap.count_erase]
      split
      · next same => rw [← same, Heap.count_of_find? found]
      · rfl

theorem Runs.exact
    (exact : c.Exact outside)
    (runs : Runs c moves c') :
    c'.Exact outside := by
  induction runs with
  | refl c => exact exact
  | head next rest ih => exact ih (next.exact exact)

/-! ## The cascade and the release -/

/-- The moves of a cascade that is complete, from where it starts to the cells that it leaves, while
some leaves are held outside. -/
structure Completes (start : Cascade κ τ ν) (outside : List (Leaf κ τ)) (moves : List (Move κ τ ν))
    (heap : Heap κ ν) : Prop where
  /-- The moves lead to where nothing waits. -/
  runs : Runs start moves ⟨heap, []⟩
  /-- No cell is left with a count of zero. -/
  settled : heap.Settled
  /-- Whatever moves are made from the start, they are the first of these, and the others follow. -/
  only : ∀ {before c}, Runs start before c →
    ∃ after, moves = before ++ after ∧ Runs c after ⟨heap, []⟩
  /-- There are no more moves than there are leaves that wait or are in cells, and cells. -/
  bounded : moves.length ≤ start.size
  /-- Counts are exact wherever the moves lead. -/
  exact : ∀ {before c}, Runs start before c → c.Exact outside
  /-- A cell that is found at zero is freed by the very next move. -/
  prompt : ∀ {before c key value}, Runs start before c → c.heap.find? key = some ⟨value, 0⟩ →
    ∃ after, moves = before ++ .free key value :: after
  /-- What waited at the start and what comes out of freed cells is given up, and no more. -/
  given : (moves.filterMap Move.leaf?).Perm
    (start.waiting ++ (moves.filterMap Move.freed?).flatMap fun cell => Holder.leaves cell.2)
  /-- The cells at the start, with their values, are those that are freed or left. -/
  cells : start.heap.contents.Perm (moves.filterMap Move.freed? ++ heap.contents)
  /-- No cell is freed twice, and none that was freed is left. -/
  once : ((moves.filterMap Move.freed?).map Prod.fst ++ heap.keys).Nodup

/-- A cascade that starts with exact counts and comes to where nothing waits is complete. -/
theorem Runs.completes
    {heap heap' : Heap κ ν} {waiting : List (Leaf κ τ)}
    (counted : heap.Counted (waiting ++ outside)) (counted' : heap'.Counted outside)
    (runs : Runs ⟨heap, waiting⟩ moves ⟨heap', []⟩) :
    Completes ⟨heap, waiting⟩ outside moves heap' := by
  have settled : heap'.Settled := counted'.positive
  have single : Single heap := single_of_settled counted.positive
  have only : ∀ {before c}, Runs ⟨heap, waiting⟩ before c →
      ∃ after, moves = before ++ after ∧ Runs c after ⟨heap', []⟩ := fun begun =>
    runs.initial_of_stopped settled single begun
  refine
    { runs
      settled
      only
      bounded := ?_
      exact := fun begun => begun.exact (c := ⟨heap, waiting⟩) counted.exact
      prompt := ?_
      given := ?_
      cells := runs.contents_perm
      once := runs.nodup_freed }
  · exact Nat.le.intro ((Nat.add_comm _ _).trans runs.size_eq)
  · intro before c key value begun zero
    obtain ⟨after, rfl, rest⟩ := only begun
    cases rest with
    | refl => exact absurd settled (not_settled_of_zero zero)
    | head next rest =>
        obtain ⟨rfl, -⟩ := next.unique (begun.single single) (.free zero)
        exact ⟨_, rfl⟩
  · have balance := runs.waiting_perm
    rw [List.append_nil] at balance
    exact balance.symm

/-- A release is a cascade that comes to where nothing waits. -/
theorem runs_release
    {heap : Heap κ ν} {waiting : List (Leaf κ τ)}
    (counted : heap.Counted (waiting ++ outside)) :
    ∃ moves, Runs ⟨heap, waiting⟩ moves ⟨(Heap.release heap waiting).1, []⟩ ∧
      moves.filterMap Move.ending? = (Heap.release heap waiting).2 := by
  fun_induction Heap.release heap waiting with
  | case1 heap =>
      exact ⟨[], .refl _, rfl⟩
  | case2 heap it rest after endings eq ih =>
      rw [eq] at ih
      obtain ⟨moves, runs, told⟩ := ih (Heap.Counted.token_iff.mp counted)
      refine ⟨.giveUp (.token it) :: moves, .head (.token counted.positive) runs, ?_⟩
      rw [List.filterMap_cons, told]
      rfl
  | case3 heap key rest missing ih =>
      obtain ⟨cell, found⟩ := counted.alive (List.mem_append_left _ List.mem_cons_self)
      rw [missing] at found
      cases found
  | case4 heap key rest cell found last after endings eq ih =>
      rw [eq, List.append_assoc] at ih
      obtain ⟨moves, runs, told⟩ := ih (counted.erase found last)
      -- the count of a living cell is one when it is at most one
      obtain ⟨value, count⟩ := cell
      obtain rfl : count = 0 + 1 := Nat.le_antisymm last (counted.positive key _ found)
      have zero : Table.find? (heap.insert key ⟨value, 0⟩) key = some ⟨value, 0⟩ := by
        rw [Table.find?_insert, if_pos rfl]
      have freed : Next ⟨_, rest⟩ (.free key value) _ := .free zero
      rw [Table.erase_insert] at freed
      refine ⟨.giveUp (.handle key) :: .free key value :: moves,
        .head (.handle counted.positive found) (.head freed runs), ?_⟩
      rw [List.filterMap_cons, List.filterMap_cons, told]
      rfl
  | case5 heap key rest cell found more ih =>
      obtain ⟨moves, runs, told⟩ := ih (counted.lower found (Nat.not_le.mp more))
      obtain ⟨value, count⟩ := cell
      obtain ⟨count, rfl⟩ : ∃ n, count = n + 1 :=
        ⟨count - 1, (Nat.sub_add_cancel (counted.positive key _ found)).symm⟩
      refine ⟨.giveUp (.handle key) :: moves, .head (.handle counted.positive found) runs, ?_⟩
      rw [List.filterMap_cons, told]
      rfl

/-- **A release is a complete cascade**, and reports its moves. -/
theorem release_completes
    {heap : Heap κ ν} {waiting : List (Leaf κ τ)}
    (counted : heap.Counted (waiting ++ outside)) :
    ∃ moves, Completes ⟨heap, waiting⟩ outside moves (Heap.release heap waiting).1 ∧
      (Heap.release heap waiting).2 = moves.filterMap Move.ending? := by
  obtain ⟨moves, runs, told⟩ := runs_release counted
  exact ⟨moves, runs.completes counted counted.release, told.symm⟩

end Cascade
end SharedPair
