import SharedPair.Proofs.Heap.Spare
import SharedPair.Proofs.Session.Calls

/-!
# What a call takes

Making objects leaves those alone that are there, and the object of a form has the one
reference that its maker holds.  So when a call has taken its arguments, an object that
was there has one more reference for each argument that it is, and a fresh argument has
one, whatever the others are.

The pair takes references of its own before the call gives up those that it took.  What
comes of it is as if the pair had taken them over.
-/

namespace SharedPair
namespace Store

variable {store store' store'' : Store}

/-! ## Making objects -/

/-- Nothing has happened to the objects that a store had. -/
structure Extends (store store' : Store) : Prop where
  next : store.next ≤ store'.next
  find? : ∀ id < store.next, store'.cells.find? id = store.cells.find? id

namespace Extends

theorem refl
    (store : Store) :
    store.Extends store :=
  ⟨Nat.le_refl _, fun _ _ => rfl⟩

theorem trans
    (first : store.Extends store') (second : store'.Extends store'') :
    store.Extends store'' where
  next := Nat.le_trans first.next second.next
  find? id used :=
    (second.find? id (Nat.lt_of_lt_of_le used first.next)).trans (first.find? id used)

theorem allocate
    (store : Store) (node : Node) :
    store.Extends (store.allocate node).2 where
  next := Nat.le_succ _
  find? id used := by
    show (Heap.allocate _ _ _).find? id = _
    rw [Heap.allocate, Table.find?_insert, if_neg (Nat.ne_of_gt used)]

theorem atom
    (store : Store) (a : Atom) :
    store.Extends (store.atom a).2 := by
  unfold Store.atom
  split
  · exact refl store
  · exact allocate store _

theorem tuple
    (store : Store) (items : List Ref) :
    store.Extends (store.tuple items).2 := by
  cases items with
  | nil => exact refl store
  | cons item rest => exact allocate store _

end Extends

mutual

theorem extends_make :
    ∀ (form : Literal) (store : Store), store.Extends (make form store).2
  | .atom a, store => by
      rw [make]
      exact .atom store a
  | .named name, store => by
      rw [make]
      exact .allocate store _
  | .buffer bs, store => by
      rw [make]
      exact .allocate store _
  | .set members, store => by
      rw [make]
      exact .allocate store _
  | .list items, store => by
      rw [make]
      exact (extends_makeAll items store).trans (.allocate _ _)
  | .tuple items, store => by
      rw [make]
      exact (extends_makeAll items store).trans (.tuple _ _)
  | .dict entries, store => by
      rw [make]
      exact (extends_makeEntries entries store).trans (.allocate _ _)

theorem extends_makeAll :
    ∀ (items : List Literal) (store : Store), store.Extends (makeAll items store).2
  | [], store => by
      rw [makeAll]
      exact .refl store
  | form :: rest, store => by
      rw [makeAll]
      exact (extends_make form store).trans (extends_makeAll rest _)

theorem extends_makeEntries :
    ∀ (entries : List (Key × Literal)) (store : Store),
      store.Extends (makeEntries entries store).2
  | [], store => by
      rw [makeEntries]
      exact .refl store
  | (key, form) :: rest, store => by
      rw [makeEntries]
      exact (extends_make form store).trans (extends_makeEntries rest _)

end

/-- An object that was made is new, and its maker holds the one reference to it. -/
def Fresh (store : Store) (made : Ref × Store) : Prop :=
  ∀ id, made.1 = .object id →
    store.next ≤ id ∧ id < made.2.next ∧ ∃ node, made.2.cells.find? id = some ⟨node, 1⟩

namespace Fresh

variable {made : Ref × Store}

theorem later
    (fresh : store'.Fresh made) (next : store.next ≤ store'.next) :
    store.Fresh made := fun id same => by
  obtain ⟨new, used, alive⟩ := fresh id same
  exact ⟨Nat.le_trans next new, used, alive⟩

/-- What happens to other objects does not matter to a fresh one. -/
theorem extend
    {ref : Ref}
    (fresh : store.Fresh (ref, store')) (extends' : store'.Extends store'') :
    store.Fresh (ref, store'') := fun id same => by
  obtain ⟨new, used, node, alive⟩ := fresh id same
  exact ⟨new, Nat.lt_of_lt_of_le used extends'.next, node,
    (extends'.find? id used).trans alive⟩

theorem allocate
    (store : Store) (node : Node) :
    store.Fresh (store.allocate node) := fun id same => by
  cases same
  refine ⟨Nat.le_refl _, Nat.lt_succ_self _, node, ?_⟩
  show (Heap.allocate _ _ _).find? _ = _
  rw [Heap.allocate, Table.find?_insert, if_pos rfl]

theorem atom
    (store : Store) (a : Atom) :
    store.Fresh (store.atom a) := by
  unfold Store.atom
  split
  · intro id same
    cases same
  · exact allocate store _

theorem tuple
    (store : Store) (items : List Ref) :
    store.Fresh (store.tuple items) := by
  cases items with
  | nil =>
      intro id same
      cases same
  | cons item rest => exact allocate store _

end Fresh

theorem fresh_make
    (form : Literal) (store : Store) :
    store.Fresh (make form store) := by
  cases form with
  | atom a =>
      rw [make]
      exact .atom store a
  | named name =>
      rw [make]
      exact .allocate store _
  | buffer bs =>
      rw [make]
      exact .allocate store _
  | set members =>
      rw [make]
      exact .allocate store _
  | list items =>
      rw [make]
      exact (Fresh.allocate _ _).later (extends_makeAll items store).next
  | tuple items =>
      rw [make]
      exact (Fresh.tuple _ _).later (extends_makeAll items store).next
  | dict entries =>
      rw [make]
      exact (Fresh.allocate _ _).later (extends_makeEntries entries store).next
  | back container => exact nomatch container

/-! ## Taking arguments -/

variable {held : List Ref}

theorem next_take
    (store : Store) (source : Session.Source) :
    store.next ≤ (store.take source).2.next := by
  cases source with
  | literal form => exact (extends_make form store).next
  | held ref => exact Nat.le_of_eq (next_acquire store ref).symm

theorem cells_acquire
    (store : Store) (ref : Ref) :
    (store.acquire ref).cells = Heap.acquireAll store.cells (Ref.handles [ref]) := by
  cases ref <;> rfl

theorem find?_acquire
    (store : Store) (ref : Ref) (id : Nat) :
    (store.acquire ref).cells.find? id = (store.cells.find? id).map fun cell =>
      ⟨cell.value, cell.count + [ref].count (.object id)⟩ := by
  rw [cells_acquire, Heap.find?_acquireAll, Ref.count_handles]

/-- An object that is there has one more reference if it is what is taken. -/
theorem find?_take
    {id : Nat}
    (used : id < store.next)
    (source : Session.Source) :
    (store.take source).2.cells.find? id = (store.cells.find? id).map fun cell =>
      ⟨cell.value, cell.count + [(store.take source).1].count (.object id)⟩ := by
  cases source with
  | literal form =>
      have made : store.take (.literal form) = make form store := rfl
      have other : (make form store).1 ≠ .object id := fun same =>
        Nat.not_lt.mpr (fresh_make form store id same).1 used
      rw [made, (extends_make form store).find? id used, List.count_singleton,
        if_neg (by simpa using other)]
      cases store.cells.find? id <;> rfl
  | held ref => exact find?_acquire store ref id

theorem next_takeAll
    (store : Store) (sources : List Session.Source) :
    store.next ≤ (store.takeAll sources).2.next := by
  induction sources generalizing store with
  | nil => exact Nat.le_refl _
  | cons source rest ih => exact Nat.le_trans (store.next_take source) (ih _)

theorem next_takeAll_of_held
    {sources : List Session.Source} {store : Store}
    (held : ∀ source ∈ sources, ∃ ref, source = .held ref) :
    (store.takeAll sources).2.next = store.next := by
  induction sources generalizing store with
  | nil => rfl
  | cons source rest ih =>
      obtain ⟨ref, rfl⟩ := held source List.mem_cons_self
      have first : (store.take (.held ref)).2.next = store.next := next_acquire store ref
      exact (ih fun source member => held source (List.mem_cons_of_mem _ member)).trans first

/-- **When arguments are taken**, an object that was there has one more reference for each of them
that it is. -/
theorem find?_takeAll
    {store : Store} {id : Nat}
    (used : id < store.next)
    (sources : List Session.Source) :
    (store.takeAll sources).2.cells.find? id = (store.cells.find? id).map fun cell =>
      ⟨cell.value, cell.count + (store.takeAll sources).1.count (.object id)⟩ := by
  induction sources generalizing store with
  | nil =>
      show store.cells.find? id = _
      cases store.cells.find? id <;> rfl
  | cons source rest ih =>
      have parts : (store.takeAll (source :: rest)).1.count (.object id) =
          [(store.take source).1].count (.object id) +
            ((store.take source).2.takeAll rest).1.count (.object id) := by
        show List.count _ ([_] ++ _) = _
        exact List.count_append
      have used' : id < (store.take source).2.next :=
        Nat.lt_of_lt_of_le used (store.next_take source)
      show ((store.take source).2.takeAll rest).2.cells.find? id = _
      rw [ih used', find?_take used, Option.map_map, parts]
      simp only [Function.comp_def, Nat.add_assoc]

/-- An object that was made for an argument is none of those that are taken later. -/
theorem not_mem_takeAll
    {between : Store} {id : Nat}
    (sound : store.Sound held)
    (new : store.next ≤ id) (used : id < between.next)
    {sources : List Session.Source}
    (there : ∀ source ∈ sources, source.There held) :
    .object id ∉ (between.takeAll sources).1 := by
  induction sources generalizing between with
  | nil => exact List.not_mem_nil
  | cons source rest ih =>
      have later : id < (between.take source).2.next :=
        Nat.lt_of_lt_of_le used (between.next_take source)
      intro member
      rcases List.mem_cons.mp member with taken | member
      · cases source with
        | literal form =>
            exact Nat.not_lt.mpr (fresh_make form between id taken.symm).1 used
        | held ref =>
            have has : store.Has (.object id) :=
              sound.has_of_mem (taken ▸ there (.held ref) List.mem_cons_self)
            obtain ⟨cell, old⟩ := has
            exact Nat.not_lt.mpr new (sound.fresh id (Table.mem_keys_of_find? old))
      · exact ih later (fun source member => there source (List.mem_cons_of_mem _ member)) member

/-- **A fresh argument** has one reference when all arguments are taken. -/
theorem fresh_takeAll
    {store : Store} {held : List Ref}
    (sound : store.Sound held)
    {sources : List Session.Source}
    (there : ∀ source ∈ sources, source.There held)
    {given : Session.Source × Ref} {form : Literal}
    (member : given ∈ sources.zip (store.takeAll sources).1)
    (fresh : given.1 = .literal form) :
    store.Fresh (given.2, (store.takeAll sources).2) := by
  induction sources generalizing store held with
  | nil => cases member
  | cons source rest ih =>
      have others : ∀ source ∈ rest, source.There held := fun source member =>
        there source (List.mem_cons_of_mem _ member)
      rcases List.mem_cons.mp member with rfl | member
      · subst fresh
        intro id same
        obtain ⟨new, used, node, alive⟩ := fresh_make form store id same
        refine ⟨new, Nat.lt_of_lt_of_le used (next_takeAll _ rest), node, ?_⟩
        show ((make form store).2.takeAll rest).2.cells.find? id = _
        rw [find?_takeAll used, alive,
          List.count_eq_zero.mpr (not_mem_takeAll sound new used others)]
        rfl
      · have first := shift_take sound (there source List.mem_cons_self)
        have made := ih first.sound (fun source member =>
          (others source member).mono fun _ => List.mem_cons_of_mem _) member
        exact made.later (store.next_take source)

/-! ## The pair -/

/-- The pair takes over the references that the call took for it, in whatever order it gives them
up. -/
theorem release_pack
    {x y : Ref} {given : List Ref}
    (sound : store.Sound held)
    (there : ∀ ref ∈ given, ref ∈ held)
    (order : given.Perm [x, y])
    (filter : Filter) :
    (store.pack filter x y).1.2.release given = ((store.allocate (.tuple [x, y])).2, []) := by
  have missing := sound.find?_next
  have handles : (Ref.handles given).Perm (Ref.handles [x, y]) := Ref.handles_perm order
  have cells : (store.pack filter x y).1.2.cells =
      (Heap.acquireAll store.cells (Ref.handles [x, y])).allocate store.next (.tuple [x, y]) := by
    rw [pack_eq]
    cases x <;> cases y <;> rfl
  have apart : .handle store.next ∉ Ref.handles [x, y] := by
    rw [← handles.mem_iff, ← List.count_eq_zero, Ref.count_handles, List.count_eq_zero]
    intro member
    obtain ⟨cell, alive⟩ := sound.has_of_mem (there _ member)
    rw [missing] at alive
    cases alive
  have positive : ∀ key cell,
      (store.cells.allocate store.next (.tuple [x, y])).find? key = some cell → 0 < cell.count := by
    intro key cell alive
    rw [Heap.allocate, Table.find?_insert] at alive
    split at alive
    · cases alive
      exact Nat.one_pos
    · exact sound.counted.positive key cell alive
  have back : Heap.release (store.pack filter x y).1.2.cells (Ref.handles given) =
      (store.cells.allocate store.next (.tuple [x, y]), []) := by
    rw [cells, Heap.allocate_acquireAll missing apart, Heap.release_acquireAll positive handles,
      Ref.tokens_handles, List.map_nil]
  have flat : given.flatMap Ref.leaves = Ref.handles given := rfl
  rw [release, flat, back, (store.pack_object filter x y).2.1]
  rfl

end Store
end SharedPair
