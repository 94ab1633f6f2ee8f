import Mathlib.Algebra.GroupWithZero.Nat
import SharedPair.Proofs.Object.Mirroring
import SharedPair.Proofs.Session.References

/-!
# What a mirror shows

An object and its image look alike: they are shown as one form, back references
included, because a form tells nothing of numbers.

The opaque things of a mirror are the images of those of the store and its strays.
Strays stay while the guests do, so the strays of a moment are among those of every
later one.  Without guests there are none, and then counts are the same too.
-/

namespace SharedPair
namespace Store

variable {ρ : Nat → Nat} {kept : Nat → Prop} {store store' after after' : Store}
  {held held' guests : List Ref}

/-! ## Forms -/

theorem idxOf_map_of_injective
    (injective : Function.Injective ρ)
    (id : Nat) (path : List Nat) :
    (path.map ρ).idxOf (ρ id) = path.idxOf id := by
  induction path with
  | nil => rfl
  | cons container rest ih =>
      rw [List.map_cons, List.idxOf_cons, List.idxOf_cons, ih]
      by_cases h : container = id
      · rw [beq_iff_eq.mpr h, beq_iff_eq.mpr (congrArg ρ h)]
      · rw [beq_eq_false_iff_ne.mpr h, beq_eq_false_iff_ne.mpr fun same => h (injective same)]

theorem nodeForm_rename
    {shown shown' : Ref → Shown} {node : Node}
    (same : ∀ ref ∈ node.positions, shown' (ref.rename ρ) = shown ref) :
    nodeForm shown' (node.rename ρ) = nodeForm shown node := by
  cases node with
  | list items =>
      rw [Node.rename, nodeForm, nodeForm, List.map_map]
      exact congrArg Form.list (List.map_congr_left same)
  | tuple items =>
      rw [Node.rename, nodeForm, nodeForm, List.map_map]
      exact congrArg Form.tuple (List.map_congr_left same)
  | dict entries =>
      rw [Node.rename, nodeForm, nodeForm, List.map_map]
      refine congrArg Form.dict (List.map_congr_left fun entry member => ?_)
      exact congrArg (Prod.mk entry.1) (same entry.2 (List.mem_map_of_mem member))
  | _ => rfl

namespace Mirror

theorem formBelow
    (mirror : Mirror ρ kept guests store held store')
    (path : List Nat) (ref : Ref)
    (has : store.Has ref) :
    store'.formBelow (path.map ρ) (ref.rename ρ) = store.formBelow path ref := by
  fun_induction store.formBelow path ref with
  | case1 path a => rw [Ref.rename, Store.formBelow]
  | case2 path => rw [Ref.rename, Store.formBelow]
  | case3 path id inside =>
      rw [Ref.rename, formBelow_of_mem (List.mem_map_of_mem inside),
        idxOf_map_of_injective mirror.injective]
  | case4 path id fresh missing =>
      obtain ⟨cell, found⟩ := has
      rw [missing] at found
      cases found
  | case5 path id fresh cell found _ ih =>
      have alive := Heap.value?_of_find? found
      obtain ⟨cell', found', same⟩ := Option.map_eq_some_iff.mp (mirror.values alive)
      have fresh' : ρ id ∉ path.map ρ := fun inside =>
        fresh ((List.mem_map_of_injective mirror.injective).mp inside)
      rw [Ref.rename, formBelow_of_not_mem fresh' found', same]
      refine nodeForm_rename fun ref member => ?_
      have below := ih ref (mirror.sound.has_of_position alive member)
      rwa [List.map_append] at below

/-- An object and its image are shown alike. -/
theorem form
    (mirror : Mirror ρ kept guests store held store')
    {ref : Ref}
    (has : store.Has ref) :
    store'.form (ref.rename ρ) = store.form ref :=
  mirror.formBelow [] ref has

end Mirror

/-! ## Opaque things -/

/-- The opaque things of the second store that are no images of what is in the first. -/
def strays (ρ : Nat → Nat) (store store' : Store) : List (Nat × String) :=
  store'.things.filter fun thing => decide (thing.1 ∉ store.cells.keys.map ρ)

theorem mem_strays_iff
    {id : Nat} {name : String} :
    (id, name) ∈ strays ρ store store' ↔
      Heap.value? store'.cells id = some (.named name) ∧ Stranded ρ store store' id := by
  rw [strays, List.mem_filter, decide_eq_true_iff, mem_things_iff]
  refine and_congr_right fun alive => ?_
  constructor
  · refine fun apart => ⟨⟨_, alive⟩, fun old same => ?_⟩
    rw [Heap.value?, Option.map_eq_none_iff, Table.find?_eq_none_iff]
    exact fun member => apart (List.mem_map.mpr ⟨old, member, same⟩)
  · rintro ⟨-, unknown⟩ member
    obtain ⟨old, present, same⟩ := List.mem_map.mp member
    obtain ⟨cell, found⟩ := Table.find?_of_mem_keys present
    have gone := unknown old same
    rw [Heap.value?_of_find? found] at gone
    cases gone

theorem nodup_strays
    (ρ : Nat → Nat) (store store' : Store) :
    (strays ρ store store').Nodup :=
  store'.nodup_things.filter _

namespace Mirror

theorem not_stranded
    (mirror : Mirror ρ kept [] store held store')
    (id : Nat) :
    ¬ Stranded ρ store store' id := by
  intro stranded
  obtain ⟨node, alive⟩ := stranded.1
  have counted := mirror.sound'.counted
  rw [List.append_nil] at counted
  exact counted.not_doomed alive (mirror.others stranded)

theorem exists_image
    (mirror : Mirror ρ kept [] store held store')
    {id : Nat} {cell : Cell Node}
    (found : store'.cells.find? id = some cell) :
    ∃ old, ρ old = id := by
  obtain ⟨old, node, same, -⟩ :=
    image_of_not_stranded (Heap.value?_of_find? found) (mirror.not_stranded id)
  exact ⟨old, same⟩

/-- Where nothing is kept for guests, nothing has strayed. -/
theorem strays_eq_nil
    (mirror : Mirror ρ kept [] store held store') :
    strays ρ store store' = [] := by
  refine List.eq_nil_iff_forall_not_mem.mpr ?_
  rintro ⟨id, name⟩ member
  exact mirror.not_stranded id (mem_strays_iff.mp member).2

theorem named_iff
    (mirror : Mirror ρ kept guests store held store')
    {id : Nat} {name : String} :
    (id, name) ∈ store'.things ↔
      (∃ old, ρ old = id ∧ (old, name) ∈ store.things) ∨ (id, name) ∈ strays ρ store store' := by
  rw [mem_strays_iff, mem_things_iff]
  constructor
  · intro alive
    by_cases stranded : Stranded ρ store store' id
    · exact .inr ⟨alive, stranded⟩
    · obtain ⟨old, node, rfl, before⟩ := image_of_not_stranded alive stranded
      have image := mirror.values before
      rw [alive, Option.some.injEq] at image
      refine .inl ⟨old, rfl, mem_things_iff.mpr ?_⟩
      cases node <;> cases image
      exact before
  · rintro (⟨old, rfl, member⟩ | ⟨alive, -⟩)
    · exact mirror.values (mem_things_iff.mp member)
    · exact alive

/-- The things of a mirror are the images of those of the store, and the strays. -/
theorem things_perm
    (mirror : Mirror ρ kept guests store held store') :
    store'.things.Perm
      ((store.things.map fun thing => (ρ thing.1, thing.2)) ++ strays ρ store store') := by
  have injective : Function.Injective fun thing : Nat × String => (ρ thing.1, thing.2) := by
    rintro ⟨id, name⟩ ⟨id', name'⟩ same
    obtain ⟨numbers, names⟩ := Prod.mk.inj same
    exact congr (congrArg Prod.mk (mirror.injective numbers)) names
  have apart : ((store.things.map fun thing => (ρ thing.1, thing.2)) ++
      strays ρ store store').Nodup := by
    refine List.nodup_append.mpr ⟨store.nodup_things.map injective, nodup_strays ρ store store', ?_⟩
    rintro _ image ⟨id, name⟩ stray rfl
    obtain ⟨⟨old, name'⟩, member, eq⟩ := List.mem_map.mp image
    obtain ⟨rfl, rfl⟩ := Prod.mk.inj eq
    have gone := (mem_strays_iff.mp stray).2.2 old rfl
    rw [mem_things_iff.mp member] at gone
    cases gone
  refine (List.perm_ext_iff_of_nodup store'.nodup_things apart).mpr ?_
  rintro ⟨id, name⟩
  rw [mirror.named_iff, List.mem_append, List.mem_map]
  refine or_congr ⟨?_, ?_⟩ Iff.rfl
  · rintro ⟨old, rfl, member⟩
    exact ⟨_, member, rfl⟩
  · rintro ⟨⟨old, name'⟩, member, eq⟩
    obtain ⟨rfl, rfl⟩ := Prod.mk.inj eq
    exact ⟨old, rfl, member⟩

theorem names_perm
    (mirror : Mirror ρ kept guests store held store') :
    (store'.things.map Prod.snd).Perm
      (store.things.map Prod.snd ++ (strays ρ store store').map Prod.snd) := by
  have images := mirror.things_perm.map Prod.snd
  rwa [List.map_append, List.map_map] at images

/-- Whatever has been stranded for a while may be remembered. -/
theorem remember
    (mirror : Mirror ρ kept guests store held store') :
    Mirror ρ (Stranded ρ store store') guests store held store' :=
  { mirror with lasting := id }

/-- Strays stay while the guests do. -/
theorem strays_subset
    (later : Mirror ρ (Stranded ρ store store') guests after held' after')
    (sound' : store'.Sound held)
    (evolves : Evolves store' after') :
    strays ρ store store' ⊆ strays ρ after after' := by
  rintro ⟨id, name⟩ member
  obtain ⟨alive, stranded⟩ := mem_strays_iff.mp member
  obtain ⟨⟨node, alive'⟩, unknown⟩ := later.lasting stranded
  have same := evolves.value?_of_fixed alive (sound'.used alive) trivial alive'
  exact mem_strays_iff.mpr ⟨same ▸ alive', ⟨node, alive'⟩, unknown⟩

end Mirror

/-! ## Counts -/

/-- How many references to an object one container holds. -/
def holdings (store : Store) (id holder : Nat) : Nat :=
  ((Heap.value? store.cells holder).map fun node => node.positions.count (.object id)).getD 0

theorem count_leaves_eq_sum
    (store : Store) (id : Nat) :
    store.cells.leaves.count (.handle id) = (store.cells.keys.map (store.holdings id)).sum := by
  rw [Heap.leaves, List.count_flatMap, Table.values, Table.keys, List.map_map, List.map_map]
  refine congrArg List.sum (List.map_congr_left ?_)
  rintro ⟨holder, cell⟩ entry
  have alive := Heap.value?_of_find? (Table.mem_entries_iff.mp entry)
  show (Holder.leaves cell.value).count (.handle id) = store.holdings id holder
  rw [holdings, alive, Node.holder_leaves, Node.count_leaves]
  rfl

namespace Mirror

theorem keys_perm
    (mirror : Mirror ρ kept [] store held store') :
    store'.cells.keys.Perm (store.cells.keys.map ρ) := by
  refine (List.perm_ext_iff_of_nodup store'.cells.keys_nodup
    (store.cells.keys_nodup.map mirror.injective)).mpr fun id => ?_
  rw [List.mem_map]
  constructor
  · intro present
    obtain ⟨cell, found⟩ := Table.find?_of_mem_keys present
    obtain ⟨old, node, same, alive⟩ :=
      image_of_not_stranded (Heap.value?_of_find? found) (mirror.not_stranded id)
    obtain ⟨cell, found, -⟩ := Option.map_eq_some_iff.mp alive
    exact ⟨old, Table.mem_keys_of_find? found, same⟩
  · rintro ⟨old, present, rfl⟩
    obtain ⟨cell, found⟩ := Table.find?_of_mem_keys present
    obtain ⟨cell, found, -⟩ :=
      Option.map_eq_some_iff.mp (mirror.values (Heap.value?_of_find? found))
    exact Table.mem_keys_of_find? found

theorem holdings
    (mirror : Mirror ρ kept guests store held store')
    {holder : Nat}
    (present : holder ∈ store.cells.keys)
    (id : Nat) :
    store'.holdings (ρ id) (ρ holder) = store.holdings id holder := by
  obtain ⟨cell, found⟩ := Table.find?_of_mem_keys present
  have alive := Heap.value?_of_find? found
  rw [Store.holdings, Store.holdings, alive, mirror.values alive, Option.map_some, Option.map_some,
    Node.positions_rename]
  exact congrArg (fun count => (some count).getD 0)
    (List.count_map_of_injective _ _ (Ref.rename_injective mirror.injective) (.object id))

/-- Where nothing is kept for guests, an object and its image have the same count. -/
theorem count
    (mirror : Mirror ρ kept [] store held store')
    (id : Nat) :
    store'.count (ρ id) = store.count id := by
  have outer : (held.map (Ref.rename ρ)).count (.object (ρ id)) = held.count (.object id) :=
    List.count_map_of_injective _ _ (Ref.rename_injective mirror.injective) (.object id)
  have inner : (store'.cells.keys.map (store'.holdings (ρ id))).sum =
      (store.cells.keys.map (store.holdings id)).sum := by
    rw [(mirror.keys_perm.map _).sum_nat, List.map_map]
    exact congrArg List.sum (List.map_congr_left fun holder present => mirror.holdings present id)
  rw [Store.count, Store.count, mirror.sound.counted.exact, mirror.sound'.counted.exact,
    Heap.held_eq_count, Heap.held_eq_count, List.append_nil, Ref.count_handles, Ref.count_handles,
    count_leaves_eq_sum, count_leaves_eq_sum, outer, inner]

/-- Where nothing is kept for guests, the mirror has the same objects under their new numbers. -/
theorem find?
    (mirror : Mirror ρ kept [] store held store')
    (id : Nat) :
    store'.cells.find? (ρ id) =
      (store.cells.find? id).map fun cell => ⟨cell.value.rename ρ, cell.count⟩ := by
  have counts := mirror.count id
  cases found : store.cells.find? id with
  | some cell =>
      obtain ⟨cell', found', same⟩ :=
        Option.map_eq_some_iff.mp (mirror.values (Heap.value?_of_find? found))
      rw [Store.count, Store.count, Heap.count_of_find? found, Heap.count_of_find? found'] at counts
      rw [found', Option.map_some, ← same, ← counts]
  | none =>
      cases found' : store'.cells.find? (ρ id) with
      | none => rfl
      | some cell' =>
          have positive := mirror.sound'.counted.positive _ _ found'
          rw [Store.count, Store.count, Heap.count_of_find? found',
            Heap.count_of_find?_eq_none found] at counts
          omega

end Mirror
end Store
end SharedPair
