import Mathlib.Data.List.Nodup
import SharedPair.Proofs.Heap.Images
import SharedPair.Proofs.Script.Ownership
import SharedPair.Proofs.Translation.Scheme

/-!
# A session told as a script

A state of a script tells a state of a session when the cells of the script are the
objects of the session under their names, what is in a slot of the session is in the
same slot as a handle, and no other slot is used.

Such states have the same counts.  It takes little to show that two states are of this
kind: what the cells hold if they are alive, and what the slots hold.  The rest is
settled by exact counts, since a pair is made after its items and so nothing in such a
session is circular.
-/

namespace SharedPair

variable {σ : Nat → String} {names : List String}

/-- A reference, as the value of a slot or an item of a pair. -/
def Ref.picture (σ : Nat → String) : Ref → Value
  | .object id => .handle .acrossThreads (σ id)
  | _ => .scalar .unit

/-- An object, as the value of a cell. -/
def Node.picture (σ : Nat → String) : Node → Value
  | .tuple [x, y] => .pair (x.picture σ) (y.picture σ)
  | _ => .scalar .unit

/-- What the objects of a session that is told are: opaque things, by the names of their cells, and
pairs of older objects. -/
inductive Node.Plain (σ : Nat → String) (names : List String) (id : Nat) : Node → Prop
  | named
      (opaque_name : σ id ∈ names) :
      Plain σ names id (.named (σ id))
  | pair
      {x y : Nat}
      (older : x < id) (older' : y < id)
      (other : σ id ∉ names) :
      Plain σ names id (.tuple [.object x, .object y])

theorem Ref.targets_picture
    (ref : Ref) :
    Leaf.targets (ref.picture σ).leaves = (Leaf.targets ref.leaves).map σ := by
  cases ref <;> rfl

theorem Node.faithful_of_plain
    {content : Nat → Option Node}
    (plain : ∀ {id node}, content id = some node → node.Plain σ names id) :
    Heap.Faithful σ (Node.picture σ) id content where
  leads {id node} found := by
    cases plain found with
    | named _ =>
        rw [Value.holder_leaves, picture, Value.leaves]
        · rfl
        · exact fun _ _ => nofun
    | @pair x y _ _ _ =>
        rw [Value.holder_leaves, picture, Value.leaves, Leaf.targets_append,
          Ref.targets_picture, Ref.targets_picture]
        rfl
  descends {id node} found k member := by
    cases plain found with
    | named _ => cases member
    | @pair x y older older' _ =>
        rcases List.mem_pair.mp member with rfl | rfl
        · exact older
        · exact older'

/-! ## Slots -/

/-- Whether slots of a script hold what those of a session hold, as handles.  The slots that the
translation works in are empty. -/
structure SlotsAlike (scheme : Scheme) (σ : Nat → String) (slots : Table String Ref)
    (slots' : Table String Value) : Prop where
  same : ∀ name, slots'.find? name = (slots.find? name).map (Ref.picture σ)
  objects : ∀ {name ref}, slots.find? name = some ref → ∃ id, ref = .object id
  free : ∀ name ∈ [scheme.pairSlot, scheme.cellSlot], slots.find? name = none

namespace SlotsAlike

variable {scheme : Scheme} {slots : Table String Ref} {slots' : Table String Value}

theorem insert
    (alike : SlotsAlike scheme σ slots slots')
    {name : String}
    (other : name ∉ [scheme.pairSlot, scheme.cellSlot])
    (id : Nat) :
    SlotsAlike scheme σ (slots.insert name (.object id))
      (slots'.insert name (.handle .acrossThreads (σ id))) where
  same k := by
    rw [Table.find?_insert, Table.find?_insert, alike.same]
    split <;> rfl
  objects {k ref} found := by
    rw [Table.find?_insert] at found
    split at found
    · cases found
      exact ⟨id, rfl⟩
    · exact alike.objects found
  free k member := by
    rw [Table.find?_insert, if_neg (ne_of_mem_of_not_mem member other).symm]
    exact alike.free k member

theorem erase
    (alike : SlotsAlike scheme σ slots slots')
    (name : String) :
    SlotsAlike scheme σ (slots.erase name) (slots'.erase name) where
  same k := by
    rw [Table.find?_erase, Table.find?_erase, alike.same]
    split <;> rfl
  objects {k ref} found := by
    rw [Table.find?_erase] at found
    split at found
    · cases found
    · exact alike.objects found
  free k member := by
    rw [Table.find?_erase, alike.free k member, ite_self]

/-- Only what is in the slots counts. -/
theorem congr
    {slots'' : Table String Value}
    (alike : SlotsAlike scheme σ slots slots')
    (same : ∀ name, slots''.find? name = slots'.find? name) :
    SlotsAlike scheme σ slots slots'' where
  same name := (same name).trans (alike.same name)
  objects := alike.objects
  free := alike.free

theorem mem_keys_iff
    (alike : SlotsAlike scheme σ slots slots')
    (name : String) :
    name ∈ slots'.keys ↔ name ∈ slots.keys := by
  rw [← not_iff_not, ← Table.find?_eq_none_iff, ← Table.find?_eq_none_iff, alike.same,
    Option.map_eq_none_iff]

/-- The slots lead to the cells of the same objects. -/
theorem targets_perm
    (alike : SlotsAlike scheme σ slots slots') :
    (Leaf.targets (Value.leavesOfAll slots'.values)).Perm
      ((Leaf.targets (Ref.handles slots.values)).map σ) := by
  have values : (slots'.values.map id).Perm (slots.values.map (Ref.picture σ)) := by
    refine Table.map_values_perm Function.injective_id (fun name => ?_) fun _ => ⟨_, rfl⟩
    rw [Option.map_id_fun]
    exact alike.same name
  have moved := values.flatMap_right fun value => Leaf.targets value.leaves
  rw [List.map_id, List.flatMap_map] at moved
  simp only [Ref.targets_picture] at moved
  rw [Value.leavesOfAll_eq_flatMap, Leaf.targets, List.filterMap_flatMap, Ref.handles, Leaf.targets,
    List.filterMap_flatMap, List.map_flatMap]
  exact moved

end SlotsAlike

/-! ## States -/

/-- Whether a state of a script tells a state of a session, in which the opaque things have given
names. -/
structure Tells (scheme : Scheme) (σ : Nat → String) (names : List String) (s : Session.State)
    (t : Script.State) : Prop where
  sound : s.store.Sound s.roots
  owned : t.Owned
  plain : ∀ {id node}, Heap.value? s.store.cells id = some node → node.Plain σ names id
  image : Heap.Image σ (Node.picture σ) (Heap.value? s.store.cells) (Heap.value? t.memory.cells)
  slots : SlotsAlike scheme σ s.slots t.slots
  known : ∀ cell ∈ t.founded, ∃ id < s.store.next, σ id = cell
  filter : t.filter = s.filter

namespace Tells

variable {scheme : Scheme} {s s' : Session.State} {t t' : Script.State}

theorem initial
    (filter : Filter) :
    Tells scheme σ names (.initial filter) (.initial filter) where
  sound := Session.State.sound_initial filter
  owned := Script.State.owned_initial filter
  plain found := by
    cases found
  image := ⟨fun _ => rfl, fun found => by cases found⟩
  slots := ⟨fun _ => rfl, fun found => (by cases found), fun _ _ => rfl⟩
  known _ member := by
    cases member
  filter := rfl

/-- What the cells of two states hold, if they are alive, and what the slots hold, is enough to show
that one tells the other. -/
theorem of_content
    {content : Nat → Option Node} {content' : String → Option Value}
    (distinct : Function.Injective σ)
    (image : Heap.Image σ (Node.picture σ) content content')
    (plain : ∀ {id node}, content id = some node → node.Plain σ names id)
    (sound : s.store.Sound s.roots) (owned : t.Owned)
    (within : Heap.Within content s.store.cells) (within' : Heap.Within content' t.memory.cells)
    (slots : SlotsAlike scheme σ s.slots t.slots)
    (known : ∀ cell ∈ t.founded, ∃ id < s.store.next, σ id = cell)
    (filter : t.filter = s.filter) :
    Tells scheme σ names s t where
  sound := sound
  owned := owned
  plain alive := plain (within _ _ alive)
  image := image.settle distinct (Node.faithful_of_plain plain) within within' sound.counted
    owned.counted slots.targets_perm
  slots := slots
  known := known
  filter := filter

/-- A new object that is plain joins the others. -/
theorem plain_update
    (tells : Tells scheme σ names s t)
    {number : Nat} {node : Node}
    (plain : node.Plain σ names number)
    {id : Nat} {node' : Node}
    (found : Function.update (Heap.value? s.store.cells) number (some node) id = some node') :
    node'.Plain σ names id := by
  by_cases same : id = number
  · subst same
    rw [Function.update_self] at found
    cases found
    exact plain
  · rw [Function.update_of_ne same] at found
    exact tells.plain found

/-- **The counts of the cells are those of their objects.** -/
theorem count
    (tells : Tells scheme σ names s t)
    (distinct : Function.Injective σ)
    (id : Nat) :
    Heap.count t.memory.cells (σ id) = s.store.count id :=
  tells.image.count distinct (Node.faithful_of_plain tells.plain) tells.sound.counted
    tells.owned.counted tells.slots.targets_perm id

/-! ## What an entry tells -/

theorem alive_of_find?
    (tells : Tells scheme σ names s t)
    {name : String} {id : Nat}
    (found : s.slots.find? name = some (.object id)) :
    ∃ node, Heap.value? s.store.cells id = some node := by
  obtain ⟨cell, alive⟩ := tells.sound.has_of_mem (Table.mem_values_iff.mpr ⟨name, found⟩)
  exact ⟨cell.value, Heap.value?_of_find? alive⟩

/-- An entry of the session tells of every slot. -/
theorem mem_session_counts_iff
    (tells : Tells scheme σ names s t)
    {name : String} {n : Nat} :
    (name, n) ∈ s.counts ↔
      ∃ id, s.slots.find? name = some (.object id) ∧ s.store.count id = n := by
  have countOf : ∀ {name id}, s.slots.find? name = some (.object id) →
      s.countOf? (.object id) = some (s.store.count id) := by
    intro name id found
    obtain ⟨node, alive⟩ := tells.alive_of_find? found
    rw [Session.State.countOf?, Store.contents, alive]
    cases tells.plain alive <;> rfl
  rw [Session.State.counts, List.mem_filterMap]
  constructor
  · rintro ⟨⟨name, ref⟩, entry, eq⟩
    have found := Table.mem_entries_iff.mp entry
    obtain ⟨id, rfl⟩ := tells.slots.objects found
    simp only [countOf found, Option.map_some, Option.some.injEq, Prod.mk.injEq] at eq
    obtain ⟨rfl, rfl⟩ := eq
    exact ⟨id, found, rfl⟩
  · rintro ⟨id, found, rfl⟩
    refine ⟨(name, .object id), Table.mem_entries_iff.mpr found, ?_⟩
    simp only [countOf found, Option.map_some]

/-- **References are handles.**  The references that a session tells of for a slot are the handles
to the cell that the same slot of the script leads to. -/
theorem mem_counts_iff
    (tells : Tells scheme σ names s t)
    (distinct : Function.Injective σ)
    {name : String} {n : Nat} :
    (name, n) ∈ s.counts ↔
      ∃ cell, t.slots.find? name = some (.handle .acrossThreads cell) ∧ (cell, n) ∈ t.counts := by
  rw [tells.mem_session_counts_iff]
  constructor
  · rintro ⟨id, found, rfl⟩
    obtain ⟨node, alive⟩ := tells.alive_of_find? found
    have living := tells.image.values id
    rw [alive] at living
    obtain ⟨⟨value, n⟩, there, -⟩ := Option.map_eq_some_iff.mp living
    have counted := tells.count distinct id
    rw [Heap.count_of_find? there] at counted
    refine ⟨σ id, ?_, List.mem_map.mpr ⟨_, Table.mem_entries_iff.mpr there, ?_⟩⟩
    · rw [tells.slots.same, found]
      rfl
    · exact congrArg (Prod.mk (σ id)) counted
  · rintro ⟨cell, held, entry⟩
    rw [tells.slots.same] at held
    obtain ⟨ref, found, same⟩ := Option.map_eq_some_iff.mp held
    obtain ⟨id, rfl⟩ := tells.slots.objects found
    cases same
    obtain ⟨⟨_, value, count⟩, there, eq⟩ := List.mem_map.mp entry
    cases eq
    refine ⟨id, found, ?_⟩
    rw [← tells.count distinct, Heap.count_of_find? (Table.mem_entries_iff.mp there)]

/-! ## What is freed -/

/-- The names of the opaque things that are there are the opaque names of the living cells. -/
theorem count_things
    (tells : Tells scheme σ names s t)
    (distinct : Function.Injective σ)
    {name : String}
    (opaque_name : name ∈ names) :
    (s.store.things.map Prod.snd).count name = t.memory.cells.keys.count name := by
  have named : ∀ {id name}, (id, name) ∈ s.store.things → σ id = name ∧ name ∈ names := by
    intro id name member
    cases tells.plain (Store.mem_things_iff.mp member) with
    | named opaque_name => exact ⟨rfl, opaque_name⟩
  have nodup : (s.store.things.map Prod.snd).Nodup := by
    refine s.store.nodup_things.map_on ?_
    rintro ⟨id, name⟩ member ⟨id', name'⟩ member' rfl
    have same := (named member).1.trans (named member').1.symm
    rw [distinct same]
  rw [nodup.count, t.memory.cells.keys_nodup.count]
  refine if_congr ⟨fun member => ?_, fun member => ?_⟩ rfl rfl
  · obtain ⟨⟨id, name⟩, inside, rfl⟩ := List.mem_map.mp member
    have living := tells.image.values id
    rw [(named inside).1, Store.mem_things_iff.mp inside] at living
    obtain ⟨cell, there, -⟩ := Option.map_eq_some_iff.mp living
    exact Table.mem_keys_of_find? there
  · obtain ⟨cell, there⟩ := Table.find?_of_mem_keys member
    have living := Heap.value?_of_find? there
    obtain ⟨id, rfl⟩ := tells.image.named living
    rw [tells.image.values] at living
    obtain ⟨node, alive, -⟩ := Option.map_eq_some_iff.mp living
    refine List.mem_map.mpr ⟨(id, σ id), Store.mem_things_iff.mpr ?_, rfl⟩
    cases tells.plain alive with
    | named _ => exact alive
    | pair _ _ other => exact absurd opaque_name other

theorem mem_names_of_things
    (tells : Tells scheme σ names s t)
    {name : String}
    (member : name ∈ s.store.things.map Prod.snd) :
    name ∈ names := by
  obtain ⟨⟨id, name⟩, inside, rfl⟩ := List.mem_map.mp member
  cases tells.plain (Store.mem_things_iff.mp inside) with
  | named opaque_name => exact opaque_name

/-- **What is freed.**  Where one state of a session is told before and one after, the opaque things
that are freed meanwhile are the cells of their names that are. -/
theorem freed_perm
    (tells : Tells scheme σ names s t) (tells' : Tells scheme σ names s' t')
    (distinct : Function.Injective σ)
    {born freed frees : List String}
    (shift : s.store.Shift s.roots born freed s'.store s'.roots)
    (balance : ∀ id, t'.founded.count id + t.memory.cells.keys.count id =
      t.founded.count id + t'.memory.cells.keys.count id + frees.count id)
    (written : ∀ name ∈ born, name ∈ names)
    (births : ∀ name ∈ names, t'.founded.count name = t.founded.count name + born.count name) :
    freed.Perm (frees.filter fun id => decide (id ∈ names)) := by
  have things := shift.names_things
  refine List.perm_iff_count.mpr fun name => ?_
  by_cases opaque_name : name ∈ names
  · have total := things.count_eq name
    have cells := balance name
    rw [List.count_append, List.count_append, tells.count_things distinct opaque_name,
      tells'.count_things distinct opaque_name] at total
    rw [births name opaque_name] at cells
    have kept : (frees.filter fun id => decide (id ∈ names)).count name = frees.count name :=
      List.count_filter (p := fun id => decide (id ∈ names)) (decide_eq_true opaque_name)
    omega
  · have absent : name ∉ freed := by
      intro member
      rcases List.mem_append.mp (things.mem_iff.mpr (List.mem_append_left _ member)) with old | new
      · exact opaque_name (tells.mem_names_of_things old)
      · exact opaque_name (written name new)
    rw [List.count_eq_zero.mpr absent, List.count_eq_zero.mpr]
    intro member
    exact opaque_name (of_decide_eq_true (List.mem_filter.mp member).2)

end Tells
end SharedPair
