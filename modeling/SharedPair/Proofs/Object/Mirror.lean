import SharedPair.Proofs.Heap.Survival
import SharedPair.Proofs.Object.Renaming
import SharedPair.Proofs.Session.Books

/-!
# A store and its mirror

Two stores are compared under a renaming of object numbers.  The second one mirrors
the first when it has all objects of the first, with the same contents.  It may have
more: guests, which are references that the first store knows nothing of, keep
objects alive in it that the first has freed, or never made.  Such an object is
stranded.  What makes the relation work is that every stranded object is doomed beside
what both stores hold: nothing but the guests keeps it, so nobody who has no guest can
come upon it, and it goes when they go.

Every operation that is done on both stores keeps the second a mirror of the first,
and so does every operation on guests alone.
-/

namespace SharedPair

open Heap (Doomed Holds)

namespace Store

variable {ρ : Nat → Nat} {kept : Nat → Prop} {store store' after after' : Store}
  {held held' guests guests' : List Ref}

/-! ## Values and holders -/

theorem has_object_iff
    {id : Nat} :
    store.Has (.object id) ↔ ∃ node, Heap.value? store.cells id = some node := by
  constructor
  · rintro ⟨cell, found⟩
    exact ⟨cell.value, Heap.value?_of_find? found⟩
  · rintro ⟨node, alive⟩
    obtain ⟨cell, found, -⟩ := Option.map_eq_some_iff.mp alive
    exact ⟨cell, found⟩

theorem holds_iff
    {holder id : Nat} :
    Holds store.cells holder id ↔
      ∃ node, Heap.value? store.cells holder = some node ∧ .object id ∈ node.positions := by
  refine exists_congr fun node => and_congr_right fun _ => ?_
  rw [Node.holder_leaves, Node.leaves_eq, List.mem_append, Ref.handle_mem_handles_iff]
  constructor
  · rintro (token | position)
    · obtain ⟨name, -, eq⟩ := List.mem_map.mp token
      cases eq
    · exact position
  · exact .inr

@[simp] theorem value?_acquire
    (store : Store) (ref : Ref) (id : Nat) :
    Heap.value? (store.acquire ref).cells id = Heap.value? store.cells id := by
  cases ref with
  | object target => exact Heap.value?_acquire _ _ _
  | _ => rfl

theorem Sound.used
    (sound : store.Sound held)
    {id : Nat} {node : Node}
    (alive : Heap.value? store.cells id = some node) :
    id < store.next := by
  obtain ⟨cell, found, -⟩ := Option.map_eq_some_iff.mp alive
  exact sound.fresh id (Table.mem_keys_of_find? found)

theorem Sound.perm
    (sound : store.Sound held)
    (same : held.Perm held') :
    store.Sound held' :=
  (Shift.still sound (Ref.handles_perm same)).sound

/-- A release of references leaves the objects that are not doomed beside the others. -/
theorem value?_release
    {waiting : List Ref} {id : Nat} {node : Node}
    (sound : store.Sound (waiting ++ held)) :
    Heap.value? (store.release waiting).1.cells id = some node ↔
      Heap.value? store.cells id = some node ∧
        ¬ Doomed store.cells (Ref.handles held) id := by
  have counted := sound.counted
  rw [Ref.handles_append] at counted
  exact Heap.value?_release_eq_some_iff counted

/-! ## The relation -/

/-- An object that only the second store has. -/
def Stranded (ρ : Nat → Nat) (store store' : Store) (id : Nat) : Prop :=
  (∃ node, Heap.value? store'.cells id = some node) ∧
    ∀ old, ρ old = id → Heap.value? store.cells old = none

/-- The second store has the objects of the first, under their new numbers.  Beside those it has
stranded objects only, which nothing keeps but the guests. -/
structure Mirror (ρ : Nat → Nat) (kept : Nat → Prop) (guests : List Ref) (store : Store)
    (held : List Ref) (store' : Store) : Prop where
  injective : Function.Injective ρ
  sound : store.Sound held
  sound' : store'.Sound (held.map (Ref.rename ρ) ++ guests)
  values : ∀ {id node}, Heap.value? store.cells id = some node →
    Heap.value? store'.cells (ρ id) = some (node.rename ρ)
  others : ∀ {id}, Stranded ρ store store' id →
    Doomed store'.cells (Ref.handles (held.map (Ref.rename ρ))) id
  /-- Some objects are known to have been stranded for a while. -/
  lasting : ∀ {id}, kept id → Stranded ρ store store' id

/-- New objects get corresponding numbers in both stores. -/
def InStep (ρ : Nat → Nat) (store store' : Store) : Prop :=
  ∀ i, ρ (store.next + i) = store'.next + i

namespace Mirror

theorem has
    (mirror : Mirror ρ kept guests store held store')
    {ref : Ref}
    (has : store.Has ref) :
    store'.Has (ref.rename ρ) := by
  cases ref with
  | object id =>
      obtain ⟨node, alive⟩ := has_object_iff.mp has
      exact has_object_iff.mpr ⟨_, mirror.values alive⟩
  | _ => trivial

theorem contents
    (mirror : Mirror ρ kept guests store held store')
    {ref : Ref}
    (has : store.Has ref) :
    store'.contents (ref.rename ρ) = (store.contents ref).rename ρ := by
  cases ref with
  | object id =>
      obtain ⟨node, alive⟩ := has_object_iff.mp has
      rw [Store.contents, alive]
      show (Heap.value? _ _).getD _ = _
      rw [mirror.values alive]
      rfl
  | _ => rfl

theorem holds
    (mirror : Mirror ρ kept guests store held store')
    {holder id : Nat}
    (holds : Holds store.cells holder id) :
    Holds store'.cells (ρ holder) (ρ id) := by
  obtain ⟨node, alive, member⟩ := holds_iff.mp holds
  refine holds_iff.mpr ⟨_, mirror.values alive, ?_⟩
  rw [Node.positions_rename]
  exact List.mem_map_of_mem member

/-- What is doomed in the mirror is doomed. -/
theorem doomed
    (mirror : Mirror ρ kept guests store held store')
    {some others : List Ref} {id : Nat}
    (doomed : Doomed store'.cells (Ref.handles (some.map (Ref.rename ρ) ++ others)) (ρ id)) :
    Doomed store.cells (Ref.handles some) id := by
  generalize eq : ρ id = id' at doomed
  induction doomed generalizing id with
  | intro free holders ih =>
      refine .intro (fun member => free ?_) fun holder holds => ?_
      · rw [Ref.handle_mem_handles_iff] at member ⊢
        exact List.mem_append_left _ (List.mem_map.mpr ⟨_, member, congrArg _ eq⟩)
      · exact ih (ρ holder) (eq ▸ mirror.holds holds) rfl

/-- What the first store has is not doomed in the mirror. -/
theorem not_doomed
    (mirror : Mirror ρ kept guests store held store')
    {id : Nat} {node : Node}
    (alive : Heap.value? store.cells id = some node)
    (others : List Ref) :
    ¬ Doomed store'.cells (Ref.handles (held.map (Ref.rename ρ) ++ others)) (ρ id) :=
  fun doomed => mirror.sound.counted.not_doomed alive (mirror.doomed doomed)

end Mirror

theorem not_stranded_of_has
    {ref : Ref} {id : Nat}
    (has : store.Has ref)
    (image : ref.rename ρ = .object id) :
    ¬ Stranded ρ store store' id := by
  rintro ⟨-, unknown⟩
  obtain ⟨old, rfl, same⟩ := Ref.rename_eq_object image
  obtain ⟨node, alive⟩ := has_object_iff.mp has
  rw [unknown old same] at alive
  cases alive

theorem image_of_not_stranded
    {id : Nat} {node : Node}
    (alive : Heap.value? store'.cells id = some node)
    (known : ¬ Stranded ρ store store' id) :
    ∃ old node, ρ old = id ∧ Heap.value? store.cells old = some node := by
  by_contra none
  refine known ⟨⟨node, alive⟩, fun old same => ?_⟩
  cases found : Heap.value? store.cells old with
  | none => rfl
  | some node => exact absurd ⟨old, node, same, found⟩ none

/-- No stranded object is held by what both stores hold. -/
theorem Mirror.unknown
    (sound : after.Sound held)
    {id : Nat}
    (stranded : Stranded ρ after after' id) :
    .handle id ∉ Ref.handles (held.map (Ref.rename ρ)) := by
  rw [Ref.handle_mem_handles_iff]
  intro member
  obtain ⟨ref, member, image⟩ := List.mem_map.mp member
  exact not_stranded_of_has (sound.has_of_mem member) image stranded

/-- A stranded object is held by stranded objects only. -/
theorem Stranded.holder
    (sound : after.Sound held)
    (values : ∀ {id node}, Heap.value? after.cells id = some node →
      Heap.value? after'.cells (ρ id) = some (node.rename ρ))
    {holder id : Nat}
    (stranded : Stranded ρ after after' id)
    (holds : Holds after'.cells holder id) :
    Stranded ρ after after' holder := by
  by_contra known
  obtain ⟨node', alive', member⟩ := holds_iff.mp holds
  obtain ⟨old, node, rfl, alive⟩ := image_of_not_stranded alive' known
  rw [values alive, Option.some.injEq] at alive'
  rw [← alive', Node.positions_rename] at member
  obtain ⟨ref, inside, image⟩ := List.mem_map.mp member
  exact not_stranded_of_has (sound.has_of_position alive inside) image stranded

namespace Mirror

/-- A change of both stores, or of the mirror alone, that leaves what is stranded as it is. -/
theorem calm
    (mirror : Mirror ρ kept guests store held store')
    (sound : after.Sound held')
    (sound' : after'.Sound (held'.map (Ref.rename ρ) ++ guests'))
    (values : ∀ {id node}, Heap.value? after.cells id = some node →
      Heap.value? after'.cells (ρ id) = some (node.rename ρ))
    (same : ∀ id, Stranded ρ after after' id ↔ Stranded ρ store store' id)
    (still : ∀ id, Stranded ρ after after' id →
      Heap.value? after'.cells id = Heap.value? store'.cells id) :
    Mirror ρ kept guests' after held' after' where
  injective := mirror.injective
  sound := sound
  sound' := sound'
  values := values
  others {id} stranded := by
    have doomed := mirror.others ((same id).mp stranded)
    induction doomed with
    | @intro id _ _ ih =>
        refine .intro (unknown sound stranded) fun holder holds => ?_
        have above := stranded.holder sound values holds
        obtain ⟨node, alive, member⟩ := holds_iff.mp holds
        rw [still holder above] at alive
        exact ih holder (holds_iff.mpr ⟨node, alive, member⟩) above
  lasting known := (same _).mpr (mirror.lasting known)

/-- The references that are held may be counted in any order. -/
theorem perm
    (mirror : Mirror ρ kept guests store held store')
    (same : held.Perm held') (same' : guests.Perm guests') :
    Mirror ρ kept guests' store held' store' :=
  mirror.calm (mirror.sound.perm same)
    (mirror.sound'.perm ((same.map _).append same')) mirror.values
    (fun _ => Iff.rfl) fun _ _ => rfl

/-- What is there in any case may be held as well. -/
theorem plain
    (mirror : Mirror ρ kept guests store held store')
    {ref : Ref}
    (plain : ref.leaves = []) (plain' : (ref.rename ρ).leaves = []) :
    Mirror ρ kept guests store (ref :: held) store' := by
  refine mirror.calm (Shift.still mirror.sound ?_).sound (Shift.still mirror.sound' ?_).sound
    mirror.values (fun _ => Iff.rfl) fun _ _ => rfl
  · rw [Ref.handles_cons, plain]
    exact List.Perm.refl _
  · rw [List.map_cons, List.cons_append, Ref.handles_cons, plain']
    exact List.Perm.refl _

theorem plain_guest
    (mirror : Mirror ρ kept guests store held store')
    {ref : Ref}
    (plain : ref.leaves = []) :
    Mirror ρ kept (ref :: guests) store held store' := by
  refine mirror.calm mirror.sound (Shift.still mirror.sound' ?_).sound
    mirror.values (fun _ => Iff.rfl) fun _ _ => rfl
  refine .trans (.of_eq ?_) (Ref.handles_perm List.perm_middle.symm)
  rw [Ref.handles_cons, plain]
  rfl

/-! ## Operations on both stores -/

theorem acquire
    (mirror : Mirror ρ kept guests store held store')
    {ref : Ref}
    (has : store.Has ref) :
    Mirror ρ kept guests (store.acquire ref) (ref :: held) (store'.acquire (ref.rename ρ)) := by
  refine mirror.calm (Shift.acquire mirror.sound has).sound
    (Shift.acquire mirror.sound' (mirror.has has)).sound ?_ ?_ ?_
  · intro id node alive
    rw [value?_acquire] at alive ⊢
    exact mirror.values alive
  · intro id
    simp only [Stranded, value?_acquire]
  · intro id _
    rw [value?_acquire]

end Mirror

/-- Making something in both stores: the two references correspond, and so do the stores with one
more reference held. -/
structure Makes (ρ : Nat → Nat) (kept : Nat → Prop) (guests held : List Ref)
    (x y : Ref × Store) : Prop where
  ref : y.1 = x.1.rename ρ
  mirror : Mirror ρ kept guests x.2 (x.1 :: held) y.2
  inStep : InStep ρ x.2 y.2

namespace Mirror

theorem inStep_acquire
    {ref ref' : Ref}
    (inStep : InStep ρ store store') :
    InStep ρ (store.acquire ref) (store'.acquire ref') := by
  cases ref <;> cases ref' <;> exact inStep

theorem inStep_write
    {ref ref' : Ref} {node node' : Node}
    (inStep : InStep ρ store store') :
    InStep ρ (store.write ref node) (store'.write ref' node') := by
  cases ref <;> cases ref' <;> exact inStep

theorem value?_allocate
    (store : Store) (node : Node) (id : Nat) :
    Heap.value? (store.allocate node).2.cells id =
      if store.next = id then some node else Heap.value? store.cells id :=
  Heap.value?_allocate _ _ _ _

theorem value?_next
    (sound : store.Sound held) :
    Heap.value? store.cells store.next = none := by
  rw [Heap.value?, sound.find?_next, Option.map_none]

/-- The new object of the mirror is the image of the new one. -/
theorem stranded_allocate_iff
    {node node' : Node} {id : Nat}
    (sound' : store'.Sound held')
    (next : ρ store.next = store'.next) :
    Stranded ρ (store.allocate node).2 (store'.allocate node').2 id ↔
      Stranded ρ store store' id := by
  simp only [Stranded, value?_allocate]
  constructor
  · rintro ⟨⟨content, alive⟩, unknown⟩
    by_cases h : store'.next = id
    · have made := unknown store.next (next.trans h)
      rw [if_pos rfl] at made
      cases made
    · rw [if_neg h] at alive
      refine ⟨⟨content, alive⟩, fun old same => ?_⟩
      have gone := unknown old same
      rwa [if_neg fun eq : store.next = old => h (next.symm.trans (eq ▸ same))] at gone
  · rintro ⟨⟨content, alive⟩, unknown⟩
    have other : store'.next ≠ id := by
      rintro rfl
      rw [value?_next sound'] at alive
      cases alive
    refine ⟨⟨content, by rw [if_neg other, alive]⟩, fun old same => ?_⟩
    rw [if_neg fun eq : store.next = old => other (next.symm.trans (eq ▸ same))]
    exact unknown old same

theorem allocate
    (node : Node)
    (mirror : Mirror ρ kept guests store (node.positions ++ held) store')
    (inStep : InStep ρ store store') :
    Makes ρ kept guests held (store.allocate node) (store'.allocate (node.rename ρ)) := by
  have next : ρ store.next = store'.next := inStep 0
  have sound' :
      store'.Sound ((node.rename ρ).positions ++ (held.map (Ref.rename ρ) ++ guests)) := by
    have sound' := mirror.sound'
    rwa [List.map_append, List.append_assoc, ← Node.positions_rename] at sound'
  have image : (store'.allocate (node.rename ρ)).1 = (store.allocate node).1.rename ρ :=
    congrArg Ref.object next.symm
  refine ⟨image, ?_, fun i => ?_⟩
  · refine mirror.calm (Shift.allocate node mirror.sound).sound ?_ ?_
      (fun _ => stranded_allocate_iff sound' next) ?_
    · rw [List.map_cons, ← image]
      exact (Shift.allocate (node.rename ρ) sound').sound
    · intro id content alive
      rw [value?_allocate] at alive ⊢
      by_cases h : store.next = id
      · rw [if_pos h, Option.some.injEq] at alive
        rw [← h, if_pos next.symm, alive]
      · rw [if_neg h] at alive
        rw [if_neg fun same => h (mirror.injective (next.trans same))]
        exact mirror.values alive
    · rintro id ⟨-, unknown⟩
      rw [value?_allocate, if_neg]
      intro h
      have made := unknown store.next (next.trans h)
      rw [value?_allocate, if_pos rfl] at made
      cases made
  · have later := inStep (i + 1)
    show ρ (store.next + 1 + i) = store'.next + 1 + i
    rw [Nat.add_assoc, Nat.add_assoc, Nat.add_comm 1]
    exact later

theorem exchange
    {target value : Ref} {change : Node.Change}
    (mirror : Mirror ρ kept guests store (value :: held) store')
    (exchange : (store.contents target).Exchange value change) :
    Mirror ρ kept guests (store.write target change.node) (change.leftover ++ held)
      (store'.write (target.rename ρ) (change.node.rename ρ)) := by
  obtain ⟨id, cell, rfl, found, -⟩ := object_of_not_fixed exchange.changes
  have alive := Heap.value?_of_find? found
  have exchange' : (store'.contents ((Ref.object id).rename ρ)).Exchange (value.rename ρ)
      (change.rename ρ) := by
    rw [mirror.contents (has_object_iff.mpr ⟨_, alive⟩)]
    exact exchange.rename
  refine mirror.calm (shift_exchange mirror.sound exchange).sound ?_ ?_ ?_ ?_
  · have written := (shift_exchange mirror.sound' exchange').sound
    rw [List.map_append, List.append_assoc]
    exact written
  · intro k node written
    rw [write, Heap.value?_write] at written
    rw [Ref.rename, write, Heap.value?_write]
    by_cases h : id = k
    · subst h
      rw [if_pos rfl, alive, Option.map_some, Option.some.injEq] at written
      rw [if_pos rfl, mirror.values alive, Option.map_some, written]
    · rw [if_neg h] at written
      rw [if_neg fun same => h (mirror.injective same)]
      exact mirror.values written
  · intro k
    simp only [Stranded, Ref.rename, write, Heap.value?_write]
    refine and_congr ?_ (forall_congr' fun old => forall_congr' fun _ => ?_)
    · by_cases h : ρ id = k
      · subst h
        simp [mirror.values alive]
      · simp [h]
    · by_cases h : id = old
      · subst h
        simp [alive]
      · simp [h]
  · rintro k ⟨-, unknown⟩
    rw [Ref.rename, write, Heap.value?_write, if_neg]
    intro h
    have gone := unknown id h
    rw [write, Heap.value?_write, if_pos rfl, alive] at gone
    cases gone

/-- What holds the image of an object, and is an image itself, holds it in the first store. -/
theorem holds_of_image
    (mirror : Mirror ρ kept guests store held store')
    {holder id : Nat} {node : Node}
    (alive : Heap.value? store.cells holder = some node)
    (holds : Holds store'.cells (ρ holder) (ρ id)) :
    Holds store.cells holder id := by
  obtain ⟨node', alive', member⟩ := holds_iff.mp holds
  rw [mirror.values alive, Option.some.injEq] at alive'
  rw [← alive', Node.positions_rename] at member
  obtain ⟨ref, inside, image⟩ := List.mem_map.mp member
  obtain rfl : ref = .object id := Ref.rename_injective mirror.injective image
  exact holds_iff.mpr ⟨node, alive, inside⟩

/-- What the first store frees and the mirror keeps is stranded there. -/
theorem doomed_of_freed
    {waiting : List Ref}
    (mirror : Mirror ρ kept guests store (waiting ++ held) store')
    {id : Nat}
    (doomed : Doomed store.cells (Ref.handles held) id) :
    Doomed (store'.release (waiting.map (Ref.rename ρ))).1.cells
      (Ref.handles (held.map (Ref.rename ρ))) (ρ id) := by
  induction doomed with
  | @intro id free _ ih =>
      refine .intro (fun member => free ?_) fun holder holds => ?_
      · rw [Ref.handle_mem_handles_iff] at member ⊢
        obtain ⟨ref, inside, image⟩ := List.mem_map.mp member
        obtain rfl : ref = .object id := Ref.rename_injective mirror.injective image
        exact inside
      · have before : Holds store'.cells holder (ρ id) := holds.of_release
        obtain ⟨node', alive'⟩ := before.alive
        by_cases stranded : Stranded ρ store store' holder
        · refine (mirror.others stranded).mono (fun leaf member => ?_) fun _ _ => Holds.of_release
          rw [List.map_append, Ref.handles_append]
          exact List.mem_append_right _ member
        · obtain ⟨old, node, rfl, alive⟩ := image_of_not_stranded alive' stranded
          exact ih old (mirror.holds_of_image alive before)

/-- A release in both stores.  What was stranded before it stays, because the guests do. -/
theorem release
    {waiting : List Ref}
    (mirror : Mirror ρ kept guests store (waiting ++ held) store') :
    Mirror ρ kept guests (store.release waiting).1 held
      (store'.release (waiting.map (Ref.rename ρ))).1 := by
  have sound' :
      store'.Sound (waiting.map (Ref.rename ρ) ++ (held.map (Ref.rename ρ) ++ guests)) := by
    have sound' := mirror.sound'
    rwa [List.map_append, List.append_assoc] at sound'
  refine ⟨mirror.injective, (Shift.release mirror.sound).sound, (Shift.release sound').sound,
    ?_, ?_, ?_⟩
  · intro id node survives
    obtain ⟨alive, spared⟩ := (value?_release mirror.sound).mp survives
    exact (value?_release sound').mpr
      ⟨mirror.values alive, fun doomed => spared (mirror.doomed doomed)⟩
  · rintro id ⟨⟨node, survives⟩, unknown⟩
    obtain ⟨alive', -⟩ := (value?_release sound').mp survives
    by_cases stranded : Stranded ρ store store' id
    · refine (mirror.others stranded).mono (fun leaf member => ?_) fun _ _ => Holds.of_release
      rw [List.map_append, Ref.handles_append]
      exact List.mem_append_right _ member
    · obtain ⟨old, node, rfl, alive⟩ := image_of_not_stranded alive' stranded
      refine mirror.doomed_of_freed (Classical.byContradiction fun spared => ?_)
      have survives := (value?_release mirror.sound).mpr ⟨alive, spared⟩
      rw [unknown old rfl] at survives
      cases survives
  · intro id known
    obtain ⟨⟨node, alive⟩, unknown⟩ := mirror.lasting known
    refine ⟨⟨node, (value?_release sound').mpr ⟨alive, fun doomed => ?_⟩⟩, fun old same => ?_⟩
    · have both := (mirror.others (mirror.lasting known)).both doomed
      refine mirror.sound'.counted.not_doomed alive
        (both.mono (fun leaf member => ?_) fun _ _ holds => holds)
      rw [Ref.handles_append] at member
      rcases List.mem_append.mp member with first | guest
      · exact List.mem_append_left _ first
      · rw [Ref.handles_append (held.map _)]
        exact List.mem_append_right _ (List.mem_append_right _ guest)
    · cases survives : Heap.value? (store.release waiting).1.cells old with
      | none => rfl
      | some node =>
          have before := ((value?_release mirror.sound).mp survives).1
          rw [unknown old same] at before
          cases before

/-! ## Guests -/

theorem acquire_guest
    (mirror : Mirror ρ kept guests store held store')
    {ref : Ref}
    (has : store'.Has ref) :
    Mirror ρ kept (ref :: guests) store held (store'.acquire ref) := by
  refine mirror.calm mirror.sound
    ((Shift.acquire mirror.sound' has).sound.perm List.perm_middle.symm) ?_ ?_ ?_
  · intro id node alive
    rw [value?_acquire]
    exact mirror.values alive
  · intro id
    simp only [Stranded, value?_acquire]
  · intro id _
    rw [value?_acquire]

/-- A new object is held by nobody but its maker. -/
theorem doomed_next
    {node : Node} {others : List Ref}
    (sound : store.Sound (node.positions ++ held))
    (some : ∀ ref ∈ others, ref ∈ held) :
    Doomed (store.allocate node).2.cells (Ref.handles others) store.next := by
  have unheld : ¬ store.Has (.object store.next) := by
    intro has
    obtain ⟨content, alive⟩ := has_object_iff.mp has
    rw [value?_next sound] at alive
    cases alive
  refine .intro (fun member => unheld ?_) fun holder above => ?_
  · rw [Ref.handle_mem_handles_iff] at member
    exact sound.has_of_mem (List.mem_append_right _ (some _ member))
  · obtain ⟨content, alive, member⟩ := holds_iff.mp above
    rw [value?_allocate] at alive
    by_cases h : store.next = holder
    · rw [if_pos h, Option.some.injEq] at alive
      exact absurd (sound.has_of_mem (List.mem_append_left _ (alive ▸ member))) unheld
    · rw [if_neg h] at alive
      exact absurd (sound.has_of_position alive member) unheld

/-- An object that is made of guests is a guest. -/
theorem allocate_guest
    (node : Node)
    (mirror : Mirror ρ kept (node.positions ++ guests) store held store') :
    Mirror ρ kept ((store'.allocate node).1 :: guests) store held (store'.allocate node).2 := by
  have sound' : store'.Sound (node.positions ++ (held.map (Ref.rename ρ) ++ guests)) :=
    mirror.sound'.perm (List.perm_append_comm_assoc _ _ _)
  have other : ∀ {id node}, Heap.value? store'.cells id = some node → store'.next ≠ id := by
    rintro id node alive rfl
    rw [value?_next sound'] at alive
    cases alive
  have fresh : Doomed (store'.allocate node).2.cells (Ref.handles (held.map (Ref.rename ρ)))
      store'.next := doomed_next sound' fun _ member => List.mem_append_left _ member
  refine ⟨mirror.injective, mirror.sound,
    (Shift.allocate node sound').sound.perm List.perm_middle.symm, ?_, ?_, ?_⟩
  · intro id content alive
    have image := mirror.values alive
    rw [value?_allocate, if_neg (other image), image]
  · rintro id ⟨⟨content, alive⟩, unknown⟩
    by_cases h : store'.next = id
    · exact h ▸ fresh
    · rw [value?_allocate, if_neg h] at alive
      refine (mirror.others ⟨⟨content, alive⟩, unknown⟩).transfer ⟨content, alive⟩
        fun k doomed _ => ⟨doomed.free, fun holder above => ?_⟩
      obtain ⟨content, alive, member⟩ := holds_iff.mp above
      rw [value?_allocate] at alive
      by_cases made : store'.next = holder
      · exact .inr (made ▸ fresh)
      · rw [if_neg made] at alive
        exact .inl (holds_iff.mpr ⟨content, alive, member⟩)
  · intro id known
    obtain ⟨⟨content, alive⟩, unknown⟩ := mirror.lasting known
    exact ⟨⟨content, by rw [value?_allocate, if_neg (other alive), alive]⟩, unknown⟩

/-- When guests are given up, nothing happens to what the first store has. -/
theorem release_guests
    {going : List Ref}
    (mirror : Mirror ρ kept (going ++ guests) store held store') :
    Mirror ρ (fun _ => False) guests store held (store'.release going).1 := by
  have sound' : store'.Sound (going ++ (held.map (Ref.rename ρ) ++ guests)) :=
    mirror.sound'.perm (List.perm_append_comm_assoc _ _ _)
  refine ⟨mirror.injective, mirror.sound, (Shift.release sound').sound, ?_, ?_, ?_⟩
  · intro id node alive
    exact (value?_release sound').mpr ⟨mirror.values alive, mirror.not_doomed alive guests⟩
  · rintro id ⟨⟨node, survives⟩, unknown⟩
    obtain ⟨alive, -⟩ := (value?_release sound').mp survives
    exact (mirror.others ⟨⟨node, alive⟩, unknown⟩).mono (fun _ member => member)
      fun _ _ => Holds.of_release
  · exact False.elim

end Mirror
end Store
end SharedPair
