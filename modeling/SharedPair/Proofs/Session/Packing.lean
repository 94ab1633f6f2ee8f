import SharedPair.Proofs.Heap.Cycles
import SharedPair.Proofs.Session.Comparison
import SharedPair.Proofs.Session.Taking

/-!
# What a call adds

A call that succeeds adds a pair to what is there.  The pair has one reference, that of
its slot, and holds one reference to each of its items; every other reference that the
call took for itself is given back within the step.

The old object of the slot is given up when the pair is in place.  It may be one of the
arguments, or hold one: the pair holds them by then, and what they lead to lives on.
-/

namespace SharedPair

namespace Store

variable {store : Store} {held : List Ref} {node : Node}

/-- Nothing that is there refers to a new object. -/
theorem not_mem_positions_of_allocate
    (sound : store.Sound held) (items : ∀ ref ∈ node.positions, ref ∈ held)
    {k : Nat} {other : Node}
    (alive : Heap.value? (store.allocate node).2.cells k = some other) :
    .object store.next ∉ other.positions := by
  intro member
  have has : store.Has (.object store.next) := by
    have made : Heap.value? (Heap.allocate store.cells store.next node) k = some other := alive
    rw [Heap.value?_allocate] at made
    split at made
    · cases made
      exact sound.has_of_mem (items _ member)
    · exact sound.has_of_position made member
  obtain ⟨cell, found⟩ := has
  rw [sound.find?_next] at found
  cases found

/-- A new object leaves the others as they are. -/
theorem value?_allocate_of_alive
    (sound : store.Sound held)
    {k : Nat} {other : Node}
    (alive : Heap.value? store.cells k = some other) :
    Heap.value? (store.allocate node).2.cells k = some other := by
  have used : k < store.next := sound.used alive
  rw [Heap.value?, (Extends.allocate store node).find? k used]
  exact alive

end Store

namespace Session
namespace State

variable {s : State} {name : String} {ref : Ref}

/-! ## Slots -/

/-- Storing a reference changes no value. -/
theorem value?_of_hold
    {k : Nat} {node : Node}
    (alive : Heap.value? (s.hold name ref).1.store.cells k = some node) :
    Heap.value? s.store.cells k = some node := by
  unfold hold at alive
  split at alive
  · exact Heap.value?_of_release alive
  · exact alive

/-- Storing a new object leaves it with one reference, that of its slot. -/
theorem references_hold
    {id : Nat}
    (elsewhere : .object id ∉ s.roots)
    (inside : ∀ k node, Heap.value? s.store.cells k = some node → .object id ∉ node.positions) :
    (s.hold name (.object id)).1.references id = 1 := by
  have slots : (s.hold name (.object id)).1.slots.values.count (.object id) = 1 := by
    have kept : .object id ∉ (s.slots.erase name).values := by
      intro member
      obtain ⟨slot, found⟩ := Table.mem_values_iff.mp member
      rw [Table.find?_erase] at found
      split at found
      · cases found
      · exact elsewhere (Table.mem_values_iff.mpr ⟨slot, found⟩)
    rw [slots_hold, (Table.values_insert_perm s.slots name (.object id)).count_eq,
      List.count_cons_self, List.count_eq_zero.mpr kept]
  have positions : ((s.hold name (.object id)).1.store.cells.values.flatMap fun cell =>
      cell.value.positions).count (.object id) = 0 := by
    rw [List.count_eq_zero]
    intro member
    obtain ⟨cell, alive, held⟩ := List.mem_flatMap.mp member
    obtain ⟨k, found⟩ := Table.mem_values_iff.mp alive
    exact inside k cell.value (value?_of_hold (Heap.value?_of_find? found)) held
  rw [references, slots, positions]

/-- There is always another name for a slot. -/
theorem exists_unused
    (s : State) :
    ∃ name, s.slots.find? name = none := by
  obtain ⟨name, unused⟩ := Infinite.exists_notMem_finset s.slots.keys.toFinset
  exact ⟨name, Table.find?_eq_none_iff.mpr fun member => unused (List.mem_toFinset.mpr member)⟩

/-! ## The state after a call -/

/-- The pair is stored when it has taken over the references that the call had. -/
theorem packInto_eq
    {given : List Ref} {x y : Ref}
    (sound : s.store.Sound (given ++ s.roots))
    (order : given.Perm [x, y])
    (name : String) :
    let made := s.store.allocate (.tuple [x, y])
    let stored := State.hold { s with store := made.2 } name made.1
    s.packInto name given x y =
      (stored.1, ⟨.done, sortNames stored.2, s.filter.log packRecord⟩) := by
  have back := Store.release_pack sound (fun _ => List.mem_append_left _) order s.filter
  have called : State.discard { s with store := (s.store.pack s.filter x y).1.2 } given =
      ({ s with store := (s.store.allocate (.tuple [x, y])).2 }, []) := by
    rw [discard, back]
  have unfolded : s.packInto name given x y =
      let called := State.discard { s with store := (s.store.pack s.filter x y).1.2 } given
      let stored := called.1.hold name (s.store.pack s.filter x y).1.1
      (stored.1, ⟨.done, sortNames (called.2 ++ stored.2),
        (s.store.pack s.filter x y).2⟩) := rfl
  rw [unfolded, called, (s.store.pack_object s.filter x y).1, Store.pack_eq]
  rfl

/-- A call that succeeds in a sound state. -/
structure Calling (s : State) (arguments : Arguments Argument) where
  /-- The argument that is bound to the first parameter. -/
  a : Argument
  /-- The argument that is bound to the second parameter. -/
  b : Argument
  /-- What the arguments are evaluated to. -/
  sources : Arguments Source
  /-- What the first of the two is evaluated to. -/
  first : Source
  /-- What the second of the two is evaluated to. -/
  second : Source
  /-- The object that is taken for the first parameter. -/
  x : Ref
  /-- The object that is taken for the second parameter. -/
  y : Ref
  sound : s.store.Sound s.roots
  bind : arguments.bind = .ok (a, b)
  evaluated : (s.sources arguments).result = .ok sources
  bound : sources.bind = .ok (first, second)
  one : (s.source a).result = .ok first
  two : (s.source b).result = .ok second
  taken : (s.store.takeArguments sources).1.bind = .ok (x, y)

namespace Calling

variable {arguments : Arguments Argument}

theorem of_accepted
    (sound : s.store.Sound s.roots)
    (accepted : (s.call arguments name).2.reply = .done) :
    Nonempty (s.Calling arguments) := by
  obtain ⟨sources, first, second, evaluated, bound⟩ := bound_of_accepted accepted
  obtain ⟨a, b, bind, one, two⟩ := bind_of_evaluated evaluated bound
  obtain ⟨x, y, taken, -⟩ := Store.bind_takeArguments s.store bound
  exact ⟨⟨a, b, sources, first, second, x, y, sound, bind, evaluated, bound, one, two, taken⟩⟩

/-- The store when the arguments are taken. -/
def store (calling : s.Calling arguments) : Store := (s.store.takeArguments calling.sources).2

/-- The pair, which takes over the references that were taken for it. -/
def paired (calling : s.Calling arguments) : Ref × Store :=
  calling.store.allocate (.tuple [calling.x, calling.y])

/-- The state when the pair is made but not yet stored. -/
def withPair (calling : s.Calling arguments) : State := { s with store := calling.paired.2 }

variable (calling : s.Calling arguments)
include calling

theorem there :
    ∀ source ∈ calling.sources.inOrder, source.There s.roots :=
  there_of_sources calling.evaluated

theorem given_perm :
    (s.store.takeArguments calling.sources).1.inOrder.Perm [calling.x, calling.y] :=
  Arguments.inOrder_perm_of_bind calling.taken

/-- When the arguments of a call are taken, they are held beside all else. -/
theorem sound_given :
    calling.store.Sound ((s.store.takeArguments calling.sources).1.inOrder ++ s.roots) :=
  (Store.shift_takeArguments calling.sound calling.there).sound

theorem sound_store :
    calling.store.Sound ([calling.x, calling.y] ++ s.roots) :=
  calling.sound_given.perm (calling.given_perm.append_right _)

theorem next_le :
    s.store.next ≤ calling.store.next :=
  s.store.next_takeAll calling.sources.inOrder

/-- Each of the two objects is that which was taken for its argument. -/
theorem mem_zip :
    (calling.first, calling.x) ∈
        calling.sources.inOrder.zip (s.store.takeAll calling.sources.inOrder).1 ∧
      (calling.second, calling.y) ∈
        calling.sources.inOrder.zip (s.store.takeAll calling.sources.inOrder).1 := by
  obtain ⟨x, y, taken, order⟩ := Store.bind_takeArguments s.store calling.bound
  rw [calling.taken] at taken
  cases taken
  rcases order with ⟨order, objects⟩ | ⟨order, objects⟩
  · rw [order, objects]
    exact ⟨List.mem_cons_self, List.mem_cons_of_mem _ List.mem_cons_self⟩
  · rw [order, objects]
    exact ⟨List.mem_cons_of_mem _ List.mem_cons_self, List.mem_cons_self⟩

/-- **What a call comes to.**  The pair is stored, and what ends besides is what ended when the
arguments were evaluated. -/
theorem call_eq
    (name : String) :
    let stored := calling.withPair.hold name calling.paired.1
    s.call arguments name =
      (stored.1, ⟨.done, sortNames ((s.source calling.a).ended ++ (s.source calling.b).ended ++
        stored.2), s.filter.log packRecord⟩) := by
  intro stored
  obtain ⟨sources, ended, evaluated, -, perm⟩ :=
    sources_of_bind calling.bind calling.one calling.two
  obtain rfl : sources = calling.sources := by
    have same := calling.evaluated
    rw [evaluated] at same
    exact Except.ok.inj same
  have packed := packInto_eq (s := { s with store := calling.store }) calling.sound_given
    calling.given_perm name
  have names : sortNames (ended ++ sortNames stored.2) =
      sortNames ((s.source calling.a).ended ++ (s.source calling.b).ended ++ stored.2) :=
    sortNames_eq_of_perm (perm.append (List.mergeSort_perm _ _))
  rw [call, evaluating, evaluated]
  simp only [calling.taken]
  rw [← names]
  exact congrArg (fun after : State × Effect =>
    (after.1, { after.2 with freed := sortNames (ended ++ after.2.freed) })) packed

/-- The pair is a new object, so nothing refers to it until it is stored. -/
theorem references_pair
    (name : String) :
    (s.call arguments name).1.references calling.store.next = 1 := by
  have both := calling.sound_store
  rw [calling.call_eq name]
  refine references_hold ?_ fun k node alive => ?_
  · intro member
    obtain ⟨cell, found⟩ := both.has_of_mem (List.mem_append_right _ member)
    rw [both.find?_next] at found
    cases found
  · exact Store.not_mem_positions_of_allocate both (fun _ => List.mem_append_left _) alive

/-- The slot of a call holds the pair, and the pair has no other reference. -/
theorem pair_of_call
    (name : String) :
    let after := (s.call arguments name).1
    let id := calling.store.next
    s.store.next ≤ id ∧ after.slots = s.slots.insert name (.object id) ∧
      Heap.value? after.store.cells id = some (.tuple [calling.x, calling.y]) ∧
      after.store.count id = 1 ∧ after.references id = 1 := by
  intro after id
  have sound : after.store.Sound after.roots := (shift_call calling.sound arguments name).sound
  have one : after.references id = 1 := calling.references_pair name
  have slots : after.slots = s.slots.insert name (.object id) := by
    show (s.call arguments name).1.slots = _
    rw [calling.call_eq name]
    exact slots_hold _ _ _
  have there : after.store.Has (.object id) := by
    rw [has_iff_references sound, one]
    exact Nat.one_ne_zero
  obtain ⟨cell, alive⟩ := there
  have value : Heap.value? after.store.cells id = some (.tuple [calling.x, calling.y]) := by
    have found : Heap.value? (s.call arguments name).1.store.cells id = some cell.value :=
      Heap.value?_of_find? alive
    rw [calling.call_eq name] at found
    have made : Heap.value? (Heap.allocate calling.store.cells id _) id =
        some cell.value := value?_of_hold found
    rw [Heap.value?_allocate, if_pos rfl] at made
    rw [Heap.value?_of_find? alive]
    exact made.symm
  have count : after.store.count id = 1 := by
    rw [Store.count, Heap.count_of_find? alive, count_eq_references sound alive, one]
  exact ⟨calling.next_le, slots, value, count, one⟩

/-- What is reached from the arguments of a call is there after it, whatever is given up. -/
theorem alive_of_reached
    (name : String)
    {new k : Nat}
    (argument : .object new ∈ [calling.x, calling.y])
    (path : Relation.ReflTransGen (Heap.Holds calling.store.cells) new k) :
    ∃ node, Heap.value? calling.store.cells k = some node ∧
      Heap.value? (s.call arguments name).1.store.cells k = some node := by
  have both := calling.sound_store
  have after := (shift_call calling.sound arguments name).sound
  rw [calling.call_eq name] at after ⊢
  have same : ∀ k node,
      Heap.value? (calling.withPair.hold name calling.paired.1).1.store.cells k = some node →
        Heap.value? calling.paired.2.cells k = some node :=
    fun k node => value?_of_hold
  -- the path starts at the pair, which is in its slot
  have held : .handle calling.store.next ∈ Ref.handles
      (calling.withPair.hold name calling.paired.1).1.roots :=
    List.mem_flatMap.mpr ⟨_, Table.mem_values_iff.mpr ⟨name, find?_hold _ _ _⟩,
      List.mem_singleton_self _⟩
  have enter : Heap.Holds calling.paired.2.cells calling.store.next new := by
    refine ⟨.tuple [calling.x, calling.y], ?_, ?_⟩
    · show Heap.value? (Heap.allocate _ _ _) _ = _
      rw [Heap.value?_allocate, if_pos rfl]
    · exact List.mem_flatMap.mpr ⟨_, argument, List.mem_singleton_self _⟩
  have kept : ∀ i j, Heap.Holds calling.store.cells i j →
      Heap.Holds calling.paired.2.cells i j := by
    rintro holder target ⟨value, alive, inside⟩
    exact ⟨value, Store.value?_allocate_of_alive both alive, inside⟩
  have along := Relation.ReflTransGen.mono kept _ _ path
  obtain ⟨node, stays⟩ := after.counted.alive_of_reached same held (along.head enter)
  obtain ⟨node', alive⟩ := both.counted.alive_of_reached (fun _ _ => id)
    (List.mem_flatMap.mpr ⟨_, List.mem_append_left _ argument, List.mem_singleton_self _⟩) path
  refine ⟨node', alive, ?_⟩
  rw [stays, ← same k node stays]
  exact Store.value?_allocate_of_alive both alive

/-! ## A slot that is not used -/

theorem call_of_unused
    (unused : s.slots.find? name = none) :
    s.call arguments name =
      ({ calling.withPair with slots := s.slots.insert name calling.paired.1 },
        ⟨.done, sortNames ((s.source calling.a).ended ++ (s.source calling.b).ended),
          s.filter.log packRecord⟩) := by
  rw [calling.call_eq name, hold_of_unused (s := calling.withPair) unused, List.append_nil]
  rfl

/-- The arguments gain what the pair holds, and nothing else changes. -/
theorem find?_call_of_unused
    (unused : s.slots.find? name = none)
    {old : Nat}
    (used : old < s.store.next) :
    (s.call arguments name).1.store.cells.find? old =
      (s.store.cells.find? old).map fun cell =>
        ⟨cell.value, cell.count + [calling.x, calling.y].count (.object old)⟩ := by
  have paired := (Store.Extends.allocate calling.store (.tuple [calling.x, calling.y])).find? old
    (Nat.lt_of_lt_of_le used calling.next_le)
  have taken := Store.find?_takeAll used calling.sources.inOrder
  rw [← Store.inOrder_takeArguments, calling.given_perm.count_eq] at taken
  rw [calling.call_of_unused unused]
  exact paired.trans taken

/-- A fresh argument has the one reference of the pair. -/
theorem fresh_call_of_unused
    (unused : s.slots.find? name = none) :
    let after := (s.call arguments name).1.store
    (∀ form, calling.first = .literal form → s.store.Fresh (calling.x, after)) ∧
      ∀ form, calling.second = .literal form → s.store.Fresh (calling.y, after) := by
  intro after
  have paired : calling.store.Extends after := by
    show Store.Extends _ (s.call arguments name).1.store
    rw [calling.call_of_unused unused]
    exact .allocate _ _
  obtain ⟨one, two⟩ := calling.mem_zip
  constructor
  · intro form fresh
    exact (Store.fresh_takeAll calling.sound calling.there one fresh).extend paired
  · intro form fresh
    exact (Store.fresh_takeAll calling.sound calling.there two fresh).extend paired

/-- No opaque thing is lost. -/
theorem lost_of_unused
    (unused : s.slots.find? name = none) :
    s.lost (s.call arguments name).1 = [] := by
  rw [List.eq_nil_iff_forall_not_mem]
  rintro ⟨id, thing⟩ lost
  obtain ⟨alive, gone⟩ :=
    (mem_lost_iff (shift_call calling.sound arguments name).sound).mp lost
  obtain ⟨cell, found, -⟩ := Option.map_eq_some_iff.mp alive
  have used := calling.sound.used alive
  rw [Heap.value?, calling.find?_call_of_unused unused used, found] at gone
  cases gone

/-- What is written in the arguments is told as freed or comes into their objects. -/
theorem freed_of_unused
    (unused : s.slots.find? name = none) :
    ((s.call arguments name).2.freed ++ (calling.first.names ++ calling.second.names)).Perm
      (calling.a.names ++ calling.b.names) := by
  have one := (s.accounts_source calling.a).made_perm calling.one
  have two := (s.accounts_source calling.b).made_perm calling.two
  rw [Evaluation.made, calling.one] at one
  rw [Evaluation.made, calling.two] at two
  rw [calling.call_of_unused unused]
  have told : (sortNames ((s.source calling.a).ended ++ (s.source calling.b).ended)).Perm
      ((s.source calling.a).ended ++ (s.source calling.b).ended) := List.mergeSort_perm _ _
  rw [List.perm_iff_count]
  intro name
  have told := told.count_eq name
  have one := one.count_eq name
  have two := two.count_eq name
  simp only [List.count_append] at told one two ⊢
  omega

/-! ## A slot that is used -/

theorem call_of_used
    {old : Ref}
    (used : s.slots.find? name = some old) :
    let released := calling.paired.2.release [old]
    s.call arguments name =
      (⟨s.slots.insert name calling.paired.1, released.1, s.filter⟩,
        ⟨.done, sortNames ((s.source calling.a).ended ++ (s.source calling.b).ended ++ released.2),
          s.filter.log packRecord⟩) := by
  rw [calling.call_eq name, hold_of_used (s := calling.withPair) used]
  rfl

/-- The same is left when the pair is stored elsewhere and the old object is given up then. -/
theorem call_eq_drop
    {old : Ref} {spare : String}
    (used : s.slots.find? name = some old) (unused : s.slots.find? spare = none) :
    let after := (s.call arguments name).1
    let elsewhere := s.call arguments spare
    let dropped := elsewhere.1.step (.drop name)
    dropped.2.reply = .done ∧
      after.store = dropped.1.store ∧ after.filter = dropped.1.filter ∧
      after.slots.find? name = dropped.1.slots.find? spare ∧
      (∀ slot, slot ≠ name → slot ≠ spare →
        after.slots.find? slot = dropped.1.slots.find? slot) ∧
      (s.call arguments name).2.freed = sortNames (elsewhere.2.freed ++ dropped.2.freed) := by
  intro after elsewhere dropped
  have other : spare ≠ name := by
    rintro rfl
    rw [used] at unused
    cases unused
  have called := calling.call_of_used used
  have called' : elsewhere = _ := calling.call_of_unused unused
  have held : elsewhere.1.slots.find? name = some old := by
    rw [called']
    show (s.slots.insert spare _).find? name = some old
    rw [Table.find?_insert, if_neg other, used]
  have given : dropped = _ := drop_of_used held
  have store : dropped.1.store = (calling.paired.2.release [old]).1 := by
    rw [given, called']
    rfl
  have slots : dropped.1.slots =
      (s.slots.insert spare calling.paired.1).erase name := by
    rw [given, called']
    rfl
  have freed : dropped.2.freed =
      sortNames (calling.paired.2.release [old]).2 := by
    rw [given, called']
    rfl
  refine ⟨?_, ?_, ?_, ?_, ?_, ?_⟩
  · rw [given]
    rfl
  · show (s.call arguments name).1.store = _
    rw [called, store]
  · show (s.call arguments name).1.filter = _
    rw [called, given, called']
    rfl
  · show (s.call arguments name).1.slots.find? name = _
    rw [called, slots, Table.find?_insert, if_pos rfl, Table.find?_erase, if_neg other.symm,
      Table.find?_insert, if_pos rfl]
  · intro slot apart apart'
    show (s.call arguments name).1.slots.find? slot = _
    rw [called, slots, Table.find?_insert, if_neg apart.symm, Table.find?_erase,
      if_neg apart.symm, Table.find?_insert, if_neg apart'.symm]
  · rw [called, called', freed]
    exact sortNames_eq_of_perm
      ((List.mergeSort_perm _ _).symm.append (List.mergeSort_perm _ _).symm)

end Calling
end State

/-- What a call that succeeds has added to a state, and what it has given back. -/
structure Adds {s : State} {arguments : Arguments Argument} (calling : s.Calling arguments)
    (name : String) (id : Nat) (after : State × Effect) : Prop where
  /-- The pair is a new object. -/
  new : s.store.next ≤ id
  /-- The slot of the call holds it, and no other slot changes. -/
  slots : after.1.slots = s.slots.insert name (.object id)
  /-- Its items are the two objects that were taken. -/
  pair : Heap.value? after.1.store.cells id = some (.tuple [calling.x, calling.y])
  /-- It is counted once. -/
  count : after.1.store.count id = 1
  /-- That is the reference of the slot. -/
  only : after.1.references id = 1
  /-- If the slot was not used, every object that was there has gained one reference for each
  position of the pair that it fills, and is else as it was. -/
  gained : s.slots.find? name = none →
    ∀ old < s.store.next, after.1.store.cells.find? old =
      (s.store.cells.find? old).map fun cell =>
        ⟨cell.value, cell.count + [calling.x, calling.y].count (.object old)⟩
  /-- If the slot was not used, a fresh first argument has one reference, which is that of the
  pair. -/
  fresh : s.slots.find? name = none →
    ∀ form, calling.first = .literal form → s.store.Fresh (calling.x, after.1.store)
  /-- The same is true of a fresh second argument. -/
  fresh' : s.slots.find? name = none →
    ∀ form, calling.second = .literal form → s.store.Fresh (calling.y, after.1.store)
  /-- If the slot was not used, no opaque thing that was there is lost. -/
  kept : s.slots.find? name = none → s.lost after.1 = []
  /-- If the slot was not used, just those opaque things are freed that are written in the arguments
  and are not in the objects of the arguments. -/
  freed : s.slots.find? name = none →
    (after.2.freed ++ (calling.first.names ++ calling.second.names)).Perm
      (calling.a.names ++ calling.b.names)
  /-- There is a slot that is not used. -/
  unused : ∃ spare, s.slots.find? spare = none
  /-- If the slot was used, all is as after two steps: the call with any slot that is not used, and
  a drop of the slot that is.  The two steps free together what the call frees. -/
  overwrites : s.slots.find? name ≠ none → ∀ spare, s.slots.find? spare = none →
    let elsewhere := s.step (.call arguments spare)
    let dropped := elsewhere.1.step (.drop name)
    elsewhere.2.reply = .done ∧ dropped.2.reply = .done ∧
      after.1.store = dropped.1.store ∧ after.1.filter = dropped.1.filter ∧
      after.1.slots.find? name = dropped.1.slots.find? spare ∧
      (∀ slot, slot ≠ name → slot ≠ spare →
        after.1.slots.find? slot = dropped.1.slots.find? slot) ∧
      after.2.freed = sortNames (elsewhere.2.freed ++ dropped.2.freed)
  /-- What is reached from the two objects when they are taken is still there, with the value that
  it had. -/
  reached : ∀ new k, .object new ∈ [calling.x, calling.y] →
    Relation.ReflTransGen (Heap.Holds calling.store.cells) new k →
      ∃ node, Heap.value? calling.store.cells k = some node ∧
        Heap.value? after.1.store.cells k = some node

/-- **What a call adds.**  Any call that succeeds, in any state that steps lead to, adds a pair of
the two objects that are taken for its arguments.  The arguments may be fresh or name slots; they
may be one object, and the slot of the call may hold one of them or something that holds one. -/
theorem call_adds_pair
    (filter : Filter) (steps : List Step) (arguments : Arguments Argument) (name : String) :
    let s := (machine.run (State.initial filter) steps).1
    let after := s.step (.call arguments name)
    after.2.reply = .done → ∃ (calling : s.Calling arguments) (id : Nat),
      Adds calling name id after := by
  intro s after accepted
  have sound : s.store.Sound s.roots := State.sound_run steps (State.sound_initial filter)
  obtain ⟨calling⟩ := State.Calling.of_accepted sound accepted
  obtain ⟨new, slots, pair, count, only⟩ := calling.pair_of_call name
  exact ⟨calling, calling.store.next, {
    new := new
    slots := slots
    pair := pair
    count := count
    only := only
    gained := fun unused old => calling.find?_call_of_unused unused
    fresh := fun unused => (calling.fresh_call_of_unused unused).1
    fresh' := fun unused => (calling.fresh_call_of_unused unused).2
    kept := calling.lost_of_unused
    freed := calling.freed_of_unused
    unused := s.exists_unused
    overwrites := fun used spare unused => by
      obtain ⟨old, held⟩ := Option.ne_none_iff_exists'.mp used
      refine ⟨?_, calling.call_eq_drop held unused⟩
      show (s.call arguments spare).2.reply = .done
      rw [calling.call_eq spare]
    reached := fun new k argument path => calling.alive_of_reached name argument path }⟩

/-- A list that is packed with a new thing into its own slot. -/
theorem call_adds_pair_to_itself :
    let s := (machine.run (State.initial .off) [.new "r" (.list [.named "m"])]).1
    let called := s.step (.call ⟨[.slot "r", .fresh (.named "n")], []⟩ "r")
    called.2.reply = .done ∧ s.slots.find? "r" ≠ none ∧
      (∃ id, called.1.slots = s.slots.insert "r" (.object id) ∧ called.1.references id = 1) ∧
      Heap.value? called.1.store.cells 1 = some (.list [.object 0]) := by
  intro s called
  obtain ⟨⟨a, b, sources, first, second, x, y, _, _, evaluated, _, _, _, taken⟩, id, adds⟩ :=
    call_adds_pair .off [.new "r" (.list [.named "m"])]
      ⟨[.slot "r", .fresh (.named "n")], []⟩ "r" rfl
  refine ⟨rfl, by decide, ⟨id, adds.slots, adds.only⟩, ?_⟩
  cases evaluated
  cases taken
  obtain ⟨node, before, alive⟩ := adds.reached 1 1 List.mem_cons_self .refl
  cases before
  exact alive

/-- A call whose slot is not used frees what is written in an argument for a key that is written
again. -/
theorem call_frees_replaced_value :
    let s := (machine.run (State.initial .all) []).1
    let key : Expression := .atom (.text (Text.ofString "k"))
    let written : Expression := .dict [(key, .named "X"), (key, .named "Y")]
    let called := s.step (.call ⟨[.fresh written, .fresh (.atom .nothing)], []⟩ "r")
    s.slots.find? "r" = none ∧ called.2.reply = .done ∧ called.2.freed = ["X"] := by
  intro s key written called
  let calling : s.Calling ⟨[.fresh written, .fresh (.atom .nothing)], []⟩ :=
    ⟨.fresh written, .fresh (.atom .nothing), _, _, _, _, _, State.sound_initial .all, rfl, rfl,
      rfl, rfl, rfl, rfl⟩
  have told : called.2.freed = sortNames ["X"] :=
    congrArg (fun after => after.2.freed) (calling.call_of_unused rfl)
  refine ⟨rfl, rfl, ?_⟩
  rw [told, sortNames, List.mergeSort_singleton]

end Session
end SharedPair
