import SharedPair.Object.Store
import SharedPair.Proofs.Heap.Turnover

/-!
# The books of the store

The store keeps its objects in a counted heap, so a change of the store is a shift of
that heap.  References take the place of leaves here: those that are held outside, by
slots or by a step under way, and those in the positions of living containers.

Two more things are kept.  Numbers of objects are handed out in order, so an object
that is gone never comes back; and of what lives on, only lists, buffers and
dictionaries change.
-/

namespace SharedPair

namespace Ref

/-- The handles that references are. -/
def handles (refs : List Ref) : List (Leaf Nat String) :=
  refs.flatMap leaves

@[simp] theorem handles_cons
    (ref : Ref) (rest : List Ref) :
    handles (ref :: rest) = ref.leaves ++ handles rest := by
  rfl

@[simp] theorem handles_append
    (first second : List Ref) :
    handles (first ++ second) = handles first ++ handles second :=
  List.flatMap_append

theorem handles_perm
    {refs refs' : List Ref}
    (perm : refs.Perm refs') :
    (handles refs).Perm (handles refs') :=
  perm.flatMap_right _

@[simp] theorem tokens_handles
    (refs : List Ref) :
    Leaf.tokens (handles refs) = [] := by
  induction refs with
  | nil =>
      rfl
  | cons ref rest ih =>
      rw [handles_cons, Leaf.tokens_append, ih]
      cases ref <;> rfl

theorem count_handles
    (id : Nat) (refs : List Ref) :
    (handles refs).count (.handle id) = refs.count (.object id) := by
  induction refs with
  | nil =>
      rfl
  | cons ref rest ih =>
      rw [handles_cons, List.count_append, ih, List.count_cons, Nat.add_comm]
      congr 1
      cases ref <;> simp [leaves, List.count_singleton]

end Ref

namespace Node

/-- The references in the positions of a node: the items of a list or a tuple, the values of a
dictionary. -/
def positions : Node → List Ref
  | list items => items
  | tuple items => items
  | dict entries => entries.map Prod.snd
  | _ => []

/-- The name of the opaque thing that a node is, if it is one. -/
def name? : Node → Option String
  | named name => some name
  | _ => none

/-- The names of the opaque things that a node is: one or none. -/
def names (node : Node) : List String := node.name?.toList

/-- Whether a node stays as it is made. -/
def Fixed : Node → Prop
  | list _ => False
  | buffer _ => False
  | dict _ => False
  | _ => True

theorem leaves_eq
    (node : Node) :
    node.leaves = node.names.map .token ++ Ref.handles node.positions := by
  cases node with
  | dict entries =>
      simp [leaves, names, name?, positions, Ref.handles, List.flatMap_map]
  | _ =>
      rfl

theorem tokens_leaves
    (node : Node) :
    Leaf.tokens node.leaves = node.names := by
  rw [leaves_eq, Leaf.tokens_append, Leaf.tokens_map_token, Ref.tokens_handles, List.append_nil]

theorem count_leaves
    (id : Nat) (node : Node) :
    node.leaves.count (.handle id) = node.positions.count (.object id) := by
  have none : (node.names.map .token : List (Leaf Nat String)).count (.handle id) = 0 := by
    rw [List.count_eq_zero]
    intro member
    obtain ⟨name, -, eq⟩ := List.mem_map.mp member
    cases eq
  rw [leaves_eq, List.count_append, Ref.count_handles, none, Nat.zero_add]

theorem names_of_not_fixed
    {node : Node}
    (changes : ¬ node.Fixed) :
    node.names = [] := by
  cases node with
  | named name =>
      exact absurd trivial changes
  | _ =>
      rfl

end Node

namespace Store

variable {store store' store'' : Store} {held held' held'' : List Ref}
  {born born' ended ended' : List String}

/-! ## What is kept -/

/-- The counts are exact for what is held outside, and the next number is free. -/
structure Sound (store : Store) (held : List Ref) : Prop where
  counted : Heap.Counted store.cells (Ref.handles held)
  fresh : ∀ id ∈ store.cells.keys, id < store.next

/-- Whether the object of a reference is there. -/
def Has (store : Store) : Ref → Prop
  | .object id => ∃ cell, store.cells.find? id = some cell
  | _ => True

/-- How a store goes on: no number is used twice, and what is fixed stays as it was. -/
structure Evolves (store store' : Store) : Prop where
  next : store.next ≤ store'.next
  values : ∀ {id node}, id < store.next → Heap.value? store'.cells id = some node →
    ∃ old, Heap.value? store.cells id = some old ∧ (old.Fixed ∨ node.Fixed → node = old)

namespace Evolves

theorem of_values
    (next : store.next ≤ store'.next)
    (same : ∀ {id node}, id < store.next → Heap.value? store'.cells id = some node →
      Heap.value? store.cells id = some node) :
    Evolves store store' where
  next := next
  values old found := ⟨_, same old found, fun _ => rfl⟩

theorem refl
    (store : Store) :
    Evolves store store :=
  of_values (Nat.le_refl _) fun _ found => found

theorem trans
    (first : Evolves store store')
    (second : Evolves store' store'') :
    Evolves store store'' where
  next := Nat.le_trans first.next second.next
  values {id node} old found := by
    obtain ⟨between, found', later⟩ := second.values (Nat.lt_of_lt_of_le old first.next) found
    obtain ⟨before, found'', earlier⟩ := first.values old found'
    refine ⟨before, found'', ?_⟩
    rintro (fixed | fixed)
    · have same := earlier (.inl fixed)
      rw [← same] at fixed ⊢
      exact later (.inl fixed)
    · have same := later (.inr fixed)
      rw [same] at fixed ⊢
      exact earlier (.inr fixed)

/-- What is fixed and still there is what it was. -/
theorem value?_of_fixed
    (evolves : Evolves store store')
    {id : Nat} {old node : Node}
    (before : Heap.value? store.cells id = some old)
    (used : id < store.next) (fixed : old.Fixed)
    (after : Heap.value? store'.cells id = some node) :
    node = old := by
  obtain ⟨old', found, same⟩ := evolves.values used after
  rw [before, Option.some.injEq] at found
  subst found
  exact same (.inl fixed)

end Evolves

/-- A change of the store, and of the references held outside, whose books balance.  It tells which
opaque things are born and which end. -/
structure Shift (store : Store) (held : List Ref) (born ended : List String)
    (store' : Store) (held' : List Ref) : Prop where
  books : ∃ made freed, Heap.Shift store.cells (Ref.handles held) ⟨made, freed, born, ended⟩
    store'.cells (Ref.handles held')
  fresh : ∀ id ∈ store'.cells.keys, id < store'.next
  evolves : Evolves store store'

namespace Sound

theorem find?_next
    (sound : store.Sound held) :
    store.cells.find? store.next = none :=
  Table.find?_eq_none_iff.mpr fun member => Nat.lt_irrefl _ (sound.fresh _ member)

theorem has_of_mem
    (sound : store.Sound held)
    {ref : Ref}
    (member : ref ∈ held) :
    store.Has ref := by
  cases ref with
  | object id =>
      refine sound.counted.alive (List.mem_append_left _ (List.mem_flatMap.mpr ⟨_, member, ?_⟩))
      exact List.mem_singleton_self _
  | _ =>
      trivial

/-- What a living container holds is there. -/
theorem has_of_position
    (sound : store.Sound held)
    {id : Nat} {node : Node} {ref : Ref}
    (found : Heap.value? store.cells id = some node)
    (member : ref ∈ node.positions) :
    store.Has ref := by
  cases ref with
  | object target =>
      obtain ⟨cell, alive, rfl⟩ := Option.map_eq_some_iff.mp found
      refine sound.counted.alive (List.mem_append_right _ (Heap.mem_leaves_iff.mpr
        ⟨id, cell, alive, ?_⟩))
      rw [Node.holder_leaves, Node.leaves_eq]
      exact List.mem_append_right _ (List.mem_flatMap.mpr
        ⟨_, member, List.mem_singleton_self _⟩)
  | _ =>
      trivial

end Sound

namespace Shift

theorem sound
    (shift : Shift store held born ended store' held') :
    store'.Sound held' := by
  rcases shift.books with ⟨made, freed, books⟩
  exact ⟨books.counted, shift.fresh⟩

/-- Nothing changes but the order of what is held, or what is there in any case. -/
theorem still
    (sound : store.Sound held)
    (same : (Ref.handles held).Perm (Ref.handles held')) :
    Shift store held [] [] store held' where
  books := ⟨[], [], .still sound.counted same⟩
  fresh := sound.fresh
  evolves := .refl store

theorem trans
    (first : Shift store held born ended store' held')
    (second : Shift store' held' born' ended' store'' held'') :
    Shift store held (born ++ born') (ended ++ ended') store'' held'' where
  books := by
    rcases first.books with ⟨made, freed, books⟩
    rcases second.books with ⟨made', freed', books'⟩
    exact ⟨made ++ made', freed ++ freed', books.trans books'⟩
  fresh := second.fresh
  evolves := first.evolves.trans second.evolves

/-- A change after which nothing is born and nothing ends. -/
theorem then_quietly
    (first : Shift store held born ended store' held')
    (second : Shift store' held' [] [] store'' held'') :
    Shift store held born ended store'' held'' := by
  have whole := first.trans second
  rwa [List.append_nil, List.append_nil] at whole

theorem perm
    (shift : Shift store held born ended store' held')
    (same : held'.Perm held'') :
    Shift store held born ended store' held'' :=
  shift.then_quietly (still shift.sound (Ref.handles_perm same))

/-- The order in which names are told is of no account. -/
theorem names_perm
    (shift : Shift store held born ended store' held')
    (births : born.Perm born')
    (ends : ended.Perm ended') :
    Shift store held born' ended' store' held' where
  books := by
    rcases shift.books with ⟨made, freed, books⟩
    refine ⟨made, freed, books.counted, books.keys, ?_⟩
    exact (births.symm.append_left _).trans (books.tokens.trans (ends.append_right _))
  fresh := shift.fresh
  evolves := shift.evolves

/-- Opaque things that are born and end before anything else happens. -/
theorem after_passing
    (shift : Shift store held born ended store' held')
    (names : List String) :
    Shift store held (names ++ born) (names ++ ended) store' held' where
  books := by
    rcases shift.books with ⟨made, freed, counted, keys, tokens⟩
    refine ⟨made, freed, counted, keys, ?_⟩
    show (_ ++ (names ++ born)).Perm (names ++ ended ++ _)
    rw [List.append_assoc]
    exact (List.perm_append_comm_assoc _ _ _).trans (tokens.append_left names)
  fresh := shift.fresh
  evolves := shift.evolves

/-! ## The operations of the store -/

/-- A new object takes over what its positions hold, and its maker holds one reference to it. -/
theorem allocate
    (node : Node)
    (sound : store.Sound (node.positions ++ held)) :
    Shift store (node.positions ++ held) node.names []
      (store.allocate node).2 ((store.allocate node).1 :: held) where
  books := by
    have missing := sound.find?_next
    have named := Heap.Shift.born sound.counted node.names
    have order : node.names.map .token ++ Ref.handles (node.positions ++ held) =
        Holder.leaves node ++ Ref.handles held := by
      rw [Node.holder_leaves, Node.leaves_eq, Ref.handles_append, List.append_assoc]
    rw [order] at named
    have whole : Heap.Shift store.cells (Ref.handles (node.positions ++ held))
        ⟨[store.next], [], node.names ++ [], []⟩ _ _ :=
      named.trans (.allocate named.counted missing)
    rw [List.append_nil] at whole
    exact ⟨_, _, whole⟩
  fresh id member := by
    have grown := (Table.keys_insert_perm store.cells store.next ⟨node, 1⟩).mem_iff.mp member
    rcases List.mem_cons.mp grown with rfl | old
    · exact Nat.lt_succ_self _
    · rw [Table.erase_of_find?_eq_none sound.find?_next] at old
      exact Nat.lt_succ_of_lt (sound.fresh id old)
  evolves := by
    refine .of_values (Nat.le_succ _) fun {id found'} old found => ?_
    rw [Store.allocate, Heap.value?_allocate, if_neg (Nat.ne_of_gt old)] at found
    exact found

theorem acquire
    {ref : Ref}
    (sound : store.Sound held)
    (has : store.Has ref) :
    Shift store held [] [] (store.acquire ref) (ref :: held) := by
  cases ref with
  | object id =>
      rcases has with ⟨cell, found⟩
      refine ⟨⟨[], [], .acquire sound.counted found⟩, ?_, .of_values (Nat.le_refl _) ?_⟩
      · intro id' member
        have same : (Heap.acquire store.cells id).keys = store.cells.keys := by
          simp [Heap.acquire]
        exact sound.fresh id' (same ▸ member)
      · intro id' node old found'
        rwa [Store.acquire, Heap.value?_acquire] at found'
  | _ =>
      exact .still sound (List.Perm.refl _)

/-- What a release reports balances. -/
theorem release
    {waiting : List Ref}
    (sound : store.Sound (waiting ++ held)) :
    Shift store (waiting ++ held) [] (store.release waiting).2 (store.release waiting).1 held where
  books := by
    have counted := sound.counted
    rw [Ref.handles_append] at counted ⊢
    have names : (Heap.release store.cells (Ref.handles waiting)).2.filterMap endedName? =
        (Heap.release store.cells (Ref.handles waiting)).2.filterMap Ending.ended? := by
      congr 1
      funext ending
      cases ending <;> rfl
    have released := Heap.Shift.release counted
    rw [Turnover.ofEndings, ← names] at released
    exact ⟨_, _, released⟩
  fresh id member := by
    have keys := Heap.keys_release_perm store.cells (Ref.handles waiting)
    exact sound.fresh id (keys.mem_iff.mpr (List.mem_append_right _ member))
  evolves := .of_values (Nat.le_refl _) fun _ found => Heap.value?_of_release found

/-- A list, a buffer or a dictionary changes: what its positions held is held outside, and what they
hold now is not any more. -/
theorem write
    {id : Nat} {cell : Cell Node} {node : Node}
    (sound : store.Sound held)
    (found : store.cells.find? id = some cell)
    (changes : ¬ cell.value.Fixed) (changed : ¬ node.Fixed)
    (balance : (Ref.handles (cell.value.positions ++ held)).Perm
      (Ref.handles (node.positions ++ held'))) :
    Shift store held [] [] (store.write (.object id) node) held' where
  books := by
    refine ⟨[], [], .write sound.counted found ?_⟩
    rw [Node.holder_leaves, Node.holder_leaves, Node.leaves_eq, Node.leaves_eq,
      Node.names_of_not_fixed changes, Node.names_of_not_fixed changed]
    rw [Ref.handles_append, Ref.handles_append] at balance
    exact balance
  fresh id' member := by
    have same : (Heap.write store.cells id node).keys = store.cells.keys := by
      simp [Heap.write]
    exact sound.fresh id' (same ▸ member)
  evolves := by
    refine ⟨Nat.le_refl _, ?_⟩
    intro id' node' old found'
    rw [Store.write, Heap.value?_write] at found'
    by_cases h : id = id'
    · subst h
      have before : Heap.value? store.cells id = some cell.value := by
        simp [Heap.value?, found]
      rw [if_pos rfl, before] at found'
      cases found'
      refine ⟨cell.value, before, ?_⟩
      rintro (fixed | fixed)
      · exact absurd fixed changes
      · exact absurd fixed changed
    · rw [if_neg h] at found'
      exact ⟨node', found', fun _ => rfl⟩

theorem atom
    (a : Atom)
    (sound : store.Sound held) :
    Shift store held [] [] (store.atom a).2 ((store.atom a).1 :: held) := by
  unfold Store.atom
  split
  · exact .still sound (List.Perm.refl _)
  · exact .allocate (.atom a) sound

theorem tuple
    (items : List Ref)
    (sound : store.Sound (items ++ held)) :
    Shift store (items ++ held) [] [] (store.tuple items).2 ((store.tuple items).1 :: held) := by
  cases items with
  | nil =>
      exact .still sound (List.Perm.refl _)
  | cons item rest =>
      exact .allocate (.tuple (item :: rest)) sound

/-- A pair holds one more reference to each of its elements. -/
theorem pack
    {first second : Ref}
    (sound : store.Sound held)
    (member : first ∈ held) (member' : second ∈ held)
    (filter : Filter) :
    Shift store held [] [] (store.pack filter first second).1.2
      ((store.pack filter first second).1.1 :: held) := by
  have one := Shift.acquire sound (sound.has_of_mem member)
  have two := Shift.acquire one.sound (one.sound.has_of_mem (List.mem_cons_of_mem _ member'))
  have both := (one.then_quietly two).perm (.swap first second held)
  rw [pack_eq]
  exact both.then_quietly (.tuple [first, second] both.sound)

end Shift

/-! ## Making objects -/

mutual

/-- Making the object of a form brings the opaque things in it, and leaves one reference. -/
theorem shift_make :
    ∀ (form : Literal) {store : Store} {held : List Ref},
      store.Sound held →
      Shift store held form.names [] (make form store).2 ((make form store).1 :: held)
  | .atom a, store, held, sound => by
      rw [make, Form.names]
      exact .atom a sound
  | .named name, store, held, sound => by
      rw [make, Form.names]
      exact .allocate (.named name) sound
  | .buffer bs, store, held, sound => by
      rw [make, Form.names]
      exact .allocate (.buffer bs) sound
  | .set members, store, held, sound => by
      rw [make, Form.names]
      exact .allocate (.set members) sound
  | .list items, store, held, sound => by
      have made := shift_makeAll items sound
      rw [make, Form.names]
      exact made.then_quietly (.allocate (.list _) made.sound)
  | .tuple items, store, held, sound => by
      have made := shift_makeAll items sound
      rw [make, Form.names]
      exact made.then_quietly (.tuple _ made.sound)
  | .dict entries, store, held, sound => by
      have made := shift_makeEntries entries sound
      rw [make, Form.names]
      exact made.then_quietly (.allocate (.dict _) made.sound)

theorem shift_makeAll :
    ∀ (items : List Literal) {store : Store} {held : List Ref},
      store.Sound held →
      Shift store held (Form.namesOfAll items) []
        (makeAll items store).2 ((makeAll items store).1 ++ held)
  | [], store, held, sound => by
      rw [makeAll, Form.namesOfAll]
      exact .still sound (List.Perm.refl _)
  | form :: rest, store, held, sound => by
      have first := shift_make form sound
      have others := shift_makeAll rest first.sound
      rw [makeAll, Form.namesOfAll]
      exact (first.trans others).perm List.perm_middle

theorem shift_makeEntries :
    ∀ (entries : List (Key × Literal)) {store : Store} {held : List Ref},
      store.Sound held →
      Shift store held (Form.namesOfEntries entries) []
        (makeEntries entries store).2 ((makeEntries entries store).1.map Prod.snd ++ held)
  | [], store, held, sound => by
      rw [makeEntries, Form.namesOfEntries]
      exact .still sound (List.Perm.refl _)
  | (key, form) :: rest, store, held, sound => by
      have first := shift_make form sound
      have others := shift_makeEntries rest first.sound
      rw [makeEntries, Form.namesOfEntries]
      exact (first.trans others).perm List.perm_middle

end

end Store
end SharedPair
