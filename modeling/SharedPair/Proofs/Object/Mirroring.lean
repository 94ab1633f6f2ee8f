import SharedPair.Proofs.Object.Mirror

/-!
# Making objects in a mirror

Whatever is made in a store and in its mirror is made alike: the references
correspond, the next numbers go on in step, and the mirror stays one.  What is made of
guests, in the mirror alone, is a guest.

A store is a mirror of itself under every renaming that leaves the numbers in use as
they are.  Comparisons start from there; when the mirror then makes objects for itself,
the renaming passes over their numbers.
-/

namespace SharedPair

open Session (Source)

namespace Store

variable {ρ : Nat → Nat} {kept : Nat → Prop} {store store' : Store} {held guests : List Ref}

/-- Making several things in both stores. -/
structure MakesAll (ρ : Nat → Nat) (kept : Nat → Prop) (guests held : List Ref)
    (x y : List Ref × Store) : Prop where
  refs : y.1 = x.1.map (Ref.rename ρ)
  mirror : Mirror ρ kept guests x.2 (x.1 ++ held) y.2
  inStep : InStep ρ x.2 y.2

theorem Makes.cons
    {x y : Ref × Store} {xs ys : List Ref × Store}
    (first : Makes ρ kept guests held x y)
    (others : MakesAll ρ kept guests (x.1 :: held) xs ys) :
    MakesAll ρ kept guests held (x.1 :: xs.1, xs.2) (y.1 :: ys.1, ys.2) where
  refs := congr (congrArg List.cons first.ref) others.refs
  mirror := others.mirror.perm List.perm_middle (.refl _)
  inStep := others.inStep

theorem MakesAll.reverse
    {x y : List Ref × Store}
    (made : MakesAll ρ kept guests held x y) :
    MakesAll ρ kept guests held (x.1.reverse, x.2) (y.1.reverse, y.2) where
  refs := by
    rw [List.map_reverse, made.refs]
  mirror := made.mirror.perm ((List.reverse_perm x.1).symm.append_right held) (.refl _)
  inStep := made.inStep

theorem has_acquire_iff
    {ref target : Ref} :
    (store.acquire ref).Has target ↔ store.Has target := by
  cases target with
  | object id => rw [has_object_iff, has_object_iff, value?_acquire]
  | _ => exact Iff.rfl

namespace Mirror

theorem atom
    (a : Atom)
    (mirror : Mirror ρ kept guests store held store')
    (inStep : InStep ρ store store') :
    Makes ρ kept guests held (store.atom a) (store'.atom a) := by
  unfold Store.atom
  split
  · exact ⟨rfl, mirror.plain rfl rfl, inStep⟩
  · exact mirror.allocate (.atom a) inStep

theorem tuple
    {items : List Ref}
    (mirror : Mirror ρ kept guests store (items ++ held) store')
    (inStep : InStep ρ store store') :
    Makes ρ kept guests held (store.tuple items) (store'.tuple (items.map (Ref.rename ρ))) := by
  cases items with
  | nil => exact ⟨rfl, mirror.plain rfl rfl, inStep⟩
  | cons item rest => exact mirror.allocate (.tuple (item :: rest)) inStep

theorem pack
    {first second : Ref}
    (mirror : Mirror ρ kept guests store held store')
    (inStep : InStep ρ store store')
    (has : store.Has first) (has' : store.Has second)
    (filter filter' : Filter) :
    Makes ρ kept guests held (store.pack filter first second).1
      (store'.pack filter' (first.rename ρ) (second.rename ρ)).1 := by
  rw [pack_eq, pack_eq]
  have one := mirror.acquire has
  have two := one.acquire (has_acquire_iff.mpr has')
  have both : Mirror ρ kept guests _ ([first, second] ++ held) _ :=
    two.perm (.swap _ _ _) (.refl _)
  exact both.tuple (inStep_acquire (inStep_acquire inStep))

end Mirror

mutual

theorem makes_make :
    ∀ (form : Literal) {store store' : Store} {held : List Ref},
      Mirror ρ kept guests store held store' → InStep ρ store store' →
      Makes ρ kept guests held (make form store) (make form store')
  | .atom a, store, store', held, mirror, inStep => by
      rw [make, make]
      exact mirror.atom a inStep
  | .named name, store, store', held, mirror, inStep => by
      rw [make, make]
      exact mirror.allocate (.named name) inStep
  | .buffer bs, store, store', held, mirror, inStep => by
      rw [make, make]
      exact mirror.allocate (.buffer bs) inStep
  | .set members, store, store', held, mirror, inStep => by
      rw [make, make]
      exact mirror.allocate (.set members) inStep
  | .list items, store, store', held, mirror, inStep => by
      have made := makes_makeAll items mirror inStep
      have whole := made.mirror.allocate (.list _) made.inStep
      rw [Node.rename, ← made.refs] at whole
      rw [make, make]
      exact whole
  | .tuple items, store, store', held, mirror, inStep => by
      have made := makes_makeAll items mirror inStep
      have whole := made.mirror.tuple made.inStep
      rw [← made.refs] at whole
      rw [make, make]
      exact whole
  | .dict entries, store, store', held, mirror, inStep => by
      obtain ⟨same, made⟩ := makes_makeEntries entries mirror inStep
      have whole := made.mirror.allocate (.dict _) made.inStep
      rw [Node.rename, ← same] at whole
      rw [make, make]
      exact whole

theorem makes_makeAll :
    ∀ (items : List Literal) {store store' : Store} {held : List Ref},
      Mirror ρ kept guests store held store' → InStep ρ store store' →
      MakesAll ρ kept guests held (makeAll items store) (makeAll items store')
  | [], store, store', held, mirror, inStep => by
      rw [makeAll, makeAll]
      exact ⟨rfl, mirror, inStep⟩
  | form :: rest, store, store', held, mirror, inStep => by
      have first := makes_make form mirror inStep
      have others := makes_makeAll rest first.mirror first.inStep
      rw [makeAll, makeAll]
      exact first.cons others

theorem makes_makeEntries :
    ∀ (entries : List (Key × Literal)) {store store' : Store} {held : List Ref},
      Mirror ρ kept guests store held store' → InStep ρ store store' →
      (makeEntries entries store').1 =
          (makeEntries entries store).1.map (fun (key, value) => (key, value.rename ρ)) ∧
        MakesAll ρ kept guests held
          ((makeEntries entries store).1.map Prod.snd, (makeEntries entries store).2)
          ((makeEntries entries store').1.map Prod.snd, (makeEntries entries store').2)
  | [], store, store', held, mirror, inStep => by
      rw [makeEntries, makeEntries]
      exact ⟨rfl, rfl, mirror, inStep⟩
  | (key, form) :: rest, store, store', held, mirror, inStep => by
      have first := makes_make form mirror inStep
      obtain ⟨same, others⟩ := makes_makeEntries rest first.mirror first.inStep
      rw [makeEntries, makeEntries]
      exact ⟨congr (congrArg List.cons (congrArg (Prod.mk key) first.ref)) same, first.cons others⟩

end

namespace Mirror

theorem take
    {source : Source}
    (mirror : Mirror ρ kept guests store held store')
    (inStep : InStep ρ store store')
    (there : source.There held) :
    Makes ρ kept guests held (store.take source) (store'.take (source.rename ρ)) := by
  cases source with
  | literal form => exact makes_make form mirror inStep
  | held ref =>
      exact ⟨rfl, mirror.acquire (mirror.sound.has_of_mem there), inStep_acquire inStep⟩

theorem takeAll
    {sources : List Source} {store store' : Store} {held : List Ref}
    (mirror : Mirror ρ kept guests store held store')
    (inStep : InStep ρ store store')
    (there : ∀ source ∈ sources, source.There held) :
    MakesAll ρ kept guests held (store.takeAll sources)
      (store'.takeAll (sources.map (Source.rename ρ))) := by
  induction sources generalizing store store' held with
  | nil => exact ⟨rfl, mirror, inStep⟩
  | cons source rest ih =>
      have first := mirror.take inStep (there source List.mem_cons_self)
      have others := ih first.mirror first.inStep fun source member =>
        (there source (List.mem_cons_of_mem _ member)).mono fun ref => List.mem_cons_of_mem _
      exact first.cons others

theorem takeArguments
    {sources : Arguments Source}
    (mirror : Mirror ρ kept guests store held store')
    (inStep : InStep ρ store store')
    (there : ∀ source ∈ sources.inOrder, source.There held) :
    (store'.takeArguments (sources.map (Source.rename ρ))).1 =
        (store.takeArguments sources).1.map (Ref.rename ρ) ∧
      MakesAll ρ kept guests held
        ((store.takeArguments sources).1.inOrder, (store.takeArguments sources).2)
        ((store'.takeArguments (sources.map (Source.rename ρ))).1.inOrder,
          (store'.takeArguments (sources.map (Source.rename ρ))).2) := by
  have made := mirror.takeAll inStep there
  rw [← Arguments.inOrder_map] at made
  refine ⟨?_, ?_⟩
  · show Arguments.replace _ _ = Arguments.map _ (Arguments.replace _ _)
    rw [made.refs, Arguments.replace_map, Arguments.map_replace]
  · rw [inOrder_takeArguments, inOrder_takeArguments]
    exact made

end Mirror

/-! ## Guests -/

namespace Mirror

theorem atom_guest
    (a : Atom)
    (mirror : Mirror ρ kept guests store held store') :
    Mirror ρ kept ((store'.atom a).1 :: guests) store held (store'.atom a).2 := by
  unfold Store.atom
  split
  · exact mirror.plain_guest rfl
  · exact mirror.allocate_guest (.atom a)

theorem tuple_guest
    {items : List Ref}
    (mirror : Mirror ρ kept (items ++ guests) store held store') :
    Mirror ρ kept ((store'.tuple items).1 :: guests) store held (store'.tuple items).2 := by
  cases items with
  | nil => exact mirror.plain_guest rfl
  | cons item rest => exact mirror.allocate_guest (.tuple (item :: rest))

end Mirror

mutual

theorem make_guest :
    ∀ (form : Literal) {store' : Store} {guests : List Ref},
      Mirror ρ kept guests store held store' →
      Mirror ρ kept ((make form store').1 :: guests) store held (make form store').2
  | .atom a, store', guests, mirror => by
      rw [make]
      exact mirror.atom_guest a
  | .named name, store', guests, mirror => by
      rw [make]
      exact mirror.allocate_guest (.named name)
  | .buffer bs, store', guests, mirror => by
      rw [make]
      exact mirror.allocate_guest (.buffer bs)
  | .set members, store', guests, mirror => by
      rw [make]
      exact mirror.allocate_guest (.set members)
  | .list items, store', guests, mirror => by
      rw [make]
      exact (makeAll_guest items mirror).allocate_guest (.list _)
  | .tuple items, store', guests, mirror => by
      rw [make]
      exact (makeAll_guest items mirror).tuple_guest
  | .dict entries, store', guests, mirror => by
      rw [make]
      exact (makeEntries_guest entries mirror).allocate_guest (.dict _)

theorem makeAll_guest :
    ∀ (items : List Literal) {store' : Store} {guests : List Ref},
      Mirror ρ kept guests store held store' →
      Mirror ρ kept ((makeAll items store').1 ++ guests) store held (makeAll items store').2
  | [], store', guests, mirror => by
      rw [makeAll]
      exact mirror
  | form :: rest, store', guests, mirror => by
      rw [makeAll]
      exact (makeAll_guest rest (make_guest form mirror)).perm (.refl _) List.perm_middle

theorem makeEntries_guest :
    ∀ (entries : List (Key × Literal)) {store' : Store} {guests : List Ref},
      Mirror ρ kept guests store held store' →
      Mirror ρ kept ((makeEntries entries store').1.map Prod.snd ++ guests) store held
        (makeEntries entries store').2
  | [], store', guests, mirror => by
      rw [makeEntries]
      exact mirror
  | (key, form) :: rest, store', guests, mirror => by
      rw [makeEntries]
      exact (makeEntries_guest rest (make_guest form mirror)).perm (.refl _) List.perm_middle

end

namespace Mirror

theorem take_guest
    {source : Source}
    (mirror : Mirror ρ kept guests store held store')
    (there : source.There (held.map (Ref.rename ρ) ++ guests)) :
    Mirror ρ kept ((store'.take source).1 :: guests) store held (store'.take source).2 := by
  cases source with
  | literal form => exact make_guest form mirror
  | held ref => exact mirror.acquire_guest (mirror.sound'.has_of_mem there)

theorem takeAll_guest
    {store' : Store} {guests : List Ref}
    (mirror : Mirror ρ kept guests store held store')
    (sources : List Source)
    (there : ∀ source ∈ sources, source.There (held.map (Ref.rename ρ) ++ guests)) :
    Mirror ρ kept ((store'.takeAll sources).1 ++ guests) store held
      (store'.takeAll sources).2 := by
  induction sources generalizing store' guests with
  | nil => exact mirror
  | cons source rest ih =>
      have first := mirror.take_guest (there source List.mem_cons_self)
      have others := ih first fun source member =>
        (there source (List.mem_cons_of_mem _ member)).mono fun _ inside =>
          ((List.sublist_cons_self _ guests).append_left _).subset inside
      exact others.perm (.refl _) List.perm_middle

end Mirror

/-! ## A store as its own mirror -/

theorem rename_of_has
    (sound : store.Sound held)
    (fixed : ∀ id < store.next, ρ id = id)
    {ref : Ref}
    (has : store.Has ref) :
    ref.rename ρ = ref := by
  cases ref with
  | object id =>
      obtain ⟨node, alive⟩ := has_object_iff.mp has
      exact congrArg Ref.object (fixed id (sound.used alive))
  | _ => rfl

theorem map_rename_of_held
    (sound : store.Sound held)
    (fixed : ∀ id < store.next, ρ id = id) :
    held.map (Ref.rename ρ) = held :=
  (List.map_congr_left fun _ member => rename_of_has sound fixed (sound.has_of_mem member)).trans
    (List.map_id held)

theorem rename_of_value?
    (sound : store.Sound held)
    (fixed : ∀ id < store.next, ρ id = id)
    {id : Nat} {node : Node}
    (alive : Heap.value? store.cells id = some node) :
    node.rename ρ = node :=
  Node.rename_of_positions fun _ member =>
    rename_of_has sound fixed (sound.has_of_position alive member)

/-- A store mirrors itself, under every renaming that leaves what is in use as it is. -/
theorem Sound.mirror
    (sound : store.Sound held)
    (injective : Function.Injective ρ)
    (fixed : ∀ id < store.next, ρ id = id) :
    Mirror ρ (fun _ => False) [] store held store where
  injective := injective
  sound := sound
  sound' := by
    rw [map_rename_of_held sound fixed, List.append_nil]
    exact sound
  values {id node} alive := by
    rw [fixed id (sound.used alive), rename_of_value? sound fixed alive, alive]
  others {id} stranded := by
    obtain ⟨⟨node, alive⟩, unknown⟩ := stranded
    rw [unknown id (fixed id (sound.used alive))] at alive
    cases alive
  lasting := False.elim

/-- The renaming that leaves out some numbers, from a first one on. -/
def passOver (first gap id : Nat) : Nat := if id < first then id else id + gap

theorem passOver_of_lt
    {first id : Nat}
    (old : id < first) (gap : Nat) :
    passOver first gap id = id :=
  if_pos old

theorem passOver_of_le
    {first id : Nat}
    (new : first ≤ id) (gap : Nat) :
    passOver first gap id = id + gap :=
  if_neg (Nat.not_lt.mpr new)

theorem passOver_injective
    (first gap : Nat) :
    Function.Injective (passOver first gap) := by
  intro id id' same
  unfold passOver at same
  split at same <;> split at same <;> omega

/-- Every number is the new number of another one, but for those that are left out. -/
theorem exists_passOver
    {first id : Nat}
    (other : id ≠ first) :
    ∃ old, passOver first 1 old = id := by
  by_cases h : id < first
  · exact ⟨id, passOver_of_lt h 1⟩
  · refine ⟨id - 1, ?_⟩
    rw [passOver_of_le (by omega)]
    omega

theorem passOver_ne
    (first old : Nat) :
    passOver first 1 old ≠ first := by
  unfold passOver
  split <;> omega

theorem inStep_passOver
    {gap : Nat}
    (later : store'.next = store.next + gap) :
    InStep (passOver store.next gap) store store' := by
  intro i
  rw [passOver_of_le (Nat.le_add_right _ _), later]
  omega

end Store
end SharedPair
