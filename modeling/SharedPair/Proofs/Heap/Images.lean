import SharedPair.Proofs.Heap.Cycles

/-!
# Images of heaps

A heap is the image of another one when it has its cells under other keys, with values
that lead to the images of the cells that the old values led to.  Tokens may differ.

Two heaps without cycles come to be images of one another without a look at what was
released on the way.  Which cells are alive is settled by what they hold if they are
alive and by what is held outside, and with exact counts so are the counts.
-/

namespace SharedPair

namespace Table

variable {κ κ' α α' β : Type} [DecidableEq κ] [DecidableEq κ'] {t : Table κ α} {t' : Table κ' α'}

theorem map_some_values
    (t : Table κ α) :
    t.values.map some = t.keys.map t.find? := by
  rw [values, keys, List.map_map, List.map_map]
  exact List.map_congr_left fun entry member => (mem_entries_iff.mp member).symm

/-- A table that has the keys of another one by other names has the same values, as far as they are
looked at. -/
theorem map_values_perm
    {σ : κ → κ'} {p : α → β} {p' : α' → β}
    (distinct : Function.Injective σ)
    (same : ∀ key, (t'.find? (σ key)).map p' = (t.find? key).map p)
    (named : ∀ {k value}, t'.find? k = some value → ∃ key, σ key = k) :
    (t'.values.map p').Perm (t.values.map p) := by
  have keys : t'.keys.Perm (t.keys.map σ) := by
    refine (List.perm_ext_iff_of_nodup t'.keys_nodup (t.keys_nodup.map distinct)).mpr fun k => ?_
    constructor
    · intro member
      obtain ⟨value', found'⟩ := find?_of_mem_keys member
      obtain ⟨key, rfl⟩ := named found'
      have read := same key
      rw [found'] at read
      obtain ⟨value, found, -⟩ := Option.map_eq_some_iff.mp read.symm
      exact List.mem_map_of_mem (mem_keys_of_find? found)
    · intro member
      obtain ⟨key, inside, rfl⟩ := List.mem_map.mp member
      obtain ⟨value, found⟩ := find?_of_mem_keys inside
      have read := same key
      rw [found] at read
      obtain ⟨value', found', -⟩ := Option.map_eq_some_iff.mp read
      exact mem_keys_of_find? found'
  refine (List.map_perm_map_iff (Option.some_injective β)).mp ?_
  have read : ∀ {κ α : Type} [DecidableEq κ] (t : Table κ α) (p : α → β),
      (t.values.map p).map some = t.keys.map fun key => (t.find? key).map p := by
    intro κ α _ t p
    have values := congrArg (List.map (Option.map p)) (map_some_values t)
    rw [List.map_map, List.map_map] at values
    rw [List.map_map]
    exact values
  rw [read, read, ← funext same]
  have moved := keys.map fun k => (t'.find? k).map p'
  rwa [List.map_map] at moved

end Table

namespace Leaf

variable {κ τ : Type}

/-- The cell that a leaf leads to, if it is a handle. -/
def target? : Leaf κ τ → Option κ
  | handle key => some key
  | token _ => none

/-- The cells that leaves lead to, in their order. -/
def targets (leaves : List (Leaf κ τ)) : List κ := leaves.filterMap target?

theorem targets_append
    (first second : List (Leaf κ τ)) :
    targets (first ++ second) = targets first ++ targets second :=
  List.filterMap_append

theorem mem_targets_iff
    {key : κ} {leaves : List (Leaf κ τ)} :
    key ∈ targets leaves ↔ .handle key ∈ leaves := by
  rw [targets, List.mem_filterMap]
  constructor
  · rintro ⟨leaf, member, eq⟩
    cases leaf <;> cases eq
    exact member
  · exact fun member => ⟨_, member, rfl⟩

theorem count_targets
    [DecidableEq κ] [DecidableEq τ]
    (key : κ) (leaves : List (Leaf κ τ)) :
    (targets leaves).count key = leaves.count (.handle key) := by
  rw [targets, List.count_filterMap, List.count]
  refine List.countP_congr fun leaf _ => ?_
  cases leaf <;> simp [target?]

end Leaf

namespace Heap

section

variable {κ τ ν : Type} [DecidableEq κ] [Holder ν κ τ] {heap : Heap κ ν} {key k : κ}

theorem holds_iff_targets :
    Holds heap key k ↔
      ∃ value, value? heap key = some value ∧ k ∈ Leaf.targets (Holder.leaves value) :=
  exists_congr fun _ => and_congr_right fun _ => Leaf.mem_targets_iff.symm

omit [DecidableEq κ] in
theorem targets_leaves
    (heap : Heap κ ν) :
    Leaf.targets heap.leaves =
      (heap.values.map Cell.value).flatMap fun value => Leaf.targets (Holder.leaves value) := by
  rw [leaves, Leaf.targets, List.filterMap_flatMap, List.flatMap_map]
  rfl

/-- Where every cell holds cells of a lower rank only, there are no cycles. -/
theorem not_reached_of_descending
    (rank : κ → Nat)
    (descends : ∀ key k, Holds heap key k → rank k < rank key) :
    ¬ ReachedFromCycle heap key := by
  rintro ⟨start, cycle, -⟩
  have lower : ∀ i j, Relation.TransGen (Holds heap) i j → rank j < rank i := by
    intro i j path
    induction path with
    | single holds => exact descends _ _ holds
    | tail _ holds ih => exact (descends _ _ holds).trans ih
  exact Nat.lt_irrefl _ (lower start start cycle)

/-- What the living cells of a heap hold, if they are alive. -/
def Within (content : κ → Option ν) (heap : Heap κ ν) : Prop :=
  ∀ key value, value? heap key = some value → content key = some value

namespace Within

variable {content : κ → Option ν} {value : ν}

omit [Holder ν κ τ] in
theorem refl
    (heap : Heap κ ν) :
    Within (value? heap) heap :=
  fun _ _ => id

theorem release
    (within : Within content heap)
    (waiting : List (Leaf κ τ)) :
    Within content (release heap waiting).1 :=
  fun _ _ alive => within _ _ (value?_of_release alive)

omit [Holder ν κ τ] in
theorem acquire
    (within : Within content heap)
    (key : κ) :
    Within content (heap.acquire key) := by
  intro k value alive
  rw [value?_acquire] at alive
  exact within _ _ alive

omit [Holder ν κ τ] in
theorem allocate
    (within : Within content heap)
    (key : κ) (value : ν) :
    Within (Function.update content key (some value)) (heap.allocate key value) := by
  intro k value' alive
  rw [value?_allocate] at alive
  by_cases same : key = k
  · subst same
    rw [if_pos rfl] at alive
    rw [Function.update_self, alive]
  · rw [if_neg same] at alive
    rw [Function.update_of_ne (Ne.symm same)]
    exact within _ _ alive

omit [Holder ν κ τ] in
theorem write
    (within : Within content heap)
    (key : κ) (value : ν) :
    Within (Function.update content key (some value)) (heap.write key value) := by
  intro k value' alive
  rw [value?_write] at alive
  by_cases same : key = k
  · subst same
    rw [if_pos rfl] at alive
    obtain ⟨_, -, rfl⟩ := Option.map_eq_some_iff.mp alive
    rw [Function.update_self]
  · rw [if_neg same] at alive
    rw [Function.update_of_ne (Ne.symm same)]
    exact within _ _ alive

end Within

end

variable {κ κ' τ τ' ν ν' : Type} [DecidableEq κ] [DecidableEq κ'] [Holder ν κ τ] [Holder ν' κ' τ']

/-- Contents that are those of another heap under other keys. -/
structure Image (σ : κ → κ') (f : ν → ν') (content : κ → Option ν) (content' : κ' → Option ν') :
    Prop where
  values : ∀ key, content' (σ key) = (content key).map f
  named : ∀ {k value}, content' k = some value → ∃ key, σ key = k

/-- Contents that lead to cells of lower rank, as their images lead to the images of those. -/
structure Faithful (σ : κ → κ') (f : ν → ν') (rank : κ → Nat) (content : κ → Option ν) : Prop where
  leads : ∀ {key value}, content key = some value →
    Leaf.targets (Holder.leaves (f value)) = (Leaf.targets (Holder.leaves value)).map σ
  descends : ∀ {key value}, content key = some value →
    ∀ k ∈ Leaf.targets (Holder.leaves value), rank k < rank key

variable {σ : κ → κ'} {f : ν → ν'} {rank : κ → Nat} {content : κ → Option ν}
  {content' : κ' → Option ν'} {heap : Heap κ ν} {heap' : Heap κ' ν'} {outside : List (Leaf κ τ)}
  {outside' : List (Leaf κ' τ')}

omit [Holder ν κ τ] [Holder ν' κ' τ'] in
/-- A value that is put under a key is put, as its image, under the image of the key. -/
theorem Image.update
    (image : Image σ f content content')
    (distinct : Function.Injective σ)
    (key : κ) (value : ν) :
    Image σ f (Function.update content key (some value))
      (Function.update content' (σ key) (some (f value))) where
  values k := by
    by_cases same : k = key
    · subst same
      rw [Function.update_self, Function.update_self]
      rfl
    · rw [Function.update_of_ne same, Function.update_of_ne (distinct.ne same), image.values]
  named {k value'} found := by
    by_cases same : k = σ key
    · exact ⟨key, same.symm⟩
    · rw [Function.update_of_ne same] at found
      exact image.named found

/-! ## Contents settle what is alive -/

section Settle

variable (image : Image σ f content content') (distinct : Function.Injective σ)
  (faithful : Faithful σ f rank content)
  (within : Within content heap) (within' : Within content' heap')

include image within within' in
omit [Holder ν κ τ] [Holder ν' κ' τ'] in
/-- Where a cell and its image are alive, the image holds the image of what the cell holds. -/
theorem Image.agree
    {key : κ} {value : ν} {value' : ν'}
    (alive : value? heap key = some value) (alive' : value? heap' (σ key) = some value') :
    f value = value' := by
  have read := image.values key
  rw [within _ _ alive, within' _ _ alive'] at read
  exact (Option.some.inj read).symm

include image within within' faithful in
/-- Where a cell and its image are alive, the image leads to the images of what the cell leads
to. -/
theorem Image.holds_iff
    {key : κ} {k : κ'} {value : ν} {value' : ν'}
    (alive : value? heap key = some value) (alive' : value? heap' (σ key) = some value') :
    Holds heap' (σ key) k ↔ ∃ j, Holds heap key j ∧ σ j = k := by
  simp only [holds_iff_targets, alive, alive', Option.some.injEq, exists_eq_left',
    ← image.agree within within' alive alive', faithful.leads (within _ _ alive), List.mem_map]

variable [DecidableEq τ] [DecidableEq τ'] (counted : Counted heap outside)
  (counted' : Counted heap' outside')
  (roots : (Leaf.targets outside').Perm ((Leaf.targets outside).map σ))

include image faithful within within' counted counted' roots in
/-- The image of what is alive is alive. -/
theorem Image.alive
    {key : κ} {value : ν}
    (alive : value? heap key = some value) :
    ∃ value', value? heap' (σ key) = some value' := by
  have apart : ¬ ReachedFromCycle heap key := not_reached_of_descending rank <| by
    intro j k holds
    obtain ⟨value, alive, member⟩ := holds_iff_targets.mp holds
    exact faithful.descends (within _ _ alive) k member
  obtain ⟨root, member, path⟩ := counted.reached_from_outside alive apart
  clear alive apart
  induction path with
  | refl =>
      have target := List.mem_map_of_mem (f := σ) (Leaf.mem_targets_iff.mpr member)
      exact counted'.alive_of_outside (Leaf.mem_targets_iff.mp (roots.mem_iff.mpr target))
  | tail _ holds ih =>
      obtain ⟨value', alive'⟩ := ih
      obtain ⟨value, alive, -⟩ := id holds
      have holds' := (image.holds_iff faithful within within' alive alive').mpr ⟨_, holds, rfl⟩
      exact counted'.alive_of_holds holds'

include image distinct faithful within within' counted counted' roots in
/-- What is alive in the second heap is the image of something alive. -/
theorem Image.alive_of
    {k : κ'} {value' : ν'}
    (alive' : value? heap' k = some value') :
    ∃ key value, σ key = k ∧ value? heap key = some value := by
  -- the ranks of the second heap are those of the first, under the other keys
  have apart : ¬ ReachedFromCycle heap' k :=
    not_reached_of_descending (Function.extend σ rank 0) <| by
      intro j k holds
      obtain ⟨value', alive', member⟩ := holds_iff_targets.mp holds
      obtain ⟨key, rfl⟩ := image.named (within' _ _ alive')
      obtain ⟨value, known, rfl⟩ := Option.map_eq_some_iff.mp
        ((image.values key).symm.trans (within' _ _ alive'))
      rw [faithful.leads known] at member
      obtain ⟨target, inside, rfl⟩ := List.mem_map.mp member
      rw [distinct.extend_apply, distinct.extend_apply]
      exact faithful.descends known target inside
  obtain ⟨root, member, path⟩ := counted'.reached_from_outside alive' apart
  clear alive' apart
  induction path with
  | refl =>
      obtain ⟨key, inside, rfl⟩ :=
        List.mem_map.mp (roots.mem_iff.mp (Leaf.mem_targets_iff.mpr member))
      obtain ⟨value, alive⟩ := counted.alive_of_outside (Leaf.mem_targets_iff.mp inside)
      exact ⟨key, value, rfl, alive⟩
  | tail _ holds ih =>
      obtain ⟨key, value, rfl, alive⟩ := ih
      obtain ⟨value', alive', -⟩ := id holds
      obtain ⟨target, inside, rfl⟩ :=
        (image.holds_iff faithful within within' alive alive').mp holds
      obtain ⟨value, alive⟩ := counted.alive_of_holds inside
      exact ⟨target, value, rfl, alive⟩

include image distinct faithful within within' counted counted' roots in
/-- **Contents settle what is alive.**  Two heaps whose contents are images of one another, and lead
downwards only, are images of one another as soon as what is held outside corresponds. -/
theorem Image.settle :
    Image σ f (value? heap) (value? heap') where
  values key := by
    cases alive : value? heap key with
    | some value =>
        obtain ⟨value', alive'⟩ :=
          image.alive faithful within within' counted counted' roots alive
        rw [alive', ← image.agree within within' alive alive']
        rfl
    | none =>
        refine Option.eq_none_iff_forall_ne_some.mpr fun value' alive' => ?_
        obtain ⟨k, value, same, alive''⟩ :=
          image.alive_of distinct faithful within within' counted counted' roots alive'
        rw [distinct same, alive] at alive''
        cases alive''
  named alive' := image.named (within' _ _ alive')

end Settle

/-! ## Images have the same counts -/

variable [DecidableEq τ] [DecidableEq τ']

/-- **Images have the same counts**, where what is held outside corresponds. -/
theorem Image.count
    (image : Image σ f (value? heap) (value? heap'))
    (distinct : Function.Injective σ)
    (faithful : Faithful σ f rank (value? heap))
    (counted : Counted heap outside) (counted' : Counted heap' outside')
    (roots : (Leaf.targets outside').Perm ((Leaf.targets outside).map σ))
    (key : κ) :
    heap'.count (σ key) = heap.count key := by
  have values : (heap'.values.map Cell.value).Perm (heap.values.map (f ∘ Cell.value)) := by
    refine Table.map_values_perm distinct (fun key => ?_) fun found => ?_
    · rw [← Option.map_map]
      exact image.values key
    · exact image.named (value?_of_find? found)
  have inside : (Leaf.targets heap'.leaves).Perm ((Leaf.targets heap.leaves).map σ) := by
    rw [targets_leaves, targets_leaves, List.map_flatMap, List.flatMap_map, List.flatMap_map]
    have moved := values.flatMap_right fun value => Leaf.targets (Holder.leaves value)
    rw [List.flatMap_map, List.flatMap_map] at moved
    refine moved.trans (.of_eq (List.flatMap_congr fun cell member => ?_))
    obtain ⟨key, found⟩ := Table.mem_values_iff.mp member
    exact faithful.leads (value?_of_find? found)
  rw [counted.exact, counted'.exact, held_eq_count, held_eq_count, ← Leaf.count_targets,
    ← Leaf.count_targets, ← Leaf.count_targets, ← Leaf.count_targets, roots.count_eq,
    inside.count_eq, List.count_map_of_injective _ _ distinct,
    List.count_map_of_injective _ _ distinct]

end Heap
end SharedPair
