import SharedPair.Proofs.Session.Calls

/-!
# References to objects

The count of an object is the number of references to it: slots that hold it, items of
lists and tuples, values of dictionaries.  It is exact after every step of a session,
whatever the steps share, replace, nest in one another, make circular or give up.

An object is there as long as it has references, and never again afterwards.  So the
opaque things that a step reports are those that lose their last reference in it, and
none is reported twice.
-/

namespace SharedPair

namespace Store

variable {store store' : Store} {held held' : List Ref} {born ended : List String}

/-- The opaque things that are there, with their numbers and names. -/
def things (store : Store) : List (Nat × String) :=
  store.cells.entries.filterMap fun (id, cell) => cell.value.name?.map (id, ·)

theorem mem_things_iff
    {id : Nat} {name : String} :
    (id, name) ∈ store.things ↔ Heap.value? store.cells id = some (.named name) := by
  unfold things
  rw [List.mem_filterMap]
  constructor
  · rintro ⟨⟨key, cell⟩, entry, eq⟩
    obtain ⟨name', named, eq⟩ := Option.map_eq_some_iff.mp eq
    cases eq
    rw [Heap.value?, Table.mem_entries_iff.mp entry]
    rcases cell with ⟨node, count⟩
    cases node <;> cases named
    rfl
  · intro found
    obtain ⟨cell, alive, eq⟩ := Option.map_eq_some_iff.mp found
    refine ⟨(id, cell), Table.mem_entries_iff.mpr alive, ?_⟩
    simp only [eq]
    rfl

theorem nodup_things
    (store : Store) :
    store.things.Nodup := by
  have keys : store.cells.entries.Pairwise fun entry entry' => entry.1 ≠ entry'.1 :=
    List.pairwise_map.mp store.cells.nodup
  refine List.Pairwise.filterMap _ ?_ keys
  intro entry entry' apart thing eq thing' eq' same
  obtain ⟨_, -, eq⟩ := Option.map_eq_some_iff.mp eq
  obtain ⟨_, -, eq'⟩ := Option.map_eq_some_iff.mp eq'
  rw [same, ← eq'] at eq
  exact apart (Prod.mk.inj eq).1

theorem names_things
    (store : Store) :
    store.things.map Prod.snd = Leaf.tokens store.cells.leaves := by
  rw [things, Heap.leaves, Leaf.tokens, List.map_filterMap, List.filterMap_flatMap, Table.values,
    List.flatMap_map, List.filterMap_eq_flatMap_toList]
  congr 1
  funext entry
  rw [Option.map_map]
  exact (congrArg Option.toList Option.map_id').trans entry.2.value.tokens_leaves.symm

/-- The names of what is there balance. -/
theorem Shift.names_things
    (shift : Shift store held born ended store' held') :
    (store.things.map Prod.snd ++ born).Perm (ended ++ store'.things.map Prod.snd) := by
  rcases shift.books with ⟨made, freed, books⟩
  have tokens := books.tokens
  rw [Leaf.tokens_append, Leaf.tokens_append, Ref.tokens_handles, Ref.tokens_handles] at tokens
  rw [Store.names_things, Store.names_things]
  exact tokens

/-- An opaque thing stays what it is as long as it is there. -/
theorem Shift.mem_things_iff
    (shift : Shift store held born ended store' held')
    (sound : store.Sound held)
    {id : Nat} {name : String} :
    (id, name) ∈ store'.things ∧ id < store.next ↔
      (id, name) ∈ store.things ∧ store'.Has (.object id) := by
  rw [Store.mem_things_iff, Store.mem_things_iff]
  constructor
  · rintro ⟨found, used⟩
    obtain ⟨old, before, same⟩ := shift.evolves.values used found
    rw [before, ← same (.inr trivial)]
    obtain ⟨cell, alive, -⟩ := Option.map_eq_some_iff.mp found
    exact ⟨rfl, cell, alive⟩
  · rintro ⟨found, cell, alive⟩
    obtain ⟨old, before, -⟩ := Option.map_eq_some_iff.mp found
    have used := sound.fresh id (Table.mem_keys_of_find? before)
    have after : Heap.value? store'.cells id = some cell.value := by
      rw [Heap.value?, alive]
      rfl
    rw [after, shift.evolves.value?_of_fixed found used trivial after]
    exact ⟨rfl, used⟩

end Store

namespace Session
namespace State

variable {s : State}

/-- How many references to an object there are: in the slots, among the items of living lists and
tuples, and among the values of living dictionaries. -/
def references (s : State) (id : Nat) : Nat :=
  s.slots.values.count (.object id) +
    (s.store.cells.values.flatMap fun cell => cell.value.positions).count (.object id)

theorem references_eq_held
    (s : State) (id : Nat) :
    s.references id = Heap.held s.store.cells (Ref.handles s.roots) id := by
  rw [Heap.held_eq_count, Ref.count_handles, references, Heap.leaves, List.count_flatMap,
    List.count_flatMap]
  congr 2
  exact List.map_congr_left fun cell _ => (cell.value.count_leaves id).symm

/-! ## What sound states tell -/

theorem count_eq_references
    (sound : s.store.Sound s.roots)
    {id : Nat} {cell : Cell Node}
    (found : s.store.cells.find? id = some cell) :
    cell.count = s.references id := by
  rw [references_eq_held, ← sound.counted.exact, Heap.count_of_find? found]

/-- An object is there just as long as it has references. -/
theorem references_eq_zero_iff
    (sound : s.store.Sound s.roots)
    {id : Nat} :
    s.references id = 0 ↔ s.store.cells.find? id = none := by
  cases found : s.store.cells.find? id with
  | none =>
      rw [references_eq_held, ← sound.counted.exact, Heap.count_of_find?_eq_none found]
      simp
  | some cell =>
      have positive := sound.counted.positive id cell found
      rw [count_eq_references sound found] at positive
      simp
      omega

theorem has_iff_references
    (sound : s.store.Sound s.roots)
    {id : Nat} :
    s.store.Has (.object id) ↔ s.references id ≠ 0 := by
  rw [ne_eq, references_eq_zero_iff sound, ← ne_eq, Option.ne_none_iff_exists']
  exact Iff.rfl

/-- A state without one of its objects. -/
def without (s : State) (id : Nat) : State :=
  { s with store := { s.store with cells := s.store.cells.erase id } }

/-- The references in one container stand beside those everywhere else. -/
theorem references_of_find?
    {id : Nat} {cell : Cell Node}
    (found : s.store.cells.find? id = some cell)
    (target : Nat) :
    s.references target =
      cell.value.positions.count (.object target) + (s.without id).references target := by
  have apart := ((Table.values_perm_erase found).flatMap_right fun cell : Cell Node =>
    cell.value.positions).count_eq (.object target)
  rw [List.flatMap_cons, List.count_append] at apart
  unfold references without
  rw [apart]
  simp only
  omega

/-! ## What is lost and what is new -/

/-- The opaque things that lose their last reference between two states. -/
def lost (s after : State) : List (Nat × String) :=
  s.store.things.filter fun thing => decide (after.references thing.1 = 0)

/-- The opaque things that are there and were not yet made. -/
def newborn (s after : State) : List (Nat × String) :=
  after.store.things.filter fun thing => decide (s.store.next ≤ thing.1)

theorem mem_lost_iff
    {after : State}
    (sound : after.store.Sound after.roots)
    {id : Nat} {thing : String} :
    (id, thing) ∈ s.lost after ↔
      Heap.value? s.store.cells id = some (.named thing) ∧
        Heap.value? after.store.cells id = none := by
  rw [lost, List.mem_filter, Store.mem_things_iff, decide_eq_true_iff, references_eq_zero_iff sound,
    Heap.value?, Heap.value?, Option.map_eq_none_iff]

/-- What is neither lost nor new is there before and afterwards. -/
theorem kept_perm
    {after : State} {made freed : List String}
    (sound : s.store.Sound s.roots)
    (shift : s.store.Shift s.roots made freed after.store after.roots) :
    (s.store.things.filter fun thing => !decide (after.references thing.1 = 0)).Perm
      (after.store.things.filter fun thing => !decide (s.store.next ≤ thing.1)) := by
  refine (List.perm_ext_iff_of_nodup (s.store.nodup_things.filter _)
    (after.store.nodup_things.filter _)).mpr ?_
  rintro ⟨id, name⟩
  have same : (id, name) ∈ after.store.things ∧ id < s.store.next ↔
      (id, name) ∈ s.store.things ∧ after.store.Has (.object id) :=
    shift.mem_things_iff sound
  rw [has_iff_references shift.sound] at same
  simp only [List.mem_filter, Bool.not_eq_true', decide_eq_false_iff_not, Nat.not_le]
  exact same.symm

/-- **What is freed.**  The names that a step reports, and those of the new things that are there
after it, are the names of the things that it lost and of those that it made. -/
theorem freed_perm
    {after : State} {made freed : List String}
    (sound : s.store.Sound s.roots)
    (shift : s.store.Shift s.roots made freed after.store after.roots) :
    (freed ++ (newborn s after).map Prod.snd).Perm ((lost s after).map Prod.snd ++ made) := by
  have kept := (kept_perm sound shift).map Prod.snd
  have before := (List.filter_append_perm
    (fun thing : Nat × String => decide (after.references thing.1 = 0)) s.store.things).map Prod.snd
  have later := (List.filter_append_perm
    (fun thing : Nat × String => decide (s.store.next ≤ thing.1)) after.store.things).map Prod.snd
  have balance := shift.names_things
  rw [List.perm_iff_count]
  intro name
  have kept := kept.count_eq name
  have before := before.count_eq name
  have later := later.count_eq name
  have balance := balance.count_eq name
  simp only [List.map_append, List.count_append] at before later balance ⊢
  unfold lost newborn
  omega

/-- An object that is gone stays away. -/
theorem references_eq_zero_of_shift
    {after : State} {made freed : List String}
    (sound : s.store.Sound s.roots)
    (shift : s.store.Shift s.roots made freed after.store after.roots)
    {id : Nat}
    (used : id < s.store.next)
    (gone : s.references id = 0) :
    after.references id = 0 := by
  rw [references_eq_zero_iff sound] at gone
  rw [references_eq_zero_iff shift.sound]
  cases alive : after.store.cells.find? id with
  | none =>
      rfl
  | some cell =>
      have found : Heap.value? after.store.cells id = some cell.value := by
        rw [Heap.value?, alive]
        rfl
      obtain ⟨old, before, -⟩ := shift.evolves.values used found
      rw [Heap.value?, gone] at before
      cases before

end State

/-! ## Runs -/

/-- The names that some entries report as freed, in their order. -/
def freedOf (entries : List Entry) : List String :=
  entries.flatMap fun entry => entry.effect.freed

theorem freedOf_transcript
    (filter : Filter) (steps : List Step) :
    let ran := machine.run (State.initial filter) steps
    freedOf (transcript filter steps) = freedOf ran.2 ++ ran.1.finish.2.freed := by
  show List.flatMap _ (_ ++ [_]) = _
  rw [List.flatMap_append, List.flatMap_singleton]
  rfl

/-- The names of the opaque things that are written in an argument. -/
def Argument.names : Argument → List String
  | .fresh expression => expression.names
  | .slot _ => []

/-- The names of the opaque things that are written in a step. -/
def Step.names : Step → List String
  | .new _ expression => expression.names
  | .call arguments _ => arguments.inOrder.flatMap Argument.names
  | .set _ _ value => value.names
  | .append _ value => value.names
  | _ => []

namespace State

variable {s : State}

theorem accounts_source
    (s : State) (argument : Argument) :
    (s.source argument).Accounts Source.names [] argument.names := by
  cases argument with
  | fresh expression =>
      exact expression.accounts_evaluate.map fun _ _ => rfl
  | slot name =>
      constructor
      · intro failure failed name
        exact Nat.zero_le _
      · intro source done name
        obtain ⟨ref, -, rfl⟩ := held_of_source_slot done
        rfl

/-- A step makes no more than what is written in it. -/
theorem count_made_le
    (s : State) (step : Step) (name : String) :
    (step.made s).count name ≤ step.names.count name := by
  cases step with
  | new slot expression =>
      exact expression.accounts_evaluate.count_made_le name
  | call arguments slot =>
      exact (arguments.accounts_evaluate s.accounts_source).count_made_le name
  | set container index value =>
      exact (s.accounts_source value).count_made_le name
  | append container value =>
      rw [Step.made]
      split
      · split
        · exact (s.accounts_source value).count_made_le name
        · exact Nat.zero_le _
      · exact Nat.zero_le _
  | _ =>
      exact Nat.le_refl _

/-- Every name that is reported or still there was there before or is written in the steps. -/
theorem count_freed_run
    (name : String) (steps : List Step) {s : State}
    (sound : s.store.Sound s.roots) :
    (freedOf (machine.run s steps).2).count name +
        ((machine.run s steps).1.store.things.map Prod.snd).count name ≤
      (s.store.things.map Prod.snd).count name + (steps.flatMap Step.names).count name := by
  induction steps generalizing s with
  | nil =>
      exact Nat.le_of_eq (Nat.add_comm _ _)
  | cons step rest ih =>
      have shift := shift_step sound step
      have first := shift.names_things.count_eq name
      have written := count_made_le s step name
      have later := ih shift.sound
      show ((s.step step).2.freed ++ freedOf (machine.run (s.step step).1 rest).2).count name +
        ((machine.run (s.step step).1 rest).1.store.things.map Prod.snd).count name ≤ _
      rw [List.flatMap_cons, List.count_append, List.count_append]
      rw [List.count_append, List.count_append] at first
      omega

/-- Up to the end of the slots, no name is reported more often than it is written. -/
theorem count_freed_transcript_le
    (filter : Filter) (steps : List Step) (name : String) :
    (freedOf (transcript filter steps)).count name ≤ (steps.flatMap Step.names).count name := by
  have start := sound_initial filter
  have sound := sound_run steps start
  have before := count_freed_run name steps start
  have ended := (shift_finish sound).names_things.count_eq name
  rw [freedOf_transcript, List.count_append]
  rw [List.append_nil, List.count_append] at ended
  have none : ((initial filter).store.things.map Prod.snd).count name = 0 := rfl
  omega

theorem references_eq_zero_of_run
    {id : Nat} (steps : List Step) {s : State}
    (sound : s.store.Sound s.roots)
    (used : id < s.store.next)
    (gone : s.references id = 0) :
    (machine.run s steps).1.references id = 0 := by
  induction steps generalizing s with
  | nil => exact gone
  | cons step rest ih =>
      have shift := shift_step sound step
      exact ih shift.sound
        (Nat.lt_of_lt_of_le used shift.evolves.next)
        (references_eq_zero_of_shift sound shift used gone)

/-- A pair that a call returned counts once for each of its two positions. -/
theorem references_of_call
    (sound : s.store.Sound s.roots)
    {arguments : Arguments Argument} {name : String}
    (accepted : (s.call arguments name).2.reply = .done) :
    ∃ id x y, (s.call arguments name).1.slots.find? name = some (.object id) ∧
      Heap.value? (s.call arguments name).1.store.cells id = some (.tuple [x, y]) ∧
      ∀ target, (s.call arguments name).1.references target =
        [x, y].count (.object target) +
          ((s.call arguments name).1.without id).references target := by
  obtain ⟨sources, first, second, evaluated, bound⟩ := bound_of_accepted accepted
  obtain ⟨x, y, taken, -⟩ := Store.bind_takeArguments s.store bound
  obtain ⟨id, stored, -, items⟩ := pair_of_bound sound evaluated taken name
  obtain ⟨cell, alive, tuple⟩ := Option.map_eq_some_iff.mp items
  refine ⟨id, x, y, stored, items, fun target => ?_⟩
  rw [references_of_find? alive target, tuple]
  rfl

end State

/-- **Reference counts.**  After any steps, whether they succeed or fail:

* the count of an object that is there is the number of references to it, and there is one;
* an object without references is gone, and it stays away whatever steps come after;
* a pair that a call returns counts for each of its two positions;
* a step reports, once each, the opaque things that lose their last reference in it, and those that
  it made itself and did not keep;
* no name is reported more often than opaque things of that name are written in the steps. -/
theorem references_exact_of_run
    (filter : Filter) (steps : List Step) :
    let s := (machine.run (State.initial filter) steps).1
    (∀ id cell, s.store.cells.find? id = some cell →
      cell.count = s.references id ∧ 0 < cell.count) ∧
    (∀ id, s.references id = 0 ↔ s.store.cells.find? id = none) ∧
    (∀ more id, id < s.store.next → s.references id = 0 →
      (machine.run s more).1.references id = 0) ∧
    (∀ arguments name, (s.step (.call arguments name)).2.reply = .done →
      let after := (s.step (.call arguments name)).1
      ∃ id x y, after.slots.find? name = some (.object id) ∧
        Heap.value? after.store.cells id = some (.tuple [x, y]) ∧
        ∀ target, after.references target =
          [x, y].count (.object target) + (after.without id).references target) ∧
    (∀ step, let after := (s.step step).1
      ((s.step step).2.freed ++ (s.newborn after).map Prod.snd).Perm
        ((s.lost after).map Prod.snd ++ step.made s)) ∧
    (∀ name, (freedOf (transcript filter steps)).count name ≤
      (steps.flatMap Step.names).count name) := by
  intro s
  have sound : s.store.Sound s.roots := State.sound_run steps (State.sound_initial filter)
  refine ⟨?_, ?_, ?_, ?_, ?_, ?_⟩
  · intro id cell found
    exact ⟨State.count_eq_references sound found, sound.counted.positive id cell found⟩
  · intro id
    exact State.references_eq_zero_iff sound
  · intro more id used gone
    exact State.references_eq_zero_of_run more sound used gone
  · intro arguments name accepted
    exact State.references_of_call sound accepted
  · intro step
    exact State.freed_perm sound (State.shift_step sound step)
  · intro name
    exact State.count_freed_transcript_le filter steps name

end Session
end SharedPair
