import SharedPair.Proofs.Object.Pasting

/-!
# Two objects that are taken in either order

When two arguments are taken, the numbers of the objects that are made for them depend
on which of the two comes first.  Nothing else does: the stores after both orders are
the same, when the two blocks of new numbers change places.

The proof pastes two parts.  The one is what the store is with the first argument alone,
the other is what it is with the second alone.  Both orders have both parts, and the
numbers of a part pass over those that the other argument has used before it.
-/

namespace SharedPair

open Session (Source)

namespace Store

variable {store : Store} {held : List Ref}

/-! ## One argument after another -/

/-- What is held is the same argument under a renaming of new numbers. -/
theorem rename_of_there
    {ρ : Nat → Nat} {source : Source}
    (sound : store.Sound held)
    (fixed : ∀ id < store.next, ρ id = id)
    (there : source.There held) :
    source.rename ρ = source := by
  cases source with
  | literal form => rfl
  | held ref => exact congrArg Source.held (rename_of_has sound fixed (sound.has_of_mem there))

theorem there_take
    {first source : Source}
    (there : source.There held) :
    source.There ((store.take first).1 :: held) :=
  there.mono fun _ => List.mem_cons_of_mem _

section Take

variable {source : Source}
  (sound : store.Sound held) (there : source.There held)
include sound there

/-- The object that is taken is a guest in a mirror of the store before it. -/
theorem mirror_take
    (gap : Nat) :
    Mirror (passOver store.next gap) (fun _ => False) [(store.take source).1] store held
      (store.take source).2 := by
  have fixed : ∀ id < store.next, passOver store.next gap id = id :=
    fun _ old => passOver_of_lt old gap
  refine (sound.mirror (passOver_injective _ _) fixed).take_guest ?_
  rw [map_rename_of_held sound fixed, List.append_nil]
  exact there

/-- An argument that is taken after another one is taken as it is without that one, but for the
numbers. -/
theorem makes_take
    {other : Source} {gap : Nat}
    (there' : other.There held)
    (later : (store.take other).2.next = store.next + gap) :
    Makes (passOver store.next gap) (fun _ => False) [(store.take other).1] held
      (store.take source) ((store.take other).2.take source) := by
  have made := (mirror_take sound there' gap).take (inStep_passOver later) there
  rwa [rename_of_there sound (fun _ old => passOver_of_lt old gap) there] at made

end Take

/-! ## Both orders -/

section Exchange

variable {first second : Source} {gap gap' : Nat}
  (sound : store.Sound held) (there : first.There held) (there' : second.There held)
  (later : (store.take first).2.next = store.next + gap)
  (later' : (store.take second).2.next = store.next + gap')
include sound there there' later later'

/-- The references that are taken change places with their numbers. -/
theorem rename_trade :
    (store.take first).1.rename (trade store.next gap gap') =
        ((store.take second).2.take first).1 ∧
      ((store.take first).2.take second).1.rename (trade store.next gap gap') =
        (store.take second).1 := by
  have one := (shift_take sound there).sound
  have two := (shift_take sound there').sound
  constructor
  · have old : (store.take first).1.rename (passOver (store.next + gap) gap') =
        (store.take first).1 :=
      rename_of_has one (fun _ old => passOver_of_lt (later ▸ old) gap')
        (one.has_of_mem List.mem_cons_self)
    rw [(makes_take sound there there' later').ref, ← trade_comp_passOver' store.next gap gap',
      ← Ref.rename_rename, old]
  · have old : (store.take second).1.rename (passOver (store.next + gap') gap) =
        (store.take second).1 :=
      rename_of_has two (fun _ old => passOver_of_lt (later' ▸ old) gap)
        (two.has_of_mem List.mem_cons_self)
    rw [(makes_take sound there' there later).ref, Ref.rename_rename, trade_comp_passOver, old]

/-- **Exchange.**  Two arguments that are taken in the other order are taken alike, and the stores
are the same when the two blocks of new numbers change places. -/
theorem mirror_exchange :
    Mirror (trade store.next gap gap') (fun _ => False) []
      ((store.take first).2.take second).2
      ([(store.take first).1, ((store.take first).2.take second).1] ++ held)
      ((store.take second).2.take first).2 := by
  have one := (shift_take sound there).sound
  have two := (shift_take sound there').sound
  -- each argument alone, and what becomes of it when the other one is taken after or before it
  have after := mirror_take one (there_take there') gap'
  have before := (makes_take sound there there' later').mirror
  have after' := mirror_take two (there_take there) gap
  have before' := makes_take sound there' there later
  rw [later] at after
  rw [later'] at after'
  rw [← trade_comp_passOver' store.next gap gap'] at before
  rw [← trade_comp_passOver store.next gap gap'] at after'
  have left := (shift_take one (there_take there')).sound.perm (.swap _ _ held)
  have right := (shift_take two (there_take there)).sound
  have fixed : ∀ id < store.next, trade store.next gap gap' id = id :=
    fun _ old => trade_of_lt old gap gap'
  obtain ⟨same, same'⟩ := rename_trade sound there there' later later'
  have renamed : ([(store.take first).1, ((store.take first).2.take second).1] ++ held).map
      (Ref.rename (trade store.next gap gap')) =
        [((store.take second).2.take first).1, (store.take second).1] ++ held := by
    rw [List.map_append, map_rename_of_held sound fixed]
    exact congrArg (· ++ held) (congrArg₂ (fun x y => [x, y]) same same')
  refine after.paste before'.mirror before after' (trade_injective _ _ _) left (renamed ▸ right) ?_
  -- the second object comes with the second part, and all the others with the first
  have kept : ((store.take first).1 :: held).map (Ref.rename (passOver (store.next + gap) gap')) =
      (store.take first).1 :: held :=
    map_rename_of_held one fun _ old => passOver_of_lt (later ▸ old) gap'
  rw [kept]
  intro ref member
  rcases List.mem_cons.mp member with rfl | member
  · exact .inl List.mem_cons_self
  · rcases List.mem_cons.mp member with rfl | member
    · exact .inr (List.mem_map.mpr ⟨_, List.mem_cons_self, before'.ref.symm⟩)
    · exact .inl (List.mem_cons_of_mem _ member)

end Exchange

/-- What is taken in the other order is taken alike, under a renaming of the new numbers. -/
theorem exists_exchange
    {first second : Source}
    (sound : store.Sound held) (there : first.There held) (there' : second.There held) :
    ∃ ρ, (∀ id < store.next, ρ id = id) ∧
      MakesAll ρ (fun _ => False) [] held (store.takeAll [first, second])
        ((store.takeAll [second, first]).1.reverse, (store.takeAll [second, first]).2) := by
  have one := shift_take sound there
  have two := shift_take sound there'
  obtain ⟨gap, later⟩ := Nat.exists_eq_add_of_le one.evolves.next
  obtain ⟨gap', later'⟩ := Nat.exists_eq_add_of_le two.evolves.next
  obtain ⟨same, same'⟩ := rename_trade sound there there' later later'
  refine ⟨trade store.next gap gap', fun _ old => trade_of_lt old gap gap', ?_, ?_, ?_⟩
  · exact congrArg₂ (fun x y => [x, y]) same.symm same'.symm
  · exact mirror_exchange sound there there' later later'
  · have next := (makes_take sound there' there later).inStep 0
    have next' := (makes_take sound there there' later').inStep 0
    rw [later', passOver_of_le (by omega)] at next
    rw [later, passOver_of_le (by omega)] at next'
    exact inStep_trade (next.symm.trans (by omega)) (next'.symm.trans (by omega))

theorem makesAll_of_eq
    {made made' : List Ref × Store}
    (same : made = made')
    (sound : made.2.Sound (made.1 ++ held)) :
    MakesAll id (fun _ => False) [] held made made' where
  refs := by
    rw [Ref.rename_id, List.map_id, same]
  mirror := same ▸ sound.mirror Function.injective_id fun _ _ => rfl
  inStep _ := by
    rw [same]
    rfl

/-- Pairs of objects that are taken alike are shown alike. -/
theorem form_pack_of_makesAll
    {ρ : Nat → Nat} {left right : Store} {x y x' y' : Ref}
    (made : MakesAll ρ (fun _ => False) [] held ([x, y], left) ([x', y'], right))
    (filter : Filter) :
    (right.pack filter x' y').1.2.form (right.pack filter x' y').1.1 =
      (left.pack filter x y).1.2.form (left.pack filter x y).1.1 := by
  obtain ⟨rfl, rfl⟩ : x' = x.rename ρ ∧ y' = y.rename ρ := by
    simpa using made.refs
  have sound : left.Sound ([x, y] ++ held) := made.mirror.sound
  have packed := made.mirror.pack made.inStep (sound.has_of_mem List.mem_cons_self)
    (sound.has_of_mem (List.mem_cons_of_mem _ List.mem_cons_self)) filter filter
  have shown := packed.mirror.form (packed.mirror.sound.has_of_mem List.mem_cons_self)
  rwa [← packed.ref] at shown

/-- **Either order.**  When the same two arguments are bound in two calls, the objects that are
taken for them are taken alike, in whichever order they are written. -/
theorem exists_makesAll_of_bind
    {sources sources' : Arguments Source} {first second : Source} {x y x' y' : Ref}
    (sound : store.Sound held)
    (there : ∀ source ∈ sources.inOrder, source.There held)
    (bound : sources.bind = .ok (first, second)) (bound' : sources'.bind = .ok (first, second))
    (taken : (store.takeArguments sources).1.bind = .ok (x, y))
    (taken' : (store.takeArguments sources').1.bind = .ok (x', y')) :
    ∃ ρ, (∀ id < store.next, ρ id = id) ∧
      MakesAll ρ (fun _ => False) [] held ([x, y], (store.takeArguments sources).2)
        ([x', y'], (store.takeArguments sources').2) := by
  obtain ⟨_, _, again, order⟩ := store.bind_takeArguments bound
  obtain ⟨_, _, again', order'⟩ := store.bind_takeArguments bound'
  rw [taken] at again
  rw [taken'] at again'
  cases again
  cases again'
  have perm := Arguments.inOrder_perm_of_bind bound
  have one := there first (perm.mem_iff.mpr List.mem_cons_self)
  have two := there second (perm.mem_iff.mpr (List.mem_cons_of_mem _ List.mem_cons_self))
  have given := (shift_takeArguments sound there).sound.perm
    ((Arguments.inOrder_perm_of_bind taken).append_right held)
  rcases order with ⟨-, objects⟩ | ⟨-, objects⟩ <;>
    rcases order' with ⟨-, objects'⟩ | ⟨-, objects'⟩
  · exact ⟨id, fun _ _ => rfl, makesAll_of_eq (objects.symm.trans objects') given⟩
  · obtain ⟨ρ, fixed, made⟩ := exists_exchange sound one two
    rw [objects, objects'] at made
    exact ⟨ρ, fixed, made⟩
  · obtain ⟨ρ, fixed, made⟩ := exists_exchange sound two one
    rw [objects, objects'] at made
    exact ⟨ρ, fixed, made.reverse⟩
  · have swapped : (store.takeArguments sources).2.Sound ([y, x] ++ held) :=
      given.perm (.swap y x held)
    have made := makesAll_of_eq (objects.symm.trans objects') swapped
    exact ⟨id, fun _ _ => rfl, made.reverse⟩

end Store
end SharedPair
