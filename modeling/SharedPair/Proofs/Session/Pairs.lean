import SharedPair.Proofs.Object.Showing
import SharedPair.Proofs.Session.References

/-!
# Pairs that last

A pair is a new tuple, and tuples never change.  As long as anything holds the pair,
whatever the session does meanwhile, its items are the very objects that were bound;
the pair keeps them alive, and to show it is to show what they have become.
-/

namespace SharedPair
namespace Session

open Store (Depicts)

namespace State

variable {s : State} {arguments : Arguments Argument} {name : String}

/-- Whether an object is the pair of two others. -/
def IsPair (s : State) (id : Nat) (x y : Ref) : Prop :=
  Heap.value? s.store.cells id = some (.tuple [x, y])

namespace IsPair

variable {id : Nat} {x y : Ref}

theorem contents
    (pair : s.IsPair id x y) :
    s.store.contents (.object id) = .tuple [x, y] := by
  rw [Store.contents, pair]
  rfl

/-- A pair stays what it is while it is there. -/
theorem of_run
    (pair : s.IsPair id x y)
    (sound : s.store.Sound s.roots)
    (steps : List Step)
    (held : (machine.run s steps).1.references id ≠ 0) :
    (machine.run s steps).1.IsPair id x y := by
  obtain ⟨cell, found⟩ := (has_iff_references (sound_run steps sound)).mpr held
  have alive := Heap.value?_of_find? found
  have same := (evolves_run steps sound).value?_of_fixed pair (sound.used pair) trivial alive
  rw [IsPair, alive, same]

theorem has
    (pair : s.IsPair id x y)
    (sound : s.store.Sound s.roots) :
    s.store.Has x ∧ s.store.Has y :=
  ⟨sound.has_of_position pair List.mem_cons_self,
    sound.has_of_position pair (List.mem_cons_of_mem _ List.mem_cons_self)⟩

/-- The items of a pair, from either end. -/
theorem item
    (pair : s.IsPair id x y)
    {i : Int} {ref : Ref}
    (place : (i, ref) ∈ [(0, x), (-2, x), (1, y), (-1, y)]) :
    (s.store.contents (.object id)).item (.label (.int i)) = .ok (.ref ref) := by
  rw [pair.contents]
  simp only [List.mem_cons, List.not_mem_nil, or_false, Prod.mk.injEq] at place
  obtain ⟨rfl, rfl⟩ | ⟨rfl, rfl⟩ | ⟨rfl, rfl⟩ | ⟨rfl, rfl⟩ := place <;> rfl

/-- A pair is shown as the forms that depict its items inside it. -/
theorem form
    (pair : s.IsPair id x y)
    (sound : s.store.Sound s.roots) :
    ∃ first second, Depicts s.store [id] x first ∧ Depicts s.store [id] y second ∧
      s.store.form (.object id) = .tuple [first, second] := by
  obtain ⟨has, has'⟩ := pair.has sound
  exact ⟨_, _, Store.depicts_formBelow sound [id] x has, Store.depicts_formBelow sound [id] y has',
    Store.formBelow_of_value? List.not_mem_nil pair⟩

/-! ### Steps on a slot that holds a pair -/

section Slot

variable {slot : String} (found : s.slots.find? slot = some (.object id))
include found

theorem length
    (pair : s.IsPair id x y) :
    (s.step (.length slot)).2.reply = .length 2 := by
  rw [step, slot_of_find? found]
  show (s.ask ((s.store.contents (.object id)).length >>= fun n => pure (.length n))).2.reply = _
  rw [pair.contents]
  rfl

theorem get
    (pair : s.IsPair id x y)
    {i : Int} {ref : Ref}
    (place : (i, ref) ∈ [(0, x), (-2, x), (1, y), (-1, y)])
    (target : String) :
    (s.step (.get slot (.label (.int i)) target)).2.reply = .done ∧
      (s.step (.get slot (.label (.int i)) target)).1.slots.find? target = some ref := by
  rw [step, State.get, slot_of_find? found]
  simp only [pair.item place]
  exact ⟨rfl, find?_hold _ _ _⟩

theorem display
    (pair : s.IsPair id x y)
    (sound : s.store.Sound s.roots) :
    ∃ first second, Depicts s.store [id] x first ∧ Depicts s.store [id] y second ∧
      (s.step (.display slot)).2.reply = .shown (.tuple [first, second]) := by
  obtain ⟨first, second, depicts, depicts', shown⟩ := pair.form sound
  refine ⟨first, second, depicts, depicts', ?_⟩
  rw [step, slot_of_find? found, ← shown]
  rfl

end Slot
end IsPair

end State

/-- **A pair lasts.**  Take any call that succeeds, in any state that steps lead to, and let x and y
be the objects that it took for its two parameters.  It stores a pair that is none of the objects
that were there.  Whatever steps come then, as long as a slot or a living container holds the pair:

* it has two items; the first, from either end, is x, and the last is y, the identical objects;
* x and y are there;
* a slot that holds the pair answers so: its length is two, reading an item stores x or y, and it is
  shown as the forms that depict x and y inside the pair, as they are now. -/
theorem pair_of_call_lasts
    (filter : Filter) (before more : List Step) (arguments : Arguments Argument) (name : String) :
    let s := (machine.run (State.initial filter) before).1
    let called := (s.step (.call arguments name)).1
    let later := (machine.run called more).1
    (s.step (.call arguments name)).2.reply = .done →
    ∃ id sources x y,
      (s.sources arguments).result = .ok sources ∧
      (s.store.takeArguments sources).1.bind = .ok (x, y) ∧
      called.slots.find? name = some (.object id) ∧
      (∀ old, s.store.Has (.object old) → id ≠ old) ∧
      (later.references id ≠ 0 →
        (later.store.contents (.object id)).length = .ok 2 ∧
        (∀ i ref, (i, ref) ∈ [(0, x), (-2, x), (1, y), (-1, y)] →
          (later.store.contents (.object id)).item (.label (.int i)) = .ok (.ref ref)) ∧
        later.store.Has x ∧ later.store.Has y ∧
        (∃ form form', Depicts later.store [id] x form ∧ Depicts later.store [id] y form' ∧
          later.store.form (.object id) = .tuple [form, form']) ∧
        ∀ slot, later.slots.find? slot = some (.object id) →
          (later.step (.length slot)).2.reply = .length 2 ∧
          (∀ i ref, (i, ref) ∈ [(0, x), (-2, x), (1, y), (-1, y)] → ∀ target,
            (later.step (.get slot (.label (.int i)) target)).2.reply = .done ∧
            (later.step (.get slot (.label (.int i)) target)).1.slots.find? target = some ref) ∧
          ∃ form form', Depicts later.store [id] x form ∧ Depicts later.store [id] y form' ∧
            (later.step (.display slot)).2.reply = .shown (.tuple [form, form'])) := by
  intro s called later accepted
  have sound : s.store.Sound s.roots := State.sound_run before (State.sound_initial filter)
  have sound' : called.store.Sound called.roots := (State.shift_call sound arguments name).sound
  have sound'' : later.store.Sound later.roots := State.sound_run more sound'
  obtain ⟨sources, first, second, evaluated, bound⟩ := State.bound_of_accepted accepted
  obtain ⟨x, y, taken, -⟩ := Store.bind_takeArguments s.store bound
  obtain ⟨id, stored, new, made⟩ := State.pair_of_bound sound evaluated taken name
  refine ⟨id, sources, x, y, evaluated, taken, stored, ?_, fun held => ?_⟩
  · rintro old has rfl
    obtain ⟨node, alive⟩ := Store.has_object_iff.mp has
    exact absurd (sound.used alive) (Nat.not_lt.mpr new)
  · have pair : later.IsPair id x y := State.IsPair.of_run made sound' more held
    obtain ⟨has, has'⟩ := pair.has sound''
    refine ⟨?_, fun i ref => pair.item, has, has', pair.form sound'', fun slot found => ?_⟩
    · rw [pair.contents]
      rfl
    · exact ⟨pair.length found, fun i ref place => pair.get found place, pair.display found sound''⟩

/-- A list that is both items of a pair, after its own slot is dropped. -/
theorem pair_of_call_lasts_alone :
    let before : List Step := [.new "x" (.list [])]
    let arguments : Arguments Argument := ⟨[.slot "x", .slot "x"], []⟩
    let s := (machine.run (State.initial .off) before).1
    let called := s.step (.call arguments "r")
    let later := (machine.run called.1 [.drop "x"]).1
    called.2.reply = .done ∧ later.slots.find? "x" = none ∧
      ∃ id, later.slots.find? "r" = some (.object id) ∧ later.references id ≠ 0 ∧
        (later.store.contents (.object id)).item (.label (.int (-2))) = .ok (.ref (.object 0)) ∧
        later.store.Has (.object 0) := by
  intro before arguments s called later
  obtain ⟨id, sources, x, y, evaluated, taken, stored, -, lasts⟩ :=
    pair_of_call_lasts .off before [.drop "x"] arguments "r" rfl
  have same : Except.ok ⟨[.held (.object 0), .held (.object 0)], []⟩ = Except.ok sources :=
    evaluated
  obtain rfl := Except.ok.inj same
  obtain ⟨rfl, rfl⟩ := Prod.mk.inj (Except.ok.inj taken)
  have kept : later.slots.find? "r" = some (.object id) := stored
  have start := State.sound_run before (State.sound_initial .off)
  have sound : later.store.Sound later.roots :=
    State.sound_run _ (State.shift_call start arguments "r").sound
  have held : later.references id ≠ 0 :=
    (State.has_iff_references sound).mp
      (sound.has_of_mem (Table.mem_values_iff.mpr ⟨"r", kept⟩))
  obtain ⟨-, item, has, -⟩ := lasts held
  exact ⟨rfl, rfl, id, kept, held, item (-2) _ (List.mem_cons_of_mem _ List.mem_cons_self), has⟩

end Session
end SharedPair
