import SharedPair.Proofs.Heap.Cycles
import SharedPair.Proofs.Object.Mirror
import SharedPair.Proofs.Session.References

/-!
# What a session leaks

When the slots are gone, the objects that are left are those that are on a cycle of
references or held, by way of others, by an object on one.  So every opaque thing that
was made has been freed by then, unless a cycle leads to it.  Without cycles nothing is
left.
-/

namespace SharedPair
namespace Session

/-- The names of the opaque things that are made in some steps. -/
def madeIn (s : State) : List Step → List String
  | [] => []
  | step :: rest => step.made s ++ madeIn (s.step step).1 rest

namespace State

variable {s : State}

/-- An opaque thing that is there and that a cycle of references leads to. -/
def Leaks (s : State) (id : Nat) (name : String) : Prop :=
  Heap.value? s.store.cells id = some (.named name) ∧ Heap.ReachedFromCycle s.store.cells id

/-! ## Names balance -/

/-- What is made in a run is freed in it or is there afterwards, like what was there before. -/
theorem names_run
    (steps : List Step) {s : State}
    (sound : s.store.Sound s.roots) :
    (s.store.things.map Prod.snd ++ madeIn s steps).Perm
      (freedOf (machine.run s steps).2 ++ (machine.run s steps).1.store.things.map Prod.snd) := by
  induction steps generalizing s with
  | nil => exact .of_eq (List.append_nil _)
  | cons step rest ih =>
      have shift := shift_step sound step
      have later := ih shift.sound
      show (_ ++ (step.made s ++ madeIn (s.step step).1 rest)).Perm
        (((s.step step).2.freed ++ freedOf (machine.run (s.step step).1 rest).2) ++
          (machine.run (s.step step).1 rest).1.store.things.map Prod.snd)
      refine (List.Perm.of_eq (List.append_assoc _ _ _).symm).trans ?_
      refine (shift.names_things.append_right _).trans ?_
      rw [List.append_assoc, List.append_assoc]
      exact later.append_left _

/-- What is made in a session is freed up to its end or is there when its slots are gone. -/
theorem names_transcript
    (filter : Filter) (steps : List Step) :
    (madeIn (initial filter) steps).Perm
      (freedOf (transcript filter steps) ++
        (machine.run (initial filter) steps).1.finish.1.store.things.map Prod.snd) := by
  have sound := sound_run steps (sound_initial filter)
  have before := names_run steps (sound_initial filter)
  have ended := (shift_finish sound).names_things
  rw [List.append_nil] at ended
  rw [freedOf_transcript, List.append_assoc]
  exact before.trans (ended.append_left _)

/-! ## What is left -/

/-- When the slots are gone, nothing is held outside. -/
theorem counted_finish
    (sound : s.store.Sound s.roots) :
    Heap.Counted s.finish.1.store.cells [] :=
  (shift_finish sound).sound.counted

theorem reachedFromCycle_finish_iff
    (sound : s.store.Sound s.roots)
    (id : Nat) :
    Heap.ReachedFromCycle s.finish.1.store.cells id ↔ Heap.ReachedFromCycle s.store.cells id := by
  have counted : Heap.Counted s.store.cells (Ref.handles s.roots ++ []) := by
    rw [List.append_nil]
    exact sound.counted
  exact Heap.reachedFromCycle_release_iff counted

theorem has_finish_iff
    (sound : s.store.Sound s.roots)
    (id : Nat) :
    s.finish.1.store.Has (.object id) ↔ Heap.ReachedFromCycle s.store.cells id :=
  (counted_finish sound).find?_iff_reached.trans (reachedFromCycle_finish_iff sound id)

/-- An opaque thing is left when the slots are gone just if it leaks. -/
theorem mem_things_finish_iff
    (sound : s.store.Sound s.roots)
    {id : Nat} {name : String} :
    (id, name) ∈ s.finish.1.store.things ↔ s.Leaks id name := by
  rw [Store.mem_things_iff]
  exact Heap.value?_release_all_iff sound.counted

/-- Without cycles, nothing leaks. -/
theorem things_finish_of_acyclic
    (sound : s.store.Sound s.roots)
    (acyclic : ∀ id, ¬ Relation.TransGen (Heap.Holds s.store.cells) id id) :
    s.finish.1.store.things = [] := by
  refine List.eq_nil_iff_forall_not_mem.mpr fun thing left => ?_
  obtain ⟨-, id, cycle, -⟩ := (mem_things_finish_iff sound).mp left
  exact acyclic id cycle

end State
end Session
end SharedPair
