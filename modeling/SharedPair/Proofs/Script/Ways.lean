import SharedPair.Proofs.Copy.Attempts
import SharedPair.Proofs.Script.Ownership

/-!
# The ways of a step

A step can go four ways.  A check may find that it cannot do what it says, and then it
has not begun to; it founds a draft; it stores a copy of something that it borrows; or
it moves and gives up values, and then it clones nothing.

So only a copy has to do with the families there are.  It makes one pass over leaves,
before the step gives up anything, and if the pass meets a refusal the step answers it.
-/

namespace SharedPair

namespace Script

/-- The refusal that a fault tells of.  The other faults are found by a check, before anything has
been copied. -/
def Fault.refusal? : Fault → Option Refusal
  | .refused refusal => some refusal
  | _ => none

/-- The refusal that an answer tells of. -/
def Reply.refusal? : Reply → Option Refusal
  | .fault found => found.refusal?
  | _ => none

namespace Step

/-- The names and refusals of the families that a step founds. -/
def families (s : State) : Step → List (String × List Nat)
  | new _ draft => if s.admits draft then draft.families else []
  | _ => []

theorem sown_eq_firstProbes
    (s : State) (step : Step) :
    step.sown s = firstProbes (step.families s) s.memory.families.length := by
  cases step with
  | new name draft =>
      rw [sown, families]
      split <;> rfl
  | _ =>
      rfl

end Step

namespace State

variable {s : State} {fault : Fault}

/-! ## Checks -/

theorem early_of_slot
    {name : String}
    (failed : s.slot name = .error fault) :
    fault.refusal? = none := by
  unfold slot at failed
  split at failed
  · cases failed
  · cases failed
    rfl

theorem early_of_follow
    {segments : List Segment} {value : Value} :
    s.follow segments value = .error fault →
      fault.refusal? = none := by
  fun_induction follow s segments value with
  | case1 value =>
      intro failed
      cases failed
  | case2 rest first second ih =>
      exact ih
  | case3 rest first second ih =>
      exact ih
  | case4 rest sharing cell content found ih =>
      exact ih
  | case5 rest sharing cell missing =>
      intro failed
      cases failed
      rfl
  | case6 =>
      intro failed
      cases failed
      rfl

theorem early_of_resolve
    {path : Path}
    (failed : s.resolve path = .error fault) :
    fault.refusal? = none := by
  unfold resolve at failed
  cases held : s.slot path.slot with
  | error fault' =>
      rw [held] at failed
      cases failed
      exact early_of_slot held
  | ok value =>
      rw [held] at failed
      exact early_of_follow failed

/-! ## The ways of a step -/

/-- What a step comes to, with the families that it founds. -/
inductive Way (s : State) : List (String × List Nat) → State × Effect → Prop
  | checked
      {fault : Fault}
      (early : fault.refusal? = none) :
      Way s [] (s.answer (.fault fault))
  | created
      {name : String} {draft : Draft}
      (admitted : s.admits draft = true) :
      Way s draft.families (s.create name draft)
  | copied
      {copy : Copying Value} {value : Value} {records : List Record} {name : String}
      (copies : copy.Copies value records)
      (borrowed : ∀ leaf ∈ value.leaves, leaf ∈ s.roots ++ s.memory.cells.leaves) :
      Way s [] (s.storeCopy name copy)
  | moved
      {after : State × Effect}
      (families : after.1.memory.families = s.memory.families)
      (clones : Event.clones after.2.events = [])
      (fine : ∀ fault, after.2.reply ≠ .fault fault) :
      Way s [] after

theorem families_store
    (s : State) (name : String) (value : Value) :
    (s.store name value).1.memory.families = s.memory.families := by
  unfold store
  split <;> rfl

theorem clones_store
    (s : State) (name : String) (value : Value) :
    Event.clones (s.store name value).2 = [] := by
  unfold store
  split
  · exact Event.clones_release _ _
  · rfl

theorem way_split
    (s : State) (source first second : String) :
    Way s [] (s.split source first second) := by
  unfold split
  split
  · next held =>
      exact .checked (early_of_slot held)
  · refine .moved ((families_store _ _ _).trans (families_store _ _ _)) ?_ nofun
    rw [Event.clones_append, clones_store, clones_store]
    rfl
  · exact .checked rfl

theorem way_remove
    (s : State) (name : String) :
    Way s [] (s.remove name) := by
  unfold remove
  split
  · next held =>
      exact .checked (early_of_slot held)
  · exact .moved rfl (Event.clones_release _ _) nofun

theorem way_fill
    (s : State) (path : Path) (source : String) :
    Way s [] (s.fill path source) := by
  unfold fill
  split
  · next reached =>
      exact .checked (early_of_resolve reached)
  · split
    · next held =>
        exact .checked (early_of_slot held)
    · exact .moved rfl (Event.clones_release _ _) nofun
  · exact .checked rfl

theorem way_unwrap
    (s : State) (name : String) :
    Way s [] (s.unwrap name) := by
  unfold unwrap
  split
  · next held =>
      exact .checked (early_of_slot held)
  · split
    · exact .moved rfl rfl nofun
    · exact .checked rfl
  · exact .checked rfl

theorem way_answer
    (s : State) {reply : Reply}
    (fine : ∀ fault, reply ≠ .fault fault) :
    Way s [] (s.answer reply) :=
  .moved rfl rfl fine

/-- **Every step goes one of the ways.** -/
theorem way_step
    (s : State) (step : Step) :
    Way s (step.families s) (s.step step) := by
  cases step with
  | new name draft =>
      rw [Step.families, State.step]
      by_cases admitted : s.admits draft = true
      · rw [if_pos admitted]
        exact .created admitted
      · rw [if_neg admitted, create, if_neg admitted]
        exact .checked rfl
  | pack first second name =>
      rw [State.step]
      cases reached : s.resolve first with
      | error fault =>
          exact .checked (early_of_resolve reached)
      | ok x =>
          cases reached' : s.resolve second with
          | error fault =>
              exact .checked (early_of_resolve reached')
          | ok y =>
              exact .copied (Copying.copies_packPair s.filter x y)
                (mem_of_resolve_pair reached reached')
  | clone source name =>
      rw [State.step]
      cases reached : s.resolve source with
      | error fault =>
          exact .checked (early_of_resolve reached)
      | ok value =>
          exact .copied (Copying.copies_clone value) (mem_of_resolve reached)
  | take source first second =>
      exact way_split s source first second
  | drop name =>
      exact way_remove s name
  | put cell source =>
      exact way_fill s cell source
  | unwrap name =>
      exact way_unwrap s name
  | same first second =>
      rw [State.step]
      cases reached : s.resolve first with
      | error fault =>
          exact .checked (early_of_resolve reached)
      | ok x =>
          cases reached' : s.resolve second with
          | error fault =>
              exact .checked (early_of_resolve reached')
          | ok y =>
              have answered : ∀ fault, Reply.truth (sameCell x y) ≠ .fault fault := by simp
              exact s.way_answer answered
  | display path =>
      rw [State.step]
      cases reached : s.resolve path with
      | error fault =>
          exact .checked (early_of_resolve reached)
      | ok value =>
          have answered : ∀ fault, Reply.shown (s.view value) ≠ .fault fault := by simp
          exact s.way_answer answered
  | setFilter filter =>
      have answered : ∀ fault, Reply.done ≠ .fault fault := by simp
      exact .moved rfl rfl answered

/-! ## What a step has to do with families -/

/-- A step founds families and clones nothing, or it begins with a pass over leaves that it
borrows. -/
inductive Course (s : State) : List (String × List Nat) → State × Effect → Prop
  | founded
      {families : List (String × List Nat)} {after : State × Effect}
      (grown : after.1.memory.families =
        s.memory.families ++ families.map fun family => ⟨family.2, 0⟩)
      (quiet : Event.clones after.2.events = [])
      (early : after.2.reply.refusal? = none) :
      Course s families after
  | copied
      {after : State} {reply : Reply} {later : List Event} {value : Value}
      (borrowed : ∀ leaf ∈ value.leaves, leaf ∈ s.roots ++ s.memory.cells.leaves)
      (counted : after.memory.families = (s.memory.copyLeaves value.leaves).memory.families)
      (quiet : Event.clones later = [])
      (told : reply.refusal? = (s.memory.copyLeaves value.leaves).refusal) :
      Course s [] (after, ⟨reply, (s.memory.copyLeaves value.leaves).events ++ later⟩)

theorem course_create
    {name : String} {draft : Draft}
    (admitted : s.admits draft = true) :
    Course s draft.families (s.create name draft) := by
  rw [create, if_pos admitted]
  exact .founded ((families_store _ _ _).trans (Memory.families_found draft s.memory))
    (clones_store _ _ _) rfl

theorem course_storeCopy
    {copy : Copying Value} {value : Value} {records : List Record}
    (owned : s.Owned)
    (copies : copy.Copies value records)
    (borrowed : ∀ leaf ∈ value.leaves, leaf ∈ s.roots ++ s.memory.cells.leaves)
    (name : String) :
    Course s [] (s.storeCopy name copy) := by
  have ends := copies.run_ends owned.counted.positive
  unfold storeCopy
  generalize copy.run s.memory = outcome at ends
  cases ends with
  | finished accepted same =>
      simp only [List.append_assoc]
      refine .copied borrowed (families_store _ _ _) ?_ accepted.symm
      rw [Event.clones_append, Event.clones_logged, clones_store]
      rfl
  | refused stopped same =>
      exact .copied borrowed rfl (Event.clones_dropped _) stopped.symm

theorem Way.course
    {families : List (String × List Nat)} {after : State × Effect}
    (way : Way s families after)
    (owned : s.Owned) :
    Course s families after := by
  cases way with
  | checked early =>
      exact .founded (List.append_nil _).symm rfl early
  | created admitted =>
      exact course_create admitted
  | copied copies borrowed =>
      exact course_storeCopy owned copies borrowed _
  | moved families clones fine =>
      refine .founded (families.trans (List.append_nil _).symm) clones ?_
      cases answered : after.2.reply with
      | fault fault => exact absurd answered (fine fault)
      | done | truth _ | shown _ | ended => rfl

theorem course_step
    (owned : s.Owned)
    (step : Step) :
    Course s (step.families s) (s.step step) :=
  (way_step s step).course owned

end State
end Script
end SharedPair
