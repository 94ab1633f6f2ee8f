import SharedPair.Copy
import SharedPair.Pack
import SharedPair.Proofs.Heap.Spare

/-!
# Copying as one pass over leaves

What a copy does to the memory depends only on the leaves of the value, taken from
left to right: a handle is shared, a probe is attempted in its family, and the first
refusal ends the pass.  The shape of the value decides what becomes of the finished
parts, but not which parts are finished.

`clone_follows` ties the copy of a value to that pass.  The facts about a copy in
progress are then inductions on a list.
-/

namespace SharedPair

namespace Memory

/-- One attempt at a clone in a family. -/
def attempt (memory : Memory) (id : FamilyId) : Memory :=
  memory.setFamily id ⟨(memory.family id).refused, (memory.family id).attempts + 1⟩

/-- The number of the next attempt in a family. -/
def nextAttempt (memory : Memory) (id : FamilyId) : Nat :=
  (memory.family id).attempts + 1

/-- Whether a family refuses its next attempt. -/
def Refuses (memory : Memory) (id : FamilyId) : Prop :=
  memory.nextAttempt id ∈ (memory.family id).refused

instance (memory : Memory) (id : FamilyId) : Decidable (memory.Refuses id) :=
  inferInstanceAs (Decidable (memory.nextAttempt id ∈ (memory.family id).refused))

end Memory

/-- What a pass over leaves came to. -/
structure Pass where
  /-- The copies of the leaves up to the refused one, from left to right. -/
  copied : List (Leaf String Probe)
  refusal : Option Refusal
  memory : Memory
  events : List Event

namespace Pass

/-- Goes on where a pass ended, unless it was refused. -/
def andThen (pass : Pass) (next : Memory → Pass) : Pass :=
  match pass.refusal with
  | some _ => pass
  | none =>
      ⟨pass.copied ++ (next pass.memory).copied, (next pass.memory).refusal,
        (next pass.memory).memory, pass.events ++ (next pass.memory).events⟩

end Pass

namespace Memory

/-- Copies leaves from left to right, up to the first refusal. -/
def copyLeaves : List (Leaf String Probe) → Memory → Pass
  | [], memory => ⟨[], none, memory, []⟩
  | .handle cell :: rest, memory =>
      (⟨[.handle cell], none, memory.acquire cell, []⟩ : Pass).andThen (copyLeaves rest)
  | .token p :: rest, memory =>
      if memory.Refuses p.family then
        ⟨[], some ⟨p.family, memory.nextAttempt p.family⟩, memory.attempt p.family, []⟩
      else
        (⟨[.token ⟨p.family, memory.nextAttempt p.family⟩], none, memory.attempt p.family,
          [.cloned p (memory.nextAttempt p.family)]⟩ : Pass).andThen (copyLeaves rest)

end Memory

namespace Pass

theorem andThen_assoc
    (pass : Pass) (next further : Memory → Pass) :
    (pass.andThen next).andThen further =
      pass.andThen fun memory => (next memory).andThen further := by
  rcases pass with ⟨copied, refusal, memory, events⟩
  cases refusal with
  | some refusal =>
      rfl
  | none =>
      cases further? : (next memory).refusal with
      | some refusal =>
          simp [andThen, further?]
      | none =>
          simp [andThen, further?]

end Pass

namespace Memory

theorem copyLeaves_append
    (memory : Memory) (second : List (Leaf String Probe)) :
    ∀ first : List (Leaf String Probe),
      copyLeaves (first ++ second) memory =
        (copyLeaves first memory).andThen (copyLeaves second) := by
  intro first
  induction first generalizing memory with
  | nil =>
      simp [copyLeaves, Pass.andThen]
  | cons leaf rest ih =>
      cases leaf with
      | handle cell =>
          rw [List.cons_append, copyLeaves, copyLeaves, Pass.andThen_assoc]
          simp only [Pass.andThen, ih]
      | token p =>
          by_cases h : memory.Refuses p.family
          · simp [copyLeaves, h, Pass.andThen]
          · rw [List.cons_append, copyLeaves, copyLeaves, if_neg h, if_neg h, Pass.andThen_assoc]
            simp only [Pass.andThen, ih]

end Memory

/-! ## Parts of a copy, one after the other -/

namespace Copying

variable {α β : Type} {copy : Copying α} {memory after : Memory} {events : List Event}

theorem bind_of_ok
    {made : α}
    (eq : copy memory = ⟨.ok made, after, events⟩)
    (next : α → Copying β) :
    (copy >>= next) memory =
      ⟨(next made after).result, (next made after).memory, events ++ (next made after).events⟩ := by
  show bind copy next memory = _
  rw [bind, eq]

theorem bind_of_error
    {abort : Abort}
    (eq : copy memory = ⟨.error abort, after, events⟩)
    (next : α → Copying β) :
    (copy >>= next) memory = ⟨.error abort, after, events⟩ := by
  show bind copy next memory = _
  rw [bind, eq]

theorem mapAbort_of_ok
    {made : α}
    (eq : copy memory = ⟨.ok made, after, events⟩)
    (f : Abort → Abort) :
    mapAbort f copy memory = ⟨.ok made, after, events⟩ := by
  rw [mapAbort, eq]

theorem mapAbort_of_error
    {abort : Abort}
    (eq : copy memory = ⟨.error abort, after, events⟩)
    (f : Abort → Abort) :
    mapAbort f copy memory = ⟨.error (f abort), after, events⟩ := by
  rw [mapAbort, eq]

theorem run_of_ok
    {made : α}
    (eq : copy memory = ⟨.ok made, after, events⟩) :
    run copy memory = ⟨.ok made, after, events⟩ := by
  rw [run, eq]

theorem run_of_error
    {abort : Abort}
    (eq : copy memory = ⟨.error abort, after, events⟩) :
    run copy memory =
      ⟨.error abort.refusal, (after.release abort.finished).1,
        events ++ (after.release abort.finished).2⟩ := by
  rw [run, eq]

end Copying

/-! ## Copies follow their pass -/

/-- A copy that came to what a pass over leaves came to: it holds the copied leaves, in its result
or among its finished parts. -/
inductive Follows {α : Type} (leaves : α → List (Leaf String Probe)) : Progress α → Pass → Prop
  | finished
      {made : α} {copied : List (Leaf String Probe)} {memory : Memory} {events : List Event}
      (same : leaves made = copied) :
      Follows leaves ⟨.ok made, memory, events⟩ ⟨copied, none, memory, events⟩
  | refused
      {abort : Abort} {copied : List (Leaf String Probe)} {memory : Memory} {events : List Event}
      (same : abort.finished.Perm copied) :
      Follows leaves ⟨.error abort, memory, events⟩ ⟨copied, some abort.refusal, memory, events⟩

namespace Follows

variable {α β : Type}
variable {leaves : α → List (Leaf String Probe)} {leaves' : β → List (Leaf String Probe)}

/-- What is made of a copy holds the same leaves. -/
theorem map
    {copy : Copying α} {memory : Memory} {pass : Pass} {f : α → β}
    (follows : Follows leaves (copy memory) pass)
    (same : ∀ made, leaves' (f made) = leaves made) :
    Follows leaves' ((copy >>= fun made => pure (f made)) memory) pass := by
  generalize eq : copy memory = progress at follows
  cases follows with
  | finished copied =>
      rw [Copying.bind_of_ok eq]
      show Follows leaves' ⟨.ok _, _, _ ++ []⟩ _
      rw [List.append_nil]
      exact .finished ((same _).trans copied)
  | refused copied =>
      rw [Copying.bind_of_error eq]
      exact .refused copied

/-- Finished parts leave a list or a pair in the order in which they stand. -/
theorem enclosed
    {copy : Copying α} {memory : Memory} {pass : Pass}
    (follows : Follows leaves (copy memory) pass) :
    Follows leaves (Copying.enclosed copy memory) pass := by
  generalize eq : copy memory = progress at follows
  cases follows with
  | finished copied =>
      rw [Copying.enclosed, Copying.mapAbort_of_ok eq]
      exact .finished copied
  | refused copied =>
      rw [Copying.enclosed, Copying.mapAbort_of_error eq]
      refine .refused ?_
      rw [Abort.finished, List.append_nil]
      exact copied

/-- A finished part stands to the left of what is refused after it. -/
theorem holding
    {copy : Copying α} {memory : Memory} {pass : Pass}
    (follows : Follows leaves (copy memory) pass)
    (left : Value) :
    Follows (fun made => left.leaves ++ leaves made) (Copying.holding left copy memory)
      ⟨left.leaves ++ pass.copied, pass.refusal, pass.memory, pass.events⟩ := by
  generalize eq : copy memory = progress at follows
  cases follows with
  | finished copied =>
      rw [Copying.holding, Copying.mapAbort_of_ok eq]
      exact .finished (copied ▸ rfl)
  | refused copied =>
      rw [Copying.holding, Copying.mapAbort_of_error eq]
      refine .refused ?_
      exact (List.perm_append_comm_assoc _ _ _).trans (copied.append_left _)

/-- What happened earlier comes before the events of the rest. -/
theorem after
    {progress : Progress α} {pass : Pass}
    (follows : Follows leaves progress pass)
    (events : List Event) :
    Follows leaves ⟨progress.result, progress.memory, events ++ progress.events⟩
      ⟨pass.copied, pass.refusal, pass.memory, events ++ pass.events⟩ := by
  cases follows with
  | finished copied =>
      exact .finished copied
  | refused copied =>
      exact .refused copied

/-- One part is copied, and then another while the first is held. -/
theorem andThen
    {first : Copying Value} {second : Copying α} {memory : Memory}
    {l l' : List (Leaf String Probe)} {f : Value → α → β}
    (earlier : Follows Value.leaves (first memory) (memory.copyLeaves l))
    (later : ∀ between, Follows leaves (second between) (between.copyLeaves l'))
    (same : ∀ x y, leaves' (f x y) = x.leaves ++ leaves y) :
    Follows leaves'
      ((first >>= fun x => Copying.holding x second >>= fun y => pure (f x y)) memory)
      (memory.copyLeaves (l ++ l')) := by
  rw [Memory.copyLeaves_append]
  generalize eq : first memory = progress at earlier
  generalize memory.copyLeaves l = pass at earlier
  cases earlier with
  | finished copied =>
      rename_i x _ between events
      rw [Copying.bind_of_ok eq]
      subst copied
      have rest : Follows leaves' _ _ := ((later between).holding x).map (same x)
      exact rest.after events
  | refused copied =>
      rw [Copying.bind_of_error eq]
      exact .refused copied

end Follows

namespace Probe

theorem clone_of_refuses
    {p : Probe} {memory : Memory}
    (refuses : memory.Refuses p.family) :
    p.clone memory =
      ⟨.error ⟨⟨p.family, memory.nextAttempt p.family⟩, [], []⟩, memory.attempt p.family, []⟩ :=
  if_pos refuses

theorem clone_of_not_refuses
    {p : Probe} {memory : Memory}
    (accepts : ¬ memory.Refuses p.family) :
    p.clone memory =
      ⟨.ok (.probe ⟨p.family, memory.nextAttempt p.family⟩), memory.attempt p.family,
        [.cloned p (memory.nextAttempt p.family)]⟩ :=
  if_neg accepts

end Probe

namespace Value

theorem leavesOfAll_eq_flatMap
    (values : List Value) :
    leavesOfAll values = values.flatMap leaves := by
  induction values with
  | nil =>
      rfl
  | cons value rest ih =>
      rw [leavesOfAll, ih, List.flatMap_cons]

theorem leavesOfAll_append
    (first second : List Value) :
    leavesOfAll (first ++ second) = leavesOfAll first ++ leavesOfAll second := by
  rw [leavesOfAll_eq_flatMap, leavesOfAll_eq_flatMap, leavesOfAll_eq_flatMap, List.flatMap_append]

mutual

/-- Copying a value is one pass over its leaves. -/
theorem clone_follows :
    ∀ (value : Value) (memory : Memory),
      Follows leaves (value.clone memory) (memory.copyLeaves value.leaves)
  | .scalar s, memory => by
      exact .finished rfl
  | .list items, memory => by
      rw [clone, leaves]
      exact (cloneAll_follows items memory).enclosed.map fun _ => by rw [leaves]
  | .pair first second, memory => by
      have parts : Follows (fun made : Value × Value => made.1.leaves ++ made.2.leaves)
          (Copying.both first.clone second.clone memory)
          (memory.copyLeaves (first.leaves ++ second.leaves)) :=
        ((clone_follows first memory).andThen (clone_follows second) fun _ _ => rfl).enclosed
      rw [clone, leaves]
      exact parts.map fun _ => by rw [leaves]
  | .handle sharing cell, memory => by
      exact .finished rfl
  | .probe p, memory => by
      rw [clone, leaves, Memory.copyLeaves]
      by_cases h : memory.Refuses p.family
      · rw [if_pos h, Probe.clone_of_refuses h]
        exact .refused (List.Perm.refl _)
      · rw [if_neg h, Probe.clone_of_not_refuses h]
        exact .finished rfl

/-- Copying items is one pass over the leaves of all of them. -/
theorem cloneAll_follows :
    ∀ (items : List Value) (memory : Memory),
      Follows leavesOfAll (cloneAll items memory) (memory.copyLeaves (leavesOfAll items))
  | [], memory => by
      exact .finished rfl
  | value :: rest, memory => by
      rw [cloneAll, leavesOfAll]
      exact (clone_follows value memory).andThen (cloneAll_follows rest) fun _ _ => by
        rw [leavesOfAll]

end

end Value

end SharedPair
