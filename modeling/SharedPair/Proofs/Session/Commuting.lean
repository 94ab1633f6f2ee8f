import SharedPair.Proofs.Session.Clearing
import SharedPair.Proofs.Session.Matching

/-!
# Calls that commute

Two calls may be made in either order if neither names the slot of the other.  What they
make gets other numbers, and the old objects of their slots end in another order: these
may hold one another, or share what they hold, and then the call that is made last is
the one that frees it.

A call starts from a state without its own slot.  What the other call makes of that state
is found again in what both calls leave, whichever is made first.  The same can be said
with the two calls exchanged, and what is found from the one side or from the other is
all there is.
-/

namespace SharedPair
namespace Session

open Store (passOver trade InStep)

namespace State

/-! ## States with the same parts -/

section Parts

variable {ρ₁ ρ₂ σ : Nat → Nat} {x y s t : State} {name name' : String}

theorem Apart.find?_of_part
    (first : Apart ρ₁ name x s) (first' : Apart (σ ∘ ρ₁) name x t)
    {slot : String}
    (other : slot ≠ name) :
    t.slots.find? slot = (s.slots.find? slot).map (Ref.rename σ) := by
  rw [first.find? other, first'.find? other, Option.map_map, Ref.rename_comp]

theorem Apart.mem_of_part
    (first : Apart ρ₁ name x s)
    {slot : String} {ref : Ref}
    (other : slot ≠ name) (found : s.slots.find? slot = some ref) :
    ref ∈ x.roots.map (Ref.rename ρ₁) := by
  rw [first.find? other] at found
  obtain ⟨old, inside, rfl⟩ := Option.map_eq_some_iff.mp found
  exact List.mem_map_of_mem (Table.mem_values_iff.mpr ⟨slot, inside⟩)

/-- Two states match if they are the same apart from one slot and apart from another one. -/
theorem matches_of_parts
    (first : Apart ρ₁ name x s) (first' : Apart (σ ∘ ρ₁) name x t)
    (second : Apart ρ₂ name' y s) (second' : Apart (σ ∘ ρ₂) name' y t)
    (different : name ≠ name')
    (injective : Function.Injective σ) (inStep : InStep σ s.store t.store)
    (sound : s.store.Sound s.roots) (sound' : t.store.Sound t.roots) :
    Matches σ s t := by
  have slots : ∀ slot, t.slots.find? slot = (s.slots.find? slot).map (Ref.rename σ) := by
    intro slot
    by_cases h : slot = name
    · exact second.find?_of_part second' (h ▸ different)
    · exact first.find?_of_part first' h
  have covered : ∀ ref ∈ s.roots,
      ref ∈ x.roots.map (Ref.rename ρ₁) ∨ ref ∈ y.roots.map (Ref.rename ρ₂) := by
    intro ref member
    obtain ⟨slot, found⟩ := Table.mem_values_iff.mp member
    by_cases h : slot = name
    · exact .inr (second.mem_of_part (h ▸ different) found)
    · exact .inl (first.mem_of_part h found)
  have roots : t.roots.Perm (s.roots.map (Ref.rename σ)) := Table.values_perm_of_find? slots
  obtain ⟨_, -, one⟩ := first
  obtain ⟨_, -, one'⟩ := first'
  obtain ⟨_, -, two⟩ := second
  obtain ⟨_, -, two'⟩ := second'
  have store := Store.Mirror.paste one.store two.store one'.store two'.store injective sound
    (sound'.perm roots) covered
  exact {
    injective := injective
    inStep := inStep
    slots := slots
    objects := store.find?
    all := fun _ _ => store.exists_image
    filter := one'.filter.trans one.filter.symm }

end Parts

/-! ## One call after another -/

variable {s : State} {arguments arguments' : Arguments Argument} {name name' : String}

theorem find?_call
    {slot : String}
    (other : name ≠ slot) :
    (s.call arguments name).1.slots.find? slot = s.slots.find? slot := by
  cases evaluated : (s.sources arguments).result with
  | error failure => rw [(call_of_failed_evaluation evaluated name).1]
  | ok sources =>
      cases bound : sources.bind with
      | ok both =>
          obtain ⟨x, y, taken, -⟩ := Store.bind_takeArguments s.store bound
          rw [(call_of_bound evaluated taken name).1, packInto_fst, slots_hold, Table.find?_insert,
            if_neg other]
          rfl
      | error e =>
          rw [(call_fst_of_rejected evaluated bound name).1]
          rfl

section Twice

variable (sound : s.store.Sound s.roots)
include sound

/-- A step that does not name the slot of a call tells the same before and after it. -/
theorem tells_after_call
    (arguments : Arguments Argument) {name : String} {step : Step}
    (unnamed : name ∉ step.slots) :
    let after := (s.call arguments name).1
    (after.step step).2.reply = (s.step step).2.reply ∧
      (after.step step).2.log = (s.step step).2.log ∧ step.made after = step.made s := by
  obtain ⟨gap, later⟩ := Nat.exists_eq_add_of_le (shift_call sound arguments name).evolves.next
  obtain ⟨reply, log, made⟩ := (apart_of_ready sound arguments name).tells unnamed
  obtain ⟨reply', log', made'⟩ := (apart_of_call sound later).tells unnamed
  exact ⟨reply'.trans reply.symm, log'.trans log.symm, made'.trans made.symm⟩

/-- It gives out as many numbers, too. -/
theorem next_after_call
    (arguments : Arguments Argument) {name : String} {step : Step} {gap : Nat}
    (unnamed : name ∉ step.slots)
    (later : (s.step step).1.store.next = s.store.next + gap) :
    ((s.call arguments name).1.step step).1.store.next =
      (s.call arguments name).1.store.next + gap := by
  obtain ⟨gap', later'⟩ := Nat.exists_eq_add_of_le (shift_call sound arguments name).evolves.next
  have before := ((apart_of_ready sound arguments name).step unnamed).next
  have after := ((apart_of_call sound later').step unnamed).next
  rw [id, later] at before
  rw [before, Store.passOver_of_le (Nat.le_add_right _ _)] at after
  omega

variable (apart : name' ∉ (Step.call arguments name).slots)
  (apart' : name ∉ (Step.call arguments' name').slots)
include apart apart'

/-- What a call starts from after another one is what the other one makes of what it starts from
else. -/
theorem mirror_of_ready :
    Mirror id (fun _ => False) [] [] ((s.ready arguments name).call arguments' name').1
      ((s.call arguments' name').1.ready arguments name) := by
  have other : name' ≠ name := fun same => apart (same ▸ List.mem_cons_self)
  have told := (tells_after_call sound arguments' apart).1
  rcases s.reply_call arguments name with accepted | ⟨failure, failed⟩
  · rw [ready_of_accepted accepted, ready_of_accepted (told.trans accepted)]
    have given : (s.call arguments' name').1.given name = s.given name := by
      rw [State.given, State.given, find?_call other]
    have mirror := (mirror_of_cleared sound name).step (.call arguments' name')
      (Apart.unseen (fun _ member => eq_of_mem_given (List.mem_map_of_mem member)) apart')
    rw [← given] at mirror
    exact cleared_of_mirror mirror.mirror
  · rw [ready_of_failed failed, ready_of_failed (told.trans failed)]
    exact mirror_self (shift_call sound arguments' name').sound

/-- Apart from the slot of one call, both orders leave what the other call makes of the state that
the one starts from. -/
theorem apart_of_calls
    {gap gap' : Nat}
    (later : (s.call arguments name).1.store.next = s.store.next + gap)
    (later' : (s.call arguments' name').1.store.next = s.store.next + gap') :
    let start := ((s.ready arguments name).call arguments' name').1
    Apart (passOver s.store.next gap) name start
        ((s.call arguments name).1.call arguments' name').1 ∧
      Apart (passOver (s.store.next + gap') gap) name start
        ((s.call arguments' name').1.call arguments name).1 := by
  have after := (shift_call sound arguments' name').sound
  have last := apart_of_call after (next_after_call sound arguments' apart later)
  rw [later'] at last
  exact ⟨(apart_of_call sound later).step apart',
    (mirror_of_ready sound apart apart').then_apart last⟩

/-- **Confluence.**  Two calls that do not name the slots of one another leave states that match,
whichever is made first. -/
theorem matches_of_calls
    {gap gap' : Nat}
    (later : (s.call arguments name).1.store.next = s.store.next + gap)
    (later' : (s.call arguments' name').1.store.next = s.store.next + gap') :
    Matches (trade s.store.next gap gap') ((s.call arguments name).1.call arguments' name').1
      ((s.call arguments' name').1.call arguments name).1 := by
  obtain ⟨first, first'⟩ := apart_of_calls sound apart apart' later later'
  obtain ⟨second', second⟩ := apart_of_calls sound apart' apart later' later
  have one := (shift_call sound arguments name).sound
  have two := (shift_call sound arguments' name').sound
  have next := next_after_call sound arguments apart' later'
  have next' := next_after_call sound arguments' apart later
  rw [← Store.trade_comp_passOver] at first'
  rw [← Store.trade_comp_passOver' s.store.next gap gap'] at second'
  refine matches_of_parts first first' second second' ?_ (Store.trade_injective _ _ _)
    (Store.inStep_trade ?_ ?_) (shift_call one arguments' name').sound
    (shift_call two arguments name).sound
  · exact fun same => apart (same ▸ List.mem_cons_self)
  · exact next.trans (congrArg (· + gap') later)
  · refine next'.trans ((congrArg (· + gap) later').trans ?_)
    omega

/-- What two calls free together does not depend on which is made first. -/
theorem freed_perm_of_calls :
    let one := s.call arguments name
    let two := one.1.call arguments' name'
    let one' := s.call arguments' name'
    let two' := one'.1.call arguments name
    (one.2.freed ++ two.2.freed).Perm (one'.2.freed ++ two'.2.freed) := by
  intro one two one' two'
  obtain ⟨gap, later⟩ := Nat.exists_eq_add_of_le (shift_call sound arguments name).evolves.next
  obtain ⟨gap', later'⟩ := Nat.exists_eq_add_of_le (shift_call sound arguments' name').evolves.next
  have first := shift_step sound (.call arguments name)
  have second := shift_step (s := (s.call arguments name).1) first.sound (.call arguments' name')
  have first' := shift_step sound (.call arguments' name')
  have second' := shift_step (s := (s.call arguments' name').1) first'.sound (.call arguments name)
  have made := (tells_after_call sound arguments apart').2.2
  have made' := (tells_after_call sound arguments' apart).2.2
  rw [made] at second
  rw [made'] at second'
  have whole := first.trans second
  have whole' := (first'.trans second').names_perm List.perm_append_comm (.refl _)
  have self := sound.mirror (Store.trade_injective s.store.next gap gap') fun _ old =>
    Store.trade_of_lt old gap gap'
  have after := (matches_of_calls sound apart apart' later later').store second.sound second'.sound
  have balance := balance_of_shifts self after whole whole'
  rw [self.strays_eq_nil, after.strays_eq_nil, List.map_nil, List.append_nil,
    List.append_nil] at balance
  exact balance

end Twice

end State

/-- After some steps and two others, a session goes on from what they leave. -/
theorem drop_transcript
    (filter : Filter) (before more : List Step) (first second : Step) :
    let after := (((machine.run (State.initial filter) before).1.step first).1.step second).1
    (transcript filter (before ++ first :: second :: more)).drop (before.length + 2) =
      (machine.run after more).2 ++ [machine.last (machine.run after more).1] := by
  intro after
  have length := machine.length_run (State.initial filter) before
  rw [transcript, Machine.transcript_append, ← length, List.drop_length_add_append]
  rfl

/-- **Independent calls commute.**  Take any two calls, accepted or rejected, in any state that
steps lead to, such that neither names the slot of the other, for its pair or among its arguments.

* Each answers and logs the same, whether it is made first or last.  The two free the same opaque
  things together; which of them frees what may depend on the order.
* The states after both are the same but for the numbers of the objects that the two have made.
  Whatever steps come next have the same entries, up to the order in which the slots were first
  used, and so has the end of the slots. -/
theorem calls_commute
    (filter : Filter) (before more : List Step)
    (arguments arguments' : Arguments Argument) (name name' : String)
    (apart : name' ∉ (Step.call arguments name).slots)
    (apart' : name ∉ (Step.call arguments' name').slots) :
    let s := (machine.run (State.initial filter) before).1
    let first := Step.call arguments name
    let second := Step.call arguments' name'
    let one := s.step first
    let two := one.1.step second
    let one' := s.step second
    let two' := one'.1.step first
    (two'.2.reply = one.2.reply ∧ two'.2.log = one.2.log) ∧
    (two.2.reply = one'.2.reply ∧ two.2.log = one'.2.log) ∧
    (one.2.freed ++ two.2.freed).Perm (one'.2.freed ++ two'.2.freed) ∧
    s.lost two'.1 = s.lost two.1 ∧
    (∃ ρ, (∀ id < s.store.next, ρ id = id) ∧ State.Matches ρ two.1 two'.1) ∧
    List.Forall₂ Entry.Same
      ((transcript filter (before ++ first :: second :: more)).drop (before.length + 2))
      ((transcript filter (before ++ second :: first :: more)).drop (before.length + 2)) := by
  intro s first second one two one' two'
  have sound : s.store.Sound s.roots := State.sound_run before (State.sound_initial filter)
  obtain ⟨gap, later⟩ :=
    Nat.exists_eq_add_of_le (State.shift_call sound arguments name).evolves.next
  obtain ⟨gap', later'⟩ :=
    Nat.exists_eq_add_of_le (State.shift_call sound arguments' name').evolves.next
  have after : two.1.store.Sound two.1.roots :=
    (State.shift_step (State.shift_step sound first).sound second).sound
  have after' : two'.1.store.Sound two'.1.roots :=
    (State.shift_step (State.shift_step sound second).sound first).sound
  have fixed : ∀ id < s.store.next, trade s.store.next gap gap' id = id :=
    fun _ old => Store.trade_of_lt old gap gap'
  have like : State.Matches (trade s.store.next gap gap') two.1 two'.1 :=
    State.matches_of_calls sound apart apart' later later'
  obtain ⟨reply, log, -⟩ := State.tells_after_call sound arguments' apart
  obtain ⟨reply', log', -⟩ := State.tells_after_call sound arguments apart'
  refine ⟨⟨reply, log⟩, ⟨reply', log'⟩, State.freed_perm_of_calls sound apart apart',
    like.lost_eq after after' sound fixed, ⟨_, fixed, like⟩, ?_⟩
  rw [drop_transcript, drop_transcript]
  exact like.run after after' more

/-- Two slots with one list: the call that is made last frees what the list holds. -/
theorem calls_commute_shared :
    let before : List Step :=
      [.new "r" (.list [.named "m"]), .alias "r" "q", .new "x" (.named "x")]
    let s := (machine.run (State.initial .all) before).1
    let first : Step := .call ⟨[.slot "x", .slot "x"], []⟩ "r"
    let second : Step := .call ⟨[.slot "x", .fresh (.named "n")], []⟩ "q"
    let one := s.step first
    let two := one.1.step second
    let one' := s.step second
    let two' := one'.1.step first
    "q" ∉ first.slots ∧ "r" ∉ second.slots ∧
      one.2.freed = [] ∧ two.2.freed = ["m"] ∧ one'.2.freed = [] ∧ two'.2.freed = ["m"] ∧
      (one.2.freed ++ two.2.freed).Perm (one'.2.freed ++ two'.2.freed) ∧
      ∃ ρ, State.Matches ρ two.1 two'.1 := by
  intro before s first second one two one' two'
  have apart : "q" ∉ first.slots := by decide
  have apart' : "r" ∉ second.slots := by decide
  obtain ⟨-, -, freed, -, ⟨ρ, -, like⟩, -⟩ :=
    calls_commute .all before [] ⟨[.slot "x", .slot "x"], []⟩
      ⟨[.slot "x", .fresh (.named "n")], []⟩ "r" "q" apart apart'
  exact ⟨apart, apart', by decide +kernel, by decide +kernel, by decide +kernel,
    by decide +kernel, freed, ρ, like⟩

end Session
end SharedPair
