import SharedPair.Proofs.Translation.Echoes

/-!
# Scripts tell sessions

Step by step a session and the script that tells it go through states that correspond.
So for everything that is told of opaque things, of pairs and of the references to them,
a script of cells and handles is as good as the session.
-/

namespace SharedPair

open Script (eventsOf)

/-! ## Whole sessions -/

section Run

variable {scheme : Scheme} {steps : List Session.Step}

theorem tellable_append
    (front : List Session.Step) {back : List Session.Step} {s : Session.State}
    (tellable : Session.Tellable s (front ++ back)) :
    Session.Tellable s front ∧ Session.Tellable (Session.machine.run s front).1 back := by
  induction front generalizing s with
  | nil => exact ⟨trivial, tellable⟩
  | cons step rest ih =>
      obtain ⟨first, later⟩ := ih tellable.2
      exact ⟨⟨tellable.1, first⟩, later⟩

/-- The states that a session and its script lead to correspond, and the objects that were made are
as many as the steps say. -/
theorem tells_run
    (fits : scheme.Fits steps)
    (filter : Filter) (front : List Session.Step) {back : List Session.Step}
    (split : steps = front ++ back)
    (tellable : Session.Tellable (.initial filter) front) :
    Tells scheme (scheme.cell steps) (steps.flatMap Session.Step.names)
        (Session.machine.run (.initial filter) front).1
        (Script.machine.run (.initial filter) (scheme.script 0 front)).1 ∧
      (Session.machine.run (.initial filter) front).1.store.next =
        (scheme.cells 0 front).length := by
  -- on the part of the session that is over, which grows by a step at its end
  induction front using List.reverseRecOn generalizing back with
  | nil => exact ⟨.initial filter, rfl⟩
  | append_singleton front step ih =>
      obtain ⟨before, last⟩ := tellable_append front tellable
      rw [List.append_assoc] at split
      obtain ⟨tells, next⟩ := ih split before
      subst split
      have suits := fits.suits
      rw [← next] at suits
      have echoes := tells.echoes_step suits last.1
      have grown := echoes.next
      rw [next] at echoes grown
      constructor
      · rw [Machine.run_append, Scheme.script_append, Machine.run_append, Nat.zero_add,
          Scheme.script, Scheme.script, List.append_nil]
        exact echoes.tells
      · rw [Machine.run_append, Scheme.cells_append, List.length_append, Nat.zero_add,
          Scheme.cells, Scheme.cells, List.append_nil]
        exact grown

end Run

/-- What a step of a session comes to, and what its own steps in the script do. -/
structure Refines (scheme : Scheme) (filter : Filter) (front : List Session.Step)
    (step : Session.Step) (back : List Session.Step) (after : Session.State × Session.Effect)
    (after' : Script.State × List Script.Entry) : Prop where
  /-- The session has the entry of the step in its place. -/
  entry : (Session.transcript filter (front ++ step :: back))[front.length]? =
    some ⟨after.2, after.1.counts⟩
  /-- The script has the entries of the steps in theirs. -/
  entries : ∃ later, Script.transcript filter (scheme.script 0 (front ++ step :: back)) =
    (Script.machine.run (.initial filter) (scheme.script 0 front)).2 ++ (after'.2 ++ later)
  /-- The same slots are used. -/
  slots : ∀ slot, slot ∈ after'.1.slots.keys ↔ slot ∈ after.1.slots.keys
  /-- Each of them is told of with its references. -/
  counted : ∀ slot ∈ after.1.slots.keys, ∃ n, (slot, n) ∈ after.1.counts
  /-- They are as many as there are handles to the cell that the slot of the script leads to. -/
  counts : ∀ slot n, (slot, n) ∈ after.1.counts ↔
    ∃ cell, after'.1.slots.find? slot = some (.handle .acrossThreads cell) ∧
      (cell, n) ∈ after'.1.counts
  /-- The step answers whether two objects are the same just if its steps do, and alike. -/
  truth : ∀ b, after.2.reply = .truth b ↔ ∃ entry ∈ after'.2, entry.effect.reply = .truth b
  /-- The opaque things freed in the step are the cells of their names that are freed in its
  steps. -/
  freed : after.2.freed.Perm ((Event.frees (eventsOf after'.2)).filter fun id =>
    decide (id ∈ (front ++ step :: back).flatMap Session.Step.names))
  /-- What the step writes is what its steps write. -/
  log : after.2.log = Event.records (eventsOf after'.2)
  /-- When the slots are gone, the opaque things freed are again the cells of their names that
  are. -/
  ended :
    (Session.machine.run (.initial filter) (front ++ step :: back)).1.finish.2.freed.Perm
      ((Event.frees (Script.machine.run (.initial filter)
        (scheme.script 0 (front ++ step :: back))).1.finish.2.events).filter fun id =>
          decide (id ∈ (front ++ step :: back).flatMap Session.Step.names))

/-- **A session refines the script that tells it.**  Take any session that makes opaque things of
different names, refers to objects once more, calls the function with what is in two slots, reads
items of the pairs that calls returned, drops slots, compares them and sets the filter.  Tell it as
a script, with two slots and names of cells that the session does not use.  Each step of the session
has its own steps in the script, and comes to what they do. -/
theorem session_refines_script
    (scheme : Scheme) (filter : Filter) (front back : List Session.Step) (step : Session.Step)
    (fits : scheme.Fits (front ++ step :: back))
    (tellable : Session.Tellable (.initial filter) (front ++ step :: back)) :
    let moves := scheme.step (scheme.cells 0 front).length step
    let before := (Session.machine.run (.initial filter) front).1
    let before' := (Script.machine.run (.initial filter) (scheme.script 0 front)).1
    Refines scheme filter front step back (before.step step)
      (Script.machine.run before' moves) := by
  intro moves before before'
  obtain ⟨earlier, now⟩ := tellable_append front tellable
  obtain ⟨tells, next⟩ := tells_run fits filter front rfl earlier
  have suits := fits.suits
  rw [← next] at suits
  have echoes := tells.echoes_step suits now.1
  rw [next] at echoes
  exact {
    entry := Session.machine.entry_of_transcript filter front step back
    entries := by
      rw [Scheme.script_append, Nat.zero_add, Scheme.script, Script.transcript,
        Machine.transcript_append, Machine.run_append, List.append_assoc]
      exact ⟨_, rfl⟩
    slots := echoes.tells.slots.mem_keys_iff
    counted := fun slot used => by
      obtain ⟨ref, found⟩ := Table.find?_of_mem_keys used
      obtain ⟨id, rfl⟩ := echoes.tells.slots.objects found
      exact ⟨_, echoes.tells.mem_session_counts_iff.mpr ⟨id, found, rfl⟩⟩
    counts := fun slot n => echoes.tells.mem_counts_iff suits.distinct
    truth := echoes.truth
    freed := echoes.freed
    log := echoes.log
    ended := by
      have whole := tells_run fits filter _ (List.append_nil _).symm tellable
      exact whole.1.freed_finish suits.distinct }

/-- A pair that takes the place of its second argument, until its first one takes its own. -/
theorem session_refines_script_overwriting :
    let scheme : Scheme := ⟨"pair", "cell", fun number => .ofList (.replicate (number + 2) 'c')⟩
    let arguments : Arguments Session.Argument :=
      ⟨[.slot "q"], [(.plain (Text.ofString "b"), .slot "p")]⟩
    let front : List Session.Step :=
      [.new "p" (.named "x"), .new "q" (.named "y"), .call arguments "p"]
    let step : Session.Step := .get "p" (.label (.int (-2))) "p"
    let back : List Session.Step := [.same "p" "q", .drop "q"]
    scheme.Fits (front ++ step :: back) ∧
      Session.Tellable (.initial .all) (front ++ step :: back) ∧
      ((Session.machine.run (.initial .all) front).1.step step).2.freed.Perm
        ((Event.frees (eventsOf (Script.machine.run (Script.machine.run (.initial .all)
          (scheme.script 0 front)).1 [.clone ⟨"p", [.inside, .first]⟩ "p"]).2)).filter fun id =>
            decide (id ∈ ["x", "y"])) := by
  intro scheme arguments front step back
  have fits : scheme.Fits (front ++ step :: back) := by
    have length : ∀ number, (scheme.fresh number).length = number + 2 := fun number => by
      rw [String.length_ofList, List.length_replicate]
    refine ⟨by decide, fun j k same => ?_, fun number member => ?_, by decide, by decide⟩
    · have := congrArg String.length same
      rw [length, length] at this
      omega
    · have := length number
      rcases List.mem_pair.mp member with same | same
      · rw [same] at this
        cases this
      · rw [same] at this
        cases this
  have tellable : Session.Tellable (.initial .all) (front ++ step :: back) := by
    let before := (Session.machine.run (.initial .all) (front.take 2)).1
    have sound : before.store.Sound before.roots :=
      Session.State.sound_run _ (Session.State.sound_initial .all)
    have evaluated : (before.sources arguments).result =
        .ok ⟨[.held (.object 1)], [(.plain (Text.ofString "b"), .held (.object 0))]⟩ := rfl
    obtain ⟨id, stored, -, pair⟩ := Session.State.pair_of_bound sound evaluated rfl "p"
    exact ⟨trivial, trivial, ⟨"q", "p", rfl, by decide, by decide⟩,
      ⟨by decide, id, _, _, stored, pair⟩, trivial, trivial, trivial⟩
  exact ⟨fits, tellable, (session_refines_script scheme .all front back step fits tellable).freed⟩

end SharedPair
