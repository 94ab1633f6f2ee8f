import SharedPair.Proofs.Script.Logging
import SharedPair.Proofs.Session.Logging

/-!
# Logging is exact and has no influence

What a session or a script writes is settled by the filters that are set and by which
pairs are made, and whatever else is told of it does not depend on the filters.  In the
entries of a whole run the filter in force at a step is the one that was set last
before it.
-/

namespace SharedPair

/-- What a step may write: the record of a pair if it packs one while every record is kept, and
otherwise nothing. -/
def WritesExactly (packs : Prop) (filter : Filter) (records : List Record) : Prop :=
  (packs ∧ filter = .all → records = [packRecord]) ∧ (¬ (packs ∧ filter = .all) → records = [])

theorem writesExactly_of_log
    {packs : Prop} {filter : Filter} {records : List Record}
    (written : packs → records = filter.log packRecord)
    (quiet : ¬ packs → records = []) :
    WritesExactly packs filter records := by
  refine ⟨fun ⟨packed, kept⟩ => ?_, fun unwritten => ?_⟩
  · rw [written packed, Filter.log_packRecord, if_pos kept]
  · by_cases packed : packs
    · rw [written packed, Filter.log_packRecord, if_neg fun kept => unwritten ⟨packed, kept⟩]
    · exact quiet packed

/-- **Logging is exact and has no influence.**

* In a session, a step writes the record of a pair if it is a call that succeeds while the filter in
  force keeps every record, and otherwise nothing; the end of the slots writes nothing.
* In a script, the same holds of the packs that succeed.
* When a pack succeeds, its clonings come first, then what it writes, and then what ends with the
  value that the slot held, and nothing else happens.
* Two sessions, or two scripts, that differ only in the filters, the one at the start and those that
  their steps set, have the same entries but for what is written. -/
theorem logging_exact_and_silent :
    (∀ (filter : Filter) (before : List Session.Step) (step : Session.Step)
      (more : List Session.Step),
      ∃ entry, (Session.transcript filter (before ++ step :: more))[before.length]? = some entry ∧
        WritesExactly
          ((∃ arguments name, step = .call arguments name) ∧ entry.effect.reply = .done)
          (Session.inForce filter before) entry.effect.log) ∧
    (∀ (filter : Filter) (steps : List Session.Step),
      ∃ entry, (Session.transcript filter steps)[steps.length]? = some entry ∧
        entry.effect.log = []) ∧
    (∀ (filter : Filter) (before : List Script.Step) (step : Script.Step)
      (more : List Script.Step),
      ∃ entry, (Script.transcript filter (before ++ step :: more))[before.length]? = some entry ∧
        WritesExactly
          ((∃ first second name, step = .pack first second name) ∧ entry.effect.reply = .done)
          (Script.inForce filter before) (Event.records entry.effect.events)) ∧
    (∀ (filter : Filter) (steps : List Script.Step),
      ∃ entry, (Script.transcript filter steps)[steps.length]? = some entry ∧
        Event.records entry.effect.events = []) ∧
    (∀ (filter : Filter) (before : List Script.Step) (first second : Script.Path) (name : String)
      (more : List Script.Step) (entry : Script.Entry),
      (Script.transcript filter (before ++ .pack first second name :: more))[before.length]? =
        some entry →
      entry.effect.reply = .done →
      let s := (Script.machine.run (.initial filter) before).1
      ∃ clones endings, ∃ copied : Memory,
        entry.effect.events =
          clones ++ (Event.records entry.effect.events).map .logged ++ endings ∧
        (∀ event ∈ clones, ∃ source serial, event = .cloned source serial) ∧
        endings = ((s.slots.find? name).map fun old => (copied.drop old).2).getD [] ∧
        ∀ event ∈ endings, (∃ cell, event = .freed cell) ∨ ∃ p, event = .dropped p) ∧
    (∀ (filter filter' : Filter) (steps steps' : List Session.Step),
      List.Forall₂ Session.control.Alike steps steps' →
      (Session.transcript filter steps).map Session.muting.entry =
        (Session.transcript filter' steps').map Session.muting.entry) ∧
    (∀ (filter filter' : Filter) (steps steps' : List Script.Step),
      List.Forall₂ Script.control.Alike steps steps' →
      (Script.transcript filter steps).map Script.muting.entry =
        (Script.transcript filter' steps').map Script.muting.entry) := by
  refine ⟨?_, ?_, ?_, ?_, ?_, ?_, ?_⟩
  · intro filter before step more
    refine ⟨_, Session.machine.entry_of_transcript filter before step more,
      writesExactly_of_log ?_ Session.State.log_of_not_calls⟩
    intro calls
    have force := Session.filter_run before (.initial filter)
    exact (Session.State.log_of_calls calls).trans (congrArg (Filter.log · packRecord) force)
  · intro filter steps
    exact ⟨_, Session.machine.last_of_transcript filter steps, rfl⟩
  · intro filter before step more
    refine ⟨_, Script.machine.entry_of_transcript filter before step more,
      writesExactly_of_log ?_ Script.State.records_of_not_packs⟩
    intro packs
    have force := Script.filter_run before (.initial filter)
    exact (Script.State.records_of_packs packs).trans (congrArg (Filter.log · packRecord) force)
  · intro filter steps
    exact ⟨_, Script.machine.last_of_transcript filter steps, Script.State.records_finish _⟩
  · intro filter before first second name more entry found done s
    rw [Script.transcript, Machine.entry_of_transcript] at found
    obtain rfl := Option.some.inj found
    have written := Script.State.records_of_packs ⟨⟨first, second, name, rfl⟩, done⟩
    simp only [written]
    exact Script.State.events_of_pack done
  · intro filter filter' steps steps' alike
    exact Session.muting.transcript_eq_of_alike filter filter' alike
  · intro filter filter' steps steps' alike
    exact Script.muting.transcript_eq_of_alike filter filter' alike

end SharedPair
