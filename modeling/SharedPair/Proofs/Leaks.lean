import SharedPair.Proofs.Script.Leaks
import SharedPair.Proofs.Session.Leaks

/-!
# Exactly the cycles leak

Counting frees whatever no cycle keeps, and nothing else.  For sessions this is said of
opaque things by their names, which are all that an entry tells of them, and for scripts
of cells.
-/

namespace SharedPair

namespace Session

/-- A thing whose name is used once is reported once, or it leaks and is never reported. -/
theorem count_reported_iff
    {s : State} {created reported : List String} {leaked : List (Nat × String)}
    (leaks : ∀ id name, (id, name) ∈ leaked ↔ s.Leaks id name)
    (balance : created.Perm (reported ++ leaked.map Prod.snd))
    {name : String}
    (once : created.count name = 1) :
    reported.count name ≤ 1 ∧ (reported.count name = 1 ↔ ¬ ∃ id, s.Leaks id name) := by
  have total := balance.count_eq name
  rw [once, List.count_append] at total
  have left : (leaked.map Prod.snd).count name = 0 ↔ ¬ ∃ id, s.Leaks id name := by
    rw [List.count_eq_zero, List.mem_map]
    refine not_congr ⟨?_, ?_⟩
    · rintro ⟨⟨id, name⟩, member, rfl⟩
      exact ⟨id, (leaks id name).mp member⟩
    · rintro ⟨id, leaking⟩
      exact ⟨(id, name), (leaks id name).mpr leaking, rfl⟩
  rw [← left]
  omega

end Session

/-- **Exactly the cycles leak.**  When the slots of a session are gone, the objects that are left
are those that were reached from a cycle of references, and still are.  The opaque things made over
all its steps are those that are reported as freed and those that leak.  So a thing whose name is
used once is reported, once, just if it does not leak, and without cycles everything is reported.

The cells that the last entry of a script tells of are those that were reached from a cycle of cells
when its slots began to be dropped, and those that are when all slots are gone. -/
theorem cycles_alone_leak :
    (∀ (filter : Filter) (steps : List Session.Step),
      let s := (Session.machine.run (.initial filter) steps).1
      let created := Session.madeIn (.initial filter) steps
      let reported := Session.freedOf (Session.transcript filter steps)
      (∀ id, s.finish.1.store.Has (.object id) ↔ Heap.ReachedFromCycle s.store.cells id) ∧
      (∀ id, Heap.ReachedFromCycle s.finish.1.store.cells id ↔
        Heap.ReachedFromCycle s.store.cells id) ∧
      (∃ leaked : List (Nat × String), leaked.Nodup ∧
        (∀ id name, (id, name) ∈ leaked ↔ s.Leaks id name) ∧
        created.Perm (reported ++ leaked.map Prod.snd)) ∧
      (∀ name, created.count name = 1 →
        reported.count name ≤ 1 ∧ (reported.count name = 1 ↔ ¬ ∃ id, s.Leaks id name)) ∧
      ((∀ id, ¬ Relation.TransGen (Heap.Holds s.store.cells) id id) → created.Perm reported)) ∧
    ∀ (filter : Filter) (steps : List Script.Step),
      let s := (Script.machine.run (.initial filter) steps).1
      ∃ entry, (Script.transcript filter steps)[steps.length]? = some entry ∧
        ∀ id,
          (id ∈ entry.counts.map Prod.fst ↔ Heap.ReachedFromCycle s.memory.cells id) ∧
          (id ∈ entry.counts.map Prod.fst ↔
            Heap.ReachedFromCycle s.finish.1.memory.cells id) := by
  constructor
  · intro filter steps s created reported
    have sound : s.store.Sound s.roots :=
      Session.State.sound_run steps (Session.State.sound_initial filter)
    have balance : created.Perm (reported ++ s.finish.1.store.things.map Prod.snd) :=
      Session.State.names_transcript filter steps
    have leaks : ∀ id name, (id, name) ∈ s.finish.1.store.things ↔ s.Leaks id name :=
      fun _ _ => Session.State.mem_things_finish_iff sound
    refine ⟨Session.State.has_finish_iff sound, Session.State.reachedFromCycle_finish_iff sound,
      ⟨_, s.finish.1.store.nodup_things, leaks, balance⟩, fun name once =>
        Session.count_reported_iff leaks balance once, fun acyclic => ?_⟩
    rw [Session.State.things_finish_of_acyclic sound acyclic] at balance
    exact balance.trans (.of_eq (List.append_nil _))
  · intro filter steps s
    have owned : s.Owned := Script.State.owned_run steps (Script.State.owned_initial filter)
    refine ⟨_, Script.machine.last_of_transcript filter steps, fun id => ?_⟩
    have told := Script.State.mem_last_iff owned id
    exact ⟨told, told.trans (Script.State.reachedFromCycle_dropAll_iff id _ owned).symm⟩

end SharedPair
