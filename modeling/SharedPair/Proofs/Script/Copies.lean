import SharedPair.Proofs.Copy.Likeness
import SharedPair.Proofs.Script.Births

/-!
# Copies that are stored

A step that stores a copy makes one pass over the leaves of what it copies.  If no probe
refuses, it stores a value of the same likeness that holds the copied leaves, and then
gives up what its slot held.  If one refuses, nothing is left of the copy but the counted
attempts.
-/

namespace SharedPair
namespace Script
namespace State

variable {s : State} {refusal : Refusal}

theorem slots_store
    (s : State) (name : String) (value : Value) :
    (s.store name value).1.slots = s.slots.insert name value := by
  unfold store
  split <;> rfl

theorem find?_store
    (s : State) (name : String) (value : Value) :
    (s.store name value).1.slots.find? name = some value := by
  rw [slots_store, Table.find?_insert, if_pos rfl]

section Copies

variable {copy : Copying Value} {value : Value} {records : List Record}

theorem storeCopy_of_accepted
    (copies : copy.Copies value records)
    (accepted : (s.memory.copyLeaves value.leaves).refusal = none) :
    ∃ made, made.unnumbered = value.unnumbered ∧
      made.leaves = (s.memory.copyLeaves value.leaves).copied ∧
      ∀ name,
        let stored := { s with memory := (s.memory.copyLeaves value.leaves).memory }.store name made
        s.storeCopy name copy =
          (stored.1, ⟨.done, (s.memory.copyLeaves value.leaves).events ++ records.map .logged ++
            stored.2⟩) := by
  obtain ⟨made, finished, held, alike⟩ := Value.clone_of_accepted accepted
  refine ⟨made, alike, held, fun name => ?_⟩
  rw [storeCopy, Copying.run_of_ok (copies.finished finished)]

theorem storeCopy_of_refused
    (copies : copy.Copies value records)
    (positive : ∀ key cell, s.memory.cells.find? key = some cell → 0 < cell.count)
    (stopped : (s.memory.copyLeaves value.leaves).refusal = some refusal)
    (name : String) :
    ∃ dropped : List Probe, dropped.Perm (Leaf.tokens (s.memory.copyLeaves value.leaves).copied) ∧
      s.storeCopy name copy =
        ({ s with memory := ⟨s.memory.cells, (s.memory.copyLeaves value.leaves).memory.families⟩ },
          ⟨.fault (.refused refusal),
            (s.memory.copyLeaves value.leaves).events ++ dropped.map .dropped⟩) := by
  have ends := copies.run_ends positive
  unfold storeCopy
  generalize copy.run s.memory = outcome at ends
  cases ends with
  | finished accepted same =>
      rw [accepted] at stopped
      cases stopped
  | refused stopped' same =>
      rw [stopped'] at stopped
      cases stopped
      exact ⟨_, same, rfl⟩

end Copies

/-! ## Steps that pack -/

variable {first second : Path} {x y : Value}

theorem issued_of_resolve_pair
    (enrolled : s.Enrolled)
    (reached : s.resolve first = .ok x) (reached' : s.resolve second = .ok y) :
    ∀ p ∈ Leaf.tokens (x.leaves ++ y.leaves), s.memory.Issued p := by
  have borrowed := mem_of_resolve_pair reached reached'
  rw [Value.leaves] at borrowed
  intro p member
  exact enrolled p (Leaf.mem_tokens_iff.mpr (borrowed _ (Leaf.mem_tokens_iff.mp member)))

theorem step_pack
    (reached : s.resolve first = .ok x) (reached' : s.resolve second = .ok y)
    (name : String) :
    s.step (.pack first second name) =
      s.storeCopy name (packPair s.filter x y >>= fun pair => pure (.pair pair.1 pair.2)) := by
  rw [step, reached, reached']

/-- A pack that no probe refuses stores a pair of copies. -/
theorem step_pack_of_accepted
    (reached : s.resolve first = .ok x) (reached' : s.resolve second = .ok y)
    (accepted : (s.memory.copyLeaves (x.leaves ++ y.leaves)).refusal = none) :
    ∃ x' y', x'.unnumbered = x.unnumbered ∧ y'.unnumbered = y.unnumbered ∧
      x'.leaves ++ y'.leaves = (s.memory.copyLeaves (x.leaves ++ y.leaves)).copied ∧
      ∀ name,
        let stored := { s with memory := (s.memory.copyLeaves (x.leaves ++ y.leaves)).memory }.store
          name (.pair x' y')
        s.step (.pack first second name) =
          (stored.1, ⟨.done, (s.memory.copyLeaves (x.leaves ++ y.leaves)).events ++
            (s.filter.log packRecord).map .logged ++ stored.2⟩) := by
  have leaves : (Value.pair x y).leaves = x.leaves ++ y.leaves := by rw [Value.leaves]
  rw [← leaves] at accepted ⊢
  obtain ⟨made, alike, held, stored⟩ :=
    storeCopy_of_accepted (Copying.copies_packPair s.filter x y) accepted
  obtain ⟨x', y', rfl, one, two⟩ := Value.eq_pair_of_unnumbered alike
  rw [Value.leaves] at held
  exact ⟨x', y', one, two, held, fun name => (step_pack reached reached' name).trans (stored name)⟩

/-- A pack that some probe refuses leaves nothing but the counted attempts. -/
theorem step_pack_of_refused
    (reached : s.resolve first = .ok x) (reached' : s.resolve second = .ok y)
    (positive : ∀ key cell, s.memory.cells.find? key = some cell → 0 < cell.count)
    (stopped : (s.memory.copyLeaves (x.leaves ++ y.leaves)).refusal = some refusal)
    (name : String) :
    ∃ dropped : List Probe, dropped.Perm
        (Leaf.tokens (s.memory.copyLeaves (x.leaves ++ y.leaves)).copied) ∧
      s.step (.pack first second name) =
        ({ s with memory :=
            ⟨s.memory.cells, (s.memory.copyLeaves (x.leaves ++ y.leaves)).memory.families⟩ },
          ⟨.fault (.refused refusal),
            (s.memory.copyLeaves (x.leaves ++ y.leaves)).events ++ dropped.map .dropped⟩) := by
  have leaves : (Value.pair x y).leaves = x.leaves ++ y.leaves := by rw [Value.leaves]
  rw [← leaves] at stopped ⊢
  rw [step_pack reached reached']
  exact storeCopy_of_refused (Copying.copies_packPair s.filter x y) positive stopped name

/-- When the first value is refused, the second is not looked at. -/
theorem step_pack_of_refused_first
    (reached : s.resolve first = .ok x) (reached' : s.resolve second = .ok y)
    (stopped : (s.memory.copyLeaves x.leaves).refusal = some refusal)
    (name : String) :
    s.step (.pack first second name) = s.step (.clone first name) := by
  obtain ⟨abort, refused, -⟩ := Value.clone_of_refused stopped
  have left : Copying.both x.clone y.clone s.memory = ⟨.error _, _, _⟩ :=
    Copying.mapAbort_of_error (Copying.bind_of_error refused _) _
  have packed : (packPair s.filter x y >>= fun pair => pure (Value.pair pair.1 pair.2)) s.memory =
      ⟨.error _, _, _⟩ :=
    Copying.bind_of_error (Copying.bind_of_error left _) _
  have finished : (⟨abort.refusal, abort.finished, []⟩ : Abort).finished = abort.finished :=
    List.append_nil _
  have alone : s.step (.clone first name) = s.storeCopy name x.clone := by
    rw [step, reached]
  rw [step_pack reached reached', alone, storeCopy, storeCopy, Copying.run_of_error packed,
    Copying.run_of_error refused, finished]

end State
end Script
end SharedPair
