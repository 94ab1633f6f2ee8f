import SharedPair.Proofs.Copy.Outcome

/-!
# The likeness of copies

A copy looks like what it was copied from.  Its lists and pairs are nested in the same
way, its scalars are the same data to the bit, and its handles are of the same kind and
lead to the same cells.  Only its probes are other ones: they are of the same families,
and have serials of their own.
-/

namespace SharedPair

namespace Copying

variable {α β : Type} {memory after : Memory} {events : List Event}

/-- A copy that is finished was finished in both parts. -/
theorem ok_of_bind
    {first : Copying α} {next : α → Copying β} {made : β}
    (finished : (first >>= next) memory = ⟨.ok made, after, events⟩) :
    ∃ x between earlier later, first memory = ⟨.ok x, between, earlier⟩ ∧
      next x between = ⟨.ok made, after, later⟩ := by
  generalize start : first memory = progress at *
  rcases progress with ⟨result, between, earlier⟩
  cases result with
  | error abort =>
      rw [bind_of_error start] at finished
      cases finished
  | ok x =>
      rw [bind_of_ok start] at finished
      generalize rest : next x between = last at finished
      rcases last with ⟨result, final, later⟩
      cases finished
      exact ⟨x, between, earlier, later, rfl, rest⟩

theorem ok_of_mapAbort
    {part : Copying α} {f : Abort → Abort} {made : α}
    (finished : mapAbort f part memory = ⟨.ok made, after, events⟩) :
    part memory = ⟨.ok made, after, events⟩ := by
  generalize start : part memory = progress at *
  rcases progress with ⟨result, between, earlier⟩
  cases result with
  | error abort =>
      rw [mapAbort_of_error start] at finished
      cases finished
  | ok x =>
      rw [mapAbort_of_ok start] at finished
      exact finished

theorem ok_of_both
    {first second : Copying Value} {made : Value × Value}
    (finished : both first second memory = ⟨.ok made, after, events⟩) :
    ∃ between earlier later, first memory = ⟨.ok made.1, between, earlier⟩ ∧
      second between = ⟨.ok made.2, after, later⟩ := by
  obtain ⟨x, between, earlier, later, one, rest⟩ := ok_of_bind (ok_of_mapAbort finished)
  obtain ⟨y, last, later, none, two, done⟩ := ok_of_bind rest
  cases done
  exact ⟨between, earlier, later, one, ok_of_mapAbort two⟩

end Copying

namespace Value

mutual

/-- A value without the serials of its probes. -/
def unnumbered : Value → Value
  | scalar s => scalar s
  | list items => list (unnumberedAll items)
  | pair first second => pair (unnumbered first) (unnumbered second)
  | handle sharing cell => handle sharing cell
  | probe p => probe ⟨p.family, 0⟩

def unnumberedAll : List Value → List Value
  | [] => []
  | value :: rest => unnumbered value :: unnumberedAll rest

end

mutual

/-- **A copy looks like what it was copied from.** -/
theorem unnumbered_clone :
    ∀ (value : Value) {memory after : Memory} {made : Value} {events : List Event},
      value.clone memory = ⟨.ok made, after, events⟩ → made.unnumbered = value.unnumbered
  | .scalar s, memory, after, made, events, finished => by
      cases finished
      rfl
  | .list items, memory, after, made, events, finished => by
      rw [clone] at finished
      obtain ⟨copies, between, earlier, later, inside, done⟩ := Copying.ok_of_bind finished
      cases done
      rw [unnumbered, unnumbered, unnumbered_cloneAll items (Copying.ok_of_mapAbort inside)]
  | .pair first second, memory, after, made, events, finished => by
      rw [clone] at finished
      obtain ⟨copies, between, earlier, later, inside, done⟩ := Copying.ok_of_bind finished
      cases done
      obtain ⟨middle, earlier, later, one, two⟩ := Copying.ok_of_both inside
      rw [unnumbered, unnumbered, unnumbered_clone first one, unnumbered_clone second two]
  | .handle sharing cell, memory, after, made, events, finished => by
      cases finished
      rfl
  | .probe p, memory, after, made, events, finished => by
      rw [clone] at finished
      by_cases h : memory.Refuses p.family
      · rw [Probe.clone_of_refuses h] at finished
        cases finished
      · rw [Probe.clone_of_not_refuses h] at finished
        cases finished
        rfl

theorem unnumbered_cloneAll :
    ∀ (items : List Value) {memory after : Memory} {made : List Value} {events : List Event},
      cloneAll items memory = ⟨.ok made, after, events⟩ →
        unnumberedAll made = unnumberedAll items
  | [], memory, after, made, events, finished => by
      cases finished
      rfl
  | value :: rest, memory, after, made, events, finished => by
      rw [cloneAll] at finished
      obtain ⟨copy, between, earlier, later, one, finished⟩ := Copying.ok_of_bind finished
      obtain ⟨copies, last, later, none, others, done⟩ := Copying.ok_of_bind finished
      cases done
      rw [unnumberedAll, unnumberedAll, unnumbered_clone value one,
        unnumbered_cloneAll rest (Copying.ok_of_mapAbort others)]

end

theorem unnumberedAll_eq_map :
    ∀ values : List Value, unnumberedAll values = values.map unnumbered
  | [] => by
      rw [unnumberedAll, List.map_nil]
  | value :: rest => by
      rw [unnumberedAll, List.map_cons, unnumberedAll_eq_map rest]

/-- What looks like a pair is one. -/
theorem eq_pair_of_unnumbered
    {made first second : Value}
    (alike : made.unnumbered = (Value.pair first second).unnumbered) :
    ∃ x y, made = .pair x y ∧
      x.unnumbered = first.unnumbered ∧ y.unnumbered = second.unnumbered := by
  cases made with
  | pair x y =>
      rw [unnumbered, unnumbered] at alike
      injection alike with one two
      exact ⟨x, y, rfl, one, two⟩
  | scalar s =>
      rw [unnumbered, unnumbered] at alike
      cases alike
  | list items =>
      rw [unnumbered, unnumbered] at alike
      cases alike
  | handle sharing cell =>
      rw [unnumbered, unnumbered] at alike
      cases alike
  | probe p =>
      rw [unnumbered, unnumbered] at alike
      cases alike

/-- A copy that no probe refuses is finished. -/
theorem clone_of_accepted
    {value : Value} {memory : Memory}
    (accepted : (memory.copyLeaves value.leaves).refusal = none) :
    ∃ made, value.clone memory =
        ⟨.ok made, (memory.copyLeaves value.leaves).memory,
          (memory.copyLeaves value.leaves).events⟩ ∧
      made.leaves = (memory.copyLeaves value.leaves).copied ∧
      made.unnumbered = value.unnumbered := by
  have follows := value.clone_follows memory
  have alike : ∀ made after events, value.clone memory = ⟨.ok made, after, events⟩ →
      made.unnumbered = value.unnumbered := fun _ _ _ => value.unnumbered_clone
  generalize memory.copyLeaves value.leaves = pass at follows accepted
  generalize value.clone memory = progress at follows alike
  cases follows with
  | finished same => exact ⟨_, rfl, same, alike _ _ _ rfl⟩
  | refused same => cases accepted

/-- A copy that some probe refuses is not, and it gives up what it has copied. -/
theorem clone_of_refused
    {value : Value} {memory : Memory} {refusal : Refusal}
    (stopped : (memory.copyLeaves value.leaves).refusal = some refusal) :
    ∃ abort, value.clone memory =
        ⟨.error abort, (memory.copyLeaves value.leaves).memory,
          (memory.copyLeaves value.leaves).events⟩ ∧
      abort.refusal = refusal ∧
      abort.finished.Perm (memory.copyLeaves value.leaves).copied := by
  have follows := value.clone_follows memory
  generalize memory.copyLeaves value.leaves = pass at follows stopped
  generalize value.clone memory = progress at follows
  cases follows with
  | finished same => cases stopped
  | refused same =>
      cases stopped
      exact ⟨_, rfl, rfl, same⟩

end Value
end SharedPair
