import SharedPair.Proofs.Copy.Likeness

/-!
# How a refused copy unwinds

A probe stands in a value below the lists and pairs around it.  In each of them there
are items to its left, which are finished when its clone is refused; so the finished
parts lie on levels, one for each list or pair that is left on the way out.

The levels are kept from the innermost outwards, which is the order in which they are
given up.  Read from the outermost inwards, they are what comes before the probe in the
order of copying.
-/

namespace SharedPair

namespace Copying

variable {α β : Type} {memory after : Memory} {abort : Abort} {events : List Event}

/-- A copy that is refused was refused in its first part, or in the other after it. -/
theorem error_of_bind
    {first : Copying α} {next : α → Copying β}
    (refused : (first >>= next) memory = ⟨.error abort, after, events⟩) :
    first memory = ⟨.error abort, after, events⟩ ∨
      ∃ x between earlier later, first memory = ⟨.ok x, between, earlier⟩ ∧
        next x between = ⟨.error abort, after, later⟩ ∧ events = earlier ++ later := by
  generalize start : first memory = progress at *
  rcases progress with ⟨result, between, earlier⟩
  cases result with
  | error abort' =>
      rw [bind_of_error start] at refused
      cases refused
      exact .inl rfl
  | ok x =>
      rw [bind_of_ok start] at refused
      generalize rest : next x between = last at refused
      rcases last with ⟨result, final, later⟩
      cases refused
      exact .inr ⟨x, between, earlier, later, rfl, rest, rfl⟩

/-- What is made of a copy is refused with it. -/
theorem error_of_map
    {part : Copying α} {f : α → β}
    (refused : (part >>= fun made => pure (f made)) memory = ⟨.error abort, after, events⟩) :
    part memory = ⟨.error abort, after, events⟩ := by
  rcases error_of_bind refused with same | ⟨x, between, earlier, later, -, impossible, -⟩
  · exact same
  · cases impossible

theorem error_of_mapAbort
    {part : Copying α} {f : Abort → Abort}
    (refused : mapAbort f part memory = ⟨.error abort, after, events⟩) :
    ∃ inner, part memory = ⟨.error inner, after, events⟩ ∧ abort = f inner := by
  generalize start : part memory = progress at *
  rcases progress with ⟨result, between, earlier⟩
  cases result with
  | error inner =>
      rw [mapAbort_of_error start] at refused
      cases refused
      exact ⟨inner, rfl, rfl⟩
  | ok x =>
      rw [mapAbort_of_ok start] at refused
      cases refused

end Copying

/-! ## Where a probe stands -/

namespace Value

/-- A probe stands in a value, with the items to its left in each list or pair around it, the
innermost first. -/
inductive Stands : Value → List (List Value) → Probe → Prop
  | here
      (p : Probe) :
      Stands (.probe p) [] p
  | item
      {before after : List Value} {value : Value} {levels : List (List Value)} {p : Probe}
      (inside : Stands value levels p) :
      Stands (.list (before ++ value :: after)) (levels ++ [before]) p
  | first
      {x y : Value} {levels : List (List Value)} {p : Probe}
      (inside : Stands x levels p) :
      Stands (.pair x y) (levels ++ [[]]) p
  | second
      {x y : Value} {levels : List (List Value)} {p : Probe}
      (inside : Stands y levels p) :
      Stands (.pair x y) (levels ++ [[x]]) p

/-- The values on all levels, in the order of copying. -/
def inward (levels : List (List Value)) : List Value := levels.reverse.flatten

/-- The values on all levels, in the order of giving up. -/
def outward (levels : List (List Value)) : List Value := levels.flatten

@[simp] theorem inward_append_singleton
    (levels : List (List Value)) (outer : List Value) :
    inward (levels ++ [outer]) = outer ++ inward levels := by
  simp [inward]

@[simp] theorem outward_append_singleton
    (levels : List (List Value)) (outer : List Value) :
    outward (levels ++ [outer]) = outward levels ++ outer := by
  simp [outward]

/-- The probes to the left of one that stands in a value are copied before it. -/
theorem Stands.tokens
    {value : Value} {levels : List (List Value)} {p : Probe}
    (stands : value.Stands levels p) :
    ∃ rest, Leaf.tokens value.leaves = Leaf.tokens (leavesOfAll (inward levels)) ++ p :: rest := by
  induction stands with
  | here p => exact ⟨[], rfl⟩
  | @item before after value levels p inside ih =>
      obtain ⟨rest, tokens⟩ := ih
      refine ⟨rest ++ Leaf.tokens (leavesOfAll after), ?_⟩
      simp [leaves, leavesOfAll_append, leavesOfAll, tokens]
  | @first x y levels p inside ih =>
      obtain ⟨rest, tokens⟩ := ih
      refine ⟨rest ++ Leaf.tokens y.leaves, ?_⟩
      simp [leaves, tokens]
  | @second x y levels p inside ih =>
      obtain ⟨rest, tokens⟩ := ih
      refine ⟨rest, ?_⟩
      simp [leaves, leavesOfAll, tokens]

mutual

/-- The serials of probes do not tell their families. -/
theorem families_unnumbered :
    ∀ value : Value,
      (Leaf.tokens value.unnumbered.leaves).map Probe.family =
        (Leaf.tokens value.leaves).map Probe.family
  | scalar _ => by
      rw [unnumbered]
  | list items => by
      rw [unnumbered, leaves, leaves, families_unnumberedAll items]
  | pair x y => by
      rw [unnumbered, leaves, leaves, Leaf.tokens_append, Leaf.tokens_append, List.map_append,
        List.map_append, families_unnumbered x, families_unnumbered y]
  | handle _ _ => by
      rw [unnumbered]
  | probe _ => by
      rw [unnumbered, leaves, leaves]
      rfl

theorem families_unnumberedAll :
    ∀ values : List Value,
      (Leaf.tokens (leavesOfAll (unnumberedAll values))).map Probe.family =
        (Leaf.tokens (leavesOfAll values)).map Probe.family
  | [] => by
      rw [unnumberedAll]
  | value :: rest => by
      rw [unnumberedAll, leavesOfAll, leavesOfAll, Leaf.tokens_append, Leaf.tokens_append,
        List.map_append, List.map_append, families_unnumbered value, families_unnumberedAll rest]

end

/-- A finished copy has cloned just the probes that it holds. -/
theorem clones_of_clone
    {value made : Value} {memory after : Memory} {events : List Event}
    (finished : value.clone memory = ⟨.ok made, after, events⟩) :
    Event.clones events = Leaf.tokens made.leaves := by
  have follows := value.clone_follows memory
  have clones := Event.clones_copyLeaves memory value.leaves
  rw [finished] at follows
  generalize memory.copyLeaves value.leaves = pass at follows clones
  cases follows with
  | finished same =>
      rw [same]
      exact clones

end Value

/-! ## What is given up -/

/-- How a refusal has come out of a value, or of the items before and after some item: the finished
parts on the levels that it has left are copies of the values there, and so are those beside it. -/
structure Unwinding
    (levels copies : List (List Value)) (before made : List Value)
    (abort : Abort) (events : List Event) : Prop where
  alike : copies.map Value.unnumberedAll = levels.map Value.unnumberedAll
  alike' : Value.unnumberedAll made = Value.unnumberedAll before
  inner : abort.inner = Value.leavesOfAll (Value.outward copies)
  beside : abort.beside = Value.leavesOfAll made
  clones : Event.clones events = Leaf.tokens (Value.leavesOfAll (made ++ Value.inward copies))

namespace Unwinding

open Value

variable {levels copies : List (List Value)} {before made : List Value}
variable {abort : Abort} {earlier events : List Event}

/-- At the refused probe itself, nothing is finished. -/
theorem here
    (refusal : Refusal) :
    Unwinding [] [] [] [] ⟨refusal, [], []⟩ [] where
  alike := rfl
  alike' := rfl
  inner := rfl
  beside := rfl
  clones := rfl

/-- A list or a pair is left: what is finished in it becomes the outermost level. -/
theorem enclosed
    (unwinding : Unwinding levels copies before made abort events) :
    Unwinding (levels ++ [before]) (copies ++ [made]) [] []
      ⟨abort.refusal, abort.finished, []⟩ events where
  alike := by
    rw [List.map_append, List.map_append, unwinding.alike, List.map_singleton, List.map_singleton,
      unwinding.alike']
  alike' := rfl
  inner := by
    rw [outward_append_singleton, leavesOfAll_append, ← unwinding.inner, ← unwinding.beside]
    rfl
  beside := rfl
  clones := by
    rw [inward_append_singleton]
    exact unwinding.clones

/-- One more finished item stands to the left. -/
theorem holding
    {value copy : Value}
    (unwinding : Unwinding levels copies before made abort events)
    (alike : copy.unnumbered = value.unnumbered)
    (clones : Event.clones earlier = Leaf.tokens copy.leaves) :
    Unwinding levels copies (value :: before) (copy :: made)
      { abort with beside := copy.leaves ++ abort.beside } (earlier ++ events) where
  alike := unwinding.alike
  alike' := by
    rw [unnumberedAll, unnumberedAll, alike, unwinding.alike']
  inner := unwinding.inner
  beside := by
    rw [leavesOfAll, ← unwinding.beside]
  clones := by
    rw [Event.clones_append, clones, unwinding.clones, List.cons_append, leavesOfAll,
      Leaf.tokens_append]

/-- What is given up, innermost first. -/
theorem finished
    (unwinding : Unwinding levels copies [] [] abort events) :
    abort.finished = leavesOfAll (outward copies) := by
  rw [Abort.finished, unwinding.inner, unwinding.beside, leavesOfAll, List.append_nil]

end Unwinding

namespace Value

mutual

/-- **How a refused copy unwinds.** -/
theorem clone_unwinds :
    ∀ (value : Value) {memory after : Memory} {abort : Abort} {events : List Event},
      value.clone memory = ⟨.error abort, after, events⟩ →
        ∃ levels copies p, value.Stands levels p ∧ Unwinding levels copies [] [] abort events
  | .scalar s, memory, after, abort, events, refused => by
      cases refused
  | .list items, memory, after, abort, events, refused => by
      rw [clone] at refused
      obtain ⟨inner, inside, rfl⟩ := Copying.error_of_mapAbort (Copying.error_of_map refused)
      obtain ⟨before, value, rest, levels, copies, made, p, rfl, stands, unwinding⟩ :=
        cloneAll_unwinds items inside
      exact ⟨_, _, p, stands.item, unwinding.enclosed⟩
  | .pair x y, memory, after, abort, events, refused => by
      rw [clone] at refused
      obtain ⟨inner, inside, rfl⟩ := Copying.error_of_mapAbort (Copying.error_of_map refused)
      rcases Copying.error_of_bind inside with left | ⟨x', between, earlier, later, one, right, rfl⟩
      · obtain ⟨levels, copies, p, stands, unwinding⟩ := clone_unwinds x left
        exact ⟨_, _, p, stands.first, unwinding.enclosed⟩
      · obtain ⟨inner', two, rfl⟩ := Copying.error_of_mapAbort (Copying.error_of_map right)
        obtain ⟨levels, copies, p, stands, unwinding⟩ := clone_unwinds y two
        have held := unwinding.holding (unnumbered_clone x one) (clones_of_clone one)
        exact ⟨_, _, p, stands.second, held.enclosed⟩
  | .handle sharing cell, memory, after, abort, events, refused => by
      cases refused
  | .probe p, memory, after, abort, events, refused => by
      rw [clone] at refused
      by_cases h : memory.Refuses p.family
      · rw [Probe.clone_of_refuses h] at refused
        cases refused
        exact ⟨[], [], p, .here p, .here _⟩
      · rw [Probe.clone_of_not_refuses h] at refused
        cases refused

theorem cloneAll_unwinds :
    ∀ (items : List Value) {memory after : Memory} {abort : Abort} {events : List Event},
      cloneAll items memory = ⟨.error abort, after, events⟩ →
        ∃ before value rest levels copies made p, items = before ++ value :: rest ∧
          value.Stands levels p ∧ Unwinding levels copies before made abort events
  | [], memory, after, abort, events, refused => by
      cases refused
  | value :: rest, memory, after, abort, events, refused => by
      rw [cloneAll] at refused
      rcases Copying.error_of_bind refused with
        head | ⟨copy, between, earlier, later, one, tail, rfl⟩
      · obtain ⟨levels, copies, p, stands, unwinding⟩ := clone_unwinds value head
        exact ⟨[], value, rest, levels, copies, [], p, rfl, stands, unwinding⟩
      · obtain ⟨inner, others, rfl⟩ := Copying.error_of_mapAbort (Copying.error_of_map tail)
        obtain ⟨before, item, after, levels, copies, made, p, rfl, stands, unwinding⟩ :=
          cloneAll_unwinds rest others
        exact ⟨value :: before, item, after, levels, copies, copy :: made, p, rfl, stands,
          unwinding.holding (unnumbered_clone value one) (clones_of_clone one)⟩

end

/-- A copy that is refused holds copies of what stands around the refused probe, and gives up just
what it has copied. -/
theorem unwinds_of_refused
    {value : Value} {memory : Memory} {refusal : Refusal}
    (stopped : (memory.copyLeaves value.leaves).refusal = some refusal) :
    ∃ abort levels copies p,
      value.clone memory = ⟨.error abort, (memory.copyLeaves value.leaves).memory,
        (memory.copyLeaves value.leaves).events⟩ ∧
      abort.refusal = refusal ∧
      abort.finished.Perm (memory.copyLeaves value.leaves).copied ∧
      value.Stands levels p ∧
      copies.map unnumberedAll = levels.map unnumberedAll ∧
      abort.finished = leavesOfAll (outward copies) ∧
      Leaf.tokens (memory.copyLeaves value.leaves).copied =
        Leaf.tokens (leavesOfAll (inward copies)) := by
  obtain ⟨abort, refused, same, held⟩ := clone_of_refused stopped
  obtain ⟨levels, copies, p, stands, unwinding⟩ := value.clone_unwinds refused
  have clones := unwinding.clones
  rw [Event.clones_copyLeaves, List.nil_append] at clones
  exact ⟨abort, levels, copies, p, refused, same, held, stands, unwinding.alike,
    unwinding.finished, clones⟩

/-- What is left on the way out is what was copied on the way in. -/
theorem leavesOfAll_outward_perm
    (levels : List (List Value)) :
    (leavesOfAll (outward levels)).Perm (leavesOfAll (inward levels)) := by
  rw [leavesOfAll_eq_flatMap, leavesOfAll_eq_flatMap]
  exact (List.reverse_perm levels).symm.flatten.flatMap_right leaves

theorem length_tokens_inward
    {copies levels : List (List Value)}
    (alike : copies.map unnumberedAll = levels.map unnumberedAll) :
    (Leaf.tokens (leavesOfAll (inward copies))).length =
      (Leaf.tokens (leavesOfAll (inward levels))).length := by
  have each : unnumberedAll = List.map unnumbered := funext unnumberedAll_eq_map
  have same : unnumberedAll (inward copies) = unnumberedAll (inward levels) := by
    rw [each] at alike ⊢
    rw [inward, inward, List.map_flatten, List.map_flatten, List.map_reverse, List.map_reverse,
      alike]
  have families := families_unnumberedAll (inward copies)
  rw [same, families_unnumberedAll] at families
  simpa using congrArg List.length families.symm

end Value
end SharedPair
