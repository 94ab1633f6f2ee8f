import SharedPair.Proofs.Copy.Unwinding
import SharedPair.Proofs.Script.Clones

/-!
# What a refused pack gives up

A pack copies the pair of its two values.  So the refused probe stands in that pair, and
the outermost level is the first value, if the refused probe is in the second, or empty.

The handles among the finished parts are given up with the rest.  The values that were
packed still hold theirs, so nothing is freed on the way.
-/

namespace SharedPair
namespace Script
namespace State

variable {s : State} {first second : Path} {name : String} {refusal : Refusal}

/-- A refused pack has found both values. -/
theorem reached_of_refused
    (refused : (s.step (.pack first second name)).2.reply = .fault (.refused refusal)) :
    ∃ x y, s.resolve first = .ok x ∧ s.resolve second = .ok y := by
  cases reached : s.resolve first with
  | error fault =>
      rw [step_pack_of_invalid reached] at refused
      cases refused
      cases early_of_resolve reached
  | ok x =>
      cases reached' : s.resolve second with
      | error fault =>
          rw [step_pack_of_invalid_second reached reached'] at refused
          cases refused
          cases early_of_resolve reached'
      | ok y => exact ⟨x, y, rfl, rfl⟩

/-- A refused pack gives up the copies of what stands around the refused probe, level by level. -/
theorem step_pack_unwinds
    {x y : Value}
    (positive : ∀ key cell, s.memory.cells.find? key = some cell → 0 < cell.count)
    (reached : s.resolve first = .ok x) (reached' : s.resolve second = .ok y)
    (stopped : (s.memory.copyLeaves (x.leaves ++ y.leaves)).refusal = some refusal)
    (name : String) :
    ∃ levels copies p, (Value.pair x y).Stands levels p ∧
      copies.map Value.unnumberedAll = levels.map Value.unnumberedAll ∧
      Leaf.tokens (s.memory.copyLeaves (x.leaves ++ y.leaves)).copied =
        Leaf.tokens (Value.leavesOfAll (Value.inward copies)) ∧
      s.step (.pack first second name) =
        ({ s with memory :=
            ⟨s.memory.cells, (s.memory.copyLeaves (x.leaves ++ y.leaves)).memory.families⟩ },
          ⟨.fault (.refused refusal), (s.memory.copyLeaves (x.leaves ++ y.leaves)).events ++
            (Leaf.tokens (Value.leavesOfAll (Value.outward copies))).map .dropped⟩) := by
  have leaves : (Value.pair x y).leaves = x.leaves ++ y.leaves := by rw [Value.leaves]
  rw [← leaves] at stopped ⊢
  obtain ⟨abort, levels, copies, p, refused, same, held, stands, alike, finished, copied⟩ :=
    Value.unwinds_of_refused stopped
  refine ⟨levels, copies, p, stands, alike, copied, ?_⟩
  rw [step_pack reached reached',
    storeCopy_of_error ((Copying.copies_packPair s.filter x y).refused refused),
    Memory.release_copied positive held, same, finished]

end State

/-- How a step that packs two values gives up what it has copied, when an attempt at a clone is
refused. -/
structure Unwinds (s : State) (first second : Path) (refusal : Refusal) (x y : Value)
    (plan accepted : List Attempt) (attempt : Attempt) (levels copies : List (List Value))
    (after : State × Effect) : Prop where
  /-- The first value is that at the first path. -/
  reached : s.resolve first = .ok x
  /-- The second value is that at the second path. -/
  reached' : s.resolve second = .ok y
  /-- The attempts are those at the probes of the two values. -/
  planned : plan = s.memory.plan (Leaf.tokens (x.leaves ++ y.leaves))
  /-- One of them is the first to be refused. -/
  stopped : s.memory.rejected? plan = some attempt
  /-- It is the one that is told of. -/
  told : attempt.refusal = refusal
  /-- Its probe stands in the pair of both values.  The outermost level is the first value if the
  probe is in the second, and else it is empty. -/
  stands : (Value.pair x y).Stands levels attempt.source
  /-- Those before it are accepted. -/
  passed : accepted = s.memory.accepted plan
  /-- They are at the probes before it, in the order of copying. -/
  sources : accepted.map Attempt.source = Leaf.tokens (Value.leavesOfAll (Value.inward levels))
  /-- The finished copies are likenesses of the items that stand before it. -/
  alike : copies.map Value.unnumberedAll = levels.map Value.unnumberedAll
  /-- They hold the clones of the accepted attempts. -/
  clones : Leaf.tokens (Value.leavesOfAll (Value.inward copies)) = accepted.map Attempt.clone
  /-- Each clone is dropped once. -/
  once : (Leaf.tokens (Value.leavesOfAll (Value.outward copies))).Perm (accepted.map Attempt.clone)
  /-- The events are the clonings and then the drops.  The drops go by levels: first come the
  finished items beside the probe in the innermost list or pair around it, then those in the next
  one, and so on outwards.  On each level the items come from left to right. -/
  events : after.2.events = accepted.map Attempt.event ++
    (Leaf.tokens (Value.leavesOfAll (Value.outward copies))).map .dropped
  /-- Nothing but the counted attempts is left. -/
  left : after.1 = { s with memory := ⟨s.memory.cells, after.1.memory.families⟩ }

/-- **How a refused pack unwinds.**  Take any step that packs the values at two paths, in any state
that steps lead to, and suppose that the family of a probe refuses its clone.  What was copied is
given up from the inside out. -/
theorem pack_unwinds
    (filter : Filter) (steps : List Step) (first second : Path) (name : String)
    (refusal : Refusal) :
    let s := (machine.run (State.initial filter) steps).1
    let after := s.step (.pack first second name)
    after.2.reply = .fault (.refused refusal) →
      ∃ x y plan accepted attempt levels copies,
        Unwinds s first second refusal x y plan accepted attempt levels copies after := by
  intro s after refused
  have start := State.owned_initial filter
  have owned : s.Owned := State.owned_run steps start
  have enrolled : s.Enrolled := State.enrolled_run steps start (State.enrolled_initial filter)
  obtain ⟨x, y, reached, reached'⟩ := State.reached_of_refused refused
  have planned := Memory.planned_copyLeaves (x.leaves ++ y.leaves)
    (State.issued_of_resolve_pair enrolled reached reached')
  have ends := State.packEnds owned reached reached' name
  cases found : s.memory.rejected? (s.memory.plan (Leaf.tokens (x.leaves ++ y.leaves))) with
  | none =>
      have done : after.2.reply = .done := (ends.reply_of_accepted planned found).1
      rw [done] at refused
      cases refused
  | some attempt =>
      have told : after.2.reply = .fault (.refused attempt.refusal) :=
        ends.reply_of_rejected planned found
      rw [told] at refused
      cases refused
      obtain ⟨levels, copies, p, stands, alike, copied, step⟩ :=
        State.step_pack_unwinds owned.counted.positive reached reached'
          (planned.refusal.trans (congrArg _ found)) name
      have clones := planned.clones.symm.trans copied
      -- as many attempts are accepted as there are probes before the one that stands there
      have many := congrArg List.length clones
      rw [List.length_map, Value.length_tokens_inward alike] at many
      obtain ⟨rest, tokens⟩ := stands.tokens
      rw [Value.leaves] at tokens
      rw [tokens] at many
      obtain ⟨sources, rfl⟩ := Memory.sources_of_rejected? (tokens ▸ found) many
      have whole : after = _ := step
      exact ⟨x, y, _, _, attempt, levels, copies, {
        reached := reached
        reached' := reached'
        planned := rfl
        stopped := found
        told := rfl
        stands := stands
        passed := rfl
        sources := by rw [tokens, sources]
        alike := alike
        clones := clones.symm
        once := by
          rw [clones]
          exact Leaf.tokens_perm (Value.leavesOfAll_outward_perm copies)
        events := by rw [whole, planned.events]
        left := by rw [whole] }⟩

/-- The refused probe stands in a pair within a list.  The drops begin beside it in the pair, go on
in the list, and end with the first value from left to right. -/
theorem pack_unwinds_nested :
    let steps : List Step :=
      [.new "a" (.list [.probe "p" [], .cell .acrossThreads "c" (.scalar .unit), .probe "q" []]),
        .new "b" (.list [.probe "r" [], .pair (.probe "s" []) (.probe "t" [1])])]
    let s := (machine.run (State.initial .off) steps).1
    let effect := (s.step (.pack ⟨"a", []⟩ ⟨"b", []⟩ "x")).2
    let p : Nat → Probe := fun serial => ⟨⟨"p", 0⟩, serial⟩
    let q : Nat → Probe := fun serial => ⟨⟨"q", 1⟩, serial⟩
    let r : Nat → Probe := fun serial => ⟨⟨"r", 2⟩, serial⟩
    let s' : Nat → Probe := fun serial => ⟨⟨"s", 3⟩, serial⟩
    let t : Nat → Probe := fun serial => ⟨⟨"t", 4⟩, serial⟩
    let a : Value := .list [.probe (p 0), .handle .acrossThreads "c", .probe (q 0)]
    let b : Value := .list [.probe (r 0), .pair (.probe (s' 0)) (.probe (t 0))]
    let cloned : List Event := [.cloned (p 0) 1, .cloned (q 0) 1, .cloned (r 0) 1, .cloned (s' 0) 1]
    let dropped : List Probe := [s' 1, r 1, p 1, q 1]
    effect.reply = .fault (.refused ⟨(t 0).family, 1⟩) ∧
      effect.events = cloned ++ dropped.map .dropped ∧
      ∃ levels copies, (Value.pair a b).Stands levels (t 0) ∧
        copies.map Value.unnumberedAll = levels.map Value.unnumberedAll ∧
        Leaf.tokens (Value.leavesOfAll (Value.outward copies)) = dropped := by
  intro steps s effect p q r s' t a b cloned dropped
  have told : effect.reply = .fault (.refused ⟨(t 0).family, 1⟩) := rfl
  have whole : effect.events = cloned ++ dropped.map .dropped := by decide +kernel
  obtain ⟨x, y, plan, accepted, attempt, levels, copies, unwinds⟩ :=
    pack_unwinds .off steps ⟨"a", []⟩ ⟨"b", []⟩ "x" _ told
  obtain rfl : a = x := Except.ok.inj unwinds.reached
  obtain rfl : b = y := Except.ok.inj unwinds.reached'
  obtain rfl := unwinds.planned
  obtain rfl := unwinds.passed
  obtain rfl : ⟨t 0, 1⟩ = attempt := Option.some.inj unwinds.stopped
  refine ⟨told, whole, levels, copies, unwinds.stands, unwinds.alike, ?_⟩
  have drops := List.append_cancel_left (unwinds.events.symm.trans whole)
  exact List.map_injective_iff.mpr (fun _ _ => Event.dropped.inj) drops

end Script
end SharedPair
