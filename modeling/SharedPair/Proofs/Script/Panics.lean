import Mathlib.Algebra.Order.BigOperators.Group.Finset
import SharedPair.Proofs.Copy.Numbering
import SharedPair.Proofs.Script.Conservation
import SharedPair.Proofs.Script.Copies

/-!
# Packs that are refused

A step that packs is refused just when the plan of its attempts meets one that its family
refuses, and it stops at the first of these.  Nothing is left of it but the attempts,
which stay counted, so the same step makes other attempts when it is taken again.

Each time it is refused, one more of the attempts that its families refuse lies behind
their counters.  There are only so many of them ahead.
-/

namespace SharedPair

namespace Memory

variable {memory memory' : Memory}

/-! ## Refusals that are still to come -/

theorem refused_numbered
    (memory : Memory) (number : Nat) :
    (memory.numbered number).refused = (memory.families.map Family.refused)[number]?.getD [] := by
  rw [numbered, List.getElem?_map]
  cases memory.families[number]? <;> rfl

/-- The attempts that the family of a number refuses and that are still to come. -/
def ahead (memory : Memory) (number : Nat) : Finset Nat :=
  (memory.numbered number).refused.toFinset.filter (memory.made number < ·)

theorem mem_ahead_iff
    {number attempt : Nat} :
    attempt ∈ memory.ahead number ↔
      attempt ∈ (memory.numbered number).refused ∧ memory.made number < attempt := by
  rw [ahead, Finset.mem_filter, List.mem_toFinset]

/-- How many refusals are still to come in the families of some probes. -/
def pending (memory : Memory) (probes : List Probe) : Nat :=
  ∑ number ∈ (probes.map fun p => p.family.number).toFinset, (memory.ahead number).card

section Passing

variable {probes : List Probe}
  (same : ∀ number, (memory'.numbered number).refused = (memory.numbered number).refused)
  (grown : ∀ number, memory.made number ≤ memory'.made number)
include same grown

/-- What is ahead when more attempts were made was ahead before. -/
theorem ahead_subset
    (number : Nat) :
    memory'.ahead number ⊆ memory.ahead number := by
  intro attempt member
  rw [mem_ahead_iff, same] at member
  exact mem_ahead_iff.mpr ⟨member.1, Nat.lt_of_le_of_lt (grown number) member.2⟩

/-- A refusal that comes is to come no more. -/
theorem pending_lt_of_passed
    {p : Probe} {attempt : Nat}
    (occurs : p ∈ probes)
    (refuses : attempt ∈ (memory.numbered p.family.number).refused)
    (before : memory.made p.family.number < attempt)
    (passed : attempt ≤ memory'.made p.family.number) :
    memory'.pending probes < memory.pending probes := by
  have gone : attempt ∉ memory'.ahead p.family.number := fun member =>
    Nat.not_lt.mpr passed (mem_ahead_iff.mp member).2
  have fewer : memory'.ahead p.family.number ⊂ memory.ahead p.family.number :=
    Finset.ssubset_iff_of_subset (ahead_subset same grown _) |>.mpr
      ⟨attempt, mem_ahead_iff.mpr ⟨refuses, before⟩, gone⟩
  have member : p.family.number ∈ (probes.map fun p => p.family.number).toFinset :=
    List.mem_toFinset.mpr (List.mem_map.mpr ⟨p, occurs, rfl⟩)
  exact Finset.sum_lt_sum (fun number _ => Finset.card_le_card (ahead_subset same grown number))
    ⟨p.family.number, member, Finset.card_lt_card fewer⟩

end Passing

/-- A pass that is refused leaves one behind of the refusals that were to come. -/
theorem pending_lt_of_refused
    {l : List (Leaf String Probe)}
    (issued : ∀ p ∈ Leaf.tokens l, memory.Issued p)
    {refusal : Refusal}
    (stopped : (memory.copyLeaves l).refusal = some refusal)
    (same : memory'.families = (memory.copyLeaves l).memory.families) :
    memory'.pending (Leaf.tokens l) < memory.pending (Leaf.tokens l) := by
  have planned := planned_copyLeaves l issued
  rw [planned.refusal] at stopped
  obtain ⟨attempt, found, -⟩ := Option.map_eq_some_iff.mp stopped
  have counted : ∀ number, memory'.made number = memory.made number +
      countFamily number ((memory.reached (memory.plan (Leaf.tokens l))).map Attempt.source) := by
    intro number
    rw [← planned.made, made, made, numbered, numbered, same]
  have refused : ∀ number,
      (memory'.numbered number).refused = (memory.numbered number).refused := by
    intro number
    rw [refused_numbered, refused_numbered, same, refused_copyLeaves]
  have number : attempt.number = memory'.made attempt.source.family.number := by
    rw [counted]
    exact number_of_rejected? found
  have occurs : attempt.source ∈ Leaf.tokens l := by
    rw [← Attempt.source_plan memory.made (Leaf.tokens l)]
    exact List.mem_map_of_mem (mem_of_rejected? found)
  -- the refused attempt is itself counted, so its number is above the counter before
  have source : attempt.source ∈
      (memory.reached (memory.plan (Leaf.tokens l))).map Attempt.source := by
    refine List.mem_map_of_mem (List.mem_append_right _ ?_)
    rw [found]
    exact List.mem_singleton.mpr rfl
  have positive : 0 < countFamily attempt.source.family.number
      ((memory.reached (memory.plan (Leaf.tokens l))).map Attempt.source) :=
    List.countP_pos_iff.mpr ⟨_, source, decide_eq_true rfl⟩
  refine pending_lt_of_passed refused (fun number => ?_) occurs (rejects_of_rejected? found) ?_
    (Nat.le_of_eq number)
  · rw [counted]
    exact Nat.le_add_right _ _
  · rw [number, counted]
    exact Nat.lt_add_of_pos_right positive

end Memory

namespace Script
namespace State

variable {s : State}

/-! ## A step that is taken again -/

theorem follow_of_values
    {t : State}
    (values : ∀ id, Heap.value? t.memory.cells id = Heap.value? s.memory.cells id)
    (segments : List Segment) (value : Value) :
    t.follow segments value = s.follow segments value := by
  fun_induction follow s segments value with
  | case1 value => rw [follow]
  | case2 rest first second ih => rw [follow, ih]
  | case3 rest first second ih => rw [follow, ih]
  | case4 rest sharing cell content found ih =>
      rw [follow, values, found]
      exact ih
  | case5 rest sharing cell missing => rw [follow, values, missing]
  | case6 head tail value noFirst noSecond noCell =>
      rw [follow]
      · exact noFirst
      · exact noSecond
      · exact noCell

/-- What a path leads to depends on its slot and the values of the cells alone. -/
theorem resolve_of_values
    {t : State} {path : Path}
    (slot : t.slots.find? path.slot = s.slots.find? path.slot)
    (values : ∀ id, Heap.value? t.memory.cells id = Heap.value? s.memory.cells id) :
    t.resolve path = s.resolve path := by
  unfold resolve State.slot
  rw [slot]
  cases s.slots.find? path.slot with
  | none => rfl
  | some value => exact follow_of_values values path.segments value

section Packs

variable {first second : Path} {x y : Value}

/-- What a step that packs into a slot comes to, with the pass over the leaves of both values. -/
inductive PackEnds (s : State) (pass : Pass) (name : String) : State × Effect → Prop
  | packed
      {after : State} {made : Value} {later : List Event}
      (accepted : pass.refusal = none)
      (stored : after.slots.find? name = some made)
      (held : made.leaves = pass.copied)
      (counted : after.memory.families = pass.memory.families)
      (quiet : Event.clones later = []) :
      PackEnds s pass name (after, ⟨.done, pass.events ++ later⟩)
  | refused
      {refusal : Refusal} {later : List Event}
      (stopped : pass.refusal = some refusal)
      (quiet : Event.clones later = []) :
      PackEnds s pass name
        ({ s with memory := ⟨s.memory.cells, pass.memory.families⟩ },
          ⟨.fault (.refused refusal), pass.events ++ later⟩)

theorem packEnds
    (owned : s.Owned)
    (reached : s.resolve first = .ok x) (reached' : s.resolve second = .ok y)
    (name : String) :
    PackEnds s (s.memory.copyLeaves (x.leaves ++ y.leaves)) name
      (s.step (.pack first second name)) := by
  cases refusal : (s.memory.copyLeaves (x.leaves ++ y.leaves)).refusal with
  | none =>
      obtain ⟨x', y', -, -, held, stored⟩ := step_pack_of_accepted reached reached' refusal
      rw [stored name, List.append_assoc]
      rw [← Value.leaves] at held
      refine .packed refusal (find?_store _ _ _) held (families_store _ _ _) ?_
      rw [Event.clones_append, Event.clones_logged, clones_store, List.append_nil]
  | some refused =>
      obtain ⟨dropped, -, stopped⟩ :=
        step_pack_of_refused reached reached' owned.counted.positive refusal name
      rw [stopped]
      exact .refused refusal (Event.clones_dropped _)

namespace PackEnds

variable {pass : Pass} {plan : List Attempt} {name : String} {after : State × Effect}

/-- The answer is read off the plan. -/
theorem reply_of_rejected
    {attempt : Attempt}
    (ends : PackEnds s pass name after) (planned : s.memory.Planned plan pass)
    (found : s.memory.rejected? plan = some attempt) :
    after.2.reply = .fault (.refused attempt.refusal) := by
  have refusal := planned.refusal
  rw [found] at refusal
  cases ends with
  | packed accepted stored held counted quiet =>
      rw [accepted] at refusal
      cases refusal
  | refused stopped quiet =>
      rw [stopped] at refusal
      cases refusal
      rfl

theorem reply_of_accepted
    (ends : PackEnds s pass name after) (planned : s.memory.Planned plan pass)
    (none : s.memory.rejected? plan = none) :
    after.2.reply = .done ∧ ∃ made, after.1.slots.find? name = some made ∧
      Leaf.tokens made.leaves = plan.map Attempt.clone := by
  have refusal := planned.refusal
  rw [none] at refusal
  cases ends with
  | packed accepted stored held counted quiet =>
      refine ⟨rfl, _, stored, ?_⟩
      rw [held, planned.clones, Memory.accepted_of_rejected?_eq_none none]
  | refused stopped quiet =>
      rw [stopped] at refusal
      cases refusal

theorem made
    (ends : PackEnds s pass name after)
    (number : Nat) :
    after.1.memory.made number = pass.memory.made number := by
  cases ends with
  | packed accepted stored held counted quiet =>
      rw [Memory.made, Memory.numbered, counted]
      rfl
  | refused stopped quiet => rfl

theorem events
    (ends : PackEnds s pass name after) :
    ∃ later, after.2.events = pass.events ++ later ∧ Event.clones later = [] := by
  cases ends with
  | packed accepted stored held counted quiet => exact ⟨_, rfl, quiet⟩
  | refused stopped quiet => exact ⟨_, rfl, quiet⟩

end PackEnds

/-- **A pack that is taken again** is refused no more often than refusals are still to come. -/
theorem pack_repeated
    (first second : Path) (name : String) (x y : Value) (s : State)
    (owned : s.Owned) (enrolled : s.Enrolled)
    (reached : s.resolve first = .ok x) (reached' : s.resolve second = .ok y) :
    ∃ times ≤ s.memory.pending (Leaf.tokens (x.leaves ++ y.leaves)),
      (∀ entry ∈ (machine.run s (List.replicate times (.pack first second name))).2,
        ∃ refusal, entry.effect.reply = .fault (.refused refusal)) ∧
      ((machine.run s (List.replicate times (.pack first second name))).1.step
        (.pack first second name)).2.reply = .done := by
  induction bound : s.memory.pending (Leaf.tokens (x.leaves ++ y.leaves)) using
    Nat.strong_induction_on generalizing s with
  | h most ih =>
      have ends := packEnds owned reached reached' name
      have owned' := owned_step owned (.pack first second name)
      have enrolled' := enrolled_step owned enrolled (.pack first second name)
      have issued := issued_of_resolve_pair enrolled reached reached'
      generalize taken : s.step (.pack first second name) = after at ends owned' enrolled'
      cases ends with
      | packed accepted stored held counted quiet =>
          refine ⟨0, Nat.zero_le _, ?_, ?_⟩
          · intro entry member
            cases member
          · exact congrArg (fun after : State × Effect => after.2.reply) taken
      | @refused refusal later stopped quiet =>
          have fewer : Memory.pending ⟨s.memory.cells, _⟩ _ < s.memory.pending _ :=
            Memory.pending_lt_of_refused issued stopped rfl
          rw [bound] at fewer
          have again : ∀ (families : List Family) (path : Path),
              State.resolve { s with memory := ⟨s.memory.cells, families⟩ } path =
                s.resolve path := fun _ _ => resolve_of_values rfl fun _ => rfl
          obtain ⟨times, few, refusals, done⟩ := ih _ fewer _ owned' enrolled'
            ((again _ first).trans reached) ((again _ second).trans reached') rfl
          refine ⟨times + 1, Nat.succ_le_of_lt (Nat.lt_of_le_of_lt few fewer), ?_, ?_⟩
          · rw [List.replicate_succ, Machine.run_cons, show machine.step s _ = _ from taken]
            intro entry member
            rcases List.mem_cons.mp member with rfl | member
            · exact ⟨refusal, rfl⟩
            · exact refusals entry member
          · rw [List.replicate_succ, Machine.run_cons, show machine.step s _ = _ from taken]
            exact done

end Packs

/-! ## What is counted -/

/-- The counter of a family is the number of its clones and of its refusals so far. -/
theorem made_of_tally
    {clones : List Probe} {refusals : List Refusal}
    (tally : s.memory.Tally clones refusals)
    (number : Nat) :
    s.memory.made number =
      (serialsIn number clones).length + (refusedIn number refusals).length := by
  have parts := List.length_eq_length_filter_add
    (l := List.range' 1 (s.memory.numbered number).attempts)
    (fun k => decide (k ∉ (s.memory.numbered number).refused))
  rw [List.length_range'] at parts
  rw [tally.accepted, tally.turnedDown, Memory.made, parts, Family.accepted, Family.turnedDown]
  simp

end State

/-- The attempts of the families of a state, by the steps that led to it. -/
structure Numbered (filter : Filter) (steps : List Step) (s : State) (entries : List Entry) :
    Prop where
  /-- A family has made an attempt for each of its clones and for each of its refusals. -/
  made : ∀ number, s.memory.made number =
    (serialsIn number (Event.clones (eventsOf entries))).length +
      (refusedIn number (refusalsOf entries)).length
  /-- It refuses the attempts that it was made to refuse. -/
  refused : ∀ number, (s.memory.numbered number).refused =
    ((familiesIn (State.initial filter) steps).map Prod.snd)[number]?.getD []

/-- What a step that packs two values comes to, by the plan of its attempts at clones. -/
structure Foreseen (s : State) (first second : Path) (name : String) (x y : Value)
    (plan : List Attempt) (after : State × Effect) : Prop where
  /-- It is refused just when the plan has an attempt that the family refuses. -/
  refused_iff : (∃ refusal, after.2.reply = .fault (.refused refusal)) ↔
    ∃ attempt ∈ plan, s.memory.Rejects attempt
  /-- It is told of the first of these. -/
  told : ∀ attempt, s.memory.rejected? plan = some attempt →
    after.2.reply = .fault (.refused attempt.refusal) ∧
      attempt.refusal.message = "clone " ++ attempt.source.family.name ++ "#" ++
        toString attempt.number ++ " refused"
  /-- If there is none, it succeeds, and the clones planned are in the slot. -/
  done : s.memory.rejected? plan = none →
    after.2.reply = .done ∧ ∃ made, after.1.slots.find? name = some made ∧
      Leaf.tokens made.leaves = plan.map Attempt.clone
  /-- The attempts in the first value come first. -/
  left : s.memory.plan (Leaf.tokens x.leaves) <+: plan
  /-- If one of those is refused, the step comes to what it comes to to clone the first value. -/
  alone : (∃ attempt ∈ s.memory.plan (Leaf.tokens x.leaves), s.memory.Rejects attempt) →
    after = s.step (.clone first name)
  /-- Each family counts its attempts up to the first refused one, and that one. -/
  counted : ∀ number, after.1.memory.made number =
    s.memory.made number + countFamily number ((s.memory.reached plan).map Attempt.source)
  /-- The clones are those of the accepted attempts before it, with their numbers as serials. -/
  events : ∃ later, after.2.events = (s.memory.accepted plan).map Attempt.event ++ later ∧
    Event.clones later = []
  /-- Taken again and again, it is refused at most once for each attempt that the families of the
  probes refuse from now on, and then it succeeds. -/
  again : ∃ times ≤ s.memory.pending (Leaf.tokens (x.leaves ++ y.leaves)),
    (∀ entry ∈ (machine.run s (List.replicate times (.pack first second name))).2,
      ∃ refusal, entry.effect.reply = .fault (.refused refusal)) ∧
    ((machine.run s (List.replicate times (.pack first second name))).1.step
      (.pack first second name)).2.reply = .done

/-- **When a pack panics.**  Take any step that packs the values at two paths, in any state that
steps lead to, and the plan of the attempts at clones that it has ahead: one for each probe of the
first value and then of the second, outside cells and from left to right, with the number that
follows on those of its family.  The plan says what the step comes to. -/
theorem pack_refused_iff
    (filter : Filter) (steps : List Step) (first second : Path) (name : String) (x y : Value) :
    let s := (machine.run (State.initial filter) steps).1
    let entries := (machine.run (State.initial filter) steps).2
    let plan := s.memory.plan (Leaf.tokens (x.leaves ++ y.leaves))
    s.resolve first = .ok x → s.resolve second = .ok y →
      Numbered filter steps s entries ∧
        Foreseen s first second name x y plan (s.step (.pack first second name)) := by
  intro s entries plan reached reached'
  have start := State.owned_initial filter
  have owned : s.Owned := State.owned_run steps start
  have enrolled : s.Enrolled := State.enrolled_run steps start (State.enrolled_initial filter)
  have issued := State.issued_of_resolve_pair enrolled reached reached'
  have tally : s.memory.Tally (Event.clones (eventsOf entries)) (refusalsOf entries) :=
    State.tally_of_run filter steps
  have families : s.memory.families.map Family.refused =
      (familiesIn (State.initial filter) steps).map Prod.snd :=
    State.refused_run steps start
  have planned : s.memory.Planned plan _ := Memory.planned_copyLeaves _ issued
  have ends := State.packEnds owned reached reached' name
  refine ⟨⟨State.made_of_tally tally, fun number => by rw [Memory.refused_numbered, families]⟩, ?_⟩
  exact {
    refused_iff := by
      refine ⟨?_, fun rejects => ?_⟩
      · rintro ⟨refusal, refused⟩
        by_contra fine
        have none := Memory.rejected?_eq_none_iff.mpr fun attempt member rejects =>
          fine ⟨attempt, member, rejects⟩
        rw [(ends.reply_of_accepted planned none).1] at refused
        cases refused
      · obtain ⟨attempt, found⟩ := Memory.exists_rejected?_iff.mpr rejects
        exact ⟨_, ends.reply_of_rejected planned found⟩
    told := fun attempt found => ⟨ends.reply_of_rejected planned found, rfl⟩
    done := ends.reply_of_accepted planned
    left := by
      show Attempt.plan _ _ <+: Attempt.plan _ _
      rw [Leaf.tokens_append, Attempt.plan_append]
      exact List.prefix_append _ _
    alone := fun rejects => by
      obtain ⟨attempt, found⟩ := Memory.exists_rejected?_iff.mpr rejects
      have refused := (Memory.planned_copyLeaves x.leaves fun p member =>
        issued p (by rw [Leaf.tokens_append]; exact List.mem_append_left _ member)).refusal
      rw [found] at refused
      exact State.step_pack_of_refused_first reached reached' refused name
    counted := fun number => by
      rw [← planned.made]
      exact ends.made number
    events := by
      rw [← planned.events]
      exact ends.events
    again := State.pack_repeated first second name x y s owned enrolled reached reached' }

/-- A pack that is refused twice, by one family and then by the other, before it succeeds. -/
theorem pack_refused_iff_twice :
    let steps : List Step := [.new "x" (.list [.probe "p" [1], .probe "q" [2]])]
    let s := (machine.run (State.initial .off) steps).1
    let p : FamilyId := ⟨"p", 0⟩
    let q : FamilyId := ⟨"q", 1⟩
    let x : Value := .list [.probe ⟨p, 0⟩, .probe ⟨q, 0⟩]
    let pack := Step.pack ⟨"x", []⟩ ⟨"x", []⟩ "y"
    s.resolve ⟨"x", []⟩ = .ok x ∧
      (s.step pack).2.reply = .fault (.refused ⟨p, 1⟩) ∧
      ((s.step pack).1.step pack).2.reply = .fault (.refused ⟨q, 2⟩) ∧
      (s.step pack).1.memory.made 0 = 1 ∧
      ∃ times ≤ 2,
        (∀ entry ∈ (machine.run s (List.replicate times pack)).2,
          ∃ refusal, entry.effect.reply = .fault (.refused refusal)) ∧
        ((machine.run s (List.replicate times pack)).1.step pack).2.reply = .done := by
  intro steps s p q x pack
  have law := (pack_refused_iff .off steps ⟨"x", []⟩ ⟨"x", []⟩ "y" x x rfl rfl).2
  have again := ((pack_refused_iff .off (steps ++ [pack]) ⟨"x", []⟩ ⟨"x", []⟩ "y" x x rfl
    rfl).2.told ⟨⟨q, 0⟩, 2⟩ rfl).1
  have later : (machine.run (State.initial .off) (steps ++ [pack])).1 = (s.step pack).1 := rfl
  rw [later] at again
  refine ⟨rfl, (law.told ⟨⟨p, 0⟩, 1⟩ rfl).1, ?_, law.counted 0, law.again⟩
  -- what the state is has been used, and need not be computed again
  clear law later
  clear_value s
  exact again

end Script
end SharedPair
