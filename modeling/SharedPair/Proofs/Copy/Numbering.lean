import Mathlib.Data.List.TakeWhile
import SharedPair.Proofs.Script.Serials

/-!
# The numbers of attempts

A pass over leaves attempts a clone of each probe in turn, and each attempt gets the
next number in its family.  Which number that is can be told in advance: it is the
number of attempts made in the family before the pass, and on top of it the place of
the probe among those of its family.

So what a pass comes to is told by this plan alone.  It goes as far as the first attempt
that its family refuses, the clones before it have the planned numbers as their serials,
and each family is left with the attempts counted that were made.
-/

namespace SharedPair

/-- An attempt at a clone of a probe, with its number in the family. -/
structure Attempt where
  source : Probe
  number : Nat
  deriving DecidableEq, Repr

namespace Attempt

/-- The clone that an accepted attempt makes. -/
def clone (attempt : Attempt) : Probe := ⟨attempt.source.family, attempt.number⟩

/-- What an accepted attempt reports. -/
def event (attempt : Attempt) : Event := .cloned attempt.source attempt.number

/-- What becomes of an attempt that is refused. -/
def refusal (attempt : Attempt) : Refusal := ⟨attempt.source.family, attempt.number⟩

/-- The attempts at clones of some probes, one after the other, when a number of attempts was made
in each family before. -/
def plan (made : Nat → Nat) (probes : List Probe) : List Attempt :=
  probes.mapIdx fun i p =>
    ⟨p, made p.family.number + countFamily p.family.number (probes.take (i + 1))⟩

/-- The first attempt is the next one in its family, and those after it count it. -/
theorem plan_cons
    (made : Nat → Nat) (p : Probe) (rest : List Probe) :
    plan made (p :: rest) =
      ⟨p, made p.family.number + 1⟩ ::
        plan (fun number => made number + if p.family.number = number then 1 else 0) rest := by
  rw [plan, plan, List.mapIdx_cons]
  congr 1
  · simp [countFamily]
  · congr 1
    funext i q
    rw [List.take_succ_cons, countFamily_cons]
    congr 1
    omega

theorem source_plan
    (made : Nat → Nat) (probes : List Probe) :
    (plan made probes).map source = probes := by
  induction probes generalizing made with
  | nil => rfl
  | cons p rest ih => rw [plan_cons, List.map_cons, ih]

/-- A plan for more probes begins with the plan for the first of them. -/
theorem plan_append
    (made : Nat → Nat) (first second : List Probe) :
    plan made (first ++ second) =
      plan made first ++ plan (fun number => made number + countFamily number first) second := by
  induction first generalizing made with
  | nil => rfl
  | cons p rest ih =>
      rw [List.cons_append, plan_cons, plan_cons, ih, List.cons_append]
      congr 3
      funext number
      rw [countFamily_cons]
      omega

end Attempt

namespace Memory

/-- How many attempts were made in the family of a number. -/
def made (memory : Memory) (number : Nat) : Nat := (memory.numbered number).attempts

/-- Whether an attempt is one that its family refuses. -/
def Rejects (memory : Memory) (attempt : Attempt) : Prop :=
  attempt.number ∈ (memory.numbered attempt.source.family.number).refused

instance (memory : Memory) : DecidablePred memory.Rejects := fun attempt =>
  inferInstanceAs (Decidable (attempt.number ∈ _))

/-- The attempts at clones of some probes that a memory has next. -/
def plan (memory : Memory) (probes : List Probe) : List Attempt := Attempt.plan memory.made probes

/-- The attempts of a plan that are accepted before the first refused one. -/
def accepted (memory : Memory) (plan : List Attempt) : List Attempt :=
  plan.takeWhile fun attempt => decide (¬ memory.Rejects attempt)

/-- The first attempt of a plan that is refused. -/
def rejected? (memory : Memory) (plan : List Attempt) : Option Attempt :=
  plan.find? fun attempt => decide (memory.Rejects attempt)

/-- The attempts of a plan that are made: those up to the first refused one, and that one. -/
def reached (memory : Memory) (plan : List Attempt) : List Attempt :=
  memory.accepted plan ++ (memory.rejected? plan).toList

variable {memory : Memory} {p : Probe}

theorem rejects_attempt
    (issued : memory.Issued p) :
    (memory.attempt p.family).Rejects = memory.Rejects := by
  funext attempt
  rw [Rejects, numbered_attempt issued]
  split <;> rfl

theorem plan_attempt
    (issued : memory.Issued p)
    (rest : List Probe) :
    memory.plan (p :: rest) =
      ⟨p, memory.nextAttempt p.family⟩ :: (memory.attempt p.family).plan rest := by
  have counted : (memory.attempt p.family).made = fun number =>
      memory.made number + if p.family.number = number then 1 else 0 := by
    funext number
    rw [made, numbered_attempt issued]
    split <;> rfl
  rw [plan, Attempt.plan_cons, plan, counted]
  rfl

theorem rejected?_attempt
    (issued : memory.Issued p)
    (plan : List Attempt) :
    (memory.attempt p.family).rejected? plan = memory.rejected? plan := by
  simp only [rejected?, rejects_attempt issued]

theorem accepted_attempt
    (issued : memory.Issued p)
    (plan : List Attempt) :
    (memory.attempt p.family).accepted plan = memory.accepted plan := by
  simp only [accepted, rejects_attempt issued]

section Steps

variable {attempt : Attempt} {rest : List Attempt}

theorem rejected?_of_rejects
    (rejects : memory.Rejects attempt) :
    memory.rejected? (attempt :: rest) = some attempt :=
  List.find?_cons_of_pos (decide_eq_true rejects)

theorem accepted_of_rejects
    (rejects : memory.Rejects attempt) :
    memory.accepted (attempt :: rest) = [] :=
  List.takeWhile_cons_of_neg fun accepts => of_decide_eq_true accepts rejects

theorem rejected?_of_not_rejects
    (accepts : ¬ memory.Rejects attempt) :
    memory.rejected? (attempt :: rest) = memory.rejected? rest :=
  List.find?_cons_of_neg fun rejects => accepts (of_decide_eq_true rejects)

theorem accepted_of_not_rejects
    (accepts : ¬ memory.Rejects attempt) :
    memory.accepted (attempt :: rest) = attempt :: memory.accepted rest :=
  List.takeWhile_cons_of_pos (decide_eq_true accepts)

end Steps

theorem made_attempt
    (issued : memory.Issued p)
    (number : Nat) :
    (memory.attempt p.family).made number =
      memory.made number + if p.family.number = number then 1 else 0 := by
  rw [made, numbered_attempt issued]
  split <;> rfl

/-- What a pass comes to that goes by a plan. -/
structure Planned (memory : Memory) (plan : List Attempt) (pass : Pass) : Prop where
  refusal : pass.refusal = (memory.rejected? plan).map Attempt.refusal
  events : pass.events = (memory.accepted plan).map Attempt.event
  clones : Leaf.tokens pass.copied = (memory.accepted plan).map Attempt.clone
  /-- The attempts are counted that are made. -/
  made : ∀ number, pass.memory.made number =
    memory.made number + countFamily number ((memory.reached plan).map Attempt.source)

/-- **A pass follows its plan.** -/
theorem planned_copyLeaves
    (l : List (Leaf String Probe))
    (issued : ∀ p ∈ Leaf.tokens l, memory.Issued p) :
    memory.Planned (memory.plan (Leaf.tokens l)) (memory.copyLeaves l) := by
  induction l generalizing memory with
  | nil => exact ⟨rfl, rfl, rfl, fun number => rfl⟩
  | cons leaf rest ih =>
      cases leaf with
      | handle cell =>
          have planned : (memory.acquire cell).Planned _ _ := ih issued
          exact ⟨planned.refusal, planned.events, planned.clones, planned.made⟩
      | token p =>
          rw [Leaf.tokens_cons_token] at issued ⊢
          have first := issued p List.mem_cons_self
          rw [plan_attempt first]
          by_cases h : memory.Refuses p.family
          · have rejects : memory.Rejects ⟨p, memory.nextAttempt p.family⟩ := h
            rw [copyLeaves, if_pos h]
            constructor
            · rw [rejected?_of_rejects rejects]
              rfl
            · rw [accepted_of_rejects rejects]
              rfl
            · rw [accepted_of_rejects rejects]
              rfl
            · intro number
              rw [made_attempt first, reached, accepted_of_rejects rejects,
                rejected?_of_rejects rejects]
              simp [countFamily]
          · have accepts : ¬ memory.Rejects ⟨p, memory.nextAttempt p.family⟩ := h
            have planned := ih fun q member =>
              (issued q (List.mem_cons_of_mem _ member)).attempt p.family
            rw [copyLeaves_of_not_refuses h]
            constructor
            · rw [rejected?_of_not_rejects accepts, ← rejected?_attempt first]
              exact planned.refusal
            · rw [accepted_of_not_rejects accepts, ← accepted_attempt first]
              exact congrArg (_ :: ·) planned.events
            · rw [accepted_of_not_rejects accepts, ← accepted_attempt first]
              exact congrArg (_ :: ·) planned.clones
            · intro number
              have counted := planned.made number
              rw [reached, accepted_attempt first, rejected?_attempt first, ← reached,
                made_attempt first] at counted
              rw [reached, accepted_of_not_rejects accepts, rejected?_of_not_rejects accepts,
                List.cons_append, ← reached, List.map_cons, countFamily_cons]
              simp only
              omega

/-! ## The first refused attempt -/

section Rejected

variable {plan : List Attempt} {attempt : Attempt}

theorem mem_of_rejected?
    (found : memory.rejected? plan = some attempt) :
    attempt ∈ plan :=
  List.mem_of_find?_eq_some found

theorem rejects_of_rejected?
    (found : memory.rejected? plan = some attempt) :
    memory.Rejects attempt := by
  have rejects := List.find?_some found
  exact of_decide_eq_true rejects

theorem rejected?_eq_none_iff :
    memory.rejected? plan = none ↔ ∀ attempt ∈ plan, ¬ memory.Rejects attempt := by
  rw [rejected?, List.find?_eq_none]
  simp only [decide_eq_true_eq]

theorem exists_rejected?_iff :
    (∃ attempt, memory.rejected? plan = some attempt) ↔
      ∃ attempt ∈ plan, memory.Rejects attempt := by
  rw [← Option.ne_none_iff_exists', ne_eq, rejected?_eq_none_iff]
  simp only [Classical.not_forall, Classical.not_not, exists_prop]

theorem accepted_of_rejected?_eq_none
    (none : memory.rejected? plan = none) :
    memory.accepted plan = plan := by
  refine List.takeWhile_eq_self_iff.mpr fun attempt member => decide_eq_true ?_
  exact rejected?_eq_none_iff.mp none attempt member

/-- A plan goes on with its first refused attempt when the accepted ones are made. -/
theorem plan_of_rejected?
    (found : memory.rejected? plan = some attempt) :
    ∃ rest, plan = memory.accepted plan ++ attempt :: rest := by
  induction plan with
  | nil => cases found
  | cons head tail ih =>
      by_cases h : memory.Rejects head
      · rw [rejected?_of_rejects h] at found
        cases found
        exact ⟨tail, by rw [accepted_of_rejects h, List.nil_append]⟩
      · rw [rejected?_of_not_rejects h] at found
        obtain ⟨rest, same⟩ := ih found
        exact ⟨rest, by rw [accepted_of_not_rejects h, List.cons_append, ← same]⟩

/-- The probes of the accepted attempts and of the refused one are told by how many are accepted. -/
theorem sources_of_rejected?
    {before after : List Probe} {p : Probe}
    (found : memory.rejected? (memory.plan (before ++ p :: after)) = some attempt)
    (many : (memory.accepted (memory.plan (before ++ p :: after))).length = before.length) :
    (memory.accepted (memory.plan (before ++ p :: after))).map Attempt.source = before ∧
      attempt.source = p := by
  obtain ⟨rest, whole⟩ := plan_of_rejected? found
  have sources : (memory.plan (before ++ p :: after)).map Attempt.source = before ++ p :: after :=
    Attempt.source_plan memory.made _
  rw [whole, List.map_append, List.map_cons] at sources
  obtain ⟨same, tail⟩ := List.append_inj sources (by rw [List.length_map, many])
  exact ⟨same, (List.cons.inj tail).1⟩

/-- The first refused attempt has the number that its family's counter comes to. -/
theorem number_of_rejected?
    {counters : Nat → Nat} {probes : List Probe}
    (found : memory.rejected? (Attempt.plan counters probes) = some attempt) :
    attempt.number = counters attempt.source.family.number +
      countFamily attempt.source.family.number
        ((memory.reached (Attempt.plan counters probes)).map Attempt.source) := by
  induction probes generalizing counters with
  | nil => cases found
  | cons p rest ih =>
      rw [Attempt.plan_cons] at found ⊢
      by_cases h : memory.Rejects ⟨p, counters p.family.number + 1⟩
      · rw [rejected?_of_rejects h] at found
        cases found
        rw [reached, accepted_of_rejects h, rejected?_of_rejects h]
        simp [countFamily]
      · rw [rejected?_of_not_rejects h] at found
        have later := ih found
        rw [reached, accepted_of_not_rejects h, rejected?_of_not_rejects h, List.cons_append,
          ← reached, List.map_cons, countFamily_cons, later]
        simp only
        omega

end Rejected

end Memory
end SharedPair
