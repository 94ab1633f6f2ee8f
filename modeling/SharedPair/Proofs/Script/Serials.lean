import SharedPair.Proofs.Script.Births

/-!
# Serials without gaps

The clones of a family get their serials in the order of the attempts.  An attempt
either gives a clone or is refused, and which of the two was settled when the family
was written down.  So the serials of a family are the numbers of all attempts so far
but for the refused ones, each of which some step has answered.
-/

namespace SharedPair

section Numbers

variable {α : Type} (family : α → FamilyId) (value : α → Nat) (number : Nat)

/-- The numbers that the items of one family bear, in the order of the items. -/
def numbersIn (items : List α) : List Nat :=
  (items.filter fun item => decide ((family item).number = number)).map value

theorem numbersIn_append
    (first second : List α) :
    numbersIn family value number (first ++ second) =
      numbersIn family value number first ++ numbersIn family value number second := by
  rw [numbersIn, List.filter_append, List.map_append]
  rfl

theorem numbersIn_singleton
    (item : α) :
    numbersIn family value number [item] =
      if (family item).number = number then [value item] else [] := by
  by_cases h : (family item).number = number <;> simp [numbersIn, h]

end Numbers

/-- The serials of the probes of a family, by its number, in their order. -/
def serialsIn : Nat → List Probe → List Nat :=
  numbersIn Probe.family Probe.serial

/-- The refused attempts of a family, by its number, in their order. -/
def refusedIn : Nat → List Refusal → List Nat :=
  numbersIn Refusal.family Refusal.attempt

namespace Family

/-- The attempts so far that were accepted. -/
def accepted (family : Family) : List Nat :=
  (List.range' 1 family.attempts).filter fun k => decide (k ∉ family.refused)

/-- The attempts so far that were refused. -/
def turnedDown (family : Family) : List Nat :=
  (List.range' 1 family.attempts).filter fun k => decide (k ∈ family.refused)

theorem accepted_advance
    (family : Family) :
    (family.advance 1).accepted =
      family.accepted ++
        if family.attempts + 1 ∈ family.refused then [] else [family.attempts + 1] := by
  rw [accepted, advance, List.range'_1_concat, List.filter_append, Nat.add_comm 1]
  by_cases h : family.attempts + 1 ∈ family.refused <;> simp [accepted, h]

theorem turnedDown_advance
    (family : Family) :
    (family.advance 1).turnedDown =
      family.turnedDown ++
        if family.attempts + 1 ∈ family.refused then [family.attempts + 1] else [] := by
  rw [turnedDown, advance, List.range'_1_concat, List.filter_append, Nat.add_comm 1]
  by_cases h : family.attempts + 1 ∈ family.refused <;> simp [turnedDown, h]

end Family

namespace Memory

variable {memory memory' : Memory} {clones : List Probe} {refusals : List Refusal}

/-- What the family of a number has come to. -/
def numbered (memory : Memory) (number : Nat) : Family :=
  memory.families[number]?.getD ⟨[], 0⟩

theorem numbered_attempt
    {p : Probe}
    (issued : memory.Issued p)
    (number : Nat) :
    (memory.attempt p.family).numbered number =
      if p.family.number = number then (memory.numbered number).advance 1
      else memory.numbered number := by
  rw [numbered, numbered, families_attempt]
  by_cases h : p.family.number = number
  · obtain ⟨family, found, -⟩ := issued
    rw [if_pos h, if_pos h, ← h, found]
    rfl
  · rw [if_neg h, if_neg h]
    cases memory.families[number]? <;> rfl

/-- The clones so far are those of the accepted attempts, and the refusals those of the others. -/
structure Tally (memory : Memory) (clones : List Probe) (refusals : List Refusal) : Prop where
  accepted : ∀ number, serialsIn number clones = (memory.numbered number).accepted
  turnedDown : ∀ number, refusedIn number refusals = (memory.numbered number).turnedDown

theorem tally_empty :
    (∅ : Memory).Tally [] [] := by
  constructor <;> intro number <;> rfl

namespace Tally

/-- New families have no attempts. -/
theorem founded
    {families : List (String × List Nat)}
    (tally : memory.Tally clones refusals)
    (grown : memory'.families = memory.families ++ families.map fun family => ⟨family.2, 0⟩) :
    memory'.Tally clones refusals := by
  have same : ∀ number, memory'.numbered number = memory.numbered number ∨
      (memory'.numbered number).attempts = 0 ∧ (memory.numbered number).attempts = 0 := by
    intro number
    rw [numbered, numbered, grown]
    by_cases within : number < memory.families.length
    · rw [List.getElem?_append_left within]
      exact .inl rfl
    · rw [List.getElem?_append_right (Nat.not_lt.mp within), List.getElem?_map,
        List.getElem?_eq_none (Nat.not_lt.mp within)]
      cases families[number - memory.families.length]? <;> exact .inr ⟨rfl, rfl⟩
  constructor
  · intro number
    rw [tally.accepted]
    rcases same number with same | ⟨none', none⟩
    · rw [same]
    · rw [Family.accepted, Family.accepted, none, none']
      rfl
  · intro number
    rw [tally.turnedDown]
    rcases same number with same | ⟨none', none⟩
    · rw [same]
    · rw [Family.turnedDown, Family.turnedDown, none, none']
      rfl

theorem of_families
    (tally : memory.Tally clones refusals)
    (same : memory'.families = memory.families) :
    memory'.Tally clones refusals := by
  have grown : memory'.families =
      memory.families ++ ([] : List (String × List Nat)).map fun family => ⟨family.2, 0⟩ :=
    same.trans (List.append_nil _).symm
  exact tally.founded grown

/-- An accepted attempt gives the next clone. -/
theorem clone
    {p : Probe}
    (tally : memory.Tally clones refusals)
    (issued : memory.Issued p)
    (accepts : ¬ memory.Refuses p.family) :
    (memory.attempt p.family).Tally (clones ++ [⟨p.family, memory.nextAttempt p.family⟩])
      refusals := by
  have fresh : (memory.numbered p.family.number).attempts + 1 ∉
      (memory.numbered p.family.number).refused := accepts
  constructor
  · intro number
    rw [serialsIn, numbersIn_append, numbersIn_singleton, numbered_attempt issued, ← serialsIn,
      tally.accepted]
    by_cases h : p.family.number = number
    · subst h
      rw [if_pos rfl, if_pos rfl, Family.accepted_advance, if_neg fresh]
      rfl
    · rw [if_neg h, if_neg h, List.append_nil]
  · intro number
    rw [numbered_attempt issued, tally.turnedDown]
    by_cases h : p.family.number = number
    · subst h
      rw [if_pos rfl, Family.turnedDown_advance, if_neg fresh, List.append_nil]
    · rw [if_neg h]

/-- A refused attempt gives no clone. -/
theorem refuse
    {p : Probe}
    (tally : memory.Tally clones refusals)
    (issued : memory.Issued p)
    (refuses : memory.Refuses p.family) :
    (memory.attempt p.family).Tally clones
      (refusals ++ [⟨p.family, memory.nextAttempt p.family⟩]) := by
  have listed : (memory.numbered p.family.number).attempts + 1 ∈
      (memory.numbered p.family.number).refused := refuses
  constructor
  · intro number
    rw [numbered_attempt issued, tally.accepted]
    by_cases h : p.family.number = number
    · subst h
      rw [if_pos rfl, Family.accepted_advance, if_pos listed, List.append_nil]
    · rw [if_neg h]
  · intro number
    rw [refusedIn, numbersIn_append, numbersIn_singleton, numbered_attempt issued, ← refusedIn,
      tally.turnedDown]
    by_cases h : p.family.number = number
    · subst h
      rw [if_pos rfl, if_pos rfl, Family.turnedDown_advance, if_pos listed]
      rfl
    · rw [if_neg h, if_neg h, List.append_nil]

/-- A pass over leaves keeps the tally. -/
theorem copyLeaves
    (l : List (Leaf String Probe))
    (tally : memory.Tally clones refusals)
    (issued : ∀ p ∈ Leaf.tokens l, memory.Issued p) :
    (memory.copyLeaves l).memory.Tally
      (clones ++ Leaf.tokens (memory.copyLeaves l).copied)
      (refusals ++ (memory.copyLeaves l).refusal.toList) := by
  induction l generalizing memory clones with
  | nil =>
      rw [Memory.copyLeaves, Leaf.tokens_nil, Option.toList_none, List.append_nil,
        List.append_nil]
      exact tally
  | cons leaf rest ih =>
      cases leaf with
      | handle cell =>
          have shared : (memory.acquire cell).Tally clones refusals := tally.of_families rfl
          exact ih shared issued
      | token p =>
          rw [Leaf.tokens_cons_token] at issued
          have first := issued p List.mem_cons_self
          by_cases h : memory.Refuses p.family
          · rw [Memory.copyLeaves, if_pos h, Leaf.tokens_nil, List.append_nil]
            exact tally.refuse first h
          · have later := ih (tally.clone first h) fun q member =>
              (issued q (List.mem_cons_of_mem _ member)).attempt p.family
            rw [copyLeaves_of_not_refuses h, Leaf.tokens_cons_token]
            rwa [List.append_assoc] at later

end Tally

/-- A clone stays in the family of what it is cloned from. -/
theorem mem_of_copied
    {p : Probe} {l : List (Leaf String Probe)}
    (member : p ∈ Leaf.tokens (memory.copyLeaves l).copied) :
    ∃ q ∈ Leaf.tokens l, q.family = p.family := by
  induction l generalizing memory with
  | nil => cases member
  | cons leaf rest ih =>
      cases leaf with
      | handle cell =>
          exact ih member
      | token q =>
          by_cases h : memory.Refuses q.family
          · rw [copyLeaves, if_pos h] at member
            cases member
          · rw [copyLeaves_of_not_refuses h, Leaf.tokens_cons_token] at member
            rcases List.mem_cons.mp member with rfl | member
            · exact ⟨q, List.mem_cons_self, rfl⟩
            · obtain ⟨other, inside, same⟩ := ih member
              exact ⟨other, List.mem_cons_of_mem _ inside, same⟩

end Memory

namespace Script

/-- The refusals that entries tell of, in their order. -/
def refusalsOf (entries : List Entry) : List Refusal :=
  entries.filterMap fun entry => entry.effect.reply.refusal?

namespace State

variable {s : State} {clones : List Probe} {refusals : List Refusal}

theorem tally_step
    (owned : s.Owned) (enrolled : s.Enrolled)
    (tally : s.memory.Tally clones refusals)
    (step : Step) :
    (s.step step).1.memory.Tally (clones ++ Event.clones (s.step step).2.events)
      (refusals ++ (s.step step).2.reply.refusal?.toList) := by
  have course := course_step owned step
  generalize step.families s = families at course
  generalize s.step step = after at course
  cases course with
  | founded grown quiet early =>
      rw [quiet, early, Option.toList_none, List.append_nil, List.append_nil]
      exact tally.founded grown
  | copied borrowed counted quiet told =>
      rw [Event.clones_append, Event.clones_copyLeaves, quiet, List.append_nil, told]
      exact (tally.copyLeaves _ (enrolled.issued borrowed)).of_families counted

theorem tally_run
    (steps : List Step) {s : State} {clones : List Probe} {refusals : List Refusal}
    (owned : s.Owned) (enrolled : s.Enrolled)
    (tally : s.memory.Tally clones refusals) :
    (machine.run s steps).1.memory.Tally (clones ++ Event.clones (eventsOf (machine.run s steps).2))
      (refusals ++ refusalsOf (machine.run s steps).2) := by
  induction steps generalizing s clones refusals with
  | nil =>
      show s.memory.Tally (clones ++ []) (refusals ++ [])
      rw [List.append_nil, List.append_nil]
      exact tally
  | cons step rest ih =>
      have whole := ih (owned_step owned step) (enrolled_step owned enrolled step)
        (tally_step owned enrolled tally step)
      have told : refusalsOf (machine.run s (step :: rest)).2 =
          (s.step step).2.reply.refusal?.toList ++
            refusalsOf (machine.run (s.step step).1 rest).2 := by
        rw [Machine.run_cons, refusalsOf, List.filterMap_cons]
        cases (s.step step).2.reply.refusal? <;> rfl
      rw [eventsOf_run_cons, Event.clones_append, told, ← List.append_assoc, ← List.append_assoc]
      exact whole

end State
end Script
end SharedPair
