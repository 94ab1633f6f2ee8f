import SharedPair.Proofs.Copy.Outcome

/-!
# Counted attempts

A family counts every attempt at a clone, and the clone of an accepted attempt takes
the number of the attempt as its serial.  So a pass over leaves moves the counter of
each family on by the attempts made in it, and the probes that it makes are new: their
serials lie above the counters before the pass, and no two of them are the same.
-/

namespace SharedPair

/-- How many probes belong to the family of a number. -/
def countFamily (number : Nat) (probes : List Probe) : Nat :=
  probes.countP fun p => decide (p.family.number = number)

@[simp] theorem countFamily_cons
    (number : Nat) (p : Probe) (rest : List Probe) :
    countFamily number (p :: rest) =
      countFamily number rest + if p.family.number = number then 1 else 0 := by
  simp [countFamily, List.countP_cons]

/-- Whether a refusal, if there is one, is of the family of a number: one attempt or none. -/
def countRefusal (number : Nat) (refusal : Option Refusal) : Nat :=
  if refusal.any fun r => decide (r.family.number = number) then 1 else 0

namespace Family

/-- A family with further attempts counted. -/
def advance (family : Family) (attempts : Nat) : Family :=
  ⟨family.refused, family.attempts + attempts⟩

@[simp] theorem advance_zero
    (family : Family) :
    family.advance 0 = family := by
  rfl

theorem advance_advance
    (family : Family) (first second : Nat) :
    (family.advance first).advance second = family.advance (first + second) := by
  simp [advance, Nat.add_assoc]

end Family

namespace Memory

/-- An attempt moves the counter of its own family on, and no other. -/
theorem families_attempt
    (memory : Memory) (id : FamilyId) (number : Nat) :
    (memory.attempt id).families[number]? =
      memory.families[number]?.map
        (Family.advance · (if id.number = number then 1 else 0)) := by
  unfold attempt setFamily family
  rw [List.getElem?_set]
  by_cases h : id.number = number
  · subst h
    by_cases founded : id.number < memory.families.length
    · simp [founded, Family.advance]
    · simp [founded]
  · simp [h, Family.advance]

theorem copyLeaves_of_not_refuses
    {memory : Memory} {p : Probe}
    (accepts : ¬ memory.Refuses p.family)
    (rest : List (Leaf String Probe)) :
    memory.copyLeaves (.token p :: rest) =
      ⟨.token ⟨p.family, memory.nextAttempt p.family⟩ ::
          ((memory.attempt p.family).copyLeaves rest).copied,
        ((memory.attempt p.family).copyLeaves rest).refusal,
        ((memory.attempt p.family).copyLeaves rest).memory,
        .cloned p (memory.nextAttempt p.family) ::
          ((memory.attempt p.family).copyLeaves rest).events⟩ := by
  rw [copyLeaves, if_neg accepts]
  rfl

/-- **A pass counts its attempts.** -/
theorem families_copyLeaves
    (number : Nat) (l : List (Leaf String Probe)) (memory : Memory) :
    (memory.copyLeaves l).memory.families[number]? =
      memory.families[number]?.map (Family.advance ·
        (countFamily number (Leaf.tokens (memory.copyLeaves l).copied) +
          countRefusal number (memory.copyLeaves l).refusal)) := by
  induction l generalizing memory with
  | nil =>
      simp [copyLeaves, countFamily, countRefusal]
  | cons leaf rest ih =>
      cases leaf with
      | handle cell =>
          exact ih (memory.acquire cell)
      | token p =>
          by_cases h : memory.Refuses p.family
          · rw [copyLeaves, if_pos h, families_attempt]
            simp [countFamily, countRefusal]
          · have later := ih (memory.attempt p.family)
            rw [families_attempt, Option.map_map] at later
            rw [copyLeaves_of_not_refuses h, later]
            congr 1
            funext family
            rw [Function.comp, Family.advance_advance, Leaf.tokens_cons_token, countFamily_cons]
            congr 1
            simp only
            omega

/-! ## Probes that were made before -/

/-- Whether a probe was made by the memory: its family is founded, and its serial counted. -/
def Issued (memory : Memory) (p : Probe) : Prop :=
  ∃ family, memory.families[p.family.number]? = some family ∧ p.serial ≤ family.attempts

/-- What was made stays so while attempts are counted. -/
theorem Issued.advance
    {memory memory' : Memory} {p : Probe} {attempts : Nat}
    (issued : memory.Issued p)
    (later : memory'.families[p.family.number]? =
      memory.families[p.family.number]?.map (Family.advance · attempts)) :
    memory'.Issued p := by
  rcases issued with ⟨family, found, counted⟩
  refine ⟨family.advance attempts, ?_, Nat.le_add_right_of_le counted⟩
  rw [later, found]
  rfl

theorem Issued.attempt
    {memory : Memory} {p : Probe}
    (issued : memory.Issued p)
    (id : FamilyId) :
    (memory.attempt id).Issued p :=
  issued.advance (families_attempt memory id _)

/-- The next clone is not made before its attempt, but it is afterwards. -/
theorem not_issued_nextAttempt
    (memory : Memory) (id : FamilyId) :
    ¬ memory.Issued ⟨id, memory.nextAttempt id⟩ := by
  rintro ⟨family, found, counted⟩
  have next : memory.nextAttempt id = family.attempts + 1 := by
    simp [nextAttempt, Memory.family, found]
  simp only [next] at counted
  omega

theorem issued_nextAttempt
    {memory : Memory} {p : Probe}
    (issued : memory.Issued p) :
    (memory.attempt p.family).Issued ⟨p.family, memory.nextAttempt p.family⟩ := by
  rcases issued with ⟨family, found, -⟩
  refine ⟨family.advance 1, ?_, ?_⟩
  · rw [families_attempt, found]
    simp
  · simp [nextAttempt, Memory.family, found, Family.advance]

/-- **The clones of a pass are new.**  Their serials lie above the counters before it and are
counted after it, and each of them is made once. -/
theorem copied_new
    (l : List (Leaf String Probe)) (memory : Memory)
    (issued : ∀ p ∈ Leaf.tokens l, memory.Issued p) :
    (∀ p ∈ Leaf.tokens (memory.copyLeaves l).copied,
      ¬ memory.Issued p ∧ (memory.copyLeaves l).memory.Issued p) ∧
    (Leaf.tokens (memory.copyLeaves l).copied).Nodup := by
  induction l generalizing memory with
  | nil =>
      simp [copyLeaves]
  | cons leaf rest ih =>
      cases leaf with
      | handle cell =>
          exact ih (memory.acquire cell) issued
      | token p =>
          rw [Leaf.tokens_cons_token] at issued
          by_cases h : memory.Refuses p.family
          · rw [copyLeaves, if_pos h]
            simp
          · have made := issued_nextAttempt (issued p List.mem_cons_self)
            rcases ih (memory.attempt p.family) (fun q member =>
              (issued q (List.mem_cons_of_mem _ member)).attempt p.family) with ⟨later, distinct⟩
            rw [copyLeaves_of_not_refuses h, Leaf.tokens_cons_token]
            constructor
            · intro q member
              rcases List.mem_cons.mp member with rfl | member
              · exact ⟨not_issued_nextAttempt memory p.family,
                  made.advance (families_copyLeaves _ rest _)⟩
              · exact ⟨fun before => (later q member).1 (before.attempt p.family),
                  (later q member).2⟩
            · exact List.nodup_cons.mpr ⟨fun member => (later _ member).1 made, distinct⟩

end Memory
end SharedPair
