import SharedPair.Proofs.Script.Ways

/-!
# Births of probes

A probe comes into being in one of two ways: a draft founds its family, or a clone in
its family is accepted.  Either way no probe of its family and serial was made before,
and the memory knows from then on that this one was.

So every probe that occurs in a slot or in a living cell is known to the memory, and
a probe born in a step is told apart from all that were there.
-/

namespace SharedPair

theorem numbers_firstProbes
    (families : List (String × List Nat)) (number : Nat) :
    (firstProbes families number).map (fun p => p.family.number) =
      List.range' number families.length := by
  induction families generalizing number with
  | nil => rfl
  | cons family rest ih =>
      rw [firstProbes, List.map_cons, ih, List.length_cons, List.range'_succ]

theorem serial_of_firstProbes
    {p : Probe} {families : List (String × List Nat)} {number : Nat}
    (member : p ∈ firstProbes families number) :
    p.serial = 0 := by
  induction families generalizing number with
  | nil => cases member
  | cons family rest ih =>
      rcases List.mem_cons.mp member with rfl | member
      · rfl
      · exact ih member

/-- The first probe of a family has its name and its number. -/
theorem name_of_firstProbes
    {p : Probe} {families : List (String × List Nat)} {number : Nat}
    (member : p ∈ firstProbes families number) :
    number ≤ p.family.number ∧
      (families.map Prod.fst)[p.family.number - number]? = some p.family.name := by
  induction families generalizing number with
  | nil => cases member
  | cons family rest ih =>
      rcases List.mem_cons.mp member with rfl | member
      · exact ⟨Nat.le_refl _, by simp⟩
      · obtain ⟨later, found⟩ := ih member
        have next : p.family.number - number = (p.family.number - (number + 1)) + 1 := by omega
        refine ⟨Nat.le_of_succ_le later, ?_⟩
        rw [next, List.map_cons, List.getElem?_cons_succ, found]

/-- When the names of families differ, a family is known by its name. -/
theorem family_of_name
    {families : List (String × List Nat)} {f f' : FamilyId}
    (distinct : (families.map Prod.fst).Nodup)
    (first : ⟨f, 0⟩ ∈ firstProbes families 0)
    (first' : ⟨f', 0⟩ ∈ firstProbes families 0)
    (same : f.name = f'.name) :
    f = f' := by
  obtain ⟨-, found⟩ := name_of_firstProbes first
  obtain ⟨-, found'⟩ := name_of_firstProbes first'
  obtain ⟨within, -⟩ := List.getElem?_eq_some_iff.mp found
  have number : f.number = f'.number :=
    (List.getElem?_inj within distinct).mp
      (found.trans ((congrArg some same).trans found'.symm))
  cases f
  cases f'
  cases same
  cases number
  rfl

namespace Memory

variable {memory memory' memory'' : Memory} {born born' : List Probe}

/-- Probes come into being while a memory changes: none of them was made before, and each is made
once. -/
structure Births (memory : Memory) (born : List Probe) (memory' : Memory) : Prop where
  /-- What was made before stays known. -/
  earlier : ∀ p, memory.Issued p → memory'.Issued p
  fresh : ∀ p ∈ born, ¬ memory.Issued p ∧ memory'.Issued p
  nodup : born.Nodup

namespace Births

theorem perm
    (births : Births memory born memory')
    (same : born.Perm born') :
    Births memory born' memory' where
  earlier := births.earlier
  fresh p member := births.fresh p (same.mem_iff.mpr member)
  nodup := same.nodup_iff.mp births.nodup

theorem trans
    (first : Births memory born memory')
    (second : Births memory' born' memory'') :
    Births memory (born ++ born') memory'' where
  earlier p issued := second.earlier p (first.earlier p issued)
  fresh p member := by
    rcases List.mem_append.mp member with before | after
    · obtain ⟨new, known⟩ := first.fresh p before
      exact ⟨new, second.earlier p known⟩
    · obtain ⟨new, known⟩ := second.fresh p after
      exact ⟨fun issued => new (first.earlier p issued), known⟩
  nodup := by
    refine List.nodup_append.mpr ⟨first.nodup, second.nodup, ?_⟩
    rintro p before q after rfl
    exact (second.fresh p after).1 (first.fresh p before).2

end Births

theorem births_none
    (same : memory'.families = memory.families) :
    Births memory [] memory' where
  earlier p issued := by
    unfold Issued at issued ⊢
    rwa [same]
  fresh _ member := by
    cases member
  nodup := List.nodup_nil

/-- The clones of a pass are births. -/
theorem births_copyLeaves
    {l : List (Leaf String Probe)}
    (issued : ∀ p ∈ Leaf.tokens l, memory.Issued p)
    (same : memory'.families = (memory.copyLeaves l).memory.families) :
    Births memory (Leaf.tokens (memory.copyLeaves l).copied) memory' := by
  obtain ⟨fresh, nodup⟩ := copied_new l memory issued
  refine ⟨?_, ?_, nodup⟩
  · intro p before
    have later := families_copyLeaves p.family.number l memory
    rw [← same] at later
    exact Issued.advance before later
  · intro p member
    obtain ⟨new, known⟩ := fresh p member
    refine ⟨new, ?_⟩
    unfold Issued at known ⊢
    rwa [same]

/-- The first probes of new families are births. -/
theorem births_founded
    {families : List (String × List Nat)}
    (grown : memory'.families = memory.families ++ families.map fun family => ⟨family.2, 0⟩) :
    Births memory (firstProbes families memory.families.length) memory' where
  earlier p := by
    rintro ⟨family, found, counted⟩
    refine ⟨family, ?_, counted⟩
    have within := (List.getElem?_eq_some_iff.mp found).1
    rw [grown, List.getElem?_append_left within, found]
  fresh p member := by
    have number : p.family.number ∈ List.range' memory.families.length families.length := by
      rw [← numbers_firstProbes]
      exact List.mem_map_of_mem member
    obtain ⟨low, high⟩ := List.mem_range'_1.mp number
    constructor
    · rintro ⟨family, found, -⟩
      have within := (List.getElem?_eq_some_iff.mp found).1
      omega
    · have within : p.family.number - memory.families.length < families.length := by omega
      refine ⟨⟨families[p.family.number - memory.families.length].2, 0⟩, ?_, ?_⟩
      · rw [grown, List.getElem?_append_right low, List.getElem?_map,
          List.getElem?_eq_getElem within]
        rfl
      · exact Nat.le_of_eq (serial_of_firstProbes member)
  nodup := by
    have distinct : ((firstProbes families memory.families.length).map
        fun p => p.family.number).Nodup := by
      rw [numbers_firstProbes]
      exact List.nodup_range'
    exact List.Pairwise.of_map _ (fun _ _ apart same => apart (same ▸ rfl)) distinct

end Memory

namespace Script
namespace State

variable {s : State}

/-- The probes in the slots and in the values of the living cells. -/
def probes (s : State) : List Probe :=
  Leaf.tokens (s.roots ++ s.memory.cells.leaves)

/-- Every probe there is was made by the memory. -/
def Enrolled (s : State) : Prop :=
  ∀ p ∈ s.probes, s.memory.Issued p

theorem Enrolled.issued
    {value : Value}
    (enrolled : s.Enrolled)
    (borrowed : ∀ leaf ∈ value.leaves, leaf ∈ s.roots ++ s.memory.cells.leaves) :
    ∀ p ∈ Leaf.tokens value.leaves, s.memory.Issued p := fun p member =>
  enrolled p (Leaf.mem_tokens_iff.mpr (borrowed _ (Leaf.mem_tokens_iff.mp member)))

/-- **What is born in a step is new.** -/
theorem births_step
    (owned : s.Owned) (enrolled : s.Enrolled)
    (step : Step) :
    s.memory.Births (step.sown s ++ Event.clones (s.step step).2.events)
      (s.step step).1.memory := by
  have course := course_step owned step
  rw [Step.sown_eq_firstProbes]
  generalize step.families s = families at course
  generalize s.step step = after at course
  cases course with
  | founded grown quiet early =>
      rw [quiet, List.append_nil]
      exact Memory.births_founded grown
  | copied borrowed counted quiet told =>
      rw [Event.clones_append, Event.clones_copyLeaves, quiet, List.append_nil]
      exact Memory.births_copyLeaves (enrolled.issued borrowed) counted

/-! ## Every probe is known -/

theorem enrolled_initial
    (filter : Filter) :
    (initial filter).Enrolled := by
  intro p member
  cases member

/-- What was there and what is born in a step is what is dropped in it and what is there. -/
theorem probes_step_perm
    (owned : s.Owned)
    (step : Step) :
    (s.probes ++ (step.sown s ++ Event.clones (s.step step).2.events)).Perm
      (Event.drops (s.step step).2.events ++ (s.step step).1.probes) :=
  (shift_step owned.counted owned.known step).tokens

/-- What occurs after a step occurred before it or was born in it. -/
theorem mem_probes_step
    (owned : s.Owned)
    {step : Step} {p : Probe}
    (member : p ∈ (s.step step).1.probes) :
    p ∈ s.probes ∨ p ∈ step.sown s ++ Event.clones (s.step step).2.events :=
  List.mem_append.mp ((probes_step_perm owned step).mem_iff.mpr (List.mem_append_right _ member))

theorem enrolled_step
    (owned : s.Owned) (enrolled : s.Enrolled)
    (step : Step) :
    (s.step step).1.Enrolled := by
  have births := births_step owned enrolled step
  intro p member
  rcases mem_probes_step owned member with before | born
  · exact births.earlier p (enrolled p before)
  · exact (births.fresh p born).2

theorem enrolled_run
    (steps : List Step) {s : State}
    (owned : s.Owned) (enrolled : s.Enrolled) :
    (machine.run s steps).1.Enrolled := by
  induction steps generalizing s with
  | nil => exact enrolled
  | cons step rest ih => exact ih (owned_step owned step) (enrolled_step owned enrolled step)

end State
end Script
end SharedPair
