import SharedPair.Proofs.Heap.Survival
import SharedPair.Proofs.Script.Serials

/-!
# Conservation of probes

A probe is made once, by the draft that founds its family or by an accepted clone.
From then on it is in one place: in the value of a slot or of a living cell, or among
the probes dropped.  Every step keeps that balance, whatever it moves, copies, replaces
or fails to do, and no step drops a probe before it is made.

When the slots are gone, what has not been dropped is held by cells that no slot leads
to.  Those are the cells that a cycle keeps alive.
-/

namespace SharedPair

namespace Memory

/-- What a family refuses is settled when it is founded. -/
theorem refused_copyLeaves
    (l : List (Leaf String Probe)) (memory : Memory) :
    (memory.copyLeaves l).memory.families.map Family.refused =
      memory.families.map Family.refused := by
  refine List.ext_getElem? fun number => ?_
  rw [List.getElem?_map, List.getElem?_map, families_copyLeaves, Option.map_map]
  rfl

end Memory

namespace Event

theorem count_dropped
    (p : Probe) (events : List Event) :
    events.count (.dropped p) = (drops events).count p := by
  rw [drops, List.count_filterMap, List.count]
  refine List.countP_congr fun event _ => ?_
  cases event <;> simp [dropped?]

theorem mem_drops_iff
    {p : Probe} {events : List Event} :
    p ∈ drops events ↔ .dropped p ∈ events := by
  rw [← List.count_pos_iff, ← List.count_pos_iff, count_dropped]

end Event

namespace Script

/-- The names and refusals of the families that are founded in a run. -/
def familiesIn (s : State) : List Step → List (String × List Nat)
  | [] => []
  | step :: rest => step.families s ++ familiesIn (s.step step).1 rest

namespace State

variable {s : State}

/-! ## Families in a run -/

theorem refused_step
    (owned : s.Owned)
    (step : Step) :
    (s.step step).1.memory.families.map Family.refused =
      s.memory.families.map Family.refused ++ (step.families s).map Prod.snd := by
  have course := course_step owned step
  generalize step.families s = families at course ⊢
  generalize s.step step = after at course ⊢
  cases course with
  | founded grown quiet early =>
      rw [grown, List.map_append, List.map_map]
      rfl
  | copied borrowed counted quiet told =>
      rw [counted, Memory.refused_copyLeaves, List.map_nil, List.append_nil]

theorem refused_run
    (steps : List Step) {s : State}
    (owned : s.Owned) :
    (machine.run s steps).1.memory.families.map Family.refused =
      s.memory.families.map Family.refused ++ (familiesIn s steps).map Prod.snd := by
  induction steps generalizing s with
  | nil => exact (List.append_nil _).symm
  | cons step rest ih =>
      rw [Machine.run_cons, ih (owned_step owned step), refused_step owned, familiesIn,
        List.map_append, List.append_assoc]

theorem length_families_step
    (owned : s.Owned)
    (step : Step) :
    (s.step step).1.memory.families.length =
      s.memory.families.length + (step.families s).length := by
  have lengths := congrArg List.length (refused_step owned step)
  rwa [List.length_append, List.length_map, List.length_map, List.length_map] at lengths

/-! ## The balance -/

/-- The probes made in a run: the first ones of the families that it founds, and the clones. -/
def madeIn (s : State) (steps : List Step) : List Probe :=
  firstProbes (familiesIn s steps) s.memory.families.length ++
    Event.clones (eventsOf (machine.run s steps).2)

theorem madeIn_cons_perm
    (owned : s.Owned)
    (step : Step) (rest : List Step) :
    (s.madeIn (step :: rest)).Perm
      ((step.sown s ++ Event.clones (s.step step).2.events) ++ (s.step step).1.madeIn rest) := by
  rw [madeIn, madeIn, familiesIn, firstProbes_append, ← length_families_step owned,
    ← Step.sown_eq_firstProbes, eventsOf_run_cons, Event.clones_append, List.append_assoc,
    List.append_assoc]
  exact (List.perm_append_comm_assoc _ _ _).append_left _

/-- The balance of a run. -/
theorem probes_run_perm
    (steps : List Step) {s : State}
    (owned : s.Owned) :
    (s.probes ++ s.madeIn steps).Perm
      (Event.drops (eventsOf (machine.run s steps).2) ++ (machine.run s steps).1.probes) := by
  induction steps generalizing s with
  | nil =>
      show (s.probes ++ []).Perm s.probes
      rw [List.append_nil]
  | cons step rest ih =>
      rw [eventsOf_run_cons, Event.drops_append, Machine.run_cons]
      calc
        (s.probes ++ s.madeIn (step :: rest)).Perm
            (s.probes ++ ((step.sown s ++ Event.clones (s.step step).2.events) ++
              (s.step step).1.madeIn rest)) :=
          (madeIn_cons_perm owned step rest).append_left _
        _ |>.Perm (Event.drops (s.step step).2.events ++ (s.step step).1.probes ++
              (s.step step).1.madeIn rest) := by
          rw [← List.append_assoc]
          exact (probes_step_perm owned step).append_right _
        _ |>.Perm _ := by
          rw [List.append_assoc, List.append_assoc]
          exact (ih (owned_step owned step)).append_left _

theorem births_run
    (steps : List Step) {s : State}
    (owned : s.Owned) (enrolled : s.Enrolled) :
    s.memory.Births (s.madeIn steps) (machine.run s steps).1.memory := by
  induction steps generalizing s with
  | nil => exact Memory.births_none rfl
  | cons step rest ih =>
      have later := ih (owned_step owned step) (enrolled_step owned enrolled step)
      exact ((births_step owned enrolled step).trans later).perm
        (madeIn_cons_perm owned step rest).symm

/-- Every probe made is in one place, and there once: it was dropped, or it is there. -/
structure Conserved (s : State) (made dropped : List Probe) : Prop where
  balance : made.Perm (dropped ++ s.probes)
  nodup : made.Nodup

theorem conserved_run
    (filter : Filter) (steps : List Step) :
    (machine.run (initial filter) steps).1.Conserved ((initial filter).madeIn steps)
      (Event.drops (eventsOf (machine.run (initial filter) steps).2)) where
  balance := probes_run_perm steps (owned_initial filter)
  nodup := (births_run steps (owned_initial filter) (enrolled_initial filter)).nodup

namespace Conserved

variable {made dropped : List Probe} {p : Probe}

theorem count_eq
    (conserved : s.Conserved made dropped)
    (p : Probe) :
    dropped.count p + s.probes.count p = if p ∈ made then 1 else 0 := by
  rw [← List.count_append, ← conserved.balance.count_eq, conserved.nodup.count]

theorem of_made
    (conserved : s.Conserved made dropped)
    (member : p ∈ made) :
    s.probes.count p = 1 ∧ dropped.count p = 0 ∨ s.probes.count p = 0 ∧ dropped.count p = 1 := by
  have once := conserved.count_eq p
  rw [if_pos member] at once
  omega

theorem of_not_made
    (conserved : s.Conserved made dropped)
    (other : p ∉ made) :
    p ∉ s.probes ∧ p ∉ dropped := by
  have none := conserved.count_eq p
  rw [if_neg other] at none
  exact ⟨List.count_eq_zero.mp (by omega), List.count_eq_zero.mp (by omega)⟩

theorem count_le_one
    (conserved : s.Conserved made dropped)
    (p : Probe) :
    dropped.count p ≤ 1 := by
  have once := conserved.count_eq p
  split at once <;> omega

theorem not_mem_dropped_iff
    (conserved : s.Conserved made dropped)
    (member : p ∈ made) :
    p ∉ dropped ↔ p ∈ s.probes := by
  rw [← List.count_eq_zero, ← List.count_pos_iff]
  rcases conserved.of_made member with ⟨there, none⟩ | ⟨none, gone⟩ <;> omega

end Conserved

/-! ## Where clones come from -/

/-- A clone is of the family of a probe that is there. -/
theorem family_of_clone
    (owned : s.Owned)
    {step : Step} {p : Probe}
    (member : p ∈ Event.clones (s.step step).2.events) :
    ∃ q ∈ s.probes, q.family = p.family := by
  have course := course_step owned step
  generalize step.families s = families at course
  generalize s.step step = after at course member
  cases course with
  | founded grown quiet early =>
      rw [quiet] at member
      cases member
  | copied borrowed counted quiet told =>
      rw [Event.clones_append, Event.clones_copyLeaves, quiet, List.append_nil] at member
      obtain ⟨q, inside, same⟩ := Memory.mem_of_copied member
      exact ⟨q, Leaf.mem_tokens_iff.mpr (borrowed _ (Leaf.mem_tokens_iff.mp inside)), same⟩

/-- Every clone is of a family that was founded, and so is every probe that is there. -/
theorem first_of_family
    (steps : List Step) {s : State} (first : List Probe)
    (owned : s.Owned)
    (known : ∀ p ∈ s.probes, ⟨p.family, 0⟩ ∈ first) :
    ∀ p ∈ s.madeIn steps,
      ⟨p.family, 0⟩ ∈ first ++ firstProbes (familiesIn s steps) s.memory.families.length := by
  induction steps generalizing s first with
  | nil =>
      intro p member
      cases member
  | cons step rest ih =>
      have made : ∀ p ∈ step.sown s ++ Event.clones (s.step step).2.events,
          ⟨p.family, 0⟩ ∈ first ++ step.sown s := by
        intro p member
        rcases List.mem_append.mp member with sown | clone
        · rw [Step.sown_eq_firstProbes] at sown ⊢
          have whole : p = ⟨p.family, 0⟩ :=
            congrArg (Probe.mk p.family) (serial_of_firstProbes sown)
          exact List.mem_append_right _ (whole ▸ sown)
        · obtain ⟨q, there, same⟩ := family_of_clone owned clone
          exact List.mem_append_left _ (same ▸ known q there)
      have later := ih (first ++ step.sown s) (owned_step owned step) fun p there =>
        (mem_probes_step owned there).elim
          (fun before => List.mem_append_left _ (known p before)) (made p)
      have whole : first ++ firstProbes (familiesIn s (step :: rest)) s.memory.families.length =
          first ++ step.sown s ++ firstProbes (familiesIn (s.step step).1 rest)
            (s.step step).1.memory.families.length := by
        rw [familiesIn, firstProbes_append, ← length_families_step owned,
          ← Step.sown_eq_firstProbes, List.append_assoc]
      intro p member
      rw [whole]
      rcases List.mem_append.mp ((madeIn_cons_perm owned step rest).mem_iff.mp member) with
        here | there
      · exact List.mem_append_left _ (made p here)
      · exact later p there

/-! ## No probe is dropped before it is made -/

/-- A step clones before it drops. -/
theorem clones_of_dropped
    (owned : s.Owned)
    {step : Step} {p : Probe} {pre post : List Event}
    (events : (s.step step).2.events = pre ++ .dropped p :: post) :
    Event.clones (s.step step).2.events = Event.clones pre := by
  have course := course_step owned step
  have parts : Event.clones (s.step step).2.events = Event.clones pre ++ Event.clones post := by
    rw [events, Event.clones_append]
    rfl
  suffices after : Event.clones post = [] by
    rw [parts, after, List.append_nil]
  generalize step.families s = families at course
  generalize s.step step = after at course events parts
  cases course with
  | founded grown quiet early =>
      rw [quiet] at parts
      exact (List.append_eq_nil_iff.mp parts.symm).2
  | @copied after reply later value borrowed counted quiet told =>
      rcases List.append_eq_append_iff.mp events with ⟨between, -, rest⟩ | ⟨between, pass, rest⟩
      · rw [rest, Event.clones_append] at quiet
        exact (List.append_eq_nil_iff.mp quiet).2
      · cases between with
        | nil =>
            rw [List.nil_append] at rest
            rw [← rest] at quiet
            exact quiet
        | cons event others =>
            obtain ⟨rfl, -⟩ := List.cons.inj rest
            have none : p ∈ Event.drops (s.memory.copyLeaves value.leaves).events := by
              rw [Event.mem_drops_iff, pass]
              exact List.mem_append_right _ List.mem_cons_self
            rw [Event.drops_copyLeaves] at none
            cases none

/-- What a step drops was there before it, or is founded by it, or was cloned in it before. -/
theorem made_of_dropped
    (owned : s.Owned)
    {step : Step} {p : Probe} {pre post : List Event}
    (events : (s.step step).2.events = pre ++ .dropped p :: post) :
    p ∈ s.probes ∨ p ∈ step.sown s ∨ p ∈ Event.clones pre := by
  have gone : p ∈ Event.drops (s.step step).2.events := by
    rw [Event.mem_drops_iff, events]
    exact List.mem_append_right _ List.mem_cons_self
  have before := (probes_step_perm owned step).mem_iff.mpr (List.mem_append_left _ gone)
  rw [clones_of_dropped owned events] at before
  rcases List.mem_append.mp before with there | made
  · exact .inl there
  · exact .inr (List.mem_append.mp made)

/-! ## The end of the slots -/

theorem slots_remove
    (s : State) (name : String) :
    (s.remove name).1.slots = s.slots.erase name := by
  unfold remove slot
  cases found : s.slots.find? name with
  | none => exact (Table.erase_of_find?_eq_none found).symm
  | some value => rfl

theorem find?_dropAll
    (names : List String) (s : State) (name : String) :
    (s.dropAll names).1.slots.find? name =
      if name ∈ names then none else s.slots.find? name := by
  induction names generalizing s with
  | nil => rfl
  | cons head rest ih =>
      refine (ih (s.remove head).1).trans ?_
      rw [slots_remove, Table.find?_erase]
      by_cases later : name ∈ rest
      · simp [later]
      · by_cases here : head = name
        · simp [here]
        · simp [later, here, Ne.symm here]

theorem find?_finish
    (s : State) (name : String) :
    s.finish.1.slots.find? name = none := by
  refine (find?_dropAll _ s name).trans ?_
  split
  · rfl
  · next missing =>
      exact Table.find?_eq_none_iff.mpr fun member => missing (List.mem_mergeSort.mpr member)

theorem roots_finish
    (s : State) :
    s.finish.1.roots = [] := by
  have keys : s.finish.1.slots.keys = [] :=
    List.eq_nil_iff_forall_not_mem.mpr fun name => Table.find?_eq_none_iff.mp (s.find?_finish name)
  have entries : s.finish.1.slots.entries = [] := List.map_eq_nil_iff.mp keys
  rw [roots, Table.values, entries]
  rfl

theorem families_remove
    (s : State) (name : String) :
    (s.remove name).1.memory.families = s.memory.families := by
  unfold remove
  split <;> rfl

theorem clones_remove
    (s : State) (name : String) :
    Event.clones (s.remove name).2.events = [] := by
  unfold remove
  split
  · rfl
  · exact Event.clones_release _ _

theorem madeIn_drops
    (names : List String) (s : State) :
    s.madeIn (names.map .drop) = [] := by
  induction names generalizing s with
  | nil => rfl
  | cons name rest ih =>
      rw [List.map_cons, madeIn, familiesIn, eventsOf_run_cons, Event.clones_append]
      show firstProbes ([] ++ familiesIn (s.remove name).1 _) _ ++
        (Event.clones (s.remove name).2.events ++ _) = []
      rw [List.nil_append, ← families_remove s name, clones_remove, List.nil_append]
      exact ih (s.remove name).1

theorem owned_finish
    (owned : s.Owned) :
    s.finish.1.Owned := by
  obtain ⟨names, final, -⟩ := finish_eq_run s
  rw [final]
  exact owned_run _ owned

/-- The end of the slots makes nothing. -/
theorem probes_finish_perm
    (owned : s.Owned) :
    s.probes.Perm (Event.drops s.finish.2.events ++ s.finish.1.probes) := by
  obtain ⟨names, final, events⟩ := finish_eq_run s
  have balance := probes_run_perm (names.map .drop) owned
  rw [madeIn_drops, List.append_nil, ← final, ← events] at balance
  exact balance

theorem conserved_finish
    (filter : Filter) (steps : List Step) :
    (machine.run (initial filter) steps).1.finish.1.Conserved ((initial filter).madeIn steps)
      (Event.drops (eventsOf (transcript filter steps))) := by
  have before := conserved_run filter steps
  have ended := probes_finish_perm (owned_run steps (owned_initial filter))
  refine ⟨?_, before.nodup⟩
  rw [eventsOf_transcript_append, Event.drops_append, List.append_assoc]
  exact before.balance.trans (ended.append_left _)

/-- A probe that is there when the slots are gone is in a cell that a cycle leads to. -/
theorem mem_probes_finish_iff
    (owned : s.Owned)
    {p : Probe} :
    p ∈ s.finish.1.probes ↔
      ∃ id value, Heap.value? s.finish.1.memory.cells id = some value ∧ .token p ∈ value.leaves ∧
        Heap.ReachedFromCycle s.finish.1.memory.cells id := by
  rw [probes, roots_finish, List.nil_append, Leaf.mem_tokens_iff, Heap.mem_leaves_iff]
  constructor
  · rintro ⟨id, cell, found, inside⟩
    have alive := Heap.value?_of_find? found
    have counted := (owned_finish owned).counted
    rw [roots_finish] at counted
    exact ⟨id, cell.value, alive, inside, counted.reached_from_cycle alive⟩
  · rintro ⟨id, value, alive, inside, -⟩
    obtain ⟨cell, found, rfl⟩ := Option.map_eq_some_iff.mp alive
    exact ⟨id, cell, found, inside⟩

theorem tally_of_run
    (filter : Filter) (steps : List Step) :
    (machine.run (initial filter) steps).1.memory.Tally
      (Event.clones (eventsOf (machine.run (initial filter) steps).2))
      (refusalsOf (machine.run (initial filter) steps).2) :=
  tally_run steps (owned_initial filter) (enrolled_initial filter) Memory.tally_empty

/-- The serials of a family and its refused attempts make up the attempts so far. -/
theorem serials_run
    (filter : Filter) (steps : List Step)
    {number : Nat} {name : String} {refused : List Nat}
    (written : (familiesIn (initial filter) steps)[number]? = some (name, refused)) :
    ∃ attempts,
      serialsIn number (Event.clones (eventsOf (machine.run (initial filter) steps).2)) =
        (⟨refused, attempts⟩ : Family).accepted ∧
      refusedIn number (refusalsOf (machine.run (initial filter) steps).2) =
        (⟨refused, attempts⟩ : Family).turnedDown := by
  have tally := tally_of_run filter steps
  have settled := congrArg (·[number]?) (refused_run steps (owned_initial filter))
  have found :
      ((machine.run (initial filter) steps).1.memory.families.map Family.refused)[number]? =
        some refused := by
    refine settled.trans ?_
    show ([] ++ (familiesIn (initial filter) steps).map Prod.snd)[number]? = _
    rw [List.nil_append, List.getElem?_map, written]
    rfl
  rw [List.getElem?_map, Option.map_eq_some_iff] at found
  obtain ⟨⟨refused, attempts⟩, family, rfl⟩ := found
  have numbered :
      (machine.run (initial filter) steps).1.memory.numbered number = ⟨refused, attempts⟩ := by
    rw [Memory.numbered, family]
    rfl
  refine ⟨attempts, ?_, ?_⟩
  · rw [← numbered]
    exact tally.accepted number
  · rw [← numbered]
    exact tally.turnedDown number

/-- No clone has the serial of a first probe. -/
theorem serial_pos_of_clone
    (filter : Filter) (steps : List Step)
    {p : Probe}
    (member : p ∈ Event.clones (eventsOf (machine.run (initial filter) steps).2)) :
    0 < p.serial := by
  have serial : p.serial ∈ serialsIn p.family.number
      (Event.clones (eventsOf (machine.run (initial filter) steps).2)) :=
    List.mem_map_of_mem (List.mem_filter.mpr ⟨member, decide_eq_true rfl⟩)
  rw [(tally_of_run filter steps).accepted] at serial
  exact (List.mem_range'_1.mp (List.mem_of_mem_filter serial)).1

end State

/-- The probes of a script: those made first and those cloned since, where they are after some steps
with their entries, and what has become of them when the script has ended. -/
structure Conserves (filter : Filter) (steps : List Step) (s : State) (entries : List Entry)
    (first made : List Probe) (whole : List Event) : Prop where
  /-- The first probe of a family has the serial zero. -/
  founders : ∀ p ∈ first, p.serial = 0
  /-- A clone has another serial, and is of a family that was founded. -/
  clones : ∀ p ∈ Event.clones (eventsOf entries), 0 < p.serial ∧ ⟨p.family, 0⟩ ∈ first
  /-- The names of the families tell them apart if no two of them are the same. -/
  named : ((familiesIn (.initial filter) steps).map Prod.fst).Nodup →
    ∀ p ∈ made, ∀ q ∈ made, p.family.name = q.family.name → p.family = q.family
  /-- The serials of the clones of a family are, in their order, the numbers of the attempts made so
  far but for the refused ones, and those are the ones that answers tell of. -/
  serials : ∀ number name refused,
    (familiesIn (.initial filter) steps)[number]? = some (name, refused) →
      ∃ attempts,
        serialsIn number (Event.clones (eventsOf entries)) =
          (List.range' 1 attempts).filter (fun k => decide (k ∉ refused)) ∧
        refusedIn number (refusalsOf entries) =
          (List.range' 1 attempts).filter (fun k => decide (k ∈ refused))
  /-- A probe that was made is in one place of the slots and living cells and has not been dropped,
  or is in none and has been dropped once. -/
  placed : ∀ p ∈ made,
    s.probes.count p = 1 ∧ (eventsOf entries).count (.dropped p) = 0 ∨
      s.probes.count p = 0 ∧ (eventsOf entries).count (.dropped p) = 1
  /-- No other probe is there or has been dropped. -/
  others : ∀ p, p ∉ made → p ∉ s.probes ∧ .dropped p ∉ eventsOf entries
  /-- The next step drops what was there before it, or what it founds, or what it has cloned by
  then. -/
  next : ∀ step pre p post, (s.step step).2.events = pre ++ .dropped p :: post →
    p ∈ s.probes ∨ p ∈ step.sown s ∨ p ∈ Event.clones pre
  /-- When the slots go, what was there is dropped. -/
  ending : ∀ p, .dropped p ∈ s.finish.2.events → p ∈ s.probes
  /-- Up to the end of the slots, no probe is dropped twice. -/
  once : ∀ p, whole.count (.dropped p) ≤ 1
  /-- A probe that was made is never dropped just when it is in the value of a cell that is alive in
  the end because a cycle of cells leads to it. -/
  cycles : ∀ p ∈ made, .dropped p ∉ whole ↔
    ∃ id value, Heap.value? s.finish.1.memory.cells id = some value ∧ .token p ∈ value.leaves ∧
      Heap.ReachedFromCycle s.finish.1.memory.cells id

/-- **Conservation of probes.**  After any steps, whether they succeed or fail, a probe has been
made for every family founded so far and for every cloning.  Each of them is kept or has been
dropped. -/
theorem probes_conserved_of_run
    (filter : Filter) (steps : List Step) :
    let start := State.initial filter
    let s := (machine.run start steps).1
    let entries := (machine.run start steps).2
    let first := firstProbes (familiesIn start steps) 0
    let made := first ++ Event.clones (eventsOf entries)
    Conserves filter steps s entries first made (eventsOf (transcript filter steps)) := by
  intro start s entries first made
  have beginning := State.owned_initial filter
  have owned : s.Owned := State.owned_run steps beginning
  have conserved : s.Conserved made (Event.drops (eventsOf entries)) :=
    State.conserved_run filter steps
  have ended : s.finish.1.Conserved made (Event.drops (eventsOf (transcript filter steps))) :=
    State.conserved_finish filter steps
  have family : ∀ p ∈ made, ⟨p.family, 0⟩ ∈ first :=
    State.first_of_family steps [] beginning fun _ member => absurd member List.not_mem_nil
  exact {
    founders := fun p member => serial_of_firstProbes member
    clones := fun p member =>
      ⟨State.serial_pos_of_clone filter steps member, family p (List.mem_append_right _ member)⟩
    named := fun distinct p here q there same =>
      family_of_name distinct (family p here) (family q there) same
    serials := fun number name refused written => State.serials_run filter steps written
    placed := fun p member => by
      rw [Event.count_dropped]
      exact conserved.of_made member
    others := fun p other => by
      rw [← Event.mem_drops_iff]
      exact conserved.of_not_made other
    next := fun step pre p post events => State.made_of_dropped owned events
    ending := fun p gone => by
      have ended := State.probes_finish_perm owned
      exact ended.mem_iff.mpr (List.mem_append_left _ (Event.mem_drops_iff.mpr gone))
    once := fun p => by
      rw [Event.count_dropped]
      exact ended.count_le_one p
    cycles := fun p member => by
      rw [← Event.mem_drops_iff, ended.not_mem_dropped_iff member]
      exact State.mem_probes_finish_iff owned }

end Script
end SharedPair
