import SharedPair.Script.Step
import SharedPair.Proofs.Copy.Outcome
import SharedPair.Proofs.Script.Founding

/-!
# The books of a script

Every step of a script is a shift of its heap, with the slots as what is held
outside.  The cells that it makes are those of a founded draft, and what it frees,
clones and drops is told by its events, so the books of a step can be checked from
the outside.

The proofs follow the values of a step through its parts: what is taken out of a
slot is held by the step until it is stored, written into a cell or given up.
-/

namespace SharedPair

theorem Memory.shift_release
    (memory : Memory) {waiting outside : List (Leaf String Probe)}
    (counted : Heap.Counted memory.cells (waiting ++ outside)) :
    Heap.Shift memory.cells (waiting ++ outside) (.ofEvents (memory.release waiting).2)
      (memory.release waiting).1.cells outside := by
  rw [release, Turnover.ofEvents_endings]
  exact .release counted

namespace Script
namespace State

variable {s : State} {name : String} {value : Value}

/-! ## Slots -/

theorem roots_perm_vacate
    (found : s.slots.find? name = some value) :
    s.roots.Perm (value.leaves ++ (s.vacate name).roots) := by
  unfold roots vacate
  rw [Value.leavesOfAll_eq_flatMap, Value.leavesOfAll_eq_flatMap]
  exact (Table.values_perm_erase found).flatMap_right _

theorem roots_insert_perm
    (s : State) (name : String) (value : Value) :
    (Value.leavesOfAll (s.slots.insert name value).values).Perm
      (value.leaves ++ (s.vacate name).roots) := by
  unfold roots vacate
  rw [Value.leavesOfAll_eq_flatMap, Value.leavesOfAll_eq_flatMap]
  exact (Table.values_insert_perm s.slots name value).flatMap_right _

theorem vacate_of_find?_eq_none
    (missing : s.slots.find? name = none) :
    (s.vacate name).roots = s.roots := by
  unfold roots vacate
  rw [Table.erase_of_find?_eq_none missing]

theorem admits_iff
    {draft : Draft} :
    s.admits draft = true ↔ draft.cells.Nodup ∧ ∀ id ∈ draft.cells, id ∉ s.founded := by
  simp [admits]

theorem find?_of_slot
    (held : s.slot name = .ok value) :
    s.slots.find? name = some value := by
  unfold slot at held
  split at held
  · next found =>
      cases held
      exact found
  · cases held

/-- What a path leads to is held by a slot or by a living cell. -/
theorem mem_of_follow
    {segments : List Segment} {value target : Value}
    (inside : ∀ leaf ∈ value.leaves, leaf ∈ s.roots ++ s.memory.cells.leaves) :
    s.follow segments value = .ok target →
      ∀ leaf ∈ target.leaves, leaf ∈ s.roots ++ s.memory.cells.leaves := by
  fun_induction follow s segments value with
  | case1 value =>
      intro reached
      cases reached
      exact inside
  | case2 rest first second ih =>
      refine ih fun leaf member => inside leaf ?_
      rw [Value.leaves]
      exact List.mem_append_left _ member
  | case3 rest first second ih =>
      refine ih fun leaf member => inside leaf ?_
      rw [Value.leaves]
      exact List.mem_append_right _ member
  | case4 rest sharing cell content found ih =>
      refine ih fun leaf member => List.mem_append_right _ ?_
      obtain ⟨living, alive, rfl⟩ := Option.map_eq_some_iff.mp found
      exact Heap.mem_leaves_iff.mpr ⟨cell, living, alive, member⟩
  | case5 rest sharing cell missing =>
      intro reached
      cases reached
  | case6 =>
      intro reached
      cases reached

theorem mem_of_resolve
    {path : Path} {target : Value}
    (reached : s.resolve path = .ok target) :
    ∀ leaf ∈ target.leaves, leaf ∈ s.roots ++ s.memory.cells.leaves := by
  unfold resolve at reached
  cases held : s.slot path.slot with
  | error fault =>
      rw [held] at reached
      cases reached
  | ok value =>
      rw [held] at reached
      refine mem_of_follow (fun leaf member => List.mem_append_left _ ?_) reached
      exact (roots_perm_vacate (find?_of_slot held)).mem_iff.mpr (List.mem_append_left _ member)

theorem mem_of_resolve_pair
    {first second : Path} {x y : Value}
    (reached : s.resolve first = .ok x)
    (reached' : s.resolve second = .ok y) :
    ∀ leaf ∈ (Value.pair x y).leaves, leaf ∈ s.roots ++ s.memory.cells.leaves := by
  intro leaf member
  rw [Value.leaves] at member
  rcases List.mem_append.mp member with left | right
  · exact mem_of_resolve reached leaf left
  · exact mem_of_resolve reached' leaf right

/-! ## Storing and giving up -/

/-- A value that is stored is held by its slot, and the old one is given up.  The step may hold
others meanwhile. -/
theorem shift_store_beside
    (s : State) (name : String) (value : Value) (others : List (Leaf String Probe))
    (counted : Heap.Counted s.memory.cells (value.leaves ++ (s.roots ++ others))) :
    Heap.Shift s.memory.cells (value.leaves ++ (s.roots ++ others))
      (.ofEvents (s.store name value).2)
      (s.store name value).1.memory.cells ((s.store name value).1.roots ++ others) := by
  have placed := roots_insert_perm s name value
  unfold store
  cases found : s.slots.find? name with
  | none =>
      rw [vacate_of_find?_eq_none found] at placed
      refine .still counted ?_
      rw [← List.append_assoc]
      exact placed.symm.append_right others
  | some old =>
      have before := roots_perm_vacate found
      have order : (value.leaves ++ (s.roots ++ others)).Perm
          (old.leaves ++ (Value.leavesOfAll (s.slots.insert name value).values ++ others)) := by
        rw [List.perm_iff_count]
        intro leaf
        have before := before.count_eq leaf
        have placed := placed.count_eq leaf
        simp only [List.count_append] at before placed ⊢
        omega
      have swapped := Heap.Shift.still counted order
      exact swapped.trans (Memory.shift_release s.memory swapped.counted)

theorem shift_store
    (s : State) (name : String) (value : Value)
    (counted : Heap.Counted s.memory.cells (value.leaves ++ s.roots)) :
    Heap.Shift s.memory.cells (value.leaves ++ s.roots) (.ofEvents (s.store name value).2)
      (s.store name value).1.memory.cells (s.store name value).1.roots := by
  have beside := shift_store_beside s name value [] (by rwa [List.append_nil])
  rwa [List.append_nil, List.append_nil] at beside

/-- A value that is given up is held no longer. -/
theorem shift_discard
    (s : State) (value : Value)
    (counted : Heap.Counted s.memory.cells (value.leaves ++ s.roots)) :
    Heap.Shift s.memory.cells (value.leaves ++ s.roots) (.ofEvents (s.discard value).2)
      (s.discard value).1.memory.cells (s.discard value).1.roots :=
  Memory.shift_release s.memory counted

/-! ## The parts of a step -/

@[simp] theorem ask_fst
    (s : State) (question : Except Fault Reply) :
    (s.ask question).1 = s := by
  cases question <;> rfl

@[simp] theorem ask_events
    (s : State) (question : Except Fault Reply) :
    (s.ask question).2.events = [] := by
  cases question <;> rfl

/-- A copy of a borrowed value is stored, or refused and undone. -/
theorem shift_storeCopy
    {copy : Copying Value} {records : List Record}
    (counted : Heap.Counted s.memory.cells s.roots)
    (copies : copy.Copies value records)
    (borrowed : ∀ leaf ∈ value.leaves, leaf ∈ s.roots ++ s.memory.cells.leaves)
    (name : String) :
    Heap.Shift s.memory.cells s.roots (.ofEvents (s.storeCopy name copy).2.events)
      (s.storeCopy name copy).1.memory.cells (s.storeCopy name copy).1.roots := by
  have ends := copies.run_ends counted.positive
  obtain ⟨events, -⟩ := Memory.events_copyLeaves value.leaves s.memory
  unfold storeCopy
  generalize copy.run s.memory = outcome at ends
  cases ends with
  | finished accepted same =>
      rename_i made
      have taken := Heap.Shift.acquireAll (s.memory.copyLeaves value.leaves).copied counted
        fun key member => counted.alive (borrowed _ (Memory.handle_mem_of_copied member))
      rw [← Memory.cells_copyLeaves, ← events, ← same] at taken
      have stored := shift_store { s with memory := (s.memory.copyLeaves value.leaves).memory }
        name made taken.counted
      have whole := taken.trans stored
      simp only
      rw [Turnover.ofEvents_append, Turnover.ofEvents_append, Turnover.ofEvents_logged,
        Turnover.append_none]
      exact whole
  | refused stopped same =>
      rename_i refusal dropped
      simp only
      rw [Turnover.ofEvents_append, events, Turnover.ofEvents_dropped]
      show Heap.Shift _ _ ⟨[], [], _ ++ [], dropped⟩ _ _
      rw [List.append_nil]
      exact .passing counted same.symm

theorem shift_remove
    (counted : Heap.Counted s.memory.cells s.roots)
    (name : String) :
    Heap.Shift s.memory.cells s.roots (.ofEvents (s.remove name).2.events)
      (s.remove name).1.memory.cells (s.remove name).1.roots := by
  unfold remove
  cases held : s.slot name with
  | error fault =>
      exact .still counted (List.Perm.refl _)
  | ok value =>
      have taken := Heap.Shift.still counted (roots_perm_vacate (find?_of_slot held))
      exact taken.trans (shift_discard (s.vacate name) value taken.counted)

/-- The components of a pair are stored one after the other. -/
theorem shift_split
    (counted : Heap.Counted s.memory.cells s.roots)
    (source first second : String) :
    Heap.Shift s.memory.cells s.roots (.ofEvents (s.split source first second).2.events)
      (s.split source first second).1.memory.cells (s.split source first second).1.roots := by
  unfold split
  cases held : s.slot source with
  | error fault =>
      exact .still counted (List.Perm.refl _)
  | ok value =>
      cases value with
      | pair x y =>
          have apart : s.roots.Perm (x.leaves ++ ((s.vacate source).roots ++ y.leaves)) := by
            have taken := roots_perm_vacate (find?_of_slot held)
            rw [Value.leaves, List.append_assoc] at taken
            exact taken.trans (List.perm_append_comm.append_left _)
          have taken := Heap.Shift.still counted apart
          have earlier := (taken.trans (shift_store_beside (s.vacate source) first x y.leaves
            taken.counted)).perm List.perm_append_comm
          have later := shift_store ((s.vacate source).store first x).1 second y earlier.counted
          simp only
          rw [Turnover.ofEvents_append]
          exact earlier.trans later
      | scalar _ | list _ | handle _ _ | probe _ =>
          exact .still counted (List.Perm.refl _)

/-- A value moves into a cell, which is kept alive meanwhile by a handle of its own. -/
theorem shift_fill
    (counted : Heap.Counted s.memory.cells s.roots)
    (path : Path) (source : String) :
    Heap.Shift s.memory.cells s.roots (.ofEvents (s.fill path source).2.events)
      (s.fill path source).1.memory.cells (s.fill path source).1.roots := by
  unfold fill
  cases reached : s.resolve path with
  | error fault =>
      exact .still counted (List.Perm.refl _)
  | ok target =>
      cases target with
      | handle sharing cell =>
          cases held : s.slot source with
          | error fault =>
              exact .still counted (List.Perm.refl _)
          | ok value =>
              have living : .handle cell ∈ s.roots ++ s.memory.cells.leaves := by
                refine mem_of_resolve reached _ ?_
                rw [Value.leaves]
                exact List.mem_singleton_self _
              obtain ⟨⟨old, count⟩, found⟩ := counted.alive living
              have kept : Table.find? (Heap.acquire s.memory.cells cell) cell =
                  some ⟨old, count + 1⟩ := by
                simp [Heap.acquire, found]
              have given : (.handle cell :: s.roots).Perm
                  (value.leaves ++ (.handle cell :: (s.vacate source).roots)) :=
                ((roots_perm_vacate (find?_of_slot held)).cons _).trans List.perm_middle.symm
              have taken := (Heap.Shift.acquire counted found).perm given
              have written := taken.trans
                (.write taken.counted kept (List.perm_append_comm_assoc _ _ _))
              have waiting : ((Heap.value? (s.memory.acquire cell).cells cell).map
                  Value.leaves).getD [] = old.leaves := by
                simp [Memory.acquire, Heap.value?, kept]
              have order : old.leaves ++ .handle cell :: (s.vacate source).roots =
                  (old.leaves ++ [.handle cell]) ++ (s.vacate source).roots :=
                List.append_cons _ _ _
              simp only
              rw [waiting]
              have moved := written.perm (.of_eq order)
              exact moved.trans (Memory.shift_release
                ⟨(s.memory.cells.acquire cell).write cell value, s.memory.families⟩ moved.counted)
      | scalar _ | list _ | pair _ _ | probe _ =>
          exact .still counted (List.Perm.refl _)

/-- The value of a cell takes the place of the only handle to it. -/
theorem shift_unwrap
    (counted : Heap.Counted s.memory.cells s.roots)
    (name : String) :
    Heap.Shift s.memory.cells s.roots (.ofEvents (s.unwrap name).2.events)
      (s.unwrap name).1.memory.cells (s.unwrap name).1.roots := by
  unfold unwrap
  cases held : s.slot name with
  | error fault =>
      exact .still counted (List.Perm.refl _)
  | ok value =>
      cases value with
      | handle sharing cell =>
          simp only
          split
          · next content found =>
              have taken := roots_perm_vacate (find?_of_slot held)
              rw [Value.leaves] at taken
              have moved := (Heap.Shift.still counted taken).trans
                (.erase (counted.perm taken) found (Nat.le_refl 1))
              exact moved.perm (roots_insert_perm s name content).symm
          · exact .still counted (List.Perm.refl _)
      | scalar _ | list _ | pair _ _ | probe _ =>
          exact .still counted (List.Perm.refl _)

/-- A founded draft is stored. -/
theorem shift_create
    (counted : Heap.Counted s.memory.cells s.roots)
    (known : ∀ id ∈ s.memory.cells.keys, id ∈ s.founded)
    (name : String) (draft : Draft)
    (admitted : s.admits draft = true) :
    Heap.Shift s.memory.cells s.roots
      (⟨draft.cells, [], firstProbes draft.families s.memory.families.length, []⟩ ++
        .ofEvents (s.create name draft).2.events)
      (s.create name draft).1.memory.cells (s.create name draft).1.roots := by
  obtain ⟨nodup, fresh⟩ := admits_iff.mp admitted
  have made := Memory.shift_found draft counted nodup fun id member =>
    Table.find?_eq_none_iff.mpr fun living => fresh id member (known id living)
  rw [create, if_pos admitted]
  exact made.trans (shift_store
    { s with memory := (s.memory.found draft).2, founded := draft.cells ++ s.founded }
    name (s.memory.found draft).1 made.counted)

end State

namespace Step

/-- The cells that a step founds. -/
def made (s : State) : Step → List String
  | new _ draft => if s.admits draft then draft.cells else []
  | _ => []

/-- The probes that a step founds. -/
def sown (s : State) : Step → List Probe
  | new _ draft =>
      if s.admits draft then firstProbes draft.families s.memory.families.length else []
  | _ => []

end Step

namespace State

variable {s : State}

/-- The books of a step balance. -/
theorem shift_step
    (counted : Heap.Counted s.memory.cells s.roots)
    (known : ∀ id ∈ s.memory.cells.keys, id ∈ s.founded)
    (step : Step) :
    Heap.Shift s.memory.cells s.roots
      (⟨step.made s, [], step.sown s, []⟩ ++ .ofEvents (s.step step).2.events)
      (s.step step).1.memory.cells (s.step step).1.roots := by
  have still : Heap.Shift s.memory.cells s.roots .none s.memory.cells s.roots :=
    .still counted (List.Perm.refl _)
  cases step with
  | new name draft =>
      by_cases admitted : s.admits draft = true
      · have made := shift_create counted known name draft admitted
        rw [Step.made, Step.sown, if_pos admitted, if_pos admitted]
        exact made
      · rw [Step.made, Step.sown, if_neg admitted, if_neg admitted, State.step, create,
          if_neg admitted]
        exact still
  | pack first second name =>
      rw [State.step]
      cases reached : s.resolve first with
      | error fault =>
          exact still
      | ok x =>
          cases reached' : s.resolve second with
          | error fault =>
              exact still
          | ok y =>
              exact shift_storeCopy counted (Copying.copies_packPair s.filter x y)
                (mem_of_resolve_pair reached reached') name
  | clone source name =>
      rw [State.step]
      cases reached : s.resolve source with
      | error fault =>
          exact still
      | ok value =>
          exact shift_storeCopy counted (Copying.copies_clone value) (mem_of_resolve reached) name
  | take source first second =>
      exact shift_split counted source first second
  | drop name =>
      exact shift_remove counted name
  | put cell source =>
      exact shift_fill counted cell source
  | unwrap name =>
      exact shift_unwrap counted name
  | same first second =>
      rw [State.step, ask_fst, ask_events]
      exact still
  | display path =>
      rw [State.step, ask_fst, ask_events]
      exact still
  | setFilter filter =>
      exact still

end State
end Script
end SharedPair
