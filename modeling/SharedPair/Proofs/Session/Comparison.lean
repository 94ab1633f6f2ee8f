import SharedPair.Proofs.Session.Mirror

/-!
# Two sessions compared

What the first of two sessions frees in a step is what its mirror frees in it, and the
things that stray in it: those that the guests of the mirror keep.  Where the mirror has
no slots of its own, nothing strays, and all entries of the two sessions are the same,
to the end of their slots.
-/

namespace SharedPair
namespace Session

open Store (strays)

variable {ρ : Nat → Nat} {kept : Nat → Prop} {aside : List (String × Ref)} {inHand : List Ref}
  {s t : State}

namespace State

/-! ## What is freed -/

namespace Mirror

theorem remember
    (mirror : Mirror ρ kept aside inHand s t) :
    Mirror ρ (Store.Stranded ρ s.store t.store) aside inHand s t :=
  { mirror with store := mirror.store.remember }

end Mirror

/-- The names of the things that stray between two moments. -/
def straying (ρ : Nat → Nat) (s t s' t' : State) : List String :=
  ((strays ρ s'.store t'.store).filter fun thing =>
    decide (thing ∉ strays ρ s.store t.store)).map Prod.snd

theorem straying_perm
    {s' t' : State}
    (subset : strays ρ s.store t.store ⊆ strays ρ s'.store t'.store) :
    ((strays ρ s'.store t'.store).map Prod.snd).Perm
      ((strays ρ s.store t.store).map Prod.snd ++ straying ρ s t s' t') := by
  have before : ((strays ρ s'.store t'.store).filter fun thing =>
      !decide (thing ∉ strays ρ s.store t.store)).Perm (strays ρ s.store t.store) := by
    refine (List.perm_ext_iff_of_nodup ((Store.nodup_strays _ _ _).filter _)
      (Store.nodup_strays _ _ _)).mpr fun thing => ?_
    rw [List.mem_filter, decide_not, Bool.not_not, decide_eq_true_iff]
    exact ⟨And.right, fun member => ⟨subset member, member⟩⟩
  have parts := (List.filter_append_perm (fun thing =>
    decide (thing ∉ strays ρ s.store t.store)) (strays ρ s'.store t'.store)).map Prod.snd
  rw [List.map_append] at parts
  exact parts.symm.trans (List.perm_append_comm.trans ((before.map Prod.snd).append_right _))

/-- What two sessions free differs by what has strayed before and afterwards. -/
theorem balance_of_shifts
    {ρ' : Nat → Nat} {kept' : Nat → Prop} {s' t' : State} {guests guests' : List Ref}
    {held held' start start' finish finish' : List Ref} {born freed freed' : List String}
    (before : Store.Mirror ρ kept guests s.store held t.store)
    (later : Store.Mirror ρ' kept' guests' s'.store held' t'.store)
    (shift : s.store.Shift start born freed s'.store finish)
    (shift' : t.store.Shift start' born freed' t'.store finish') :
    (freed ++ (strays ρ s.store t.store).map Prod.snd).Perm
      (freed' ++ (strays ρ' s'.store t'.store).map Prod.snd) := by
  have balance := shift.names_things
  have balance' := shift'.names_things
  have images := before.names_perm
  have images' := later.names_perm
  rw [List.perm_iff_count]
  intro name
  have balance := balance.count_eq name
  have balance' := balance'.count_eq name
  have images := images.count_eq name
  have images' := images'.count_eq name
  simp only [List.count_append] at balance balance' images images' ⊢
  omega

namespace Mirror

/-- **What is freed.**  The first session frees in a step what the second frees in it, and what
strays in it. -/
theorem freed_perm
    (mirror : Mirror ρ kept aside [] s t)
    (sound' : t.store.Sound t.roots)
    {step : Step}
    (seen : ∀ slot ∈ step.slots, slot ∉ aside.map Prod.fst) :
    (s.step step).2.freed.Perm
      ((t.step step).2.freed ++ straying ρ s t (s.step step).1 (t.step step).1) := by
  have later := (mirror.remember.step step seen).mirror.store
  have shift := shift_step (mirror.store.sound) step
  have shift' := shift_step sound' step
  rw [mirror.made seen] at shift'
  have balance := balance_of_shifts mirror.store later shift shift'
  have strayed := straying_perm (later.strays_subset sound' shift'.evolves)
  refine (List.perm_append_right_iff ((strays ρ s.store t.store).map Prod.snd)).mp ?_
  rw [List.append_assoc]
  exact balance.trans ((strayed.trans List.perm_append_comm).append_left _)

end Mirror

/-! ## Sessions without slots of their own -/

theorem pairwise_sortNames
    (names : List String) :
    (sortNames names).Pairwise (· ≤ ·) := by
  refine (List.pairwise_mergeSort ?_ ?_ names).imp of_decide_eq_true
  · intro a b c ab bc
    exact decide_eq_true (String.le_trans (of_decide_eq_true ab) (of_decide_eq_true bc))
  · intro a b
    rw [Bool.or_eq_true, decide_eq_true_iff, decide_eq_true_iff]
    exact String.le_total a b

theorem sortNames_eq_of_perm
    {names names' : List String}
    (same : names.Perm names') :
    sortNames names = sortNames names' := by
  refine List.Perm.eq_of_pairwise (fun _ _ _ _ => String.le_antisymm)
    (pairwise_sortNames names) (pairwise_sortNames names') ?_
  exact (List.mergeSort_perm _ _).trans (same.trans (List.mergeSort_perm _ _).symm)

/-- Where nothing strays, before or afterwards, the same things are freed, and told in order. -/
theorem freed_eq_of_shifts
    {ρ' : Nat → Nat} {kept' : Nat → Prop} {s' t' : State}
    {held held' start start' finish finish' : List Ref} {born freed freed' : List String}
    (before : Store.Mirror ρ kept [] s.store held t.store)
    (later : Store.Mirror ρ' kept' [] s'.store held' t'.store)
    (shift : s.store.Shift start born freed s'.store finish)
    (shift' : t.store.Shift start' born freed' t'.store finish')
    (sorted : freed.Pairwise (· ≤ ·)) (sorted' : freed'.Pairwise (· ≤ ·)) :
    freed' = freed := by
  have same := balance_of_shifts before later shift shift'
  rw [before.strays_eq_nil, later.strays_eq_nil, List.map_nil, List.append_nil,
    List.append_nil] at same
  exact (same.eq_of_pairwise (fun _ _ _ _ => String.le_antisymm) sorted sorted').symm

theorem pairwise_freed
    (s : State) (step : Step) :
    (s.step step).2.freed.Pairwise (· ≤ ·) := by
  have evaluating : ∀ {α : Type} (made : Evaluation α) (next : α → State × Effect),
      (s.evaluating made next).2.freed.Pairwise (· ≤ ·) := by
    intro α made next
    rcases made with ⟨result, ended⟩
    cases result <;> exact pairwise_sortNames _
  cases step with
  | new name expression => exact evaluating _ _
  | «alias» source name =>
      rw [State.step]
      cases s.slot source with
      | error failure => exact .nil
      | ok ref => exact pairwise_sortNames _
  | call arguments name => exact evaluating _ _
  | get source index name =>
      rw [State.step, State.get]
      cases s.slot source with
      | error failure => exact .nil
      | ok container =>
          simp only
          cases (s.store.contents container).item index with
          | error failure => exact .nil
          | ok item => cases item <;> exact pairwise_sortNames _
  | set container index value => exact evaluating _ _
  | append container value =>
      rw [State.step, State.append]
      cases s.slot container with
      | error failure => exact .nil
      | ok ref =>
          simp only
          split
          · exact evaluating _ _
          · exact .nil
  | drop name =>
      rw [State.step, State.remove]
      cases s.slot name with
      | error failure => exact .nil
      | ok ref => exact pairwise_sortNames _
  | same first second =>
      rw [State.step, ask_freed]
      exact .nil
  | length name =>
      rw [State.step, ask_freed]
      exact .nil
  | display name =>
      rw [State.step, ask_freed]
      exact .nil
  | setFilter filter => exact .nil

namespace Mirror

theorem counts
    (mirror : Mirror ρ kept [] [] s t) :
    t.counts = s.counts := by
  unfold State.counts
  rw [mirror.slots.entries_eq, List.filterMap_map]
  refine List.filterMap_congr ?_
  rintro ⟨name, ref⟩ entry
  have found := Table.mem_entries_iff.mp entry
  have has := mirror.store.sound.has_of_mem (Table.mem_values_iff.mpr ⟨name, found⟩)
  refine congrArg (Option.map (name, ·)) ?_
  cases ref with
  | object id =>
      have same := mirror.contents has
      rw [Ref.rename] at same
      simp only [Ref.rename, countOf?, same, mirror.store.count]
      cases s.store.contents (.object id) <;> rfl
  | _ => rfl

theorem entry
    (mirror : Mirror ρ kept [] [] s t)
    (sound' : t.store.Sound t.roots)
    (step : Step) :
    (⟨(t.step step).2, (t.step step).1.counts⟩ : Entry) =
      ⟨(s.step step).2, (s.step step).1.counts⟩ := by
  have seen : ∀ slot ∈ step.slots, slot ∉ List.map Prod.fst ([] : List (String × Ref)) :=
    fun _ _ => List.not_mem_nil
  have agrees := mirror.step step seen
  have shift' := shift_step sound' step
  rw [mirror.made seen] at shift'
  have freed := freed_eq_of_shifts mirror.store agrees.mirror.store
    (shift_step mirror.store.sound step) shift' (pairwise_freed s step) (pairwise_freed t step)
  rw [Effect.ext agrees.reply freed agrees.log, agrees.mirror.counts]

end Mirror
end State

namespace State.Mirror

/-- **Every run** of steps that name no slot of the second session alone leaves a mirror. -/
theorem run
    (mirror : Mirror ρ kept aside [] s t)
    (steps : List Step)
    (seen : ∀ step ∈ steps, ∀ slot ∈ step.slots, slot ∉ aside.map Prod.fst) :
    Mirror ρ kept aside [] (machine.run s steps).1 (machine.run t steps).1 := by
  induction steps generalizing s t with
  | nil => exact mirror
  | cons step rest ih =>
      exact ih (mirror.step step (seen step List.mem_cons_self)).mirror fun later member =>
        seen later (List.mem_cons_of_mem _ member)

/-- **Equal entries.**  A session and its mirror, without slots of its own, have the same
entries. -/
theorem entries
    (mirror : Mirror ρ kept [] [] s t)
    (sound' : t.store.Sound t.roots)
    (steps : List Step) :
    (machine.run t steps).2 = (machine.run s steps).2 := by
  have side := machine.run_related (T := Eq) (E := Eq)
    (R := fun s t => Mirror ρ kept [] [] s t ∧ t.store.Sound t.roots) ?_
    (List.forall₂_refl steps) ⟨mirror, sound'⟩
  · rw [List.forall₂_eq_eq_eq] at side
    exact side.2.symm
  · rintro s t step _ ⟨mirror, sound'⟩ rfl
    have agrees := mirror.step step fun _ _ => List.not_mem_nil
    exact ⟨⟨agrees.mirror, (shift_step sound' step).sound⟩, (mirror.entry sound' step).symm⟩

theorem roots
    (mirror : Mirror ρ kept [] inHand s t) :
    t.roots = s.roots.map (Ref.rename ρ) := by
  rw [State.roots, State.roots, Table.values, Table.values, mirror.slots.entries_eq, List.map_map,
    List.map_map]
  rfl

theorem last
    (mirror : Mirror ρ kept [] [] s t)
    (sound' : t.store.Sound t.roots) :
    machine.last t = machine.last s := by
  have waiting : Store.Mirror ρ kept [] s.store (s.roots ++ []) t.store :=
    mirror.store.perm (.of_eq (List.append_nil _).symm) (.refl _)
  have released : Store.Mirror ρ kept [] s.finish.1.store [] t.finish.1.store := by
    have release := waiting.release
    rw [← mirror.roots] at release
    exact release
  have freed := freed_eq_of_shifts mirror.store released (shift_finish mirror.store.sound)
    (shift_finish sound') (pairwise_sortNames _) (pairwise_sortNames _)
  have effects : t.finish.2 = s.finish.2 := Effect.ext rfl freed rfl
  exact congrArg (Machine.Entry.mk · []) effects

end State.Mirror

/-! ## Entries that differ in what is put off -/

/-- Two sessions answer and log the same in every step.  The first frees in each step what the
second frees in it, and what the second puts off; the list tells all that is put off. -/
inductive PutsOff : List Entry → List Entry → List String → Prop
  | nil :
      PutsOff [] [] []
  | cons
      {entry entry' : Entry} {entries entries' : List Entry} {late later : List String}
      (reply : entry'.effect.reply = entry.effect.reply)
      (log : entry'.effect.log = entry.effect.log)
      (freed : entry.effect.freed.Perm (entry'.effect.freed ++ late))
      (others : PutsOff entries entries' later) :
      PutsOff (entry :: entries) (entry' :: entries') (late ++ later)

/-- What a mirror puts off in a run is what strays in it. -/
theorem State.Mirror.putsOff
    (mirror : State.Mirror ρ kept aside [] s t)
    (sound' : t.store.Sound t.roots)
    {steps : List Step}
    (seen : ∀ step ∈ steps, ∀ slot ∈ step.slots, slot ∉ aside.map Prod.fst) :
    ∃ put, PutsOff (machine.run s steps).2 (machine.run t steps).2 put ∧
      ((strays ρ (machine.run s steps).1.store (machine.run t steps).1.store).map Prod.snd).Perm
        ((strays ρ s.store t.store).map Prod.snd ++ put) := by
  induction steps generalizing s t with
  | nil => exact ⟨[], .nil, .of_eq (List.append_nil _).symm⟩
  | cons step rest ih =>
      have first := seen step List.mem_cons_self
      have agrees := mirror.step step first
      have shift' := State.shift_step sound' step
      have subset := (mirror.remember.step step first).mirror.store.strays_subset sound'
        shift'.evolves
      obtain ⟨put, puts, balance⟩ := ih agrees.mirror shift'.sound fun later member =>
        seen later (List.mem_cons_of_mem _ member)
      refine ⟨_, .cons agrees.reply agrees.log (mirror.freed_perm sound' first) puts, ?_⟩
      rw [← List.append_assoc]
      exact balance.trans ((State.straying_perm subset).append_right put)

/-! ## States that are the same but for numbers -/

/-- One state is the other with new numbers for the objects: the slots correspond, in their order,
and so do the objects, with the same contents and the same counts. -/
structure State.Renamed (ρ : Nat → Nat) (s t : State) : Prop where
  injective : Function.Injective ρ
  slots : t.slots.entries = s.slots.entries.map fun entry => (entry.1, entry.2.rename ρ)
  filter : t.filter = s.filter
  objects : ∀ id, t.store.cells.find? (ρ id) =
    (s.store.cells.find? id).map fun cell => ⟨cell.value.rename ρ, cell.count⟩
  all : ∀ id cell, t.store.cells.find? id = some cell → ∃ old, ρ old = id

theorem State.Mirror.renamed
    (mirror : State.Mirror ρ kept [] [] s t) :
    State.Renamed ρ s t where
  injective := mirror.store.injective
  slots := mirror.slots.entries_eq
  filter := mirror.filter
  objects := mirror.store.find?
  all _ _ := mirror.store.exists_image

end Session
end SharedPair
