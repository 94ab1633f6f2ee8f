import SharedPair.Proofs.Session.Clearing

/-!
# What a pair borrows

A call on objects that are there, into a slot of its own, makes a pair and takes one
reference to each of the two objects for it.  The state after the call is a mirror of
the state before it, with the pair as a guest.  So whatever steps come then, if they
leave the slot of the pair alone, they go as they would have gone without the call.

Objects that nothing but the pair keeps stay a while longer.  They go when the slot of
the pair is dropped, and then the two sessions are the same but for the number of the
pair.
-/

namespace SharedPair
namespace Session

open Store (passOver strays)

namespace State

variable {s : State} {arguments : Arguments Argument} {name : String}

/-! ## The state after the call -/

theorem held_of_source
    {argument : Argument} {source : Source}
    (slots : ∀ argument ∈ arguments.inOrder, ∃ slot, argument = .slot slot)
    (member : argument ∈ arguments.inOrder)
    (done : (s.source argument).result = .ok source) :
    ∃ ref, source = .held ref := by
  obtain ⟨slot, rfl⟩ := slots argument member
  obtain ⟨ref, -, held⟩ := held_of_source_slot done
  exact ⟨ref, held⟩

/-- A call on objects that are there makes its pair and no other object. -/
theorem next_of_borrowing
    (sound : s.store.Sound s.roots)
    (slots : ∀ argument ∈ arguments.inOrder, ∃ slot, argument = .slot slot)
    (accepted : (s.call arguments name).2.reply = .done) :
    (s.call arguments name).1.store.next = s.store.next + 1 := by
  obtain ⟨calling⟩ := Calling.of_accepted sound accepted
  have order := Arguments.inOrder_perm_of_bind calling.bind
  have one := held_of_source slots (order.mem_iff.mpr List.mem_cons_self) calling.one
  have two := held_of_source slots
    (order.mem_iff.mpr (List.mem_cons_of_mem _ List.mem_cons_self)) calling.two
  have held : ∀ source ∈ calling.sources.inOrder, ∃ ref, source = .held ref := by
    intro source member
    have bound := (Arguments.inOrder_perm_of_bind calling.bound).mem_iff.mp member
    rcases List.mem_pair.mp bound with rfl | rfl
    · exact one
    · exact two
  rw [calling.call_fst name]
  exact congrArg Nat.succ (Store.next_takeAll_of_held held)

/-- What a call on objects that are there makes is a guest in a mirror of the state before it. -/
theorem mirror_of_borrowing
    (sound : s.store.Sound s.roots)
    (slots : ∀ argument ∈ arguments.inOrder, ∃ slot, argument = .slot slot)
    (unused : s.slots.find? name = none)
    (accepted : (s.call arguments name).2.reply = .done) :
    ∃ pair, Mirror (passOver s.store.next 1) (fun _ => False) [(name, pair)] []
      s (s.call arguments name).1 := by
  have mirror := mirror_of_accepted sound accepted (next_of_borrowing sound slots accepted)
  rwa [cleared_of_unused unused] at mirror

/-- Nothing is freed by such a call, and nothing strays. -/
theorem quiet_of_borrowing
    {ρ : Nat → Nat} {kept : Nat → Prop} {aside : List (String × Ref)}
    (sound : s.store.Sound s.roots)
    (fixed : ∀ id < s.store.next, ρ id = id)
    (slots : ∀ argument ∈ arguments.inOrder, ∃ slot, argument = .slot slot)
    (accepted : (s.call arguments name).2.reply = .done)
    (mirror : Mirror ρ kept aside [] s (s.call arguments name).1) :
    (s.call arguments name).2.freed = [] ∧
      strays ρ s.store (s.call arguments name).1.store = [] := by
  obtain ⟨sources, -, -, evaluated, -⟩ := bound_of_accepted accepted
  have written : arguments.inOrder.flatMap Argument.names = [] := by
    rw [List.flatMap_eq_nil_iff]
    intro argument member
    obtain ⟨slot, rfl⟩ := slots argument member
    rfl
  have made := (arguments.accounts_evaluate s.accounts_source).made_perm evaluated
  rw [written] at made
  have self := sound.mirror mirror.store.injective fixed
  have balance := balance_of_shifts self mirror.store (.still sound (.refl _))
    ((shift_call sound arguments name).names_perm made (.refl _))
  rw [self.strays_eq_nil] at balance
  have none := balance.symm.eq_nil
  rw [List.append_eq_nil_iff, List.map_eq_nil_iff] at none
  exact none

/-! ## The end of the pair -/

/-- When the guest of a mirror goes, what strayed because of it goes. -/
theorem drop_of_mirror
    {ρ : Nat → Nat} {kept : Nat → Prop} {t : State} {pair : Ref}
    (mirror : Mirror ρ kept [(name, pair)] [] s t)
    (sound' : t.store.Sound t.roots) :
    (t.step (.drop name)).2.reply = .done ∧ (t.step (.drop name)).2.log = [] ∧
      Mirror ρ (fun _ => False) [] [] s (t.step (.drop name)).1 ∧
      (t.step (.drop name)).2.freed.Perm ((strays ρ s.store t.store).map Prod.snd) := by
  have dropped := drop_of_used (mirror.apart _ (List.mem_singleton_self _))
  have shift := shift_step sound' (.drop name)
  rw [dropped] at shift ⊢
  have guest : Store.Mirror ρ kept ([pair] ++ []) s.store s.roots t.store := mirror.store
  have after : Mirror ρ (fun _ => False) [] [] s
      (done ({ t with slots := t.slots.erase name }.discard [pair])).1 := by
    refine ⟨guest.release_guests, mirror.inStep, mirror.slots.uncover, ?_, mirror.filter⟩
    intro given member
    cases member
  refine ⟨rfl, rfl, after, ?_⟩
  have balance := balance_of_shifts mirror.store after.store
    (.still mirror.store.sound (.refl _)) shift
  rw [after.store.strays_eq_nil, List.map_nil, List.append_nil] at balance
  exact balance.symm

/-! ## Which things are lost -/

section Lost

variable {ρ : Nat → Nat} {kept : Nat → Prop} {aside : List (String × Ref)} {held : List Ref}
  {t : State} {step : Step} {id : Nat} {thing : String}

/-- What the mirror loses in a step is lost in both. -/
theorem lost_of_mirror
    (mirror : Mirror ρ kept aside [] s t)
    (sound' : t.store.Sound t.roots)
    (seen : ∀ slot ∈ step.slots, slot ∉ aside.map Prod.fst)
    (lost' : (id, thing) ∈ t.lost (t.step step).1) :
    ∃ old, ρ old = id ∧ (old, thing) ∈ s.lost (s.step step).1 := by
  have sound := mirror.store.sound
  have later := (mirror.remember.step step seen).mirror.store
  obtain ⟨alive, gone⟩ := (mem_lost_iff (shift_step sound' step).sound).mp lost'
  have known : ¬ Store.Stranded ρ s.store t.store id := by
    intro stranded
    obtain ⟨node, stays⟩ := (later.lasting stranded).1
    rw [gone] at stays
    cases stays
  obtain ⟨old, node, rfl, before⟩ := Store.image_of_not_stranded alive known
  have image := mirror.store.values before
  rw [alive, Option.some.injEq] at image
  refine ⟨old, rfl, (mem_lost_iff (shift_step sound step).sound).mpr ⟨?_, ?_⟩⟩
  · cases node <;> cases image
    exact before
  · cases after : Heap.value? (s.step step).1.store.cells old with
    | none => rfl
    | some node' =>
        rw [later.values after] at gone
        cases gone

/-- What is lost in a step is lost in the mirror as well, or stranded there. -/
theorem stranded_of_lost
    (mirror : Mirror ρ kept aside [] s t)
    (sound' : t.store.Sound t.roots)
    (lost : (id, thing) ∈ s.lost (s.step step).1) :
    (ρ id, thing) ∈ t.lost (t.step step).1 ∨
      Heap.value? t.store.cells (ρ id) = some (.named thing) ∧
        Store.Stranded ρ (s.step step).1.store (t.step step).1.store (ρ id) := by
  obtain ⟨alive, gone⟩ := (mem_lost_iff (shift_step mirror.store.sound step).sound).mp lost
  have image := mirror.store.values alive
  cases after : Heap.value? (t.step step).1.store.cells (ρ id) with
  | none => exact .inl ((mem_lost_iff (shift_step sound' step).sound).mpr ⟨image, after⟩)
  | some node =>
      refine .inr ⟨image, ⟨node, after⟩, fun old same => ?_⟩
      rw [mirror.store.injective same, gone]

/-- What is lost in a step is lost in the mirror in the same step, or when its guests are gone. -/
theorem lost_or_put_off
    {back : List Step} {last : State}
    (mirror : Mirror ρ kept aside [] s t)
    (sound' : t.store.Sound t.roots)
    (seen : ∀ later ∈ step :: back, ∀ slot ∈ later.slots, slot ∉ aside.map Prod.fst)
    (ended : Store.Mirror ρ kept [] (machine.run s (step :: back)).1.store held last.store)
    (sound_last : last.store.Sound last.roots)
    (lost : (id, thing) ∈ s.lost (s.step step).1) :
    (ρ id, thing) ∈ t.lost (t.step step).1 ∨
      (ρ id, thing) ∈ (machine.run t (step :: back)).1.lost last := by
  rcases stranded_of_lost mirror sound' lost with found | ⟨alive, stranded⟩
  · exact .inl found
  · have after := (mirror.step step (seen step List.mem_cons_self)).mirror.remember
    have whole := after.run back fun later member => seen later (List.mem_cons_of_mem _ member)
    obtain ⟨⟨node, stays⟩, unknown⟩ := whole.store.lasting stranded
    have same := (evolves_run (step :: back) sound').value?_of_fixed alive (sound'.used alive)
      trivial stays
    refine .inr ((mem_lost_iff sound_last).mpr ⟨same ▸ stays, ?_⟩)
    cases left : Heap.value? last.store.cells (ρ id) with
    | none => rfl
    | some node => exact absurd ⟨⟨node, left⟩, unknown⟩ (ended.not_stranded (ρ id))

/-- What is lost when the guests go is the image of what is gone already. -/
theorem gone_of_lost
    {last : State}
    (mirror : Mirror ρ kept aside [] s t)
    (ended : Store.Mirror ρ kept [] s.store held last.store)
    (sound_last : last.store.Sound last.roots)
    {old : Nat}
    (lost' : (ρ old, thing) ∈ t.lost last) :
    old < s.store.next ∧ s.references old = 0 := by
  obtain ⟨alive, gone⟩ := (mem_lost_iff sound_last).mp lost'
  refine ⟨Classical.byContradiction fun late => ?_, ?_⟩
  · obtain ⟨i, rfl⟩ := Nat.exists_eq_add_of_le (Nat.not_lt.mp late)
    rw [mirror.inStep i] at alive
    have used := mirror.store.sound'.used alive
    omega
  · rw [references_eq_zero_iff mirror.store.sound]
    cases found : s.store.cells.find? old with
    | none => rfl
    | some cell =>
        rw [ended.values (Heap.value?_of_find? found)] at gone
        cases gone

/-- The pair itself is no opaque thing. -/
theorem ne_of_unstrayed
    {after : State}
    (mirror : Mirror (passOver s.store.next 1) kept aside [] s t)
    (unstrayed : strays (passOver s.store.next 1) s.store t.store = [])
    (evolves : t.store.Evolves after.store)
    (alive : Heap.value? after.store.cells id = some (.named thing)) :
    id ≠ s.store.next := by
  rintro rfl
  have next : passOver s.store.next 1 s.store.next = t.store.next := mirror.inStep 0
  rw [Store.passOver_of_le (Nat.le_refl _)] at next
  obtain ⟨node, found, same⟩ := evolves.values (next ▸ Nat.lt_succ_self _) alive
  have stray : (s.store.next, thing) ∈ strays (passOver s.store.next 1) s.store t.store := by
    refine Store.mem_strays_iff.mpr ⟨?_, ⟨node, found⟩, fun old image => ?_⟩
    · rw [found, same (.inr trivial)]
    · exact absurd image (Store.passOver_ne _ _)
  rw [unstrayed] at stray
  cases stray

end Lost
end State

/-- How steps go after a call that made a pair, up to the drop of its slot, beside the same steps
alone.  The objects of the two runs differ in their numbers, of which the pair has one. -/
structure Borrows (s : State) (arguments : Arguments Argument) (name : String) (more : List Step)
    (called dropped : State × Effect) (short long : State × List Entry) : Prop where
  /-- The run with the call has its entry, those of the steps, and that of the drop. -/
  run : machine.run s (.call arguments name :: more ++ [.drop name]) =
    (dropped.1, ⟨called.2, called.1.counts⟩ :: long.2 ++ [⟨dropped.2, dropped.1.counts⟩])
  /-- The call frees nothing. -/
  quiet : called.2.freed = []
  /-- The drop succeeds. -/
  done : dropped.2.reply = .done
  /-- It writes nothing. -/
  silent : dropped.2.log = []
  /-- Every step answers the same and logs the same in both runs, and frees the same but for what is
  put off, which is exactly what is freed when the slot of the pair is dropped. -/
  putOff : ∃ put, PutsOff short.2 long.2 put ∧ dropped.2.freed.Perm put
  /-- The two runs end in the same state but for the numbers of the objects; all counts are the
  same. -/
  ended : State.Renamed (passOver s.store.next 1) short.1 dropped.1
  /-- An opaque thing that is lost in a step of the run without the call is lost in the same step of
  the other run or when the slot is dropped. -/
  lost : ∀ front step back, more = front ++ step :: back →
    let before := (machine.run s front).1
    let before' := (machine.run called.1 front).1
    ∀ thing ∈ before.lost (before.step step).1,
      (passOver s.store.next 1 thing.1, thing.2) ∈ before'.lost (before'.step step).1 ∨
        (passOver s.store.next 1 thing.1, thing.2) ∈ long.1.lost dropped.1
  /-- What the run with the call loses in a step is lost in the same step of the other. -/
  lost' : ∀ front step back, more = front ++ step :: back →
    let before := (machine.run s front).1
    let before' := (machine.run called.1 front).1
    ∀ thing ∈ before'.lost (before'.step step).1,
      ∃ old ∈ before.lost (before.step step).1, (passOver s.store.next 1 old.1, old.2) = thing
  /-- What it loses when the slot is dropped has no references at the end of the other. -/
  unkept : ∀ thing ∈ long.1.lost dropped.1, ∃ old, passOver s.store.next 1 old = thing.1 ∧
    old < short.1.store.next ∧ short.1.references old = 0

/-- **What a pair borrows.**  Take any call that succeeds, in any state that steps lead to, with
slots for its arguments and a slot for its result that is not used.  Let any steps follow that do
not name that slot, and let it be dropped then.  All goes as the same steps go alone, but for what
the pair keeps until its slot is dropped. -/
theorem pair_borrows_two_references
    (filter : Filter) (before more : List Step) (arguments : Arguments Argument) (name : String) :
    let s := (machine.run (State.initial filter) before).1
    let called := s.step (.call arguments name)
    let short := machine.run s more
    let long := machine.run called.1 more
    let dropped := long.1.step (.drop name)
    (∀ argument ∈ arguments.inOrder, ∃ slot, argument = .slot slot) →
    s.slots.find? name = none →
    called.2.reply = .done →
    (∀ step ∈ more, name ∉ step.slots) →
      Borrows s arguments name more called dropped short long := by
  intro s called short long dropped slots unused accepted apart
  have sound : s.store.Sound s.roots := State.sound_run before (State.sound_initial filter)
  have sound' : called.1.store.Sound called.1.roots := (State.shift_call sound arguments name).sound
  have fixed : ∀ id < s.store.next, passOver s.store.next 1 id = id :=
    fun _ old => Store.passOver_of_lt old 1
  obtain ⟨pair, mirror⟩ := State.mirror_of_borrowing sound slots unused accepted
  have seen : ∀ step ∈ more, ∀ slot ∈ step.slots, slot ∉ [(name, pair)].map Prod.fst := by
    intro step member slot named inside
    rw [List.map_singleton, List.mem_singleton] at inside
    subst inside
    exact apart step member named
  obtain ⟨quiet, unstrayed⟩ := State.quiet_of_borrowing sound fixed slots accepted mirror
  obtain ⟨put, puts, balance⟩ := mirror.putsOff sound' seen
  rw [unstrayed, List.map_nil, List.nil_append] at balance
  have whole := mirror.run more seen
  have sound_long := State.sound_run more sound'
  obtain ⟨done, silent, ended, freed⟩ := State.drop_of_mirror whole sound_long
  have sound_dropped := (State.shift_step sound_long (.drop name)).sound
  -- the mirror in front of any of the steps, whose slots it passes over as well
  have reaches : ∀ front step back, more = front ++ step :: back →
      (∀ later ∈ step :: back, ∀ slot ∈ later.slots, slot ∉ [(name, pair)].map Prod.fst) ∧
        State.Mirror (passOver s.store.next 1) (fun _ => False) [(name, pair)] []
          (machine.run s front).1 (machine.run called.1 front).1 := by
    rintro front step back rfl
    exact ⟨fun later member => seen later (List.mem_append_right _ member),
      mirror.run front fun later member => seen later (List.mem_append_left _ member)⟩
  exact {
    run := by
      rw [List.cons_append, Machine.run_cons, Machine.run_append]
      rfl
    quiet := quiet
    done := done
    silent := silent
    putOff := ⟨put, puts, freed.trans balance⟩
    ended := ended.renamed
    lost := by
      rintro front step back cut before before' ⟨id, thing⟩ lost
      obtain ⟨along, between⟩ := reaches front step back cut
      have ended' := ended.store
      have short_eq : short.1 = (machine.run before (step :: back)).1 := by
        show (machine.run s more).1 = _
        rw [cut, Machine.run_append]
      have long_eq : long.1 = (machine.run before' (step :: back)).1 := by
        show (machine.run called.1 more).1 = _
        rw [cut, Machine.run_append]
      rw [short_eq] at ended'
      rw [long_eq]
      exact State.lost_or_put_off between (State.sound_run front sound') along ended'
        sound_dropped lost
    lost' := by
      rintro front step back cut before before' ⟨id, thing⟩ lost
      obtain ⟨along, between⟩ := reaches front step back cut
      obtain ⟨old, same, lost⟩ := State.lost_of_mirror between (State.sound_run front sound')
        (along step List.mem_cons_self) lost
      exact ⟨(old, thing), lost, congrArg (·, thing) same⟩
    unkept := by
      rintro ⟨id, thing⟩ lost
      have alive := ((State.mem_lost_iff sound_dropped).mp lost).1
      have other := State.ne_of_unstrayed mirror unstrayed (State.evolves_run more sound') alive
      obtain ⟨old, rfl⟩ := Store.exists_passOver other
      exact ⟨old, rfl, State.gone_of_lost whole ended.store sound_dropped lost⟩ }

/-- A thing whose own slot is dropped while a pair keeps it. -/
theorem pair_borrows_two_references_alone :
    let s := (machine.run (State.initial .off) [.new "x" (.named "o")]).1
    let called := s.step (.call ⟨[.slot "x", .slot "x"], []⟩ "r")
    let short := machine.run s [.drop "x"]
    let long := machine.run called.1 [.drop "x"]
    let dropped := long.1.step (.drop "r")
    called.2.reply = .done ∧ called.2.freed = [] ∧
      (∃ put, PutsOff short.2 long.2 put ∧ dropped.2.freed.Perm put) ∧
      dropped.1.slots.entries = [] := by
  intro s called short long dropped
  have slots : ∀ argument ∈ ([.slot "x", .slot "x"] : List Argument),
      ∃ slot, argument = .slot slot := by
    intro argument member
    exact ⟨"x", (List.mem_pair.mp member).elim id id⟩
  have borrows := pair_borrows_two_references .off [.new "x" (.named "o")] [.drop "x"]
    ⟨[.slot "x", .slot "x"], []⟩ "r" slots rfl rfl (by decide)
  exact ⟨rfl, borrows.quiet, borrows.putOff, borrows.ended.slots⟩

end Session
end SharedPair
