import SharedPair.Proofs.Script.Conservation
import SharedPair.Proofs.Script.Logging
import SharedPair.Proofs.Session.Logging
import SharedPair.Proofs.Translation.Correspondence
import SharedPair.Proofs.Translation.Steps

/-!
# Steps and their echoes

The steps of a script that tell a step of a session echo it: from a state that tells the
state before the step they lead to one that tells the state after it, and on the way they
answer, free and write the same.

A step that succeeds leaves known slots and known contents, and so do the steps that tell
it; that is all there is to compare, since what is freed is settled by the states before
and afterwards.
-/

namespace SharedPair

open Script (eventsOf)

/-! ## What is settled by the steps alone -/

namespace Scheme

variable {scheme : Scheme} {step : Session.Step}

/-- The filters that are set are the same. -/
theorem inForce_step
    (filter : Filter) (number : Nat) (step : Session.Step) :
    Script.inForce filter (scheme.step number step) = Session.inForce filter [step] := by
  unfold Scheme.step
  split
  · rfl
  · rfl
  · split <;> rfl
  · rfl
  · rfl
  · rfl
  · rfl
  · next other =>
      cases step with
      | setFilter filter => exact absurd rfl (other filter)
      | _ => rfl

/-- The opaque things that a step makes are the cells with opaque names that are founded for it. -/
theorem count_made
    {s : Session.State} {names : List String}
    (tellable : step.Tellable s)
    (unused : ∀ number, scheme.fresh number ∉ names)
    (number : Nat) {name : String}
    (opaque_name : name ∈ names) :
    (scheme.made number step).count name = (step.made s).count name := by
  cases step with
  | new slot expression =>
      cases expression with
      | named x => rfl
      | _ => exact tellable.elim
  | call arguments slot =>
      obtain ⟨first, second, bind, -, -⟩ := tellable
      have written := Session.State.count_made_le s (.call arguments slot) name
      have order := (Arguments.inOrder_perm_of_bind bind).flatMap_right Session.Argument.names
      rw [Session.Step.names, order.count_eq] at written
      have other : name ∉ scheme.made number (.call arguments slot) := by
        intro member
        exact unused number (List.mem_singleton.mp member ▸ opaque_name)
      rw [List.count_eq_zero.mpr other]
      exact (Nat.le_zero.mp written).symm
  | _ => first | exact tellable.elim | rfl

end Scheme

namespace Script

/-- Steps that pack nothing write nothing. -/
theorem records_run_of_not_pack
    {steps : List Step} (s : State)
    (other : ∀ first second name, .pack first second name ∉ steps) :
    Event.records (eventsOf (machine.run s steps).2) = [] := by
  induction steps generalizing s with
  | nil => rfl
  | cons step rest ih =>
      rw [eventsOf_run_cons, Event.records_append, ih _ fun first second name member =>
        other first second name (List.mem_cons_of_mem _ member), List.append_nil]
      refine State.records_of_not_packs ?_
      rintro ⟨⟨first, second, name, rfl⟩, -⟩
      exact other first second name List.mem_cons_self

/-- What is freed in a run, for the cells that are known and alive before and after it. -/
theorem State.Owned.count_freed_run
    {s : State}
    (owned : s.Owned)
    (steps : List Step) (id : String) :
    (machine.run s steps).1.founded.count id + s.memory.cells.keys.count id =
      s.founded.count id + (machine.run s steps).1.memory.cells.keys.count id +
        (Event.frees (eventsOf (machine.run s steps).2)).count id := by
  have freed := owned.freed_run id steps
  have before := owned.count_founded id
  have after := (owned_run steps owned).count_founded id
  rw [Event.count_freed] at freed
  omega

end Script

/-! ## One step -/

/-- What a step of a session and the steps of a script that tell it have in common. -/
structure Echoes (scheme : Scheme) (σ : Nat → String) (names : List String) (s : Session.State)
    (step : Session.Step) (after : Script.State × List Script.Entry) : Prop where
  tells : Tells scheme σ names (s.step step).1 after.1
  next : (s.step step).1.store.next =
    s.store.next + (scheme.made s.store.next step).length
  truth : ∀ b, (s.step step).2.reply = .truth b ↔
    ∃ entry ∈ after.2, entry.effect.reply = .truth b
  log : (s.step step).2.log = Event.records (eventsOf after.2)
  freed : (s.step step).2.freed.Perm
    ((Event.frees (eventsOf after.2)).filter fun id => decide (id ∈ names))

namespace Tells

variable {scheme : Scheme} {σ : Nat → String} {names : List String} {s : Session.State}
  {t : Script.State} {step : Session.Step}

/-- What is freed in a step is settled by what the states before and after it have in common, and by
the cells that are founded. -/
theorem freed_step
    (tells : Tells scheme σ names s t)
    (suits : scheme.Suits σ names s.store.next step)
    (tellable : step.Tellable s)
    {moves : List Script.Step}
    (tells' : Tells scheme σ names (s.step step).1 (Script.machine.run t moves).1)
    (founded :
      (Script.machine.run t moves).1.founded = scheme.made s.store.next step ++ t.founded) :
    (s.step step).2.freed.Perm
      ((Event.frees (eventsOf (Script.machine.run t moves).2)).filter
        fun id => decide (id ∈ names)) := by
  refine tells.freed_perm tells' suits.distinct (Session.State.shift_step tells.sound step)
    (tells.owned.count_freed_run moves) (fun name member => suits.written name ?_)
    fun name inside => ?_
  · have more := Session.State.count_made_le s step name
    exact List.count_pos_iff.mp ((List.count_pos_iff.mpr member).trans_le more)
  · rw [founded, List.count_append, Nat.add_comm, Scheme.count_made tellable suits.unused _ inside]

/-- Steps that succeed, and of which it is known what they leave, correspond. -/
theorem echoes_of_leaves
    (tells : Tells scheme σ names s t)
    (suits : scheme.Suits σ names s.store.next step)
    (tellable : step.Tellable s)
    {slots : Table String Ref} {slots' : Table String Value}
    {content : Nat → Option Node} {content' : String → Option Value} {next : Nat}
    (leaves : Session.Leaves slots content next (s.step step))
    (leaves' : Script.RunLeaves slots' content' (scheme.made s.store.next step ++ t.founded)
      (Script.machine.run t (scheme.step s.store.next step)))
    (alike : SlotsAlike scheme σ slots slots')
    (image : Heap.Image σ (Node.picture σ) content content')
    (plain : ∀ {id node}, content id = some node → node.Plain σ names id)
    (grown : next = s.store.next + (scheme.made s.store.next step).length)
    (log : (s.step step).2.log =
      Event.records (eventsOf (Script.machine.run t (scheme.step s.store.next step)).2)) :
    Echoes scheme σ names s step (Script.machine.run t (scheme.step s.store.next step)) := by
  have known : ∀ cell ∈ (Script.machine.run t (scheme.step s.store.next step)).1.founded,
      ∃ id < (s.step step).1.store.next, σ id = cell := by
    rw [leaves'.founded, leaves.next, grown]
    intro cell member
    rcases List.mem_append.mp member with new | old
    · have one : (scheme.made s.store.next step).length ≠ 0 :=
        Nat.ne_of_gt (List.length_pos_of_mem new)
      exact ⟨s.store.next, by omega, suits.settled cell new⟩
    · obtain ⟨id, used, same⟩ := tells.known cell old
      exact ⟨id, by omega, same⟩
  have tells' : Tells scheme σ names (s.step step).1
      (Script.machine.run t (scheme.step s.store.next step)).1 := by
    refine .of_content suits.distinct image plain (Session.State.shift_step tells.sound step).sound
      (Script.State.owned_run _ tells.owned) leaves.within leaves'.within ?_ known ?_
    · rw [leaves.slots, leaves'.slots]
      exact alike
    · rw [Script.filter_run, Scheme.inForce_step, Session.State.filter_step, tells.filter]
  refine ⟨tells', leaves.next.trans grown, fun b => ?_, log,
    tells.freed_step suits tellable tells' leaves'.founded⟩
  rw [leaves.reply]
  constructor
  · intro answer
    cases answer
  · rintro ⟨entry, member, answer⟩
    rw [leaves'.replies entry member] at answer
    cases answer

/-- A step that only answers and one that answers the same correspond. -/
theorem echoes_of_answer
    (tells : Tells scheme σ names s t)
    (suits : scheme.Suits σ names s.store.next step)
    (tellable : step.Tellable s)
    {move : Script.Step} {reply : Session.Reply} {reply' : Script.Reply}
    (moves : scheme.step s.store.next step = [move])
    (none : scheme.made s.store.next step = [])
    (answer : s.step step = s.answer reply) (answer' : t.step move = t.answer reply')
    (truth : ∀ b, reply = .truth b ↔ reply' = .truth b) :
    Echoes scheme σ names s step (Script.machine.run t (scheme.step s.store.next step)) := by
  have still : Script.machine.run t [move] = (t, [⟨⟨reply', []⟩, t.counts⟩]) := by
    rw [Machine.run_cons, show Script.machine.step t move = _ from answer']
    rfl
  rw [moves]
  have tells' : Tells scheme σ names (s.step step).1 (Script.machine.run t [move]).1 := by
    rw [answer, still]
    exact tells
  refine ⟨tells', ?_, fun b => ?_, ?_, tells.freed_step suits tellable tells' ?_⟩
  · rw [answer, none]
    rfl
  · rw [answer, still]
    refine (truth b).trans ⟨fun same => ⟨_, List.mem_singleton_self _, same⟩, ?_⟩
    rintro ⟨entry, member, same⟩
    rwa [List.mem_singleton.mp member] at same
  · rw [answer, still]
    rfl
  · rw [still, none]
    rfl

/-! ### Each kind of step -/

theorem log_of_not_call
    (other : ∀ arguments name, step ≠ .call arguments name) :
    (s.step step).2.log =
      Event.records (eventsOf (Script.machine.run t (scheme.step s.store.next step)).2) := by
  have quiet : ¬ s.Calls step := fun ⟨⟨arguments, name, same⟩, _⟩ => other arguments name same
  rw [Session.State.log_of_not_calls quiet, Script.records_run_of_not_pack]
  intro first second name member
  unfold Scheme.step at member
  split at member
  case h_3 arguments name => exact other arguments name rfl
  all_goals simp at member

theorem fresh_of_made
    (tells : Tells scheme σ names s t)
    (suits : scheme.Suits σ names s.store.next step)
    {id : String}
    (made : id ∈ scheme.made s.store.next step) :
    id ∉ t.founded := by
  intro member
  obtain ⟨number, used, same⟩ := tells.known id member
  have := suits.distinct (same.trans (suits.settled id made).symm)
  omega

/-- What is in a slot of the session is in the same slot of the script, as a handle. -/
theorem found
    (tells : Tells scheme σ names s t)
    {name : String} {ref : Ref}
    (found : s.slots.find? name = some ref) :
    ∃ id, ref = .object id ∧ t.slots.find? name = some (.handle .acrossThreads (σ id)) := by
  obtain ⟨id, rfl⟩ := tells.slots.objects found
  refine ⟨id, rfl, ?_⟩
  rw [tells.slots.same, found]
  rfl

theorem missing
    (tells : Tells scheme σ names s t)
    {name : String}
    (missing : s.slots.find? name = none) :
    s.slot name = .error (.noSlot name) ∧ t.slot name = .error .noSlot := by
  have missing' := tells.slots.same name
  rw [missing] at missing'
  rw [Session.State.slot, missing, Script.State.slot, missing']
  exact ⟨rfl, rfl⟩

/-- A step that stores a reference to an object, and one that copies a handle to its cell. -/
theorem echoes_of_copy
    {path : Script.Path} {name : String} {id : Nat}
    (tells : Tells scheme σ names s t)
    (suits : scheme.Suits σ names s.store.next step)
    (tellable : step.Tellable s)
    (moves : scheme.step s.store.next step = [.clone path name])
    (none : scheme.made s.store.next step = [])
    (named : name ∈ step.slots)
    (leaves : Session.Leaves (s.slots.insert name (.object id)) (Heap.value? s.store.cells)
      s.store.next (s.step step))
    (reached : t.resolve path = .ok (.handle .acrossThreads (σ id)))
    (other : ∀ arguments name, step ≠ .call arguments name) :
    Echoes scheme σ names s step (Script.machine.run t (scheme.step s.store.next step)) := by
  have leaves' := (Script.State.leaves_clone (Heap.Within.refl t.memory.cells) reached name).last
  refine tells.echoes_of_leaves suits tellable leaves ?_
    (tells.slots.insert (suits.free name named) id) tells.image tells.plain ?_
    (log_of_not_call other)
  · rw [moves, none]
    exact leaves'
  · rw [none]
    rfl

theorem echoes_new
    {name x : String}
    (tells : Tells scheme σ names s t)
    (suits : scheme.Suits σ names s.store.next (.new name (.named x))) :
    Echoes scheme σ names s (.new name (.named x))
      (Script.machine.run t (scheme.step s.store.next (.new name (.named x)))) := by
  have cell : σ s.store.next = x := suits.settled x (List.mem_singleton_self x)
  have fresh : x ∉ t.founded := tells.fresh_of_made suits (List.mem_singleton_self x)
  have plain : (Node.named x).Plain σ names s.store.next := by
    rw [← cell]
    exact .named (cell ▸ suits.written x (List.mem_singleton_self x))
  have leaves' := (Script.State.leaves_new (Heap.Within.refl t.memory.cells) fresh name).last
  have image := tells.image.update suits.distinct s.store.next (.named x)
  have alike := tells.slots.insert (suits.free name List.mem_cons_self) s.store.next
  rw [cell] at image alike
  exact tells.echoes_of_leaves suits trivial
    (Session.State.leaves_new (Heap.Within.refl s.store.cells) name x) leaves' alike image
    (tells.plain_update plain) rfl (log_of_not_call (by simp))

theorem echoes_alias
    {source name : String}
    (tells : Tells scheme σ names s t)
    (suits : scheme.Suits σ names s.store.next (.alias source name)) :
    Echoes scheme σ names s (.alias source name)
      (Script.machine.run t (scheme.step s.store.next (.alias source name))) := by
  cases found : s.slots.find? source with
  | none =>
      obtain ⟨missing, missing'⟩ := tells.missing found
      have still : s.step (.alias source name) = s.answer (.failed (.noSlot source)) := by
        rw [Session.State.step, missing]
      have still' : t.step (.clone ⟨source, []⟩ name) = t.answer (.fault .noSlot) := by
        rw [Script.State.step, Script.State.resolve, missing']
        rfl
      exact tells.echoes_of_answer suits trivial rfl rfl still still' fun b => by simp
  | some ref =>
      obtain ⟨id, rfl, found'⟩ := tells.found found
      exact tells.echoes_of_copy suits trivial rfl rfl (List.mem_cons_of_mem _ List.mem_cons_self)
        (Session.State.leaves_alias (Heap.Within.refl s.store.cells) found name)
        (Script.State.resolve_of_find? found' []) (by simp)

theorem echoes_get
    {source name : String} {i : Int}
    (tells : Tells scheme σ names s t)
    (suits : scheme.Suits σ names s.store.next (.get source (.label (.int i)) name))
    (tellable : (Session.Step.get source (.label (.int i)) name).Tellable s) :
    Echoes scheme σ names s (.get source (.label (.int i)) name)
      (Script.machine.run t (scheme.step s.store.next (.get source (.label (.int i)) name))) := by
  obtain ⟨index, id, x, y, found, pair⟩ := id tellable
  obtain ⟨_, same, found'⟩ := tells.found found
  cases same
  -- the cell of the pair holds the images of its items
  have living := tells.image.values id
  rw [pair] at living
  obtain ⟨item, place, reached⟩ : ∃ item, (i, .object item) ∈ [(0, x), (-2, x), (1, y), (-1, y)] ∧
      t.resolve ⟨source, [.inside, Scheme.segment i]⟩ =
        .ok (.handle .acrossThreads (σ item)) := by
    rw [Script.State.resolve_of_find? found']
    cases tells.plain pair with
    | @pair first second _ _ _ =>
        have inside : ∀ segment value, t.follow [segment] (Node.picture σ
            (.tuple [.object first, .object second])) = .ok value →
            t.follow [.inside, segment] (.handle .acrossThreads (σ id)) = .ok value := by
          intro segment value followed
          rw [Script.State.follow, living]
          exact followed
        simp only [List.mem_cons, List.not_mem_nil, or_false] at index
        obtain rfl | rfl | rfl | rfl := index
        · exact ⟨first, by simp, inside _ _ rfl⟩
        · exact ⟨second, by simp, inside _ _ rfl⟩
        · exact ⟨second, by simp, inside _ _ rfl⟩
        · exact ⟨first, by simp, inside _ _ rfl⟩
  exact tells.echoes_of_copy suits tellable rfl rfl (List.mem_cons_of_mem _ List.mem_cons_self)
    (Session.State.leaves_get (Heap.Within.refl s.store.cells) found pair place name) reached
    (by simp)

theorem echoes_drop
    {name : String}
    (tells : Tells scheme σ names s t)
    (suits : scheme.Suits σ names s.store.next (.drop name)) :
    Echoes scheme σ names s (.drop name)
      (Script.machine.run t (scheme.step s.store.next (.drop name))) := by
  cases found : s.slots.find? name with
  | none =>
      obtain ⟨missing, missing'⟩ := tells.missing found
      have still : s.step (.drop name) = s.answer (.failed (.noSlot name)) := by
        rw [Session.State.step, Session.State.remove, missing]
      have still' : t.step (.drop name) = t.answer (.fault .noSlot) := by
        rw [Script.State.step, Script.State.remove, missing']
      exact tells.echoes_of_answer suits trivial rfl rfl still still' fun b => by simp
  | some ref =>
      obtain ⟨id, rfl, found'⟩ := tells.found found
      have leaves' := (Script.State.leaves_drop (Heap.Within.refl t.memory.cells) found').last
      exact tells.echoes_of_leaves suits trivial
        (Session.State.leaves_drop (Heap.Within.refl s.store.cells) found) leaves'
        (tells.slots.erase name) tells.image tells.plain rfl (log_of_not_call (by simp))

theorem echoes_same
    {first second : String}
    (tells : Tells scheme σ names s t)
    (suits : scheme.Suits σ names s.store.next (.same first second)) :
    Echoes scheme σ names s (.same first second)
      (Script.machine.run t (scheme.step s.store.next (.same first second))) := by
  have faulted : ∀ slot, s.step (.same first second) = s.answer (.failed (.noSlot slot)) →
      t.step (.same ⟨first, []⟩ ⟨second, []⟩) = t.answer (.fault .noSlot) →
      Echoes scheme σ names s (.same first second)
        (Script.machine.run t (scheme.step s.store.next (.same first second))) :=
    fun slot still still' =>
      tells.echoes_of_answer suits trivial rfl rfl still still' fun b => by simp
  cases found : s.slots.find? first with
  | none =>
      obtain ⟨missing, missing'⟩ := tells.missing found
      refine faulted first ?_ ?_
      · rw [Session.State.step, missing]
        rfl
      · rw [Script.State.step, Script.State.resolve, missing']
        rfl
  | some ref =>
      obtain ⟨x, rfl, one⟩ := tells.found found
      cases found' : s.slots.find? second with
      | none =>
          obtain ⟨missing, missing'⟩ := tells.missing found'
          refine faulted second ?_ ?_
          · rw [Session.State.step, Session.State.slot_of_find? found, missing]
            rfl
          · rw [Script.State.step, Script.State.resolve_of_find? one, Script.State.resolve,
              missing']
            rfl
      | some ref =>
          obtain ⟨y, rfl, two⟩ := tells.found found'
          have answer : s.step (.same first second) =
              s.answer (.truth (decide (Ref.object x = Ref.object y))) := by
            rw [Session.State.step, Session.State.slot_of_find? found,
              Session.State.slot_of_find? found']
            rfl
          have answer' : t.step (.same ⟨first, []⟩ ⟨second, []⟩) =
              t.answer (.truth (decide (Sharing.acrossThreads = .acrossThreads ∧ σ x = σ y))) := by
            rw [Script.State.step, Script.State.resolve_of_find? one,
              Script.State.resolve_of_find? two]
            rfl
          refine tells.echoes_of_answer suits trivial rfl rfl answer answer' fun b => ?_
          simp [suits.distinct.eq_iff]

theorem echoes_setFilter
    {filter : Filter}
    (tells : Tells scheme σ names s t)
    (suits : scheme.Suits σ names s.store.next (.setFilter filter)) :
    Echoes scheme σ names s (.setFilter filter)
      (Script.machine.run t (scheme.step s.store.next (.setFilter filter))) := by
  have leaves' : Script.Leaves t.slots (Heap.value? t.memory.cells) t.founded
      (t.step (.setFilter filter)) :=
    ⟨rfl, rfl, Heap.Within.refl t.memory.cells, rfl⟩
  exact tells.echoes_of_leaves suits trivial
    ⟨rfl, rfl, Heap.Within.refl s.store.cells, rfl⟩ leaves'.last tells.slots tells.image tells.plain
    rfl (log_of_not_call (by simp))

theorem echoes_call
    {arguments : Arguments Session.Argument} {name : String}
    (tells : Tells scheme σ names s t)
    (suits : scheme.Suits σ names s.store.next (.call arguments name))
    (tellable : (Session.Step.call arguments name).Tellable s) :
    Echoes scheme σ names s (.call arguments name)
      (Script.machine.run t (scheme.step s.store.next (.call arguments name))) := by
  obtain ⟨first, second, bind, used, used'⟩ := id tellable
  obtain ⟨ref, found⟩ := Table.find?_of_mem_keys used
  obtain ⟨ref', found'⟩ := Table.find?_of_mem_keys used'
  obtain ⟨x, rfl, one⟩ := tells.found found
  obtain ⟨y, rfl, two⟩ := tells.found found'
  have made : scheme.fresh s.store.next ∈ scheme.made s.store.next (.call arguments name) :=
    List.mem_singleton_self _
  have cell : σ s.store.next = scheme.fresh s.store.next := suits.settled _ made
  have older : ∀ {slot id}, s.slots.find? slot = some (.object id) → id < s.store.next := by
    intro slot id found
    obtain ⟨node, alive⟩ := tells.alive_of_find? found
    exact tells.sound.used alive
  have plain : (Node.tuple [.object x, .object y]).Plain σ names s.store.next :=
    .pair (older found) (older found') (cell ▸ suits.unused _)
  have other := suits.free name List.mem_cons_self
  have leaves := Session.State.leaves_call (Heap.Within.refl s.store.cells) bind found found' name
  have moves : scheme.step s.store.next (.call arguments name) =
      [.pack ⟨first, []⟩ ⟨second, []⟩ scheme.pairSlot,
        .new scheme.cellSlot (.cell .acrossThreads (scheme.fresh s.store.next) (.scalar .unit)),
        .put ⟨scheme.cellSlot, []⟩ scheme.pairSlot,
        .clone ⟨scheme.cellSlot, []⟩ name, .drop scheme.cellSlot] := by
    rw [Scheme.step, bind]
  have unnamed : name ≠ scheme.cellSlot := by
    rintro rfl
    exact other (List.mem_cons_of_mem _ List.mem_cons_self)
  have leaves' := Script.State.leaves_packed (Heap.Within.refl t.memory.cells) one two
    (tells.fresh_of_made suits made) suits.apart unnamed
  have log : (s.step (.call arguments name)).2.log = Event.records (eventsOf
      (Script.machine.run t (scheme.step s.store.next (.call arguments name))).2) := by
    have packs : t.Packs (.pack ⟨first, []⟩ ⟨second, []⟩ scheme.pairSlot) :=
      ⟨⟨_, _, _, rfl⟩, leaves'.replies _ List.mem_cons_self⟩
    rw [Session.State.log_of_calls ⟨⟨arguments, name, rfl⟩, leaves.reply⟩, moves,
      Script.eventsOf_run_cons, Event.records_append, Script.State.records_of_packs packs,
      Script.records_run_of_not_pack _ (by simp), List.append_nil, tells.filter]
  have image := tells.image.update suits.distinct s.store.next (.tuple [.object x, .object y])
  have alike := tells.slots.insert other s.store.next
  rw [cell] at image alike
  rw [← moves] at leaves'
  refine tells.echoes_of_leaves suits tellable leaves leaves' (alike.congr fun k => ?_) image
    (tells.plain_update plain) rfl log
  -- nothing is left in the slots that were worked in, as there was nothing before
  have empty : ∀ slot ∈ [scheme.pairSlot, scheme.cellSlot], t.slots.find? slot = none := by
    intro slot member
    rw [tells.slots.same, tells.slots.free slot member]
    rfl
  simp only [Table.find?_erase, Table.find?_insert]
  by_cases atCell : scheme.cellSlot = k
  · subst atCell
    rw [if_pos rfl, if_neg unnamed, empty _ (by simp)]
  · rw [if_neg atCell]
    by_cases atName : name = k
    · rw [if_pos atName, if_pos atName]
    · rw [if_neg atName, if_neg atName, if_neg atCell]
      by_cases atPair : scheme.pairSlot = k
      · subst atPair
        rw [if_pos rfl, empty _ (by simp)]
      · rw [if_neg atPair, if_neg atPair]

/-- **Each step is echoed.**  From states that correspond, a step that can be told and the steps
that tell it lead to states that correspond. -/
theorem echoes_step
    (tells : Tells scheme σ names s t)
    (suits : scheme.Suits σ names s.store.next step)
    (tellable : step.Tellable s) :
    Echoes scheme σ names s step (Script.machine.run t (scheme.step s.store.next step)) := by
  cases step with
  | new name expression =>
      cases expression with
      | named x => exact tells.echoes_new suits
      | _ => exact tellable.elim
  | «alias» source name => exact tells.echoes_alias suits
  | call arguments name => exact tells.echoes_call suits tellable
  | get source index name =>
      cases index with
      | label l =>
          cases l with
          | int i => exact tells.echoes_get suits tellable
          | _ => exact tellable.elim
      | _ => exact tellable.elim
  | drop name => exact tells.echoes_drop suits
  | same first second => exact tells.echoes_same suits
  | setFilter filter => exact tells.echoes_setFilter suits
  | set _ _ _ => exact tellable.elim
  | append _ _ => exact tellable.elim
  | length _ => exact tellable.elim
  | display _ => exact tellable.elim

/-! ### The end of the slots -/

theorem finish
    (tells : Tells scheme σ names s t)
    (distinct : Function.Injective σ) :
    Tells scheme σ names s.finish.1 t.finish.1 := by
  obtain ⟨drops, final, -⟩ := t.finish_eq_run
  obtain ⟨within', founded⟩ := Script.State.leaves_drops drops (Heap.Within.refl t.memory.cells)
  rw [← final] at within' founded
  have still : ∀ (filter : Filter) (names : List String),
      Script.inForce filter (names.map .drop) = filter := by
    intro filter names
    induction names with
    | nil => rfl
    | cons name rest ih => exact ih
  have slots : SlotsAlike scheme σ s.finish.1.slots t.finish.1.slots :=
    ⟨t.find?_finish, fun found => (by cases found), fun _ _ => rfl⟩
  refine .of_content distinct tells.image tells.plain
    (Session.State.shift_finish tells.sound).sound (Script.State.owned_finish tells.owned)
    ((Heap.Within.refl s.store.cells).release _) within' slots ?_ ?_
  · rw [founded]
    exact tells.known
  · rw [final, Script.filter_run, still]
    exact tells.filter

/-- What is freed when the slots are gone. -/
theorem freed_finish
    (tells : Tells scheme σ names s t)
    (distinct : Function.Injective σ) :
    s.finish.2.freed.Perm
      ((Event.frees t.finish.2.events).filter fun id => decide (id ∈ names)) := by
  obtain ⟨drops, final, events⟩ := t.finish_eq_run
  have founded := (Script.State.leaves_drops drops (Heap.Within.refl t.memory.cells)).2
  have balance := tells.owned.count_freed_run (drops.map .drop)
  rw [← final, ← events] at balance
  rw [← final] at founded
  refine tells.freed_perm (tells.finish distinct) distinct
    (Session.State.shift_finish tells.sound) balance (by simp) fun name _ => ?_
  rw [founded]
  rfl

end Tells

end SharedPair
