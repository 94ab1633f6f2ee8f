import SharedPair.Proofs.Object.Pasting
import SharedPair.Proofs.Session.Packing
import SharedPair.Proofs.Session.Rejection

/-!
# What a call starts from

A call that succeeds gives up what its slot held, once its pair is in place.  That might
as well be given up before the call: the state after it is a mirror of the state without
the slot, with the pair as a guest.  The state before it is another mirror of that one,
with the old object of the slot as a guest.

So a call is compared with what was there before it through a state that both sides
mirror.  For a call that fails, this is the state before it.
-/

namespace SharedPair

namespace Session

open Store (passOver)

namespace State

variable {ρ ρ' : Nat → Nat} {kept kept' : Nat → Prop} {aside : List (String × Ref)}
  {s t u : State} {name : String} {arguments : Arguments Argument}

/-- A mirror of a mirror that has no slots of its own. -/
theorem Mirror.trans
    (first : Mirror ρ kept [] [] s t) (second : Mirror ρ' kept' aside [] t u) :
    Mirror (ρ' ∘ ρ) (fun _ => False) aside [] s u where
  store := by
    have store := second.store
    rw [List.nil_append, first.roots] at store
    exact first.store.trans store
  inStep i := by
    rw [Function.comp, first.inStep, second.inStep]
  slots := by
    rw [Ref.rename_comp]
    exact first.slots.trans second.slots
  apart := second.apart
  filter := second.filter.trans first.filter

/-! ## States without a slot -/

/-- What a slot holds, with the slot. -/
def given (s : State) (name : String) : List (String × Ref) :=
  (s.slots.find? name).toList.map (name, ·)

/-- The state without a slot, when what it held has been given up. -/
def cleared (s : State) (name : String) : State :=
  ({ s with slots := s.slots.erase name }.discard (s.slots.find? name).toList).1

theorem given_refs
    (s : State) (name : String) :
    (s.given name).map Prod.snd = (s.slots.find? name).toList := by
  rw [given, List.map_map]
  exact List.map_id _

theorem eq_of_mem_given
    {slot : String}
    (member : slot ∈ (s.given name).map Prod.fst) :
    slot = name := by
  rw [given, List.map_map] at member
  obtain ⟨ref, -, rfl⟩ := List.mem_map.mp member
  rfl

theorem roots_perm_cleared
    (s : State) (name : String) :
    s.roots.Perm ((s.slots.find? name).toList ++ (s.slots.erase name).values) := by
  cases found : s.slots.find? name with
  | none =>
      rw [Table.erase_of_find?_eq_none found]
      exact List.Perm.refl _
  | some old => exact Table.values_perm_erase found

theorem cleared_of_mirror
    (mirror : Mirror ρ kept (t.given name) [] s t) :
    Mirror ρ (fun _ => False) [] [] s (t.cleared name) where
  store := by
    have store := mirror.store
    rw [given_refs, ← List.append_nil (Option.toList _)] at store
    exact store.release_guests
  inStep := mirror.inStep
  slots := by
    have slots := mirror.slots
    show Table.Follows [] _ (t.slots.erase name) _
    rw [given] at slots
    cases found : t.slots.find? name with
    | none =>
        rw [found] at slots
        rw [Table.erase_of_find?_eq_none found]
        exact slots
    | some old =>
        rw [found] at slots
        exact Table.Follows.uncover slots
  apart given member := by
    cases member
  filter := mirror.filter

theorem cleared_of_unused
    (unused : s.slots.find? name = none) :
    s.cleared name = s := by
  rw [cleared, unused, Table.erase_of_find?_eq_none unused]
  exact congrArg (fun cells => { s with store := ⟨cells, s.store.next⟩ })
    (congrArg Prod.fst (Heap.release_nil s.store.cells))

section Cleared

variable (sound : s.store.Sound s.roots)
include sound

theorem sound_cleared
    (name : String) :
    (s.cleared name).store.Sound (s.cleared name).roots :=
  (Store.Shift.release (sound.perm (s.roots_perm_cleared name))).sound

/-- The slots of the state without a slot are followed, under any renaming of new numbers. -/
theorem follows_cleared
    (fixed : ∀ id < s.store.next, ρ id = id)
    (name : String) :
    Table.Follows [] (Ref.rename ρ) (s.slots.erase name) (s.cleared name).slots :=
  follows_self (s := s.cleared name) (sound_cleared sound name) fixed

/-- A state is a mirror of itself without a slot. -/
theorem mirror_of_cleared
    (name : String) :
    Mirror id (fun _ => False) (s.given name) [] (s.cleared name) s where
  store := by
    rw [given_refs]
    exact Store.mirror_of_release (sound.perm (s.roots_perm_cleared name)) Function.injective_id
      fun _ _ => rfl
  inStep _ := rfl
  slots := by
    have follows := follows_cleared (ρ := id) sound (fun _ _ => rfl) name
    rw [given]
    cases found : s.slots.find? name with
    | none =>
        rw [Table.erase_of_find?_eq_none found] at follows
        exact follows
    | some old => exact follows.hide
  apart held member := by
    obtain ⟨ref, inside, rfl⟩ := List.mem_map.mp member
    exact Option.mem_toList.mp inside
  filter := rfl

end Cleared

/-! ## The state after a call -/

theorem Calling.call_fst
    (calling : s.Calling arguments)
    (name : String) :
    (s.call arguments name).1 =
      ({ s with
          slots := s.slots.insert name calling.paired.1,
          store := calling.paired.2 }.discard (s.slots.find? name).toList).1 := by
  cases found : s.slots.find? name with
  | none =>
      rw [calling.call_of_unused found]
      exact congrArg (fun cells => State.mk _ ⟨cells, _⟩ _)
        (congrArg Prod.fst (Heap.release_nil _)).symm
  | some old =>
      rw [calling.call_of_used found]
      rfl

/-- A call that succeeds leaves a mirror of the state without its slot. -/
theorem mirror_of_accepted
    {gap : Nat}
    (sound : s.store.Sound s.roots)
    (accepted : (s.call arguments name).2.reply = .done)
    (later : (s.call arguments name).1.store.next = s.store.next + gap) :
    ∃ pair, Mirror (passOver s.store.next gap) (fun _ => False) [(name, pair)] []
      (s.cleared name) (s.call arguments name).1 := by
  obtain ⟨calling⟩ := Calling.of_accepted sound accepted
  have fixed : ∀ id < s.store.next, passOver s.store.next gap id = id :=
    fun _ old => Store.passOver_of_lt old gap
  have parts := sound.perm (s.roots_perm_cleared name)
  have others : (s.slots.erase name).values.map (Ref.rename (passOver s.store.next gap)) =
      (s.slots.erase name).values :=
    Store.map_rename_of_held (sound_cleared sound name) fixed
  have there : ∀ source ∈ calling.sources.inOrder, source.There
      ((s.slots.erase name).values.map (Ref.rename (passOver s.store.next gap)) ++
        (s.slots.find? name).toList) := by
    rw [others]
    exact fun source member => (calling.there source member).mono fun ref inside =>
      ((s.roots_perm_cleared name).trans List.perm_append_comm).mem_iff.mp inside
  -- the old object is a guest, then the pair is one too, and then the old object leaves
  have released := Store.mirror_of_release parts (Store.passOver_injective s.store.next gap) fixed
  have given := released.takeAll_guest calling.sources.inOrder there
  rw [← Store.inOrder_takeArguments] at given
  have paired := (given.perm (.refl _) (calling.given_perm.append_right _)).allocate_guest
    (.tuple [calling.x, calling.y])
  have after := (paired.perm (.refl _) (List.perm_append_singleton _ _).symm).release_guests
  refine ⟨calling.paired.1, ?_⟩
  rw [calling.call_fst name] at later ⊢
  exact {
    store := after
    inStep := Store.inStep_passOver later
    slots := by
      have follows := follows_cleared sound fixed name
      exact follows.hide.overwrite _
    apart := fun given member => by
      obtain rfl := List.mem_singleton.mp member
      exact (Table.find?_insert _ _ _ _).trans (if_pos rfl)
    filter := rfl }

/-! ## Mirrors apart from a slot -/

/-- Apart from one slot, which may be its own, the second state mirrors the first. -/
def Apart (ρ : Nat → Nat) (name : String) (s t : State) : Prop :=
  ∃ aside, (∀ given ∈ aside, given.1 = name) ∧ Mirror ρ (fun _ => False) aside [] s t

theorem Mirror.apart_from
    (mirror : Mirror ρ (fun _ => False) [] [] s t)
    (name : String) :
    Apart ρ name s t :=
  ⟨[], fun _ member => absurd member List.not_mem_nil, mirror⟩

theorem Mirror.then_apart
    (mirror : Mirror ρ kept [] [] s t) (apart : Apart ρ' name t u) :
    Apart (ρ' ∘ ρ) name s u := by
  obtain ⟨aside, only, other⟩ := apart
  exact ⟨aside, only, mirror.trans other⟩

namespace Apart

theorem unseen
    {slots : List String}
    (only : ∀ given ∈ aside, given.1 = name) (unnamed : name ∉ slots) :
    ∀ slot ∈ slots, slot ∉ aside.map Prod.fst := by
  intro slot member hidden
  obtain ⟨given, inside, rfl⟩ := List.mem_map.mp hidden
  exact unnamed (only given inside ▸ member)

theorem find?
    (apart : Apart ρ name s t)
    {slot : String}
    (other : slot ≠ name) :
    t.slots.find? slot = (s.slots.find? slot).map (Ref.rename ρ) := by
  obtain ⟨aside, only, mirror⟩ := apart
  refine mirror.slots.find? (unseen only ?_ slot (List.mem_singleton_self slot))
  exact fun same => other (List.mem_singleton.mp same).symm

theorem next
    (apart : Apart ρ name s t) :
    ρ s.store.next = t.store.next := by
  obtain ⟨aside, only, mirror⟩ := apart
  exact mirror.inStep 0

/-- A step that does not name the slot leaves two such states. -/
theorem step
    (apart : Apart ρ name s t)
    {step : Step}
    (unnamed : name ∉ step.slots) :
    Apart ρ name (s.step step).1 (t.step step).1 := by
  obtain ⟨aside, only, mirror⟩ := apart
  exact ⟨aside, only, (mirror.step step (unseen only unnamed)).mirror⟩

/-- A step that does not name the slot tells the same of both, and makes the same. -/
theorem tells
    (apart : Apart ρ name s t)
    {step : Step}
    (unnamed : name ∉ step.slots) :
    (t.step step).2.reply = (s.step step).2.reply ∧ (t.step step).2.log = (s.step step).2.log ∧
      step.made t = step.made s := by
  obtain ⟨aside, only, mirror⟩ := apart
  have agrees := mirror.step step (unseen only unnamed)
  exact ⟨agrees.reply, agrees.log, mirror.made (unseen only unnamed)⟩

end Apart

/-! ## Before and after a call -/

theorem mirror_self
    (sound : s.store.Sound s.roots) :
    Mirror id (fun _ => False) [] [] s s :=
  mirror_of_stores sound (fun _ _ => rfl) (sound.mirror Function.injective_id fun _ _ => rfl)
    fun _ => rfl

theorem apart_cleared
    (sound : s.store.Sound s.roots)
    (name : String) :
    Apart id name (s.cleared name) s := by
  refine ⟨s.given name, fun given member => ?_, mirror_of_cleared sound name⟩
  exact eq_of_mem_given (List.mem_map_of_mem member)

/-- What a call starts from: the state without its slot, if it succeeds. -/
def ready (s : State) (arguments : Arguments Argument) (name : String) : State :=
  match (s.call arguments name).2.reply with
  | .done => s.cleared name
  | _ => s

theorem reply_call
    (s : State) (arguments : Arguments Argument) (name : String) :
    (s.call arguments name).2.reply = .done ∨
      ∃ failure, (s.call arguments name).2.reply = .failed failure := by
  cases evaluated : (s.sources arguments).result with
  | error failure =>
      rw [call, evaluating, evaluated]
      exact .inr ⟨failure, rfl⟩
  | ok sources =>
      cases bound : sources.bind with
      | ok both =>
          exact .inl (accepted_of_bound evaluated bound name)
      | error e => exact .inr ⟨_, call_of_rejected evaluated bound name⟩

theorem ready_of_accepted
    (accepted : (s.call arguments name).2.reply = .done) :
    s.ready arguments name = s.cleared name := by
  rw [ready, accepted]

theorem ready_of_failed
    {failure : Failure}
    (failed : (s.call arguments name).2.reply = .failed failure) :
    s.ready arguments name = s := by
  rw [ready, failed]

section Ready

variable (sound : s.store.Sound s.roots)
include sound

/-- **Before a call.** -/
theorem apart_of_ready
    (arguments : Arguments Argument) (name : String) :
    Apart id name (s.ready arguments name) s := by
  rcases s.reply_call arguments name with accepted | ⟨failure, failed⟩
  · rw [ready_of_accepted accepted]
    exact apart_cleared sound name
  · rw [ready_of_failed failed]
    exact (mirror_self sound).apart_from name

/-- **After a call.**  The numbers of the objects that it makes are passed over. -/
theorem apart_of_call
    {gap : Nat}
    (later : (s.call arguments name).1.store.next = s.store.next + gap) :
    Apart (passOver s.store.next gap) name (s.ready arguments name) (s.call arguments name).1 := by
  rcases s.reply_call arguments name with accepted | ⟨failure, failed⟩
  · obtain ⟨pair, mirror⟩ := mirror_of_accepted sound accepted later
    rw [ready_of_accepted accepted]
    exact ⟨[(name, pair)], fun _ member => congrArg Prod.fst (List.mem_singleton.mp member), mirror⟩
  · obtain ⟨-, gap', mirror⟩ := mirror_of_failed sound failed
    have next := mirror.inStep 0
    rw [Nat.add_zero, Nat.add_zero, Store.passOver_of_le (Nat.le_refl _), later,
      Nat.add_left_cancel_iff] at next
    rw [ready_of_failed failed, ← next]
    exact mirror.apart_from name

end Ready

end State
end Session
end SharedPair
