import SharedPair.Proofs.Object.Pasting
import SharedPair.Proofs.Session.Comparison

/-!
# Slots in another order

Slots stand in the order in which they were first used.  No step asks for that order: a
slot is looked up, written or removed by its name.  So two sessions whose slots differ
in their order alone have the same effects, and each count in one is told in the other.

At the end all slots are given up, one after the other.  Which one goes first decides
what ends when, but not what is left, so the same things are told in order.
-/

namespace SharedPair
namespace Session

/-- Two entries that tell the same, but for the order of the slots. -/
structure Entry.Same (entry entry' : Entry) : Prop where
  effect : entry'.effect = entry.effect
  counts : entry'.counts.Perm entry.counts

namespace State

variable {s t : State}

/-- The second state has what the first has, with the slots in any order. -/
structure Shuffles (s t : State) : Prop where
  slots : ∀ name, t.slots.find? name = s.slots.find? name
  store : t.store = s.store
  filter : t.filter = s.filter

/-- What is done to two such states leaves two such states, and tells the same of both. -/
structure Shuffled {α : Type} (x y : State × α) : Prop where
  state : x.1.Shuffles y.1
  told : y.2 = x.2

theorem Shuffled.map
    {α β : Type} {x y : State × α}
    (shuffled : Shuffled x y)
    (f : α → β) :
    Shuffled (x.1, f x.2) (y.1, f y.2) :=
  ⟨shuffled.state, congrArg f shuffled.told⟩

theorem Shuffled.done
    {x y : State × List String}
    (shuffled : Shuffled x y) :
    Shuffled (State.done x) (State.done y) :=
  shuffled.map fun names => Effect.mk .done (sortNames names) []

namespace Shuffles

theorem exists_slots
    (shuffles : s.Shuffles t) :
    ∃ slots, t = { s with slots } := by
  rcases t with ⟨slots, store, filter⟩
  obtain rfl : store = s.store := shuffles.store
  obtain rfl : filter = s.filter := shuffles.filter
  exact ⟨slots, rfl⟩

/-! ## Looking things up -/

theorem slot
    (shuffles : s.Shuffles t)
    (name : String) :
    t.slot name = s.slot name := by
  rw [State.slot, State.slot, shuffles.slots]

theorem source
    (shuffles : s.Shuffles t)
    (argument : Argument) :
    t.source argument = s.source argument := by
  cases argument with
  | fresh expression => rfl
  | slot name => rw [State.source, State.source, shuffles.slot]

theorem sources
    (shuffles : s.Shuffles t)
    (arguments : Arguments Argument) :
    t.sources arguments = s.sources arguments :=
  congrArg (arguments.evaluate Source.names) (funext shuffles.source)

/-! ## Changes -/

theorem of_store
    (shuffles : s.Shuffles t)
    (store : Store) :
    Shuffles { s with store } { t with store } :=
  ⟨shuffles.slots, rfl, shuffles.filter⟩

theorem insert
    (shuffles : s.Shuffles t)
    (name : String) (ref : Ref) :
    Shuffles { s with slots := s.slots.insert name ref }
      { t with slots := t.slots.insert name ref } where
  slots other := by
    rw [Table.find?_insert, Table.find?_insert, shuffles.slots]
  store := shuffles.store
  filter := shuffles.filter

theorem erase
    (shuffles : s.Shuffles t)
    (name : String) :
    Shuffles { s with slots := s.slots.erase name } { t with slots := t.slots.erase name } where
  slots other := by
    rw [Table.find?_erase, Table.find?_erase, shuffles.slots]
  store := shuffles.store
  filter := shuffles.filter

theorem discard
    (shuffles : s.Shuffles t)
    (refs : List Ref) :
    Shuffled (s.discard refs) (t.discard refs) := by
  unfold State.discard
  rw [shuffles.store]
  exact ⟨shuffles.of_store _, rfl⟩

theorem hold
    (shuffles : s.Shuffles t)
    (name : String) (ref : Ref) :
    Shuffled (s.hold name ref) (t.hold name ref) := by
  have placed := shuffles.insert name ref
  unfold State.hold
  rw [shuffles.slots]
  cases s.slots.find? name with
  | none => exact ⟨placed, rfl⟩
  | some old => exact placed.discard [old]

/-! ## The parts of a step -/

theorem answer
    (shuffles : s.Shuffles t)
    (reply : Reply) :
    Shuffled (s.answer reply) (t.answer reply) :=
  ⟨shuffles, rfl⟩

theorem ask
    (shuffles : s.Shuffles t)
    (question : Except Failure Reply) :
    Shuffled (s.ask question) (t.ask question) := by
  cases question <;> exact shuffles.answer _

theorem done_hold
    (shuffles : s.Shuffles t)
    (name : String) (ref : Ref) :
    Shuffled (done (s.hold name ref)) (done (t.hold name ref)) :=
  (shuffles.hold name ref).done

theorem giveUp
    (shuffles : s.Shuffles t)
    (refs : List Ref) (failure : Failure) :
    Shuffled (s.giveUp refs failure) (t.giveUp refs failure) :=
  (shuffles.discard refs).map fun names => Effect.mk (.failed failure) (sortNames names) []

theorem evaluating
    {α : Type} {next next' : α → State × Effect}
    (shuffles : s.Shuffles t)
    (made : Evaluation α)
    (further : ∀ a, Shuffled (next a) (next' a)) :
    Shuffled (s.evaluating made next) (t.evaluating made next') := by
  unfold State.evaluating
  cases made.result with
  | error failure => exact ⟨shuffles, rfl⟩
  | ok a =>
      exact (further a).map fun effect =>
        { effect with freed := sortNames (made.ended ++ effect.freed) }

theorem packInto
    (shuffles : s.Shuffles t)
    (name : String) (given : List Ref) (first second : Ref) :
    Shuffled (s.packInto name given first second) (t.packInto name given first second) := by
  obtain ⟨slots, rfl⟩ := shuffles.exists_slots
  have called := (shuffles.of_store (s.store.pack s.filter first second).1.2).discard given
  have stored := called.state.hold name (s.store.pack s.filter first second).1.1
  refine ⟨stored.state, ?_⟩
  exact congrArg₂ (fun names dropped => Effect.mk .done (sortNames (names ++ dropped))
    (s.store.pack s.filter first second).2) called.told stored.told

theorem call
    (shuffles : s.Shuffles t)
    (arguments : Arguments Argument) (name : String) :
    Shuffled (s.call arguments name) (t.call arguments name) := by
  unfold State.call
  rw [shuffles.sources, shuffles.store]
  refine shuffles.evaluating _ fun sources => ?_
  simp only
  cases (s.store.takeArguments sources).1.bind with
  | ok both => exact (shuffles.of_store _).packInto name _ both.1 both.2
  | error e => exact (shuffles.of_store _).giveUp _ _

theorem get
    (shuffles : s.Shuffles t)
    (source : String) (index : Index) (name : String) :
    Shuffled (s.get source index name) (t.get source index name) := by
  unfold State.get
  rw [shuffles.slot, shuffles.store]
  cases s.slot source with
  | error failure => exact shuffles.answer _
  | ok container =>
      simp only
      cases (s.store.contents container).item index with
      | error failure => exact shuffles.answer _
      | ok item => cases item <;> exact (shuffles.of_store _).done_hold name _

theorem change
    (shuffles : s.Shuffles t)
    (container : String) (value : Argument)
    (how : Node → Ref → Node → Except Failure Node.Change) :
    Shuffled (s.change container value how) (t.change container value how) := by
  unfold State.change
  rw [shuffles.source, shuffles.slot, shuffles.store]
  refine shuffles.evaluating _ fun source => ?_
  simp only
  split
  · exact (shuffles.of_store _).giveUp _ _
  · exact ((shuffles.of_store _).discard _).done

theorem append
    (shuffles : s.Shuffles t)
    (container : String) (value : Argument) :
    Shuffled (s.append container value) (t.append container value) := by
  unfold State.append
  rw [shuffles.slot, shuffles.store]
  cases s.slot container with
  | error failure => exact shuffles.answer _
  | ok ref =>
      simp only
      split
      · exact shuffles.change container value _
      · exact shuffles.answer _

theorem remove
    (shuffles : s.Shuffles t)
    (name : String) :
    Shuffled (s.remove name) (t.remove name) := by
  unfold State.remove
  rw [shuffles.slot]
  cases s.slot name with
  | error failure => exact shuffles.answer _
  | ok ref =>
      exact ((shuffles.erase name).discard [ref]).done

/-- **One step** does the same in both states. -/
theorem step
    (shuffles : s.Shuffles t)
    (step : Step) :
    Shuffled (s.step step) (t.step step) := by
  cases step with
  | new name expression =>
      rw [State.step, State.step, shuffles.store]
      exact shuffles.evaluating _ fun form => (shuffles.of_store _).done_hold name _
  | «alias» source name =>
      rw [State.step, State.step, shuffles.slot, shuffles.store]
      cases s.slot source with
      | error failure => exact shuffles.answer _
      | ok ref => exact (shuffles.of_store _).done_hold name ref
  | call arguments name => exact shuffles.call arguments name
  | get source index name => exact shuffles.get source index name
  | set container index value =>
      rw [State.step, State.step]
      exact shuffles.change container value _
  | append container value => exact shuffles.append container value
  | drop name => exact shuffles.remove name
  | same first second =>
      rw [State.step, State.step, shuffles.slot, shuffles.slot]
      exact shuffles.ask _
  | length name =>
      rw [State.step, State.step, shuffles.slot, shuffles.store]
      exact shuffles.ask _
  | display name =>
      rw [State.step, State.step, shuffles.slot, shuffles.store]
      exact shuffles.ask _
  | setFilter filter => exact ⟨⟨shuffles.slots, shuffles.store, rfl⟩, rfl⟩

/-! ## Entries -/

theorem entries_perm
    (shuffles : s.Shuffles t) :
    t.slots.entries.Perm s.slots.entries :=
  Table.entries_perm_of_find? shuffles.slots

theorem counts
    (shuffles : s.Shuffles t) :
    t.counts.Perm s.counts := by
  obtain ⟨slots, rfl⟩ := shuffles.exists_slots
  exact shuffles.entries_perm.filterMap _

/-- **Every run** tells the same in both states. -/
theorem run
    (shuffles : s.Shuffles t)
    (steps : List Step) :
    (machine.run s steps).1.Shuffles (machine.run t steps).1 ∧
      List.Forall₂ Entry.Same (machine.run s steps).2 (machine.run t steps).2 := by
  refine machine.run_related (T := Eq) ?_ (List.forall₂_refl steps) shuffles
  rintro s t step _ shuffles rfl
  have first := shuffles.step step
  exact ⟨first.state, first.told, first.state.counts⟩

/-- What is given up at the end may be given up in any order. -/
theorem last
    (shuffles : s.Shuffles t)
    (sound : s.store.Sound s.roots) :
    machine.last t = machine.last s := by
  obtain ⟨slots, rfl⟩ := shuffles.exists_slots
  have same : slots.values.Perm s.roots := shuffles.entries_perm.map Prod.snd
  have sound' : s.store.Sound (State.roots { s with slots }) := sound.perm same.symm
  have held : s.store.Sound (s.roots ++ []) := sound.perm (.of_eq (List.append_nil _).symm)
  have order : s.roots.Perm (slots.values ++ []) :=
    same.symm.trans (.of_eq (List.append_nil _).symm)
  -- what is left of the slots is mirrored by the store that still has them, and they go from there
  have left := Store.mirror_of_release (ρ := id) held Function.injective_id fun _ _ => rfl
  have both : Store.Mirror id (fun _ => False) [] s.finish.1.store []
      (State.finish { s with slots }).1.store := (left.perm (.refl _) order).release_guests
  have self := sound.mirror (ρ := id) Function.injective_id fun _ _ => rfl
  have freed := freed_eq_of_shifts self both (shift_finish sound)
    (shift_finish (s := { s with slots }) sound') (pairwise_sortNames _) (pairwise_sortNames _)
  have effects : (State.finish { s with slots }).2 = s.finish.2 := Effect.ext rfl freed rfl
  exact congrArg (Machine.Entry.mk · []) effects

end Shuffles
end State
end Session
end SharedPair
