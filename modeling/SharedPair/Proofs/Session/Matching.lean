import SharedPair.Proofs.Session.Reordering
import SharedPair.Proofs.Session.References

/-!
# States that match

Two states match when they are the same but for the numbers of their objects and for the
order of their slots.  There is a state between them, with the numbers of the one and
the order of the other: it mirrors the first, and its slots are those of the second in
another order.  So whatever is done to two states that match, the same is told of both.
-/

namespace SharedPair
namespace Session

open Store (InStep)

theorem Entry.Same.refl
    (entry : Entry) :
    entry.Same entry :=
  ⟨rfl, .refl _⟩

namespace State

variable {ρ : Nat → Nat} {s t : State}

/-- The second state has the slots and the objects of the first, with new numbers. -/
structure Matches (ρ : Nat → Nat) (s t : State) : Prop where
  injective : Function.Injective ρ
  inStep : InStep ρ s.store t.store
  slots : ∀ name, t.slots.find? name = (s.slots.find? name).map (Ref.rename ρ)
  objects : ∀ id, t.store.cells.find? (ρ id) =
    (s.store.cells.find? id).map fun cell => ⟨cell.value.rename ρ, cell.count⟩
  all : ∀ id cell, t.store.cells.find? id = some cell → ∃ old, ρ old = id
  filter : t.filter = s.filter

namespace Matches

theorem store
    (like : Matches ρ s t)
    (sound : s.store.Sound s.roots) (sound' : t.store.Sound t.roots) :
    Store.Mirror ρ (fun _ => False) [] s.store s.roots t.store where
  injective := like.injective
  sound := sound
  sound' := by
    rw [List.append_nil]
    exact sound'.perm (Table.values_perm_of_find? like.slots)
  values {id node} alive := by
    obtain ⟨cell, found, rfl⟩ := Option.map_eq_some_iff.mp alive
    rw [Heap.value?, like.objects, found]
    rfl
  others {id} stranded := by
    obtain ⟨⟨node, alive⟩, unknown⟩ := stranded
    obtain ⟨cell, found, -⟩ := Option.map_eq_some_iff.mp alive
    obtain ⟨old, rfl⟩ := like.all id cell found
    have gone := Option.map_eq_none_iff.mp (unknown old rfl)
    rw [like.objects, gone] at found
    cases found
  lasting := False.elim

/-- The state between two states that match. -/
theorem exists_between
    (like : Matches ρ s t)
    (sound : s.store.Sound s.roots) (sound' : t.store.Sound t.roots) :
    ∃ u, Mirror ρ (fun _ => False) [] [] s u ∧ u.Shuffles t := by
  refine ⟨{ t with slots := s.slots.map (Ref.rename ρ) }, ?_, fun name => ?_, rfl, rfl⟩
  · exact {
      store := like.store sound sound'
      inStep := like.inStep
      slots := .of_map _ _
      apart := fun given member => absurd member List.not_mem_nil
      filter := like.filter }
  · rw [Table.find?_map, like.slots]

/-- **Every run** tells the same of two states that match, to the end of their slots. -/
theorem run
    (like : Matches ρ s t)
    (sound : s.store.Sound s.roots) (sound' : t.store.Sound t.roots)
    (steps : List Step) :
    List.Forall₂ Entry.Same
      ((machine.run s steps).2 ++ [machine.last (machine.run s steps).1])
      ((machine.run t steps).2 ++ [machine.last (machine.run t steps).1]) := by
  obtain ⟨u, mirror, shuffles⟩ := like.exists_between sound sound'
  have between : u.store.Sound u.roots := by
    have renamed := mirror.store.sound'
    rw [List.map_nil, List.append_nil, List.nil_append, ← mirror.roots] at renamed
    exact renamed
  have after := sound_run steps between
  have ended := mirror.run steps fun _ _ _ _ => List.not_mem_nil
  obtain ⟨shuffled, entries⟩ := shuffles.run steps
  rw [mirror.entries between steps] at entries
  rw [shuffled.last after, ended.last after]
  exact List.rel_append entries (.cons (.refl _) .nil)

/-- Where old numbers are kept, the same things of an earlier state are lost. -/
theorem lost_eq
    {start : State}
    (like : Matches ρ s t)
    (sound : s.store.Sound s.roots) (sound' : t.store.Sound t.roots)
    (before : start.store.Sound start.roots)
    (fixed : ∀ id < start.store.next, ρ id = id) :
    start.lost t = start.lost s := by
  refine List.filter_congr fun thing member => decide_eq_decide.mpr ?_
  have old : ρ thing.1 = thing.1 := fixed thing.1 (before.used (Store.mem_things_iff.mp member))
  have image := like.objects thing.1
  rw [old] at image
  rw [references_eq_zero_iff sound, references_eq_zero_iff sound', image, Option.map_eq_none_iff]

end Matches
end State
end Session
end SharedPair
