import Mathlib.Data.List.Nodup
import SharedPair.Script.Step
import SharedPair.Proofs.Session.Mirror
import SharedPair.Proofs.Session.Pairs

/-!
# Sessions as scripts

A session of opaque things and of pairs packed from slots can be told as a script.  An
opaque thing becomes a cell of its own name with nothing in it, and one more reference
becomes one more handle.  A call packs the values of its two slots, and since what it
returns is one object however many refer to it, the pair goes into a cell of its own;
two slots that the session does not use serve to put it there.  Reading an item goes
through the handle into the pair.

Each object of the session is a cell of the script.  Its name is settled by the steps
alone: the n-th object is made by the n-th step that makes one.
-/

namespace SharedPair

namespace Session

variable (s : State)

/-- Whether a step can be told in a script, in a given state: it makes an opaque thing, refers to an
object once more, packs what is in two slots, reads an item of a pair, drops a slot, compares two of
them or sets the filter.  A call and a reading have to find what they refer to; the other steps may
fail for want of a slot. -/
def Step.Tellable : Step → Prop
  | .new _ (.named _) => True
  | .alias _ _ => True
  | .call arguments _ => ∃ first second, arguments.bind = .ok (.slot first, .slot second) ∧
      first ∈ s.slots.keys ∧ second ∈ s.slots.keys
  | .get source (.label (.int i)) _ => i ∈ [0, 1, -1, -2] ∧
      ∃ id x y, s.slots.find? source = some (.object id) ∧ s.IsPair id x y
  | .drop _ => True
  | .same _ _ => True
  | .setFilter _ => True
  | _ => False

/-- Whether all of some steps can be told in a script, one after the other. -/
def Tellable (s : State) : List Step → Prop
  | [] => True
  | step :: rest => step.Tellable s ∧ Tellable (s.step step).1 rest

end Session

/-- What a translation is free to choose: the two slots that it works in, and the names of the cells
for pairs. -/
structure Scheme where
  pairSlot : String
  cellSlot : String
  fresh : Nat → String

namespace Scheme

variable (scheme : Scheme)

/-- An item of a pair, counted from either end, as a part of a path. -/
def segment (i : Int) : Script.Segment := if i ∈ [0, -2] then .first else .second

/-- The steps of a script for one step of a session, in which the next object has a given number. -/
def step (number : Nat) : Session.Step → List Script.Step
  | .new name (.named x) => [.new name (.cell .acrossThreads x (.scalar .unit))]
  | .alias source name => [.clone ⟨source, []⟩ name]
  | .call arguments name =>
    match arguments.bind with
    | .ok (.slot first, .slot second) =>
      [.pack ⟨first, []⟩ ⟨second, []⟩ scheme.pairSlot,
        .new scheme.cellSlot (.cell .acrossThreads (scheme.fresh number) (.scalar .unit)),
        .put ⟨scheme.cellSlot, []⟩ scheme.pairSlot,
        .clone ⟨scheme.cellSlot, []⟩ name,
        .drop scheme.cellSlot]
    | _ => []
  | .get source (.label (.int i)) name => [.clone ⟨source, [.inside, segment i]⟩ name]
  | .drop name => [.drop name]
  | .same first second => [.same ⟨first, []⟩ ⟨second, []⟩]
  | .setFilter filter => [.setFilter filter]
  | _ => []

/-- The name of the cell for the object that a step makes, if it makes one. -/
def made (number : Nat) : Session.Step → List String
  | .new _ (.named x) => [x]
  | .call _ _ => [scheme.fresh number]
  | _ => []

/-- The script for a session, from a given number of objects on. -/
def script (number : Nat) : List Session.Step → List Script.Step
  | [] => []
  | step :: rest =>
    scheme.step number step ++ script (number + (scheme.made number step).length) rest

/-- The names of the cells for all objects of a session, in the order in which they are made. -/
def cells (number : Nat) : List Session.Step → List String
  | [] => []
  | step :: rest =>
    scheme.made number step ++ cells (number + (scheme.made number step).length) rest

/-- Whether a scheme can be used for a session: the names of opaque things differ, those of the
other cells differ from them and from each other, and the slots that the scheme works in are not
used. -/
structure Fits (steps : List Session.Step) : Prop where
  distinct : (steps.flatMap Session.Step.names).Nodup
  fresh : Function.Injective scheme.fresh
  unused : ∀ number, scheme.fresh number ∉ steps.flatMap Session.Step.names
  apart : scheme.pairSlot ≠ scheme.cellSlot
  free : ∀ step ∈ steps, scheme.pairSlot ∉ step.slots ∧ scheme.cellSlot ∉ step.slots

/-- The cell for the object of a number. -/
def cell (steps : List Session.Step) (number : Nat) : String :=
  ((scheme.cells 0 steps)[number]?).getD (scheme.fresh number)

variable {scheme}

/-! ## Each object has a cell of its own -/

theorem mem_made
    {number : Nat} {step : Session.Step} {id : String}
    (member : id ∈ scheme.made number step) :
    (scheme.made number step).length = 1 ∧ (id ∈ step.names ∨ id = scheme.fresh number) := by
  unfold made at member ⊢
  split at member
  · exact ⟨rfl, .inl member⟩
  · exact ⟨rfl, .inr (List.mem_singleton.mp member)⟩
  · cases member

theorem mem_cells
    {id : String} (steps : List Session.Step) {number : Nat}
    (member : id ∈ scheme.cells number steps) :
    id ∈ steps.flatMap Session.Step.names ∨
      ∃ k, number ≤ k ∧ k < number + (scheme.cells number steps).length ∧ id = scheme.fresh k := by
  induction steps generalizing number with
  | nil => cases member
  | cons step rest ih =>
      rw [cells, List.length_append, List.flatMap_cons]
      rcases List.mem_append.mp member with first | later
      · obtain ⟨one, named | same⟩ := mem_made first
        · exact .inl (List.mem_append_left _ named)
        · exact .inr ⟨number, Nat.le_refl _, by omega, same⟩
      · rcases ih later with named | ⟨k, low, high, same⟩
        · exact .inl (List.mem_append_right _ named)
        · exact .inr ⟨k, by omega, by omega, same⟩

theorem nodup_cells
    (steps : List Session.Step) {number : Nat}
    (distinct : (steps.flatMap Session.Step.names).Nodup)
    (fresh : Function.Injective scheme.fresh)
    (unused : ∀ number, scheme.fresh number ∉ steps.flatMap Session.Step.names) :
    (scheme.cells number steps).Nodup := by
  induction steps generalizing number with
  | nil => exact List.nodup_nil
  | cons step rest ih =>
      rw [List.flatMap_cons] at distinct unused
      obtain ⟨-, others, differ⟩ := List.nodup_append.mp distinct
      have later : (scheme.cells (number + (scheme.made number step).length) rest).Nodup :=
        ih others fun k member => unused k (List.mem_append_right _ member)
      refine List.nodup_append.mpr ⟨?_, later, ?_⟩
      · unfold made
        split
        · exact List.nodup_singleton _
        · exact List.nodup_singleton _
        · exact List.nodup_nil
      · rintro id first _ member rfl
        obtain ⟨one, origin⟩ := mem_made first
        rcases origin, mem_cells rest member with ⟨named | rfl, named' | ⟨k, low, -, same⟩⟩
        · exact differ id named id named' rfl
        · exact unused k (same ▸ List.mem_append_left _ named)
        · exact unused number (List.mem_append_right _ named')
        · have := fresh same
          omega

namespace Fits

variable {steps : List Session.Step}

/-- Different objects have different cells. -/
theorem injective
    (fits : scheme.Fits steps) :
    Function.Injective (scheme.cell steps) := by
  have nodup : (scheme.cells 0 steps).Nodup :=
    nodup_cells steps fits.distinct fits.fresh fits.unused
  -- a cell of the list is not one that lies beyond it
  have beyond : ∀ j k, j < (scheme.cells 0 steps).length → (scheme.cells 0 steps).length ≤ k →
      scheme.cell steps j ≠ scheme.cell steps k := by
    intro j k low high same
    rw [cell, cell, List.getElem?_eq_getElem low, List.getElem?_eq_none high] at same
    change (scheme.cells 0 steps)[j] = scheme.fresh k at same
    rcases mem_cells steps (List.getElem_mem low) with named | ⟨i, -, small, eq⟩
    · exact fits.unused k (same ▸ named)
    · have := fits.fresh (eq.symm.trans same)
      omega
  intro j k same
  rcases Nat.lt_or_ge j (scheme.cells 0 steps).length with low | high
  · rcases Nat.lt_or_ge k (scheme.cells 0 steps).length with low' | high'
    · rw [cell, cell, List.getElem?_eq_getElem low, List.getElem?_eq_getElem low'] at same
      exact (nodup.getElem_inj_iff).mp same
    · exact absurd same (beyond j k low high')
  · rcases Nat.lt_or_ge k (scheme.cells 0 steps).length with low' | high'
    · exact absurd same.symm (beyond k j low' high)
    · rw [cell, cell, List.getElem?_eq_none high, List.getElem?_eq_none high'] at same
      exact fits.fresh same

end Fits

/-! ## Parts of a session -/

theorem script_append
    (front back : List Session.Step) (number : Nat) :
    scheme.script number (front ++ back) =
      scheme.script number front ++
        scheme.script (number + (scheme.cells number front).length) back := by
  induction front generalizing number with
  | nil => rfl
  | cons step rest ih =>
      rw [List.cons_append, script, script, cells, ih, List.append_assoc, List.length_append,
        Nat.add_assoc]

theorem cells_append
    (front back : List Session.Step) (number : Nat) :
    scheme.cells number (front ++ back) =
      scheme.cells number front ++
        scheme.cells (number + (scheme.cells number front).length) back := by
  induction front generalizing number with
  | nil => rfl
  | cons step rest ih =>
      rw [List.cons_append, cells, cells, ih, List.append_assoc, List.length_append,
        Nat.add_assoc]

/-- The next object gets the cell that the step which makes it is to found. -/
theorem cell_of_made
    {front back : List Session.Step} {step : Session.Step} {id : String}
    (made : id ∈ scheme.made (scheme.cells 0 front).length step) :
    scheme.cell (front ++ step :: back) (scheme.cells 0 front).length = id := by
  obtain ⟨one, -⟩ := mem_made made
  obtain ⟨_, eq⟩ := List.length_eq_one_iff.mp one
  rw [eq, List.mem_singleton] at made
  rw [cell, cells_append, Nat.zero_add, List.getElem?_append_right (Nat.le_refl _), Nat.sub_self,
    cells, eq, made]
  rfl

/-- What a scheme that fits a session comes to for one of its steps, in which the next object has a
given number. -/
structure Suits (scheme : Scheme) (σ : Nat → String) (names : List String) (number : Nat)
    (step : Session.Step) : Prop where
  distinct : Function.Injective σ
  unused : ∀ number, scheme.fresh number ∉ names
  apart : scheme.pairSlot ≠ scheme.cellSlot
  written : ∀ name ∈ step.names, name ∈ names
  settled : ∀ id ∈ scheme.made number step, σ number = id
  free : ∀ slot ∈ step.slots, slot ∉ [scheme.pairSlot, scheme.cellSlot]

theorem Fits.suits
    {front back : List Session.Step} {step : Session.Step}
    (fits : scheme.Fits (front ++ step :: back)) :
    scheme.Suits (scheme.cell (front ++ step :: back))
      ((front ++ step :: back).flatMap Session.Step.names) (scheme.cells 0 front).length step where
  distinct := fits.injective
  unused := fits.unused
  apart := fits.apart
  written name member := List.mem_flatMap.mpr
    ⟨step, List.mem_append_right _ List.mem_cons_self, member⟩
  settled id made := cell_of_made made
  free slot named inside := by
    obtain ⟨pairFree, cellFree⟩ := fits.free step (List.mem_append_right _ List.mem_cons_self)
    rcases List.mem_pair.mp inside with rfl | rfl
    · exact pairFree named
    · exact cellFree named

end Scheme
end SharedPair
