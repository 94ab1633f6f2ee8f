import SharedPair.Copy

/-!
# The state of a script

A script works on named slots, each of which owns a value.  A path points from a
slot into its value: to a component of a pair, or through a handle to the value of
its cell.  What a path points at is borrowed; nothing is copied by following it.
-/

namespace SharedPair
namespace Script

/-- One step of a path. -/
inductive Segment where
  | first
  | second
  /-- Into the value of a cell. -/
  | inside
  /-- A segment that fits no value. -/
  | unknown (text : String)
  deriving DecidableEq, Repr

/-- A slot, and the way from its value to a part of it. -/
structure Path where
  slot : String
  segments : List Segment
  deriving DecidableEq, Repr

def Segment.ofString : String → Segment
  | "0" => first
  | "1" => second
  | "in" => inside
  | text => unknown text

/-- Reads a path: the name of a slot and the segments, with dots between them. -/
def Path.ofString (text : String) : Path :=
  match text.splitOn "." with
  | [] => ⟨text, []⟩
  | slot :: rest => ⟨slot, rest.map Segment.ofString⟩

/-- Why a step did not do what it says. -/
inductive Fault where
  | noSlot
  | badPath
  | notPair
  | notCell
  /-- There are other handles to the cell. -/
  | shared
  /-- A cell of this name was founded before. -/
  | nameTaken
  | refused (refusal : Refusal)
  deriving DecidableEq, Repr

/-- The slots, and all that their values refer to. -/
structure State where
  slots : Table String Value
  memory : Memory
  /-- The names of all cells founded so far, whether alive or freed. -/
  founded : List String
  filter : Filter

namespace State

/-- The state before the first step. -/
def initial (filter : Filter) : State := ⟨∅, ∅, [], filter⟩

/-- Follows segments from a value. -/
def follow (s : State) : List Segment → Value → Except Fault Value
  | [], value => .ok value
  | .first :: rest, .pair first _ => s.follow rest first
  | .second :: rest, .pair _ second => s.follow rest second
  | .inside :: rest, .handle _ cell =>
    match Heap.value? s.memory.cells cell with
    | some value => s.follow rest value
    | none => .error .badPath
  | _ :: _, _ => .error .badPath

/-- The value of a slot. -/
def slot (s : State) (name : String) : Except Fault Value :=
  match s.slots.find? name with
  | some value => .ok value
  | none => .error .noSlot

/-- What a path points at. -/
def resolve (s : State) (path : Path) : Except Fault Value := do
  let value ← s.slot path.slot
  s.follow path.segments value

/-- Gives up a value. -/
def discard (s : State) (value : Value) : State × List Event :=
  let (memory, events) := s.memory.drop value
  ({ s with memory }, events)

/-- Puts a value in a slot.  The value that was there is given up when the new one is in place. -/
def store (s : State) (name : String) (value : Value) : State × List Event :=
  let placed := { s with slots := s.slots.insert name value }
  match s.slots.find? name with
  | some old => placed.discard old
  | none => (placed, [])

/-- Takes the value out of a slot, which is gone afterwards. -/
def vacate (s : State) (name : String) : State := { s with slots := s.slots.erase name }

/-- Whether a draft founds each of its cells for the first time. -/
def admits (s : State) (draft : Draft) : Bool :=
  decide draft.cells.Nodup && draft.cells.all fun id => !s.founded.contains id

/-- The handles to every cell alive, as they are counted. -/
def counts (s : State) : List (String × Nat) :=
  s.memory.cells.entries.map fun (id, cell) => (id, cell.count)

/-- The leaves of all slots, which are the roots of the heap. -/
def roots (s : State) : List (Leaf String Probe) := Value.leavesOfAll s.slots.values

end State

end Script
end SharedPair
