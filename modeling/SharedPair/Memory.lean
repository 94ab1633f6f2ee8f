import SharedPair.Log
import SharedPair.Value

/-!
# The memory of owned values

Besides the slots that own values there are two things that values refer to: the
cells that handles share, and the families that probes are cloned in.  A family
counts the attempts at a clone and knows which of them it refuses.  Families are
numbered in the order in which they are founded, and none is ever given up.

What happens to probes and cells is reported as events, in the order in which it
happens.
-/

namespace SharedPair

/-- A family of probes. -/
structure Family where
  /-- The attempts that are refused, counted from one. -/
  refused : List Nat
  /-- How many clones have been attempted so far, refused ones included. -/
  attempts : Nat
  deriving DecidableEq, Repr

/-- The cells alive and the families founded, by number. -/
structure Memory where
  cells : Heap String Value
  families : List Family

/-- Something that happened. -/
inductive Event where
  /-- A probe was cloned; the clone has the given serial. -/
  | cloned (source : Probe) (serial : Nat)
  | dropped (probe : Probe)
  | freed (cell : String)
  | logged (record : Record)
  deriving DecidableEq, Repr

/-- The written form of a probe. -/
def Probe.render (p : Probe) : String := p.family.name ++ "#" ++ toString p.serial

namespace Event

/-- The written form of an event. -/
def render : Event → String
  | cloned source serial => "clone " ++ source.render ++ " -> #" ++ toString serial
  | dropped probe => "drop " ++ probe.render
  | freed cell => "free " ++ cell
  | logged record => record.render

/-- The end of a cell or of a probe, as an event. -/
def ofEnding : Ending String Probe → Event
  | .freed cell => freed cell
  | .ended probe => dropped probe

end Event

namespace Memory

/-- The memory before anything was made. -/
def empty : Memory := ⟨∅, []⟩

instance : EmptyCollection Memory := ⟨empty⟩

/-- What a family has come to.  One that was never founded refuses nothing. -/
def family (memory : Memory) (id : FamilyId) : Family :=
  memory.families[id.number]?.getD ⟨[], 0⟩

/-- Writes down what a family has come to. -/
def setFamily (memory : Memory) (id : FamilyId) (family : Family) : Memory :=
  { memory with families := memory.families.set id.number family }

/-- A new family, under the next number. -/
def foundFamily (memory : Memory) (name : String) (refused : List Nat) : FamilyId × Memory :=
  (⟨name, memory.families.length⟩, { memory with families := memory.families ++ [⟨refused, 0⟩] })

/-- One more handle to a cell. -/
def acquire (memory : Memory) (cell : String) : Memory :=
  { memory with cells := Heap.acquire memory.cells cell }

/-- Gives up leaves from left to right, and reports what ends with them. -/
def release (memory : Memory) (leaves : List (Leaf String Probe)) : Memory × List Event :=
  let (cells, endings) := Heap.release memory.cells leaves
  ({ memory with cells }, endings.map Event.ofEnding)

/-- Gives up a value. -/
def drop (memory : Memory) (value : Value) : Memory × List Event :=
  memory.release value.leaves

mutual

/-- Makes the value that a draft describes, with its cells and families. -/
def found : Draft → Memory → Value × Memory
  | .scalar s, memory => (.scalar s, memory)
  | .list items, memory =>
    let (values, after) := foundAll items memory
    (.list values, after)
  | .pair first second, memory =>
    let (x, between) := found first memory
    let (y, after) := found second between
    (.pair x y, after)
  | .cell sharing id content, memory =>
    let (value, after) := found content memory
    (.handle sharing id, { after with cells := Heap.allocate after.cells id value })
  | .probe name refused, memory =>
    let (family, after) := memory.foundFamily name refused
    (.probe ⟨family, 0⟩, after)

def foundAll : List Draft → Memory → List Value × Memory
  | [], memory => ([], memory)
  | draft :: rest, memory =>
    let (value, between) := found draft memory
    let (values, after) := foundAll rest between
    (value :: values, after)

end

end Memory

end SharedPair
