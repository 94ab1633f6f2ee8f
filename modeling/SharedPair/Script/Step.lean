import SharedPair.Machine
import SharedPair.Script.State

/-!
# The steps of a script

Every step is total: it answers with a reply, the events in their order, and the
state that it leaves.  A step that faults leaves slots, cells and filter alone; only
an interrupted copy has events, and it leaves its attempts counted.
-/

namespace SharedPair
namespace Script

/-- What a script can do. -/
inductive Step where
  | new (slot : String) (draft : Draft)
  /-- Packs copies of the values at two paths. -/
  | pack (first second : Path) (slot : String)
  | clone (source : Path) (slot : String)
  /-- Takes a pair apart into two slots. -/
  | take (source first second : String)
  | drop (slot : String)
  /-- Moves the value of a slot into the cell at a path. -/
  | put (cell : Path) (source : String)
  /-- Moves the value of a cell into the slot that holds the only handle to it. -/
  | unwrap (slot : String)
  | same (first second : Path)
  | display (path : Path)
  | setFilter (filter : Filter)
  deriving Repr

/-- A value as it is displayed: a handle comes with the value of its cell. -/
inductive Shown where
  | value (value : Value)
  | cell (sharing : Sharing) (id : String) (content : Value)
  deriving Repr

/-- The answer of a step. -/
inductive Reply where
  | done
  | truth (b : Bool)
  | shown (what : Shown)
  | fault (fault : Fault)
  /-- The answer of the last entry, when the slots are gone. -/
  | ended
  deriving Repr

/-- What a step answers and what happened in it. -/
structure Effect where
  reply : Reply
  events : List Event

namespace State

/-- A step that does nothing but answer. -/
def answer (s : State) (reply : Reply) : State × Effect := (s, ⟨reply, []⟩)

/-- A step that changes the state, as its effect. -/
def done (after : State × List Event) : State × Effect := (after.1, ⟨.done, after.2⟩)

/-- Stores what a copy made.  A refused copy leaves the slots alone. -/
def storeCopy (s : State) (name : String) (copy : Copying Value) : State × Effect :=
  let outcome := copy.run s.memory
  let s := { s with memory := outcome.memory }
  match outcome.result with
  | .ok value =>
    let (after, events) := s.store name value
    (after, ⟨.done, outcome.events ++ events⟩)
  | .error refusal => (s, ⟨.fault (.refused refusal), outcome.events⟩)

/-- Founds a draft and stores it. -/
def create (s : State) (name : String) (draft : Draft) : State × Effect :=
  if s.admits draft then
    let (value, memory) := s.memory.found draft
    done ({ s with memory, founded := draft.cells ++ s.founded }.store name value)
  else
    s.answer (.fault .nameTaken)

/-- Stores the components of a pair, the first and then the second. -/
def split (s : State) (source first second : String) : State × Effect :=
  match s.slot source with
  | .error fault => s.answer (.fault fault)
  | .ok (.pair x y) =>
    let (between, earlier) := (s.vacate source).store first x
    let (after, later) := between.store second y
    (after, ⟨.done, earlier ++ later⟩)
  | .ok _ => s.answer (.fault .notPair)

/-- Removes a slot and gives up its value. -/
def remove (s : State) (name : String) : State × Effect :=
  match s.slot name with
  | .error fault => s.answer (.fault fault)
  | .ok value => done ((s.vacate name).discard value)

/-- Moves the value of a slot into a cell.  One more handle keeps the cell alive until the value
that it held before is given up. -/
def fill (s : State) (path : Path) (source : String) : State × Effect :=
  match s.resolve path with
  | .error fault => s.answer (.fault fault)
  | .ok (.handle _ cell) =>
    match s.slot source with
    | .error fault => s.answer (.fault fault)
    | .ok value =>
      let kept := s.memory.acquire cell
      let old := ((Heap.value? kept.cells cell).map Value.leaves).getD []
      let memory := { kept with cells := Heap.write kept.cells cell value }
      let (after, events) := memory.release (old ++ [.handle cell])
      ({ s.vacate source with memory := after }, ⟨.done, events⟩)
  | .ok _ => s.answer (.fault .notCell)

/-- Moves the value of a cell into the slot of its only handle. -/
def unwrap (s : State) (name : String) : State × Effect :=
  match s.slot name with
  | .error fault => s.answer (.fault fault)
  | .ok (.handle _ cell) =>
    match s.memory.cells.find? cell with
    | some ⟨value, 1⟩ =>
      let memory := { s.memory with cells := s.memory.cells.erase cell }
      ({ s with memory, slots := s.slots.insert name value }, ⟨.done, [.freed cell]⟩)
    | _ => s.answer (.fault .shared)
  | .ok _ => s.answer (.fault .notCell)

/-- Whether two values are handles of one kind to one cell. -/
def sameCell : Value → Value → Bool
  | .handle sharing cell, .handle sharing' cell' => decide (sharing = sharing' ∧ cell = cell')
  | _, _ => false

/-- A value with what a handle at the top leads to. -/
def view (s : State) (value : Value) : Shown :=
  match value with
  | .handle sharing cell =>
    match Heap.value? s.memory.cells cell with
    | some content => .cell sharing cell content
    | none => .value value
  | _ => .value value

/-- The answer to a question about the value at a path. -/
def ask (s : State) (question : Except Fault Reply) : State × Effect :=
  match question with
  | .ok reply => s.answer reply
  | .error fault => s.answer (.fault fault)

/-- One step. -/
def step (s : State) : Step → State × Effect
  | .new name draft => s.create name draft
  | .pack first second name =>
    match s.resolve first, s.resolve second with
    | .ok x, .ok y =>
      s.storeCopy name do
        let (x', y') ← packPair s.filter x y
        return .pair x' y'
    | .error fault, _ => s.answer (.fault fault)
    | .ok _, .error fault => s.answer (.fault fault)
  | .clone source name =>
    match s.resolve source with
    | .ok value => s.storeCopy name value.clone
    | .error fault => s.answer (.fault fault)
  | .take source first second => s.split source first second
  | .drop name => s.remove name
  | .put cell source => s.fill cell source
  | .unwrap name => s.unwrap name
  | .same first second => s.ask do
    let x ← s.resolve first
    let y ← s.resolve second
    return .truth (sameCell x y)
  | .display path => s.ask do
    let value ← s.resolve path
    return .shown (s.view value)
  | .setFilter filter => ({ s with filter }, ⟨.done, []⟩)

/-- Drops slots in the given order. -/
def dropAll (s : State) : List String → State × List Event
  | [] => (s, [])
  | name :: rest =>
    let (between, first) := s.remove name
    let (after, later) := between.dropAll rest
    (after, first.events ++ later)

/-- Drops all slots in the order of their names. -/
def finish (s : State) : State × Effect :=
  let (after, events) := s.dropAll (s.slots.keys.mergeSort fun a b => decide (a ≤ b))
  (after, ⟨.ended, events⟩)

end State

/-- Scripts, as a machine. -/
abbrev machine : Machine State Step Effect where
  initial := State.initial
  step := State.step
  finish := State.finish
  counts := State.counts

/-- What is told of a step: its effect, and the counts of the cells after it. -/
abbrev Entry := Machine.Entry Effect

/-- The entries of a whole script, with a last one for the end of its slots. -/
abbrev transcript (filter : Filter) (steps : List Step) : List Entry :=
  machine.transcript filter steps

end Script
end SharedPair
