import SharedPair.Log
import SharedPair.Object.Expression
import SharedPair.Object.Item

/-!
# The state of a session

A session works on named slots, each of which holds one reference to an object.  An
argument of a step is an expression, which makes fresh objects when the step takes it
up, or the name of a slot, which stands for the object in it.
-/

namespace SharedPair
namespace Session

/-- An argument as it is written. -/
inductive Argument where
  | fresh (expression : Expression)
  | slot (name : String)
  deriving Repr

/-- An argument that was evaluated or whose slot was looked up. -/
inductive Source where
  | literal (form : Literal)
  | held (ref : Ref)
  deriving Repr

/-- The names of the opaque things that are made for an argument. -/
def Source.names : Source → List String
  | literal form => form.names
  | held _ => []

/-- The slots, the objects and the filter. -/
structure State where
  slots : Table String Ref
  store : Store
  filter : Filter

namespace State

/-- The state before the first step. -/
def initial (filter : Filter) : State := ⟨∅, ∅, filter⟩

/-- The reference in a slot. -/
def slot (s : State) (name : String) : Except Failure Ref :=
  match s.slots.find? name with
  | some ref => .ok ref
  | none => .error (.noSlot name)

/-- Evaluates an argument, or looks its slot up. -/
def source (s : State) : Argument → Evaluation Source
  | .fresh expression => expression.evaluate.map .literal
  | .slot name => ⟨(s.slot name).map .held, []⟩

/-- The arguments of a call, from left to right. -/
def sources (s : State) (arguments : Arguments Argument) : Evaluation (Arguments Source) :=
  arguments.evaluate Source.names s.source

/-- The references that the slots hold, which are the roots of the heap. -/
def roots (s : State) : List Ref := s.slots.values

/-- Gives up references. -/
def discard (s : State) (refs : List Ref) : State × List String :=
  let (store, names) := s.store.release refs
  ({ s with store }, names)

/-- Puts a reference in a slot.  The one that was there is given up when the new one is in place. -/
def hold (s : State) (name : String) (ref : Ref) : State × List String :=
  let placed := { s with slots := s.slots.insert name ref }
  match s.slots.find? name with
  | some old => placed.discard [old]
  | none => (placed, [])

/-- The reference count of an object that has an identity of its own to show. -/
def countOf? (s : State) : Ref → Option Nat
  | .object id =>
    match s.store.contents (.object id) with
    | .atom _ => none
    | _ => some (s.store.count id)
  | _ => none

/-- The reference counts of the objects in the slots. -/
def counts (s : State) : List (String × Nat) :=
  s.slots.entries.filterMap fun (name, ref) => (s.countOf? ref).map (name, ·)

end State

end Session

namespace Store

/-- One reference to the object of an argument, which is made if it is not held already. -/
def take (store : Store) : Session.Source → Ref × Store
  | .literal form => make form store
  | .held ref => (ref, store.acquire ref)

/-- One reference to the object of each argument, from left to right. -/
def takeAll (store : Store) : List Session.Source → List Ref × Store
  | [] => ([], store)
  | source :: rest =>
    let (ref, between) := store.take source
    let (refs, after) := between.takeAll rest
    (ref :: refs, after)

/-- The objects of the arguments of a call, in the places of the arguments.  They are taken in the
order in which the arguments are written. -/
def takeArguments (store : Store) (sources : Arguments Session.Source) : Arguments Ref × Store :=
  let (refs, after) := store.takeAll sources.inOrder
  (sources.replace refs, after)

end Store

end SharedPair
