import SharedPair.Memory
import SharedPair.Pack

/-!
# Copying values

A copy is deep, except that a copied handle shares the cell of the one it was
copied from.  Parts are copied from left to right.  A probe may refuse: then the
copy as a whole fails, and the parts that were finished are given up.

The order in which they are given up follows the nesting of the refused part: the
finished items beside it first, then those of the list or pair around it, and so
on outwards.  A copy in progress only collects that order; nothing is released
before `Copying.run` has seen the refusal.
-/

namespace SharedPair

/-- An attempt at a clone that a family refused. -/
structure Refusal where
  family : FamilyId
  attempt : Nat
  deriving DecidableEq, Repr

/-- The text of a refusal. -/
def Refusal.message (r : Refusal) : String :=
  "clone " ++ r.family.name ++ "#" ++ toString r.attempt ++ " refused"

/-- A copy that was refused midway, with what it had finished. -/
structure Abort where
  refusal : Refusal
  /-- Finished parts of the lists and pairs that the refusal has left already, in the order in
  which they are given up. -/
  inner : List (Leaf String Probe)
  /-- Finished parts to the left of the refused one, in the list or pair that it stands in. -/
  beside : List (Leaf String Probe)
  deriving DecidableEq, Repr

/-- Everything that an aborted copy holds, in the order in which it is given up. -/
def Abort.finished (a : Abort) : List (Leaf String Probe) := a.inner ++ a.beside

/-- Where a copy stands after a part of it. -/
structure Progress (α : Type) where
  result : Except Abort α
  memory : Memory
  events : List Event

/-- A copy in progress, as what it does to the memory. -/
def Copying (α : Type) : Type := Memory → Progress α

namespace Copying

variable {α β : Type}

/-- Goes on with what the first part made; a refusal ends the copy. -/
def bind (first : Copying α) (next : α → Copying β) : Copying β := fun memory =>
  match first memory with
  | ⟨.ok made, between, events⟩ =>
    let rest := next made between
    ⟨rest.result, rest.memory, events ++ rest.events⟩
  | ⟨.error abort, after, events⟩ => ⟨.error abort, after, events⟩

instance : Monad Copying where
  pure made := fun memory => ⟨.ok made, memory, []⟩
  bind := bind

/-- Changes what is known of a refusal. -/
def mapAbort (f : Abort → Abort) (part : Copying α) : Copying α := fun memory =>
  match part memory with
  | ⟨.ok made, after, events⟩ => ⟨.ok made, after, events⟩
  | ⟨.error abort, after, events⟩ => ⟨.error (f abort), after, events⟩

/-- Copies a part while a finished one stands to its left. -/
def holding (left : Value) : Copying α → Copying α :=
  mapAbort fun abort => { abort with beside := left.leaves ++ abort.beside }

/-- Ends a list or a pair: a refusal inside leaves it. -/
def enclosed : Copying α → Copying α :=
  mapAbort fun abort => ⟨abort.refusal, abort.finished, []⟩

/-- Two copies, the first and then the second. -/
def both (first second : Copying Value) : Copying (Value × Value) :=
  enclosed do
    let x ← first
    let y ← holding x second
    return (x, y)

/-- Puts a record into the events. -/
def log (filter : Filter) (record : Record) : Copying Unit := fun memory =>
  ⟨.ok (), memory, (filter.log record).map .logged⟩

/-- What a copy came to, when a refusal has given up all that was finished. -/
structure Outcome (α : Type) where
  result : Except Refusal α
  memory : Memory
  events : List Event

/-- Runs a copy to its end. -/
def run (copy : Copying α) (memory : Memory) : Outcome α :=
  match copy memory with
  | ⟨.ok made, after, events⟩ => ⟨.ok made, after, events⟩
  | ⟨.error abort, after, events⟩ =>
    let (restored, endings) := after.release abort.finished
    ⟨.error abort.refusal, restored, events ++ endings⟩

end Copying

namespace Probe

/-- One attempt at a clone in the family of a probe.  The clone's serial is the attempt's number. -/
def clone (p : Probe) : Copying Value := fun memory =>
  let family := memory.family p.family
  let attempt := family.attempts + 1
  let after := memory.setFamily p.family ⟨family.refused, attempt⟩
  if attempt ∈ family.refused then
    ⟨.error ⟨⟨p.family, attempt⟩, [], []⟩, after, []⟩
  else
    ⟨.ok (.probe ⟨p.family, attempt⟩), after, [.cloned p attempt]⟩

end Probe

namespace Value

/-- One more handle to the cell of a handle. -/
def share (sharing : Sharing) (cell : String) : Copying Value := fun memory =>
  ⟨.ok (.handle sharing cell), memory.acquire cell, []⟩

mutual

/-- Copies a value. -/
def clone : Value → Copying Value
  | scalar s => pure (scalar s)
  | list items => do
    let copies ← Copying.enclosed (cloneAll items)
    return list copies
  | pair first second => do
    let (x, y) ← Copying.both (clone first) (clone second)
    return pair x y
  | handle sharing cell => share sharing cell
  | probe p => p.clone

/-- Copies items from left to right. -/
def cloneAll : List Value → Copying (List Value)
  | [] => pure []
  | value :: rest => do
    let copy ← clone value
    let copies ← Copying.holding copy (cloneAll rest)
    return copy :: copies

end

end Value

instance : Logging Copying := ⟨Copying.log⟩

instance : Cloneable Value Copying := ⟨Value.clone, Copying.both⟩

end SharedPair
