import SharedPair.Binary64.Decimal
import SharedPair.Object.Kind
import SharedPair.Text.Quoted

/-!
# Indices

An index asks a container for an item.  Containers in order take it as a number,
and below zero it counts from the end; a dictionary takes it as a key and finds it
under every key that counts as equal.  Only a label can be a key: a list or a
dictionary is an index too, but nothing is ever found at it.
-/

namespace SharedPair

/-- An index that can be a key. -/
inductive Label where
  | nothing
  | bool (b : Bool)
  | int (n : Int)
  | real (x : Binary64)
  | text (t : Text)
  deriving DecidableEq, Repr

namespace Label

/-- The label as an object. -/
def toAtom : Label → Atom
  | nothing => .nothing
  | bool b => .bool b
  | int n => .int n
  | real x => .real x
  | text t => .text t

/-- The label as a key.  All labels that are not a number are one object. -/
def toKey : Label → Key
  | real .nan => .notANumber
  | label => .atom label.toAtom

/-- The whole number that a label is; true counts as one and false as zero. -/
def number? : Label → Option Int
  | int n => some n
  | bool b => some (if b then 1 else 0)
  | _ => none

/-- The label as it is quoted when nothing is found under it. -/
def quote : Label → String
  | nothing => "None"
  | bool b => if b then "True" else "False"
  | int n => toString n
  | real x => x.decimalText
  | text t => t.quote

end Label

/-- What an item is asked for by. -/
inductive Index where
  | label (label : Label)
  /-- A list, whatever is in it. -/
  | list
  /-- A dictionary, whatever is in it. -/
  | dict
  deriving DecidableEq, Repr

namespace Index

/-- The kind of the index. -/
def kind : Index → Kind
  | label l => Kind.ofAtom l.toAtom
  | list => .list
  | dict => .dict

/-- The whole number that an index is. -/
def number? : Index → Option Int
  | label l => l.number?
  | _ => none

end Index

/-- The position that a number means among some items. -/
def position? (size : Nat) (n : Int) : Option Nat :=
  let place := if n < 0 then n + size else n
  if 0 ≤ place ∧ place < size then some place.toNat else none

end SharedPair
