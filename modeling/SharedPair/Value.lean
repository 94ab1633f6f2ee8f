import SharedPair.Heap

/-!
# Owned values

A value is a tree of lists and pairs over scalars, handles to cells and probes.
Scalars are plain data.  A handle shares the value of a cell; a probe is a thing
that exists once and reports what happens to it.

What a value holds directly, outside cells and from left to right, are its
handles and probes.  That list decides what a release of the value does.
-/

namespace SharedPair

/-- Plain data: copying it leaves no trace. -/
inductive Scalar where
  | unit
  | bool (b : Bool)
  | int (n : Int64)
  | word (n : UInt64)
  /-- A floating-point number, known by its bits. -/
  | real (bits : UInt64)
  | text (s : String)
  deriving DecidableEq, Repr

/-- Whether a handle may be shared across threads. -/
inductive Sharing where
  | acrossThreads
  | withinThread
  deriving DecidableEq, Repr

/-- A family of clones.  Its name is what is printed; families of one name are told apart by their
numbers. -/
structure FamilyId where
  name : String
  number : Nat
  deriving DecidableEq, Repr

/-- One member of a family of clones.  The first has serial zero. -/
structure Probe where
  family : FamilyId
  serial : Nat
  deriving DecidableEq, Repr

/-- An owned value. -/
inductive Value where
  | scalar (s : Scalar)
  | list (items : List Value)
  | pair (first second : Value)
  | handle (sharing : Sharing) (cell : String)
  | probe (p : Probe)
  deriving Repr

namespace Value

instance : Inhabited Value := ⟨.scalar .unit⟩

mutual

/-- The handles and probes that a value holds outside cells, from left to right. -/
def leaves : Value → List (Leaf String Probe)
  | scalar _ => []
  | list items => leavesOfAll items
  | pair first second => leaves first ++ leaves second
  | handle _ cell => [.handle cell]
  | probe p => [.token p]

/-- The leaves of values that stand side by side. -/
def leavesOfAll : List Value → List (Leaf String Probe)
  | [] => []
  | value :: rest => leaves value ++ leavesOfAll rest

end

instance : Holder Value String Probe := ⟨leaves⟩

@[simp] theorem holder_leaves (value : Value) : Holder.leaves value = value.leaves := rfl

end Value

/-- A value as it is first written down: a cell comes with what it holds, a probe with the name of
its new family and the attempts at a clone that the family refuses. -/
inductive Draft where
  | scalar (s : Scalar)
  | list (items : List Draft)
  | pair (first second : Draft)
  | cell (sharing : Sharing) (id : String) (content : Draft)
  | probe (name : String) (refused : List Nat)
  deriving Repr

namespace Draft

mutual

/-- The cells that a draft founds, the outer ones first. -/
def cells : Draft → List String
  | scalar _ => []
  | list items => cellsOfAll items
  | pair first second => cells first ++ cells second
  | cell _ id content => id :: cells content
  | probe _ _ => []

def cellsOfAll : List Draft → List String
  | [] => []
  | draft :: rest => cells draft ++ cellsOfAll rest

end

end Draft

end SharedPair
