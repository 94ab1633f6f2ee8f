import SharedPair.Object.Failure

/-!
# Items of objects

Reading an item, assigning one, appending one and counting them.  What an object
allows depends on its kind; tuples can be read and counted and never change.
-/

namespace SharedPair

/-- Whether a number can be a length or an index of a container in memory. -/
def fitsMemory (n : Int) : Bool := decide (-Int.pow 2 63 ≤ n ∧ n < Int.pow 2 63)

namespace Index

/-- The number that an index is.  Only a range takes numbers of any size. -/
def number (index : Index) (place : Place) : Except Failure Int :=
  match index.number? with
  | none => .error (.notNumber place index.kind)
  | some n => if place = .range ∨ fitsMemory n then .ok n else .error .indexTooLarge

/-- The label that an index is, if it can be a key. -/
def asLabel (index : Index) : Except Failure Label :=
  match index with
  | label l => .ok l
  | _ => .error (.unhashable index.kind)

/-- Whether an index is a number that no container could hold an item at. -/
def isTooLarge (index : Index) : Bool := index.number?.any fun n => !fitsMemory n

end Index

namespace Node

/-! ## Reading -/

/-- An item that was read: an object that the container refers to, or an atom that is made for the
reader. -/
inductive Item where
  | ref (ref : Ref)
  | atom (a : Atom)
  deriving DecidableEq, Repr

/-- The byte as a number. -/
def byteAtom (b : UInt8) : Atom := .int b.toNat

/-- The position that a number means, if there is an item at it. -/
def locate (place : Place) (size : Nat) (n : Int) : Except Failure Nat :=
  match position? size n with
  | some found => .ok found
  | none => .error (.outOfRange place)

/-- Reads from a list of things by index. -/
def pick {α : Type} (place : Place) (items : List α) (index : Index) (read : α → Item) :
    Except Failure Item := do
  let n ← index.number place
  let found ← locate place items.length n
  match items[found]? with
  | some value => return read value
  | none => .error (.outOfRange place)

/-- Reads an item. -/
def item (node : Node) (index : Index) : Except Failure Item :=
  match node with
  | tuple items => pick .tuple items index .ref
  | list items => pick .list items index .ref
  | buffer bs => pick .buffer bs index fun b => .atom (byteAtom b)
  | atom (.bytes bs) => pick .bytes bs index fun b => .atom (byteAtom b)
  | atom (.text t) => pick .text t.points index fun point => .atom (.text ⟨[point]⟩)
  | atom (.range start stop step) => do
    let n ← index.number .range
    let found ← locate .range (rangeLength start stop step) n
    return .atom (.int (start + found * step))
  | dict entries => do
    let label ← index.asLabel
    match entries.find? fun entry => entry.1.same label.toKey with
    | some entry => return .ref entry.2
    | none => .error (.noKey label)
  | _ => .error (.notSubscriptable (Kind.ofNode node))

/-- The number of items. -/
def length (node : Node) : Except Failure Nat :=
  match node with
  | tuple items => .ok items.length
  | list items => .ok items.length
  | set members => .ok members.length
  | dict entries => .ok entries.length
  | buffer bs => .ok bs.length
  | atom (.bytes bs) => .ok bs.length
  | atom (.text t) => .ok t.points.length
  | atom (.range start stop step) =>
    let length := rangeLength start stop step
    if fitsMemory length then .ok length else .error .lengthTooLarge
  | named name => .error (.inspected name)
  | _ => .error (.noLength (Kind.ofNode node))

/-! ## Changing -/

/-- What a change makes of an object, and the references that are left over. -/
structure Change where
  node : Node
  leftover : List Ref

/-- The byte that an object is. -/
def byte : Node → Except Failure UInt8
  | atom (.int n) => if 0 ≤ n ∧ n < 256 then .ok (UInt8.ofNat n.toNat) else .error .byteOutOfRange
  | atom (.bool b) => .ok (if b then 1 else 0)
  | node => .error (.notByte (Kind.ofNode node))

/-- Why an object takes no item. -/
def refusal (node : Node) (index : Index) : Failure :=
  if (Kind.ofNode node).measuresIndex && index.isTooLarge then .indexTooLarge
  else .noAssignment (Kind.ofNode node)

/-- Assigns an item.  The container takes the reference over; a container of bytes takes the number
and leaves the reference. -/
def assign (node : Node) (index : Index) (value : Ref) (content : Node) :
    Except Failure Change :=
  match node with
  | list items => do
    let n ← index.number .listAssignment
    let place ← locate .listAssignment items.length n
    return ⟨list (items.set place value), items[place]?.toList⟩
  | buffer bs => do
    let n ← index.number .buffer
    let b ← content.byte
    let place ← locate .buffer bs.length n
    return ⟨buffer (bs.set place b), [value]⟩
  | dict entries => do
    let label ← index.asLabel
    let (entries, replaced) := Key.file label.toKey value entries
    return ⟨dict entries, replaced.toList⟩
  | _ => .error (node.refusal index)

/-- Whether an object takes items at its end. -/
def isGrowable : Node → Bool
  | list _ => true
  | buffer _ => true
  | _ => false

/-- Appends an item. -/
def append (node : Node) (value : Ref) (content : Node) : Except Failure Change :=
  match node with
  | list items => .ok ⟨list (items ++ [value]), []⟩
  | buffer bs => do
    let b ← content.byte
    return ⟨buffer (bs ++ [b]), [value]⟩
  | _ => .error (.noAppend (Kind.ofNode node))

end Node

end SharedPair
