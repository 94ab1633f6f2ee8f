import SharedPair.Heap
import SharedPair.Object.Form
import SharedPair.Pack

/-!
# The store of objects

Objects live in a counted heap under numbers that are handed out in order and never
used twice.  A reference is such a number, or it names an object that is always
there: a shared atom, or the empty tuple.

Making an object leaves one reference to it with the maker.  Items of lists and
tuples and values of dictionaries hold one reference each.
-/

namespace SharedPair

/-- A reference to an object. -/
inductive Ref where
  /-- An atom of which there is one object only. -/
  | constant (a : Atom)
  /-- The one tuple without items. -/
  | emptyTuple
  | object (id : Nat)
  deriving DecidableEq, Repr

/-- What an object holds. -/
inductive Node where
  | atom (a : Atom)
  | named (name : String)
  | buffer (bs : List UInt8)
  | set (members : List Key)
  | list (items : List Ref)
  | tuple (items : List Ref)
  | dict (entries : List (Key × Ref))
  deriving Repr

/-- The handle that a reference is, if its object is counted. -/
def Ref.leaves : Ref → List (Leaf Nat String)
  | object id => [.handle id]
  | _ => []

/-- What an object holds directly. -/
def Node.leaves : Node → List (Leaf Nat String)
  | atom _ => []
  | named name => [.token name]
  | buffer _ => []
  | set _ => []
  | list items => items.flatMap Ref.leaves
  | tuple items => items.flatMap Ref.leaves
  | dict entries => entries.flatMap fun (_, value) => value.leaves

instance : Holder Node Nat String := ⟨Node.leaves⟩

@[simp] theorem Node.holder_leaves (node : Node) : Holder.leaves node = node.leaves := rfl

/-- The living objects, and the number that the next one gets. -/
structure Store where
  cells : Heap Nat Node
  next : Nat

namespace Store

/-- The store without objects. -/
def empty : Store := ⟨∅, 0⟩

instance : EmptyCollection Store := ⟨empty⟩

/-- What is in the object of a reference. -/
def contents (store : Store) : Ref → Node
  | .constant a => .atom a
  | .emptyTuple => .tuple []
  | .object id => (Heap.value? store.cells id).getD (.atom .nothing)

/-- How many references there are to the object of a number. -/
def count (store : Store) (id : Nat) : Nat := Heap.count store.cells id

/-- Makes an object. -/
def allocate (store : Store) (node : Node) : Ref × Store :=
  (.object store.next, ⟨Heap.allocate store.cells store.next node, store.next + 1⟩)

/-- One more reference to an object. -/
def acquire (store : Store) : Ref → Store
  | .object id => { store with cells := Heap.acquire store.cells id }
  | _ => store

/-- Changes what is in an object. -/
def write (store : Store) (ref : Ref) (node : Node) : Store :=
  match ref with
  | .object id => { store with cells := Heap.write store.cells id node }
  | _ => store

/-- The name of an opaque thing that ended. -/
def endedName? : Ending Nat String → Option String
  | .ended name => some name
  | .freed _ => none

/-- Gives up references, and names the opaque things that end with them. -/
def release (store : Store) (refs : List Ref) : Store × List String :=
  let (cells, endings) := Heap.release store.cells (refs.flatMap Ref.leaves)
  ({ store with cells }, endings.filterMap endedName?)

/-- The object of an atom, made only if there is not one for all. -/
def atom (store : Store) (a : Atom) : Ref × Store :=
  if a.isShared then (.constant a, store) else store.allocate (.atom a)

/-- The tuple of given items, which it takes over. -/
def tuple (store : Store) : List Ref → Ref × Store
  | [] => (.emptyTuple, store)
  | items => store.allocate (.tuple items)

end Store

/-! ## Packing objects -/

/-- A computation on a store, with the records that are written in it. -/
def Handling (α : Type) : Type := Store → (α × Store) × List Record

namespace Handling

variable {α β : Type}

/-- Goes on with what the first part made. -/
def bind (first : Handling α) (next : α → Handling β) : Handling β := fun store =>
  let ((made, between), records) := first store
  let (after, further) := next made between
  (after, records ++ further)

instance : Monad Handling where
  pure made := fun store => ((made, store), [])
  bind := bind

/-- One more reference to an object. -/
def share (ref : Ref) : Handling Ref := fun store => ((ref, store.acquire ref), [])

/-- Two copies, the first and then the second. -/
def both (first second : Handling Ref) : Handling (Ref × Ref) := do
  let x ← first
  let y ← second
  return (x, y)

/-- Writes a record. -/
def log (filter : Filter) (record : Record) : Handling Unit := fun store =>
  (((), store), filter.log record)

instance : Logging Handling := ⟨log⟩

instance : Cloneable Ref Handling := ⟨share, both⟩

end Handling

namespace Store

/-- Packs two objects and makes the tuple of the copies, with the records written for it. -/
def pack (store : Store) (filter : Filter) (first second : Ref) : (Ref × Store) × List Record :=
  let (((x, y), copied), records) := packPair filter first second store
  (copied.tuple [x, y], records)

/-- A pair is a new tuple that holds one more reference to each of the objects. -/
theorem pack_eq (store : Store) (filter : Filter) (first second : Ref) :
    store.pack filter first second =
      (((store.acquire first).acquire second).tuple [first, second], filter.log packRecord) :=
  congrArg (Prod.mk _) (List.append_nil _)

/-! ## Making objects -/

mutual

/-- Makes the object of a form, its parts from left to right before itself. -/
def make : Literal → Store → Ref × Store
  | .atom a, store => store.atom a
  | .named name, store => store.allocate (.named name)
  | .buffer bs, store => store.allocate (.buffer bs)
  | .set members, store => store.allocate (.set members)
  | .list items, store =>
    let (refs, between) := makeAll items store
    between.allocate (.list refs)
  | .tuple items, store =>
    let (refs, between) := makeAll items store
    between.tuple refs
  | .dict entries, store =>
    let (refs, between) := makeEntries entries store
    between.allocate (.dict refs)
  | .back container, _ => nomatch container

def makeAll : List Literal → Store → List Ref × Store
  | [], store => ([], store)
  | form :: rest, store =>
    let (ref, between) := make form store
    let (refs, after) := makeAll rest between
    (ref :: refs, after)

def makeEntries : List (Key × Literal) → Store → List (Key × Ref) × Store
  | [], store => ([], store)
  | (key, form) :: rest, store =>
    let (ref, between) := make form store
    let (refs, after) := makeEntries rest between
    ((key, ref) :: refs, after)

end

/-! ## Showing objects -/

/-- How many living objects are not on a path. -/
def unvisited (store : Store) (path : List Nat) : Nat :=
  store.cells.keys.countP fun id => decide (id ∉ path)

/-- A longer path leaves fewer objects unvisited. -/
theorem unvisited_append_lt {store : Store} {path : List Nat} {id : Nat}
    (alive : id ∈ store.cells.keys) (fresh : id ∉ path) :
    store.unvisited (path ++ [id]) < store.unvisited path := by
  unfold unvisited
  revert alive
  generalize store.cells.keys = keys
  intro alive
  induction keys with
  | nil => cases alive
  | cons k rest ih =>
    rw [List.countP_cons, List.countP_cons]
    have mono : rest.countP (fun x => decide (x ∉ path ++ [id])) ≤
        rest.countP fun x => decide (x ∉ path) :=
      List.countP_mono_left fun x _ h => by
        simp only [decide_eq_true_eq, List.mem_append, not_or] at h ⊢
        exact h.1
    by_cases h : k = id
    · subst h
      simp [fresh] at mono ⊢
      omega
    · have := ih (by simpa [Ne.symm h] using alive)
      simp only [List.mem_append, List.mem_singleton, h, or_false] at this ⊢
      omega

/-- The form of a node, when the forms of what it refers to are known. -/
def nodeForm (shown : Ref → Shown) : Node → Shown
  | .atom a => .atom a
  | .named name => .named name
  | .buffer bs => .buffer bs
  | .set members => .set members
  | .list items => .list (items.map shown)
  | .tuple items => .tuple (items.map shown)
  | .dict entries => .dict (entries.map fun (key, value) => (key, shown value))

/-- The form of an object below the containers on a path, the outermost first. -/
def formBelow (store : Store) (path : List Nat) (ref : Ref) : Shown :=
  match ref with
  | .constant a => .atom a
  | .emptyTuple => .tuple []
  | .object id =>
    if fresh : id ∈ path then .back (path.idxOf id)
    else
      match found : store.cells.find? id with
      | none => .atom .nothing
      | some cell =>
        have := unvisited_append_lt (Table.mem_keys_of_find? found) fresh
        nodeForm (fun part => formBelow store (path ++ [id]) part) cell.value
termination_by store.unvisited path

/-- A container that is on the path already is shown as a reference back to it. -/
theorem formBelow_of_mem {store : Store} {path : List Nat} {id : Nat} (h : id ∈ path) :
    store.formBelow path (.object id) = .back (path.idxOf id) := by
  rw [formBelow, dif_pos h]

/-- Any other object is shown with its parts one level further in. -/
theorem formBelow_of_not_mem {store : Store} {path : List Nat} {id : Nat} {cell : Cell Node}
    (h : id ∉ path) (alive : store.cells.find? id = some cell) :
    store.formBelow path (.object id) =
      nodeForm (store.formBelow (path ++ [id])) cell.value := by
  rw [formBelow, dif_neg h]
  split
  · next missing => simp [missing] at alive
  · next cell' found =>
    obtain rfl : cell' = cell := by simpa [found] using alive
    rfl

/-- The form of an object. -/
def form (store : Store) (ref : Ref) : Shown := store.formBelow [] ref

end Store

end SharedPair
