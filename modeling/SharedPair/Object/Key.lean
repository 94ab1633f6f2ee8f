import SharedPair.Object.Atom

/-!
# Keys

Members of sets and keys of dictionaries.  They never change, and of equal ones a set
or a dictionary keeps the first only.  An opaque thing lets nobody look into it, so it
can neither be a key nor stand in one.
-/

namespace SharedPair

/-- A member of a set or a key of a dictionary. -/
inductive Key where
  | atom (a : Atom)
  /-- The not-a-number that all indices share.  It is equal to itself, because it is one object. -/
  | notANumber
  | tuple (items : List Key)
  deriving Repr

namespace Key

mutual

/-- Whether two keys that are written apart count as equal. -/
def same : Key → Key → Bool
  | atom a, atom b => a.same b
  | notANumber, notANumber => true
  | tuple items, tuple items' => sameAll items items'
  | _, _ => false

def sameAll : List Key → List Key → Bool
  | [], [] => true
  | key :: rest, key' :: rest' => same key key' && sameAll rest rest'
  | _, _ => false

end

/-- The keys without those that are equal to an earlier one. -/
def distinct (keys : List Key) : List Key :=
  keys.foldl (fun kept key => if kept.any (·.same key) then kept else kept ++ [key]) []

variable {α : Type}

/-- Files a value under a key.  An equal key that is there already stays where it is and gets the
value; otherwise the key comes to the end.  With the entries comes the value that was replaced. -/
def file (key : Key) (value : α) : List (Key × α) → List (Key × α) × Option α
  | [] => ([(key, value)], none)
  | (present, old) :: rest =>
    if present.same key then ((present, value) :: rest, some old)
    else
      let (entries, replaced) := file key value rest
      ((present, old) :: entries, replaced)

/-- Files values one after the other.  With the entries come the values that were replaced. -/
def fileAll (entries : List (Key × α)) : List (Key × α) × List α :=
  entries.foldl
    (fun (filed, replaced) (key, value) =>
      let (filed, old) := file key value filed
      (filed, replaced ++ old.toList))
    ([], [])

end Key

end SharedPair
