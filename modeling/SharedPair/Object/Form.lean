import SharedPair.Object.Key

/-!
# Written forms of objects

An object is written as a form: atoms, opaque things known by a name, and
containers of forms.  A form says what an object looks like and nothing about
which parts of it are one and the same object, except that a part may refer back
to a container around it.

A form that is written to make an object has no such back reference; a form that
shows an object counts the containers on the way to the one it means, the
outermost being zero.
-/

namespace SharedPair

/-- A written form, with back references of type `ρ`. -/
inductive Form (ρ : Type) where
  | atom (a : Atom)
  /-- An opaque thing of which only the name is known. -/
  | named (name : String)
  /-- Bytes that can be changed. -/
  | buffer (bs : List UInt8)
  | set (members : List Key)
  | list (items : List (Form ρ))
  | tuple (items : List (Form ρ))
  | dict (entries : List (Key × Form ρ))
  | back (container : ρ)
  deriving Repr

namespace Form

variable {ρ : Type}

mutual

/-- The names of the opaque things in a form. -/
def names : Form ρ → List String
  | atom _ => []
  | named name => [name]
  | buffer _ => []
  | set _ => []
  | list items => namesOfAll items
  | tuple items => namesOfAll items
  | dict entries => namesOfEntries entries
  | back _ => []

def namesOfAll : List (Form ρ) → List String
  | [] => []
  | form :: rest => names form ++ namesOfAll rest

def namesOfEntries : List (Key × Form ρ) → List String
  | [] => []
  | (_, form) :: rest => names form ++ namesOfEntries rest

end

end Form

/-- A form that describes an object to be made. -/
abbrev Literal := Form Empty

/-- A form that shows an object, with the depth of the container that a part refers back to. -/
abbrev Shown := Form Nat

end SharedPair
