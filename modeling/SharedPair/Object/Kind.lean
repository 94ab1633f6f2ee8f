import SharedPair.Object.Store

/-!
# Kinds of objects

The kind of an object decides what it allows, and its name stands in the texts that
say what an object does not allow.
-/

namespace SharedPair

/-- The kinds of objects. -/
inductive Kind where
  | nothing | bool | int | real | text | bytes | complex | range
  | ellipsis | notImplemented
  /-- A kind, as an object itself. -/
  | kind (name : String)
  | buffer | set | list | tuple | dict
  | named
  deriving DecidableEq, Repr

namespace Kind

/-- The name of a kind. -/
def name : Kind → String
  | nothing => "NoneType"
  | bool => "bool"
  | int => "int"
  | real => "float"
  | text => "str"
  | bytes => "bytes"
  | complex => "complex"
  | range => "range"
  | ellipsis => "ellipsis"
  | notImplemented => "NotImplementedType"
  | kind _ => "type"
  | buffer => "bytearray"
  | set => "set"
  | list => "list"
  | tuple => "tuple"
  | dict => "dict"
  | named => "Obj"

def ofBuiltin : Builtin → Kind
  | .ellipsis => ellipsis
  | .notImplemented => notImplemented
  | .intType => kind "int"
  | .typeErrorType => kind "TypeError"

def ofAtom : Atom → Kind
  | .nothing => nothing
  | .bool _ => bool
  | .int _ => int
  | .real _ => real
  | .text _ => text
  | .bytes _ => bytes
  | .complex _ _ => complex
  | .range _ _ _ => range
  | .builtin b => ofBuiltin b

/-- The kind of an object. -/
def ofNode : Node → Kind
  | .atom a => ofAtom a
  | .named _ => named
  | .buffer _ => buffer
  | .set _ => set
  | .list _ => list
  | .tuple _ => tuple
  | .dict _ => dict

/-- Whether objects of a kind that refuse an item have looked at the size of the index first. -/
def measuresIndex : Kind → Bool
  | text | bytes | range | set | tuple | named => true
  | _ => false

end Kind

end SharedPair
