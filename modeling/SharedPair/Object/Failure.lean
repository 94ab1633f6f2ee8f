import SharedPair.Call
import SharedPair.Object.Index

/-!
# Failures of steps on objects

Each failure is a cause; its text is made in one place.
-/

namespace SharedPair

/-- What is indexed where an index can be wrong. -/
inductive Place where
  | tuple | list | listAssignment | text | bytes | buffer | range
  deriving DecidableEq, Repr

namespace Place

/-- The place in the text of an index out of range. -/
def name : Place → String
  | tuple => "tuple index"
  | list => "list index"
  | listAssignment => "list assignment index"
  | text => "string index"
  | bytes => "index"
  | buffer => "bytearray index"
  | range => "range object index"

/-- The rule in the text of an index that is no number. -/
def rule : Place → String
  | tuple => "tuple indices must be integers or slices"
  | list => "list indices must be integers or slices"
  | listAssignment => "list indices must be integers or slices"
  | text => "string indices must be integers"
  | bytes => "byte indices must be integers or slices"
  | buffer => "bytearray indices must be integers or slices"
  | range => "range indices must be integers or slices"

end Place

/-- Why a step on objects failed. -/
inductive Failure where
  /-- The call has no binding. -/
  | rejected (error : CallError)
  | outOfRange (place : Place)
  /-- The index is no number. -/
  | notNumber (place : Place) (kind : Kind)
  /-- The index is beyond what any container could hold. -/
  | indexTooLarge
  | noKey (label : Label)
  /-- A set member or a key is of a kind that can change. -/
  | unhashable (kind : Kind)
  /-- A range is to go on by nothing. -/
  | zeroStep
  | notSubscriptable (kind : Kind)
  | noAssignment (kind : Kind)
  | noAppend (kind : Kind)
  | noLength (kind : Kind)
  /-- There are more items than a length can count. -/
  | lengthTooLarge
  | notByte (kind : Kind)
  | byteOutOfRange
  /-- An opaque thing was looked into. -/
  | inspected (name : String)
  /-- There is no slot of this name. -/
  | noSlot (name : String)
  deriving DecidableEq, Repr

/-- The classes of what is raised. -/
inductive ErrorClass where
  | typeError
  | indexError
  | keyError
  | valueError
  | attributeError
  | overflowError
  | runtimeError
  deriving DecidableEq, Repr

def ErrorClass.name : ErrorClass → String
  | typeError => "TypeError"
  | indexError => "IndexError"
  | keyError => "KeyError"
  | valueError => "ValueError"
  | attributeError => "AttributeError"
  | overflowError => "OverflowError"
  | runtimeError => "RuntimeError"

/-- The class that a failure is raised as. -/
def Failure.raisedAs : Failure → ErrorClass
  | rejected _ | notNumber _ _ | unhashable _ => .typeError
  | notSubscriptable _ | noAssignment _ | noLength _ | notByte _ => .typeError
  | outOfRange _ | indexTooLarge => .indexError
  | noKey _ | noSlot _ => .keyError
  | inspected _ => .runtimeError
  | lengthTooLarge => .overflowError
  | noAppend _ => .attributeError
  | byteOutOfRange | zeroStep => .valueError

/-- The text of a failure. -/
def Failure.message : Failure → String
  | rejected error => error.message
  | outOfRange place => place.name ++ " out of range"
  | notNumber .text kind => Place.text.rule ++ ", not '" ++ kind.name ++ "'"
  | notNumber place kind => place.rule ++ ", not " ++ kind.name
  | indexTooLarge => "cannot fit 'int' into an index-sized integer"
  | noKey label => label.quote
  | unhashable kind => "unhashable type: '" ++ kind.name ++ "'"
  | zeroStep => "range() arg 3 must not be zero"
  | notSubscriptable (.kind name) => "type '" ++ name ++ "' is not subscriptable"
  | notSubscriptable kind => "'" ++ kind.name ++ "' object is not subscriptable"
  | noAssignment kind => "'" ++ kind.name ++ "' object does not support item assignment"
  | noAppend (.kind name) => "type object '" ++ name ++ "' has no attribute 'append'"
  | noAppend kind => "'" ++ kind.name ++ "' object has no attribute 'append'"
  | noLength kind => "object of type '" ++ kind.name ++ "' has no len()"
  | lengthTooLarge => "Python int too large to convert to C ssize_t"
  | notByte kind => "'" ++ kind.name ++ "' object cannot be interpreted as an integer"
  | byteOutOfRange => "byte must be in range(0, 256)"
  | inspected name => "inspected " ++ name
  | noSlot name => (Text.ofString name).quote

end SharedPair
