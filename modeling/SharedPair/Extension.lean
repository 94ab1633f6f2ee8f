import SharedPair.Call
import SharedPair.Log

/-!
# The extension module

The function is exported by a module.  Loading the module for the first time makes
it and logs that; every later load gives the same module and logs nothing.  The
module and its function have a fixed set of attributes.
-/

namespace SharedPair
namespace Extension

/-- The names that the module exports. -/
def exports : List String := [functionName]

/-- The parameters of the function, as they are documented. -/
def signature : String := "(" ++ ", ".intercalate [Parameter.a.name, Parameter.b.name] ++ ")"

/-! ## Attributes -/

/-- What an attribute holds. -/
inductive Attribute where
  | nothing
  | text (s : String)
  | texts (items : List String)
  | function (name : String)
  | module (name : String)
  | dict (entries : List (String × Attribute))
  /-- An object of which only the name of its kind is told. -/
  | other (kind : String)
  deriving Repr

/-- The objects whose attributes can be asked for. -/
inductive Subject where
  | module
  | function
  deriving DecidableEq, Repr

namespace Subject

/-- The attributes that an object has of its own, in the order in which they were made. -/
def members : Subject → List (String × Attribute)
  | module =>
    [("__name__", .text moduleName), ("__doc__", .text ""), ("__package__", .nothing),
      ("__loader__", .nothing), ("__spec__", .nothing), ("__all__", .texts exports)] ++
      exports.map fun name => (name, .function name)
  | function =>
    [("__name__", .text functionName), ("__qualname__", .text functionName),
      ("__doc__", .nothing), ("__text_signature__", .text signature),
      ("__module__", .text moduleName), ("__self__", .module moduleName)]

/-- The names of the operators that every object has. -/
def operators : List String :=
  ["__delattr__", "__eq__", "__ge__", "__getattribute__", "__gt__", "__hash__", "__init__",
    "__le__", "__lt__", "__ne__", "__repr__", "__setattr__", "__str__"]

/-- The names of the methods that every object has. -/
def methods : List String :=
  ["__dir__", "__format__", "__getstate__", "__init_subclass__", "__new__", "__reduce__",
    "__reduce_ex__", "__sizeof__", "__subclasshook__"]

/-- The attributes that an object has by its kind. -/
def inherited (subject : Subject) : List (String × Attribute) :=
  let common := ("__class__", .other "type") ::
    operators.map (fun name => (name, .other "method-wrapper")) ++
      methods.map fun name => (name, .other "builtin_function_or_method")
  match subject with
  | module => ("__dict__", .dict module.members) :: ("__annotations__", .dict []) :: common
  | function => ("__call__", .other "method-wrapper") :: common

/-- All attributes of an object. -/
def attributes (subject : Subject) : List (String × Attribute) :=
  subject.members ++ subject.inherited

/-- The attribute of a name. -/
def attribute? (subject : Subject) (name : String) : Option Attribute :=
  (subject.attributes.find? fun entry => entry.1 == name).map Prod.snd

/-- What is said of an attribute that is not there. -/
def missingMessage (subject : Subject) (name : String) : String :=
  let owner := match subject with
    | module => "module '" ++ moduleName ++ "'"
    | function => "'builtin_function_or_method' object"
  owner ++ " has no attribute '" ++ name ++ "'"

end Subject

/-- The names of the module that are not internal. -/
def publicNames : List String :=
  (Subject.module.members.map Prod.fst).filter fun name => !name.startsWith "_"

/-! ## Loading -/

/-- The record of a module that was made. -/
def loadRecord : Record where
  level := .debug
  target := moduleName
  message := "event=module_init module=" ++ moduleName ++ " status=ok"

/-- The modules made so far, by number, and the one that further loads give. -/
structure Loader where
  loaded : Option Nat
  next : Nat
  deriving DecidableEq, Repr

namespace Loader

/-- Before the first load. -/
def initial : Loader := ⟨none, 0⟩

/-- One load: the module, and the records kept. -/
def load (filter : Filter) (loader : Loader) : Nat × Loader × List Record :=
  match loader.loaded with
  | some made => (made, loader, [])
  | none => (loader.next, ⟨some loader.next, loader.next + 1⟩, filter.log loadRecord)

/-- Several loads, one after the other. -/
def loadMany (filter : Filter) (loader : Loader) : Nat → List Nat × Loader × List Record
  | 0 => ([], loader, [])
  | times + 1 =>
    let (made, between, first) := loader.load filter
    let (rest, after, later) := between.loadMany filter times
    (made :: rest, after, first ++ later)

end Loader

/-- What loading the module once and then several times more comes to. -/
structure LoadReport where
  firstLog : List Record
  laterLog : List Record
  /-- For each later load, whether it gave the module of the first. -/
  same : List Bool
  deriving DecidableEq, Repr

/-- Loads the module with every record kept, and then more times. -/
def loadReport (times : Nat) : LoadReport :=
  let (made, loader, firstLog) := Loader.initial.load .all
  let (later, _, laterLog) := loader.loadMany .all times
  ⟨firstLog, laterLog, later.map fun module => decide (module = made)⟩

end Extension
end SharedPair
