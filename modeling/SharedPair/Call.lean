import SharedPair.Text

/-!
# Calls and their argument binding

The function of this library has two parameters, `a` and `b`.  A call gives
arguments by position and by keyword; binding decides which argument belongs to
which parameter, or why the call has no binding.  It never looks at an argument.

Faults are met in one order.  Too many positional arguments come first; then the
keywords are taken in the order of the call; what is still missing comes last.
-/

namespace SharedPair

/-- The parameters, in order. -/
inductive Parameter where
  | a | b
  deriving DecidableEq, Repr

namespace Parameter

def name : Parameter → String
  | a => "a"
  | b => "b"

/-- The parameter of a name. -/
def ofName? (content : Text) : Option Parameter :=
  if content = Text.ofString a.name then some a
  else if content = Text.ofString b.name then some b
  else none

end Parameter

/-- The name of a keyword: its content, which decides what it binds, and the text that it prints as,
if it can be printed. -/
structure Keyword where
  content : Text
  shown : Option Text
  deriving DecidableEq, Repr

/-- A name that prints as what it is. -/
def Keyword.plain (content : Text) : Keyword := ⟨content, some content⟩

/-- The printed form of a name. -/
def Keyword.print (k : Keyword) : String :=
  match k.shown with
  | some text => text.print
  | none => "<unprintable Name object>"

/-- The arguments of a call. -/
structure Arguments (α : Type) where
  positional : List α
  keywords : List (Keyword × α)
  deriving DecidableEq, Repr

/-- Why a call has no binding. -/
inductive CallError where
  | tooMany (given : Nat)
  | repeated (parameter : Parameter)
  | unexpected (keyword : Keyword)
  | missing (parameter : Parameter)
  | missingBoth
  deriving DecidableEq, Repr

/-- The name that the function is called by. -/
def functionName : String := "function_with_cpp_args"

namespace CallError

/-- What is wrong, without the name of the function. -/
def detail : CallError → String
  | tooMany given => "takes 2 positional arguments but " ++ toString given ++ " were given"
  | repeated parameter => "got multiple values for argument '" ++ parameter.name ++ "'"
  | unexpected keyword => "got an unexpected keyword argument '" ++ keyword.print ++ "'"
  | missing parameter => "missing 1 required positional argument: '" ++ parameter.name ++ "'"
  | missingBoth =>
    "missing 2 required positional arguments: '" ++ Parameter.a.name ++ "' and '" ++
      Parameter.b.name ++ "'"

def message (e : CallError) : String := functionName ++ "() " ++ e.detail

end CallError

/-- What the parameters are bound to so far. -/
structure Binding (α : Type) where
  a : Option α
  b : Option α
  deriving DecidableEq, Repr

namespace Binding

variable {α : Type}

/-- The argument of a parameter. -/
def get (bound : Binding α) : Parameter → Option α
  | .a => bound.a
  | .b => bound.b

def set (bound : Binding α) (value : α) : Parameter → Binding α
  | .a => { bound with a := some value }
  | .b => { bound with b := some value }

/-- Fills the parameters by position. -/
def ofPositional : List α → Except CallError (Binding α)
  | [] => .ok ⟨none, none⟩
  | [x] => .ok ⟨some x, none⟩
  | [x, y] => .ok ⟨some x, some y⟩
  | given => .error (.tooMany given.length)

/-- Takes one keyword. -/
def addKeyword (bound : Binding α) (keyword : Keyword) (value : α) : Except CallError (Binding α) :=
  match Parameter.ofName? keyword.content with
  | none => .error (.unexpected keyword)
  | some parameter =>
    match bound.get parameter with
    | some _ => .error (.repeated parameter)
    | none => .ok (bound.set value parameter)

/-- Takes keywords in their order; the first that does not fit ends the call. -/
def addKeywords (bound : Binding α) : List (Keyword × α) → Except CallError (Binding α)
  | [] => .ok bound
  | (keyword, value) :: rest =>
    match bound.addKeyword keyword value with
    | .ok further => further.addKeywords rest
    | .error e => .error e

/-- Both arguments, when nothing is missing. -/
def complete : Binding α → Except CallError (α × α)
  | ⟨some x, some y⟩ => .ok (x, y)
  | ⟨some _, none⟩ => .error (.missing .b)
  | ⟨none, some _⟩ => .error (.missing .a)
  | ⟨none, none⟩ => .error .missingBoth

end Binding

namespace Arguments

variable {α β : Type}

/-- The arguments of `a` and `b`. -/
def bind (arguments : Arguments α) : Except CallError (α × α) := do
  let byPosition ← Binding.ofPositional arguments.positional
  let bound ← byPosition.addKeywords arguments.keywords
  bound.complete

/-- All arguments in the order in which they are written. -/
def inOrder (arguments : Arguments α) : List α :=
  arguments.positional ++ arguments.keywords.map Prod.snd

/-- Puts other things in the places of the arguments, in the order in which these are written. -/
def replace (arguments : Arguments α) (others : List β) : Arguments β where
  positional := others.take arguments.positional.length
  keywords := (arguments.keywords.map Prod.fst).zip (others.drop arguments.positional.length)

/-- Replaces every argument. -/
def map (f : α → β) (arguments : Arguments α) : Arguments β where
  positional := arguments.positional.map f
  keywords := arguments.keywords.map fun (keyword, value) => (keyword, f value)

end Arguments

end SharedPair
