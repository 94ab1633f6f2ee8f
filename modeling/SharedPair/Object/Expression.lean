import SharedPair.Object.Failure

/-!
# Expressions

An expression says how an object is put together.  It is evaluated to a form before
anything of it is in the store, its parts from left to right, and a key before its
value.  Evaluation fails where a set member or a key can change or is opaque, or where
a range goes on by nothing, and what comes after the fault is not looked at.

Opaque things that were made on the way and are no part of the result end with the
evaluation: all of them if it fails, and otherwise those in values that a later equal
key replaced.
-/

namespace SharedPair

/-- How an object is put together. -/
inductive Expression where
  | atom (a : Atom)
  | named (name : String)
  | buffer (bs : List UInt8)
  | set (members : List Expression)
  | list (items : List Expression)
  | tuple (items : List Expression)
  | dict (entries : List (Expression × Expression))
  deriving Repr

/-- What came of an evaluation, and the names of the opaque things that end with it. -/
structure Evaluation (α : Type) where
  result : Except Failure α
  ended : List String

namespace Evaluation

variable {α β γ : Type}

/-- An evaluation that needs nothing. -/
def value (a : α) : Evaluation α := ⟨.ok a, []⟩

def map (f : α → β) (made : Evaluation α) : Evaluation β := ⟨made.result.map f, made.ended⟩

/-- Goes on with a result that holds opaque things.  They end if the next evaluation fails. -/
def andThen (made : Evaluation α) (names : α → List String) (next : α → Evaluation β) :
    Evaluation β :=
  match made.result with
  | .error failure => ⟨.error failure, made.ended⟩
  | .ok a =>
    let further := next a
    match further.result with
    | .error failure => ⟨.error failure, made.ended ++ names a ++ further.ended⟩
    | .ok b => ⟨.ok b, made.ended ++ further.ended⟩

/-- One evaluation, and then another. -/
def both (first : Evaluation α) (names : α → List String) (second : Evaluation β) :
    Evaluation (α × β) :=
  first.andThen names fun a => second.map (a, ·)

/-- Evaluates one thing after the other. -/
def each (names : β → List String) (evaluate : α → Evaluation β) : List α → Evaluation (List β)
  | [] => value []
  | a :: rest => (evaluate a).andThen names fun b => (each names evaluate rest).map (b :: ·)

end Evaluation

/-- Evaluates the arguments of a call in the order in which they are written. -/
def Arguments.evaluate {α β : Type} (arguments : Arguments α) (names : β → List String)
    (evaluate : α → Evaluation β) : Evaluation (Arguments β) :=
  let positional := Evaluation.each names evaluate arguments.positional
  let keywords := Evaluation.each (names ·.2)
    (fun (keyword, a) => (evaluate a).map (keyword, ·)) arguments.keywords
  (positional.both (·.flatMap names) keywords).map fun (positional, keywords) =>
    ⟨positional, keywords⟩

namespace Form

mutual

/-- The key that a form is, if nothing in it can change or is opaque. -/
def key : Literal → Except Failure Key
  | .atom a => .ok (.atom a)
  | .named name => .error (.inspected name)
  | .buffer _ => .error (.unhashable .buffer)
  | .set _ => .error (.unhashable .set)
  | .list _ => .error (.unhashable .list)
  | .tuple items => (keysOfAll items).map .tuple
  | .dict _ => .error (.unhashable .dict)
  | .back container => nomatch container

def keysOfAll : List Literal → Except Failure (List Key)
  | [] => .ok []
  | form :: rest => do
    let first ← key form
    return first :: (← keysOfAll rest)

end

/-- A form as a key. -/
def toKey (form : Literal) : Evaluation Key := ⟨form.key, []⟩

/-- A dictionary of entries, of which the later ones replace the values of equal keys. -/
def ofEntries (entries : List (Key × Literal)) : Evaluation Literal :=
  let (filed, replaced) := Key.fileAll entries
  ⟨.ok (.dict filed), namesOfAll replaced⟩

end Form

namespace Atom

/-- An atom that is put together.  A range has to go on by something. -/
def evaluate : Atom → Evaluation Literal
  | range _ _ 0 => ⟨.error .zeroStep, []⟩
  | a => .value (.atom a)

end Atom

namespace Expression

mutual

/-- Evaluates an expression to the form of the object to be made. -/
def evaluate : Expression → Evaluation Literal
  | atom a => a.evaluate
  | named name => .value (.named name)
  | buffer bs => .value (.buffer bs)
  | set members => (evaluateMembers members).map fun keys => .set (Key.distinct keys)
  | list items => (evaluateAll items).map .list
  | tuple items => (evaluateAll items).map .tuple
  | dict entries => (evaluateEntries entries).andThen Form.namesOfEntries Form.ofEntries

def evaluateAll : List Expression → Evaluation (List Literal)
  | [] => .value []
  | item :: rest =>
    (evaluate item).andThen Form.names fun form => (evaluateAll rest).map (form :: ·)

def evaluateMembers : List Expression → Evaluation (List Key)
  | [] => .value []
  | member :: rest =>
    ((evaluate member).andThen Form.names Form.toKey).andThen (fun _ => []) fun key =>
      (evaluateMembers rest).map (key :: ·)

def evaluateEntries : List (Expression × Expression) → Evaluation (List (Key × Literal))
  | [] => .value []
  | (key, value) :: rest =>
    let pair := (evaluate key).both Form.names (evaluate value)
    let entry := pair.andThen (fun (key, value) => key.names ++ value.names) fun (key, value) =>
      key.toKey.map (·, value)
    entry.andThen (fun (_, value) => value.names) fun entry =>
      (evaluateEntries rest).map (entry :: ·)

end

end Expression

end SharedPair
