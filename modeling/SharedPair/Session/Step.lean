import SharedPair.Machine
import SharedPair.Session.State

/-!
# The steps of a session

Every step is total: it answers with a reply, the names of the opaque things freed
in it, the records kept, and the state that it leaves.  A step that fails changes
nothing that existed before; objects made for it are given up within the step.

What a step writes is evaluated before its container or its parameters are looked at,
except that appending first asks whether there is anything to append to.
-/

namespace SharedPair
namespace Session

/-- What a session can do. -/
inductive Step where
  | new (slot : String) (expression : Expression)
  | «alias» (source slot : String)
  | call (arguments : Arguments Argument) (slot : String)
  /-- Reads an item into a slot. -/
  | get (source : String) (index : Index) (slot : String)
  | set (container : String) (index : Index) (value : Argument)
  | append (container : String) (value : Argument)
  | drop (slot : String)
  | same (first second : String)
  | length (slot : String)
  | display (slot : String)
  | setFilter (filter : Filter)
  deriving Repr

/-- The answer of a step. -/
inductive Reply where
  | done
  | truth (b : Bool)
  | length (n : Nat)
  | shown (form : Shown)
  | failed (failure : Failure)
  /-- The answer of the last entry, when the slots are gone. -/
  | ended
  deriving Repr

/-- What a step answers and what happened in it. -/
@[ext]
structure Effect where
  reply : Reply
  /-- The names of the opaque things freed, sorted. -/
  freed : List String
  log : List Record
  deriving Repr

/-- Names in the order of their code points. -/
def sortNames (names : List String) : List String := names.mergeSort fun a b => decide (a ≤ b)

namespace State

/-- A step that does nothing but answer. -/
def answer (s : State) (reply : Reply) : State × Effect := (s, ⟨reply, [], []⟩)

/-- The answer to a question about the state. -/
def ask (s : State) (question : Except Failure Reply) : State × Effect :=
  match question with
  | .ok reply => s.answer reply
  | .error failure => s.answer (.failed failure)

/-- A step that changes the state, as its effect. -/
def done (after : State × List String) : State × Effect := (after.1, ⟨.done, sortNames after.2, []⟩)

/-- A step that gives up what was made for it and fails. -/
def giveUp (s : State) (refs : List Ref) (failure : Failure) : State × Effect :=
  let (after, names) := s.discard refs
  (after, ⟨.failed failure, sortNames names, []⟩)

/-- Goes on with what was evaluated.  The opaque things that end with the evaluation are freed in
the step. -/
def evaluating {α : Type} (s : State) (made : Evaluation α) (next : α → State × Effect) :
    State × Effect :=
  match made.result with
  | .error failure => (s, ⟨.failed failure, sortNames made.ended, []⟩)
  | .ok value =>
    let (after, effect) := next value
    (after, { effect with freed := sortNames (made.ended ++ effect.freed) })

/-- Packs two objects and stores the pair.  The objects that were given are held until it is
made. -/
def packInto (s : State) (name : String) (given : List Ref) (first second : Ref) : State × Effect :=
  let ((pair, store), log) := s.store.pack s.filter first second
  let (called, names) := { s with store }.discard given
  let (after, dropped) := called.hold name pair
  (after, ⟨.done, sortNames (names ++ dropped), log⟩)

/-- Calls the function.  The objects of the arguments are there before any of them is bound, and
they are given up when the function has returned or failed. -/
def call (s : State) (arguments : Arguments Argument) (name : String) : State × Effect :=
  s.evaluating (s.sources arguments) fun sources =>
    let (given, store) := s.store.takeArguments sources
    let called := { s with store }
    match given.bind with
    | .ok (first, second) => called.packInto name given.inOrder first second
    | .error e => called.giveUp given.inOrder (.rejected e)

/-- Reads an item into a slot. -/
def get (s : State) (source : String) (index : Index) (name : String) : State × Effect :=
  match s.slot source with
  | .error failure => s.answer (.failed failure)
  | .ok container =>
    match (s.store.contents container).item index with
    | .error failure => s.answer (.failed failure)
    | .ok (.ref item) => done ({ s with store := s.store.acquire item }.hold name item)
    | .ok (.atom a) =>
      let (item, store) := s.store.atom a
      done ({ s with store }.hold name item)

/-- Changes an object with the help of an argument, which is taken up first. -/
def change (s : State) (container : String) (value : Argument)
    (how : Node → Ref → Node → Except Failure Node.Change) : State × Effect :=
  s.evaluating (s.source value) fun source =>
    let (ref, store) := s.store.take source
    let changed := do
      let target ← s.slot container
      return (target, ← how (store.contents target) ref (store.contents ref))
    match changed with
    | .error failure => { s with store }.giveUp [ref] failure
    | .ok (target, ⟨node, leftover⟩) =>
      done ({ s with store := store.write target node }.discard leftover)

/-- Appends an argument to an object.  One that takes no items at its end fails before the argument
is taken up. -/
def append (s : State) (container : String) (value : Argument) : State × Effect :=
  match s.slot container with
  | .error failure => s.answer (.failed failure)
  | .ok ref =>
    let node := s.store.contents ref
    if node.isGrowable then s.change container value Node.append
    else s.answer (.failed (.noAppend (Kind.ofNode node)))

/-- Removes a slot and gives up its reference. -/
def remove (s : State) (name : String) : State × Effect :=
  match s.slot name with
  | .error failure => s.answer (.failed failure)
  | .ok ref => done ({ s with slots := s.slots.erase name }.discard [ref])

/-- One step. -/
def step (s : State) : Step → State × Effect
  | .new name expression => s.evaluating expression.evaluate fun form =>
    let (ref, store) := Store.make form s.store
    done ({ s with store }.hold name ref)
  | .alias source name =>
    match s.slot source with
    | .error failure => s.answer (.failed failure)
    | .ok ref => done ({ s with store := s.store.acquire ref }.hold name ref)
  | .call arguments name => s.call arguments name
  | .get source index name => s.get source index name
  | .set container index value =>
    s.change container value fun node ref content => node.assign index ref content
  | .append container value => s.append container value
  | .drop name => s.remove name
  | .same first second => s.ask do
    let x ← s.slot first
    let y ← s.slot second
    return .truth (decide (x = y))
  | .length name => s.ask do
    let ref ← s.slot name
    return .length (← (s.store.contents ref).length)
  | .display name => s.ask do
    let ref ← s.slot name
    return .shown (s.store.form ref)
  | .setFilter filter => ({ s with filter }, ⟨.done, [], []⟩)

/-- Drops all slots. -/
def finish (s : State) : State × Effect :=
  let (after, names) := { s with slots := ∅ }.discard s.roots
  (after, ⟨.ended, sortNames names, []⟩)

end State

/-- Sessions, as a machine. -/
abbrev machine : Machine State Step Effect where
  initial := State.initial
  step := State.step
  finish := State.finish
  counts := State.counts

/-- What is told of a step: its effect, and the reference counts after it. -/
abbrev Entry := Machine.Entry Effect

/-- The entries of a whole session, with a last one for the end of its slots. -/
abbrev transcript (filter : Filter) (steps : List Step) : List Entry :=
  machine.transcript filter steps

/-! ## A single call -/

/-- What a call by itself comes to. -/
structure CallReport where
  /-- The returned tuple, and whether its elements are the very objects that were passed. -/
  result : Except Failure (Shown × List Bool)
  log : List Record

/-- Whether an item of an object is a given object. -/
def itemIs (node : Node) (position : Nat) (ref : Ref) : Bool :=
  match node.item (.label (.int position)) with
  | .ok item => decide (item = .ref ref)
  | .error _ => false

/-- Calls the function once with fresh objects. -/
def callOnce (filter : Filter) (arguments : Arguments Expression) : CallReport :=
  match (arguments.evaluate Form.names Expression.evaluate).result with
  | .error failure => ⟨.error failure, []⟩
  | .ok forms =>
    let (given, store) := Store.takeArguments ∅ (forms.map .literal)
    match given.bind with
    | .error e => ⟨.error (.rejected e), []⟩
    | .ok (first, second) =>
      let ((pair, packed), log) := store.pack filter first second
      let node := packed.contents pair
      ⟨.ok (packed.form pair, [itemIs node 0 first, itemIs node 1 second]), log⟩

end Session
end SharedPair
