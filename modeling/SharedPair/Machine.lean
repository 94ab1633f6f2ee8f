import SharedPair.Log

/-!
# Machines

A machine starts with a filter for its log and takes one step after another.  Each
step leaves a state and has an effect, and after it the machine tells its counts.  At
the end the machine gives up all that it holds.
-/

namespace SharedPair

/-- What a machine starts with, how it goes on and ends, and what it counts. -/
structure Machine (State Step Effect : Type) where
  initial : Filter → State
  step : State → Step → State × Effect
  finish : State → State × Effect
  counts : State → List (String × Nat)

namespace Machine

variable {State Step Effect : Type}

/-- What is told of a step: its effect, and the counts after it. -/
structure Entry (Effect : Type) where
  effect : Effect
  counts : List (String × Nat)
  deriving Repr

/-- The state and the entries after some steps. -/
def run (machine : Machine State Step Effect) (s : State) :
    List Step → State × List (Entry Effect)
  | [] => (s, [])
  | step :: rest =>
    let (between, effect) := machine.step s step
    let (after, entries) := machine.run between rest
    (after, ⟨effect, machine.counts between⟩ :: entries)

/-- The entry for the end of a state. -/
def last (machine : Machine State Step Effect) (s : State) : Entry Effect :=
  let (after, effect) := machine.finish s
  ⟨effect, machine.counts after⟩

/-- The entries of some steps from the start, with a last one for the end. -/
def transcript (machine : Machine State Step Effect) (filter : Filter) (steps : List Step) :
    List (Entry Effect) :=
  let (s, entries) := machine.run (machine.initial filter) steps
  entries ++ [machine.last s]

end Machine
end SharedPair
