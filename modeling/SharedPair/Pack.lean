import SharedPair.Log

/-!
# Packing a pair

A packed pair has exactly two elements, in argument order, and each is a copy of
what the caller holds: for a handle that is one more handle to the same cell, so
the pair keeps the shared value alive as long as it lives itself.

A pair is packed of any things that can be copied.  How a copy is made, and what
becomes of the first when the second fails, is settled by what is copied.
-/

namespace SharedPair

/-- Things that can be copied, and the computations in which their copies are made. -/
class Cloneable (α : Type) (m : outParam (Type → Type)) where
  clone : α → m α
  /-- Two copies, the first and then the second. -/
  both : m α → m α → m (α × α)

/-- Computations in which records are written. -/
class Logging (m : Type → Type) where
  log : Filter → Record → m Unit

/-- The number of elements in a packed pair. -/
def pairLength : Nat := 2

/-- The record of a pair that was packed. -/
def packRecord : Record where
  level := .trace
  target := moduleName ++ "::pair"
  message := "event=pack_pair module=pair status=ok len=" ++ toString pairLength

/-- Copies the first thing, then the second, and logs that a pair was made. -/
def packPair {α : Type} {m : Type → Type} [Cloneable α m] [Monad m] [Logging m]
    (filter : Filter) (first second : α) : m (α × α) := do
  let pair ← Cloneable.both (Cloneable.clone first) (Cloneable.clone second)
  Logging.log filter packRecord
  return pair

end SharedPair
