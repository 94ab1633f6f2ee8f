import SharedPair.Binary64
import SharedPair.Text

/-!
# Atoms

Objects without parts, and when two of them count as equal.  Numbers are equal when
they are the same point of the complex plane, whatever kind of number they are; ranges
are equal when they run through the same numbers.
-/

namespace SharedPair

/-- Objects that stand for themselves by name. -/
inductive Builtin where
  | ellipsis
  | notImplemented
  | intType
  | typeErrorType
  deriving DecidableEq, Repr

/-- An object without parts. -/
inductive Atom where
  | nothing
  | bool (b : Bool)
  | int (n : Int)
  | real (x : Binary64)
  | text (t : Text)
  | bytes (bs : List UInt8)
  | complex (re im : Binary64)
  | range (start stop step : Int)
  | builtin (b : Builtin)
  deriving DecidableEq, Repr

/-- How many numbers a range has. -/
def rangeLength (start stop step : Int) : Nat :=
  if 0 < step then ((stop - start + step - 1) / step).toNat
  else if step < 0 then ((start - stop - step - 1) / (-step)).toNat
  else 0

/-- A point of the extended real line. -/
inductive Point where
  /-- A whole number of the units of floating-point numbers. -/
  | units (n : Int)
  | infinite (negative : Bool)
  deriving DecidableEq, Repr

namespace Point

/-- The point of a whole number. -/
def ofInt (n : Int) : Point := units (n * unitsOfOne)

/-- The point of a floating-point number; the two zeros have one. -/
def ofReal? : Binary64 → Option Point
  | .nan => none
  | .infinite negative => some (infinite negative)
  | .finite negative size _ => some (units (if negative then -size else size))

end Point

namespace Atom

/-- Whether equal atoms are one object wherever they are written.  Numbers beyond a small range and
longer texts are made anew each time. -/
def isShared : Atom → Bool
  | nothing => true
  | bool _ => true
  | int n => decide (-5 ≤ n ∧ n ≤ 256)
  | text ⟨[]⟩ => true
  | text ⟨[point]⟩ => decide (point.val < 256)
  | bytes [] => true
  | bytes [_] => true
  | builtin _ => true
  | _ => false

/-- The point of the complex plane that a number is; true counts as one and false as zero. -/
def number? : Atom → Option (Point × Point)
  | bool b => some (.ofInt (if b then 1 else 0), .ofInt 0)
  | int n => some (.ofInt n, .ofInt 0)
  | real x => return (← Point.ofReal? x, .ofInt 0)
  | complex re im => return (← Point.ofReal? re, ← Point.ofReal? im)
  | _ => none

/-- Whether atoms count as equal.  What is not a number is not even equal to itself. -/
def same : Atom → Atom → Bool
  | nothing, nothing => true
  | text t, text t' => decide (t = t')
  | bytes bs, bytes bs' => decide (bs = bs')
  | builtin b, builtin b' => decide (b = b')
  | range start stop step, range start' stop' step' =>
    let length := rangeLength start stop step
    decide (length = rangeLength start' stop' step') &&
      (decide (length = 0) || decide (start = start') &&
        (decide (length = 1) || decide (step = step')))
  | a, b =>
    match a.number?, b.number? with
    | some x, some y => decide (x = y)
    | _, _ => false

end Atom

end SharedPair
