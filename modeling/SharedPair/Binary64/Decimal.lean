import SharedPair.Binary64

/-!
# Decimal texts of floating-point numbers

A decimal is read as the floating-point number nearest to it.  A number is written
with the fewest decimal digits that read back as it, and of those with the digits
nearest to it.

The candidates with a given count of digits are the two neighbours of the number on
the grid of that many digits.  A decimal reads back as a number if it lies between
the two points halfway to the numbers next to it, or on one of them if the last
binary digit of the number is zero.
-/

namespace SharedPair

/-- A decimal: digits times a power of ten. -/
structure Decimal where
  digits : Nat
  power : Int
  deriving DecidableEq, Repr

namespace Decimal

/-- The numerator of a decimal in units. -/
def numerator (d : Decimal) : Nat := d.digits * Nat.pow 10 d.power.toNat * unitsOfOne

/-- The denominator of a decimal. -/
def denominator (d : Decimal) : Nat := Nat.pow 10 (-d.power).toNat

/-- The floating-point number nearest to a decimal.  Far above the largest number and far below the
least one, where no digit counts, the powers are not worked out. -/
def nearest (negative : Bool) (d : Decimal) : Binary64 :=
  let place := (Nat.toDigits 10 d.digits).length + d.power
  if d.digits = 0 ∨ place < -400 then .ofUnits negative 0 1
  else if 400 < place then .infinite negative
  else .ofUnits negative d.numerator d.denominator

/-- Whether a decimal reads back as the number of a size. -/
def readsBack (d : Decimal) (units : Nat) : Bool :=
  let gap := Nat.pow 2 (gapExponent units)
  let gapBelow := if 1 < gap ∧ units = gap * Nat.pow 2 52 then gap / 2 else gap
  let point := 2 * d.numerator
  let lower := (2 * units - gapBelow) * d.denominator
  let upper := (2 * units + gap) * d.denominator
  if units / gap % 2 = 0 then decide (lower ≤ point ∧ point ≤ upper)
  else decide (lower < point ∧ point < upper)

/-- The power of ten of the leading digit of a size that is not zero. -/
def leadingPower (units : Nat) : Int :=
  (Nat.toDigits 10 (units * Nat.pow 10 400 / unitsOfOne)).length - 401

/-- A decimal of a given count of digits that reads back as a size, the nearer if there are two. -/
def withDigits? (units count : Nat) : Option Decimal :=
  let power := leadingPower units + 1 - count
  let scaled := units * Nat.pow 10 (-power).toNat
  let step := unitsOfOne * Nat.pow 10 power.toNat
  let nearest : Decimal := ⟨roundToEven scaled step, power⟩
  let below : Decimal := ⟨scaled / step, power⟩
  let above : Decimal := ⟨scaled / step + 1, power⟩
  [nearest, below, above].find? (·.readsBack units)

/-- The decimal that is exactly a size. -/
def exact (units : Nat) : Decimal := ⟨units * Nat.pow 5 1074, -1074⟩

/-- The shortest decimal of a size that is not zero.  Seventeen digits are enough to tell all
floating-point numbers apart. -/
def shortest (units : Nat) : Decimal :=
  ((List.range 17).findSome? fun count => withDigits? units (count + 1)).getD (exact units)

/-- The digits with a point after `place` of them, and with zeros up to the point. -/
def withPoint (digits : List Char) (place : Int) : List Char :=
  if place ≤ 0 then '0' :: '.' :: List.replicate (-place).toNat '0' ++ digits
  else
    let whole := digits.take place.toNat
    let fraction := digits.drop place.toNat
    whole ++ List.replicate (place.toNat - whole.length) '0' ++
      '.' :: (if fraction = [] then ['0'] else fraction)

/-- The digits with a point after the first, and a power of ten in at least two digits. -/
def withPower (digits : List Char) (power : Int) : List Char :=
  let powerDigits := Nat.toDigits 10 power.natAbs
  digits.take 1 ++ (if digits.length ≤ 1 then [] else '.' :: digits.drop 1) ++
    ['e', if power < 0 then '-' else '+'] ++
    List.replicate (2 - powerDigits.length) '0' ++ powerDigits

/-- The text of a decimal, with a power of ten if the point would be far from the digits. -/
def text (d : Decimal) : List Char :=
  let written := Nat.toDigits 10 d.digits
  let digits := (written.reverse.dropWhile (· = '0')).reverse
  let place := written.length + d.power
  if -4 < place ∧ place ≤ 16 then withPoint digits place else withPower digits (place - 1)

end Decimal

/-- The decimal text of a number. -/
def Binary64.decimalText : Binary64 → String
  | nan => "nan"
  | infinite negative => signText negative ++ "inf"
  | finite negative units _ =>
    signText negative ++
      if units = 0 then "0.0" else String.ofList (Decimal.shortest units).text

end SharedPair
