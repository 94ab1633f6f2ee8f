import SharedPair.Hexadecimal

/-!
# Floating-point numbers

A floating-point number has 53 significant binary digits.  Every finite one is a
whole number of units, where the unit is the least positive one, two to the power of
-1074; so finite numbers are compared and written by arithmetic on whole numbers.

The exact text of a number is hexadecimal: the significant digits, the first of
which is one unless the number is too small for that, and a power of two.
-/

namespace SharedPair

/-- How many units make one. -/
def unitsOfOne : Nat := Nat.pow 2 1074

/-- The gap between floating-point numbers of a size, as a power of two in units. -/
def gapExponent (units : Nat) : Nat := units.log2 - 52

/-- Whether a size in units is that of a floating-point number: no more than 53 binary digits are
significant, and it is below the power of two after the last. -/
def isExact (units : Nat) : Bool :=
  decide (units < Nat.pow 2 2098) && decide (units % Nat.pow 2 (gapExponent units) = 0)

/-- A floating-point number. -/
inductive Binary64 where
  | nan
  | infinite (negative : Bool)
  /-- A number of a size in units.  There are two zeros. -/
  | finite (negative : Bool) (units : Nat) (exact : isExact units = true)
  deriving DecidableEq, Repr

/-- The whole number nearest to a quotient; a half goes to the even neighbour. -/
def roundToEven (numerator denominator : Nat) : Nat :=
  let whole := numerator / denominator
  let rest := 2 * (numerator % denominator)
  if rest < denominator ∨ (rest = denominator ∧ whole % 2 = 0) then whole else whole + 1

namespace Binary64

/-- The floating-point number nearest to a quotient of units. -/
def ofUnits (negative : Bool) (numerator denominator : Nat) : Binary64 :=
  let gap := Nat.pow 2 (gapExponent (numerator / denominator))
  let units := roundToEven numerator (denominator * gap) * gap
  if exact : isExact units then finite negative units exact else infinite negative

/-! ## Writing -/

def signText (negative : Bool) : String := if negative then "-" else ""

/-- A power of two with its sign. -/
def exponentText (exponent : Int) : String :=
  (if exponent < 0 then "-" else "+") ++ toString exponent.natAbs

/-- The exact text of a size. -/
def sizeText (units : Nat) : String :=
  if units = 0 then "0x0.0p+0"
  else if units < Nat.pow 2 52 then
    "0x0." ++ String.ofList (hexadecimal 13 units) ++ "p" ++ exponentText (-1022)
  else
    let gap := gapExponent units
    "0x1." ++ String.ofList (hexadecimal 13 (units / Nat.pow 2 gap - Nat.pow 2 52)) ++ "p" ++
      exponentText (gap - 1022)

/-- The exact text of a number. -/
def exactText : Binary64 → String
  | nan => "nan"
  | infinite negative => signText negative ++ "inf"
  | finite negative units _ => signText negative ++ sizeText units

/-! ## Reading -/

/-- Reads a power of two.  A plus sign may be left out; four digits are enough for any number. -/
def readExponent? : List Char → Option Int
  | '-' :: digits => (readDigits? digits).map Int.neg
  | '+' :: digits => readDigits? digits
  | digits => readDigits? digits
where
  readDigits? (digits : List Char) : Option Int :=
    if digits.length ≤ 4 then (String.ofList digits).toNat?.map Int.ofNat else none

/-- Reads a size: hexadecimal digits with or without a point, and a power of two.  The number is the
nearest one to what is written, if that is not too large for a finite one. -/
def readSize? (negative : Bool) (text : List Char) : Option Binary64 := do
  let (digits, power) := text.span (· ≠ 'p')
  let (whole, fraction) := digits.span (· ≠ '.')
  let significant := whole ++ fraction.drop 1
  let places := 4 * (fraction.length - 1)
  guard (significant ≠ [])
  let significand ← ofHexadecimal? significant
  let exponent ← if power = [] then some 0 else readExponent? (power.drop 1)
  let scaled := significand * Nat.pow 2 (exponent + 1074).toNat
  match ofUnits negative scaled (Nat.pow 2 (places + (-(exponent + 1074)).toNat)) with
  | infinite _ => none
  | x => some x

/-- Reads the exact text of a number. -/
def ofExactText? (text : List Char) : Option Binary64 :=
  match text with
  | '-' :: size => unsigned? true size
  | size => unsigned? false size
where
  unsigned? (negative : Bool) : List Char → Option Binary64
    | ['n', 'a', 'n'] => some nan
    | ['i', 'n', 'f'] => some (infinite negative)
    | '0' :: 'x' :: size => readSize? negative size
    | size => readSize? negative size

end Binary64

end SharedPair
