/-!
# Hexadecimal digits

Numbers in base sixteen, written with leading zeros up to a given width, and read.
-/

namespace SharedPair

/-- The hexadecimal digits of a number, at least `width` of them. -/
def hexadecimal (width n : Nat) : List Char :=
  let digits := Nat.toDigits 16 n
  List.replicate (width - digits.length) '0' ++ digits

/-- The value of a hexadecimal digit, small or capital. -/
def hexadecimalDigit? (c : Char) : Option Nat :=
  if '0' ≤ c ∧ c ≤ '9' then some (c.toNat - '0'.toNat)
  else if 'a' ≤ c ∧ c ≤ 'f' then some (c.toNat - 'a'.toNat + 10)
  else if 'A' ≤ c ∧ c ≤ 'F' then some (c.toNat - 'A'.toNat + 10)
  else none

/-- The number that hexadecimal digits write. -/
def ofHexadecimal? (digits : List Char) : Option Nat :=
  digits.foldlM (fun n c => (hexadecimalDigit? c).map (16 * n + ·)) 0

end SharedPair
