/-!
# Text by code points

A text is a sequence of code points, and surrogates may stand in it alone or side
by side.  Such a text has no `String`; where it has to be printed, each surrogate
gives way to three replacement characters, one for each byte that its encoding
would take.
-/

namespace SharedPair

/-- A code point, surrogates included. -/
abbrev CodePoint := Fin 0x110000

namespace CodePoint

/-- The code point of a character. -/
def ofChar (c : Char) : CodePoint :=
  ⟨c.val.toNat, by
    have valid := c.valid
    simp only [UInt32.isValidChar, Nat.isValidChar] at valid
    omega⟩

/-- The character of a code point that is not a surrogate. -/
def toChar? (p : CodePoint) : Option Char :=
  if valid : p.val.isValidChar then some (Char.ofNatAux p.val valid) else none

/-- A code point as it is printed. -/
def print (p : CodePoint) : List Char :=
  match p.toChar? with
  | some c => [c]
  | none => List.replicate 3 '\uFFFD'

end CodePoint

/-- A text. -/
structure Text where
  points : List CodePoint
  deriving DecidableEq, Repr

namespace Text

/-- The text of a string. -/
def ofString (s : String) : Text := ⟨s.toList.map CodePoint.ofChar⟩

/-- The string of a text without surrogates. -/
def toString? (t : Text) : Option String :=
  (t.points.mapM CodePoint.toChar?).map String.ofList

/-- A text as it is printed. -/
def print (t : Text) : String := String.ofList (t.points.flatMap CodePoint.print)

end Text

end SharedPair
