import SharedPair.Hexadecimal
import SharedPair.Text
import SharedPair.Text.Printable

/-!
# Quoted texts

A text is quoted in single quotes, or in double quotes if it holds single ones and
no double ones.  Inside, the quote in use and the backslash are escaped, and so is
every code point that is not printable, surrogates among them.
-/

namespace SharedPair
namespace Text

/-- The quote that a text is put in. -/
def quoteMark (t : Text) : Char :=
  if CodePoint.ofChar '\'' ∈ t.points ∧ CodePoint.ofChar '"' ∉ t.points then '"' else '\''

/-- The escape of a code point by its number, with as many digits as the number needs. -/
def numericEscape (n : Nat) : List Char :=
  if n < 0x100 then '\\' :: 'x' :: hexadecimal 2 n
  else if n < 0x10000 then '\\' :: 'u' :: hexadecimal 4 n
  else '\\' :: 'U' :: hexadecimal 8 n

/-- A code point inside quotes. -/
def quotePoint (mark : Char) (point : CodePoint) : List Char :=
  match point.toChar? with
  | none => numericEscape point.val
  | some c =>
    if c = mark ∨ c = '\\' then ['\\', c]
    else if c = '\t' then ['\\', 't']
    else if c = '\n' then ['\\', 'n']
    else if c = '\r' then ['\\', 'r']
    else if isPrintable point.val then [c]
    else numericEscape point.val

/-- A text in quotes. -/
def quote (t : Text) : String :=
  let mark := t.quoteMark
  String.ofList (mark :: t.points.flatMap (quotePoint mark) ++ [mark])

end Text
end SharedPair
