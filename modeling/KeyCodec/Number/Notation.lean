import KeyCodec.Number.Shortest

/-!
# Text of numbers

Floats are written with the fewest digits that read back, in one of two layouts; which layout, and
how the exponent looks, is a record.  Integers are written in decimal up to a limit of digits; a
longer integer has no text.
-/

namespace KeyCodec

structure FloatNotation where
  /-- Exponents of the leading digit from here on are written positionally … -/
  plainFrom : Int
  /-- … up to but excluding this one. -/
  plainBelow : Int
  plusSign : Bool
  /-- The least number of digits of an exponent. -/
  exponentWidth : Nat
  infinity : String
  negativeInfinity : String
  nan : String

namespace FloatNotation

/-- Floats shown inside a message: positional from `0.0001` up to `10 ^ 16`, otherwise with a
signed exponent of two digits. -/
def message : FloatNotation where
  plainFrom := -4
  plainBelow := 16
  plusSign := true
  exponentWidth := 2
  infinity := "inf"
  negativeInfinity := "-inf"
  nan := "nan"

/-- Floats written into JSON text: positional from `0.00001` up to `10 ^ 16`, otherwise with a
signed exponent that is not padded.  There is no infinity and no not-a-number. -/
def json : FloatNotation where
  plainFrom := -5
  plainBelow := 16
  plusSign := true
  exponentWidth := 1
  infinity := "null"
  negativeInfinity := "null"
  nan := "null"

def plain (digits : List Char) (e : Int) : List Char :=
  if e < 0 then ['0', '.'] ++ List.replicate (-e - 1).toNat '0' ++ digits
  else
    let whole := e.toNat + 1
    if digits.length ≤ whole then
      digits ++ List.replicate (whole - digits.length) '0' ++ ['.', '0']
    else digits.take whole ++ ['.'] ++ digits.drop whole

def scientific (style : FloatNotation) (digits : List Char) (e : Int) : List Char :=
  let mantissa := match digits with
    | first :: second :: rest => first :: '.' :: second :: rest
    | short => short
  let sign := if e < 0 then ['-'] else if style.plusSign then ['+'] else []
  let power := (Nat.repr e.natAbs).toList
  mantissa ++ ['e'] ++ sign ++ List.replicate (style.exponentWidth - power.length) '0' ++ power

def render (style : FloatNotation) (x : Binary64) : String :=
  if x.isNaN then style.nan
  else if x.isInfinite then if x.isNegative then style.negativeInfinity else style.infinity
  else
    let d := Decimal.shortest x
    let digits := (Nat.repr d.digits).toList
    let e : Int := if x.isZero then 0 else d.exponent + digits.length - 1
    let body := if style.plainFrom ≤ e ∧ e < style.plainBelow then plain digits e
      else style.scientific digits e
    String.ofList (if x.isNegative then '-' :: body else body)

end FloatNotation

namespace Integer

def textBound : Nat := Nat.pow 10 4300

/-- The decimal text of an integer, which exists up to 4300 digits. -/
def text? (i : Int) : Option String :=
  if i.natAbs < textBound then some (toString i) else none

end Integer
end KeyCodec
