/-!
# Binary floating numbers of 64 bits

A float is kept as its bits, so that it can be compared and stored like any other data.  Its exact
value is a dyadic number; decimal text is rounded to the nearest float, ties to even.
-/

namespace KeyCodec

structure Binary64 where
  bits : UInt64
  deriving DecidableEq

namespace Binary64

def exponentBits (x : Binary64) : Nat := (x.bits.toNat >>> 52) % 2048

def fraction (x : Binary64) : Nat := x.bits.toNat % 0x10000000000000

def isNegative (x : Binary64) : Bool := 0x8000000000000000 ≤ x.bits.toNat

def isNaN (x : Binary64) : Bool := x.exponentBits == 2047 && x.fraction != 0

def isInfinite (x : Binary64) : Bool := x.exponentBits == 2047 && x.fraction == 0

/-- The integer `m` of the magnitude `m * 2 ^ q` of a finite float. -/
def significand (x : Binary64) : Nat :=
  if x.exponentBits = 0 then x.fraction else 0x10000000000000 + x.fraction

def exponent (x : Binary64) : Int :=
  if x.exponentBits = 0 then -1074 else (x.exponentBits : Int) - 1075

/-- The float below is half as far away as the float above. -/
def narrowBelow (x : Binary64) : Bool := x.fraction == 0 && 1 < x.exponentBits

def isZero (x : Binary64) : Bool := x.exponentBits == 0 && x.fraction == 0

def toDyadic? (x : Binary64) : Option Dyadic :=
  if x.exponentBits = 2047 then none
  else
    let m : Int := if x.isNegative then -x.significand else x.significand
    some (Dyadic.ofIntWithPrec m (-x.exponent))

def ofMagnitude (negative : Bool) (magnitude : UInt64) : Binary64 :=
  ⟨if negative then magnitude ||| 0x8000000000000000 else magnitude⟩

def infinity (negative : Bool) : Binary64 := ofMagnitude negative 0x7FF0000000000000

def nan : Binary64 := ⟨0x7FF8000000000000⟩

/-- The float nearest to `digits * 10 ^ exponent`, with the given sign.  Beyond the exponents that
a float can reach the answer is known without computing the power. -/
def ofDecimal (negative : Bool) (digits : Nat) (exponent : Int) : Binary64 :=
  let width := (Nat.repr digits).length
  if digits = 0 ∨ exponent + width < -400 then ofMagnitude negative 0
  else if 400 < exponent + width then infinity negative
  else
    let x := Float.ofScientific digits (decide (exponent < 0)) exponent.natAbs
    ofMagnitude negative x.toBits

end Binary64
end KeyCodec
