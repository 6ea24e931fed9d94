import KeyCodec.Number.Binary64

/-!
# The fewest decimal digits that read back

The reals that round to a float form an interval.  For one, two, … digits the two neighbours of the
float on the decimal grid of that many digits are tested; the first grid with a hit wins, and of two
hits the nearer, the even one on a tie.  All comparisons are exact.
-/

namespace KeyCodec

structure Decimal where
  digits : Nat
  exponent : Int
  deriving DecidableEq

namespace Decimal

def compareScaled (a : Nat) (i : Int) (m : Nat) (j : Int) : Ordering :=
  compare (a * Nat.pow 10 i.toNat * Nat.pow 2 (-j).toNat)
    (m * Nat.pow 2 j.toNat * Nat.pow 10 (-i).toNat)

/-- The decimal lies among the reals that round to the magnitude of the float. -/
def readsBack (d : Decimal) (x : Binary64) : Bool :=
  let low := if x.narrowBelow then 4 * x.significand - 1 else 4 * x.significand - 2
  let high := 4 * x.significand + 2
  let closed := x.significand % 2 == 0
  let below := compareScaled d.digits d.exponent low (x.exponent - 2)
  let above := compareScaled d.digits d.exponent high (x.exponent - 2)
  (below == .gt || closed && below == .eq) && (above == .lt || closed && above == .eq)

/-- The greatest multiple of `10 ^ i` at or below the magnitude of the float, in that unit. -/
def floorAt (x : Binary64) (i : Int) : Nat :=
  x.significand * Nat.pow 2 x.exponent.toNat * Nat.pow 10 (-i).toNat
    / (Nat.pow 10 i.toNat * Nat.pow 2 (-x.exponent).toNat)

/-- The least `k` with the magnitude below `10 ^ k`, for a float that is not zero. -/
def scale (x : Binary64) : Int :=
  let guess : Int := ((x.significand.log2 : Int) + x.exponent) * 30103 / 100000
  match [guess - 1, guess, guess + 1, guess + 2].find? fun k =>
      compareScaled 1 k x.significand x.exponent == .gt with
  | some k => k
  | none => guess + 3

def candidate? (x : Binary64) (count : Nat) : Option Decimal :=
  let i := scale x - count
  let below : Decimal := ⟨floorAt x i, i⟩
  let above : Decimal := ⟨below.digits + 1, i⟩
  match below.readsBack x, above.readsBack x with
  | true, false => some below
  | false, true => some above
  | false, false => none
  | true, true =>
    match compareScaled (2 * below.digits + 1) i (2 * x.significand) x.exponent with
    | .gt => some below
    | .lt => some above
    | .eq => some (if below.digits % 2 = 0 then below else above)

/-- Trailing zeros moved into the exponent, at most `fuel` of them. -/
def stripZeros : Nat → Decimal → Decimal
  | 0, d => d
  | fuel + 1, d =>
    if d.digits ≠ 0 ∧ d.digits % 10 = 0 then stripZeros fuel ⟨d.digits / 10, d.exponent + 1⟩ else d

def exact (x : Binary64) : Decimal :=
  if x.exponent < 0 then
    ⟨x.significand * Nat.pow 5 x.exponent.natAbs, x.exponent⟩
  else ⟨x.significand * Nat.pow 2 x.exponent.toNat, 0⟩

/-- The shortest decimal that reads back as the magnitude of a finite float. -/
def shortest (x : Binary64) : Decimal :=
  if x.isZero then ⟨0, 0⟩
  else
    match (List.range' 1 17).findSome? (candidate? x) with
    | some d => stripZeros 18 d
    | none => exact x

end Decimal
end KeyCodec
