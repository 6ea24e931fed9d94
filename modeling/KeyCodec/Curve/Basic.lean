/-!
# The curve secp256k1

Domain parameters and the curve equation `y ^ 2 = x ^ 3 + 7` over the prime field.  A coordinate is
an element of the field, so a number at or above the prime is never silently reduced: it is no
coordinate at all.
-/

namespace KeyCodec
namespace Curve

def prime : Nat :=
  0xFFFFFFFFFFFFFFFFFFFFFFFFFFFFFFFFFFFFFFFFFFFFFFFFFFFFFFFEFFFFFC2F

def order : Nat :=
  0xFFFFFFFFFFFFFFFFFFFFFFFFFFFFFFFEBAAEDCE6AF48A03BBFD25E8CD0364141

instance : @NeZero Nat Zero.ofOfNat0 prime := ⟨by decide⟩

abbrev Coordinate := Fin prime

def Coordinate.ofNat? (n : Nat) : Option Coordinate :=
  if h : n < prime then some ⟨n, h⟩ else none

def OnCurve (x y : Coordinate) : Prop :=
  y * y = x * x * x + 7

instance (x y : Coordinate) : Decidable (OnCurve x y) :=
  inferInstanceAs (Decidable (_ = _))

def baseX : Coordinate :=
  ⟨0x79BE667EF9DCBBAC55A06295CE870B07029BFCDB2DCE28D959F2815B16F81798, by decide⟩

def baseY : Coordinate :=
  ⟨0x483ADA7726A3C4655DA4FBFC0E1108A8FD17B448A68554199C47D08FFB10D4B8, by decide⟩

/-- The base point lies on the curve. -/
theorem onCurve_base : OnCurve baseX baseY := by decide

/-- A number in `[1, order)` multiplies the base point to a point of the curve. -/
structure Scalar where
  val : Nat
  pos : 0 < val
  lt : val < order
  deriving DecidableEq

def Scalar.ofNat? (n : Nat) : Option Scalar :=
  if h : 0 < n ∧ n < order then some ⟨n, h.1, h.2⟩ else none

/-- A point of the curve by its two coordinates; the neutral element has none. -/
structure Affine where
  x : Coordinate
  y : Coordinate
  onCurve : OnCurve x y
  deriving DecidableEq

def Affine.ofCoordinates? (x y : Coordinate) : Option Affine :=
  if h : OnCurve x y then some ⟨x, y, h⟩ else none

def Affine.ofNat? (x y : Nat) : Option Affine := do
  let x ← Coordinate.ofNat? x
  let y ← Coordinate.ofNat? y
  ofCoordinates? x y

end Curve
end KeyCodec
