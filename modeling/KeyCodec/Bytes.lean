import KeyCodec.Hex

/-!
# Fixed-width bytes

A number below `256 ^ width` is written as exactly `width` bytes, most significant first.  The hex
text of bytes has two digits per byte, so its width is fixed as well.
-/

namespace KeyCodec
namespace Bytes

def ofNatOnto : Nat → Nat → List UInt8 → List UInt8
  | 0, _, tail => tail
  | width + 1, n, tail => ofNatOnto width (n / 256) (UInt8.ofNat (n % 256) :: tail)

/-- The lowest `width` bytes of `n`, most significant first. -/
def ofNat (width n : Nat) : List UInt8 :=
  ofNatOnto width n []

def ofNat? (width n : Nat) : Option (List UInt8) :=
  if n < Nat.pow 256 width then some (ofNat width n) else none

def toNat (bytes : List UInt8) : Nat :=
  bytes.foldl (fun total b => 256 * total + b.toNat) 0

def hexPair (b : UInt8) : List Char :=
  [Hex.digit (b.toNat / 16), Hex.digit (b.toNat % 16)]

def toHex (bytes : List UInt8) : List Char :=
  bytes.flatMap hexPair

/-- The bytes that pairs of digits spell; `none` when a digit is left over. -/
def ofHexPairs? : List Char → Option (List UInt8)
  | [] => some []
  | [_] => none
  | high :: low :: rest =>
    (ofHexPairs? rest).map
      (UInt8.ofNat (16 * Hex.digitValue high + Hex.digitValue low) :: ·)

example : ofNat? 2 256 = some [1, 0] := by decide

example : ofNat? 1 256 = none := by decide

example : toHex [1, 171] = ['0', '1', 'a', 'b'] := by decide

end Bytes
end KeyCodec
