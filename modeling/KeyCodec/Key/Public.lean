import KeyCodec.Bytes
import KeyCodec.Curve.Basic

/-!
# Public keys

A public key is a point of the curve.  Its only binary form is the uncompressed one: a header byte
and the 32 bytes of either coordinate.
-/

namespace KeyCodec

structure PublicKey where
  point : Curve.Affine
  deriving DecidableEq

namespace PublicKey

def width : Nat := 65

def header : UInt8 := 4

def layout (x y : Curve.Coordinate) : List UInt8 :=
  header :: (Bytes.ofNat 32 x.val ++ Bytes.ofNat 32 y.val)

def bytes (k : PublicKey) : List UInt8 :=
  layout k.point.x k.point.y

def hex (k : PublicKey) : List Char :=
  Bytes.toHex k.bytes

/-- The key with the given uncompressed form, if both coordinates lie in the field and the point
lies on the curve. -/
def ofBytes? (bytes : List UInt8) : Option PublicKey :=
  if bytes.length = width ∧ bytes.head? = some header then
    let coordinates := bytes.drop 1
    (Curve.Affine.ofNat? (Bytes.toNat (coordinates.take 32))
      (Bytes.toNat (coordinates.drop 32))).map (⟨·⟩)
  else none

/-- How a public key is shown: its coordinates in canonical hex. -/
def display (k : PublicKey) : String :=
  "PublicKey(x=" ++ String.ofList (Hex.ofNat k.point.x.val)
    ++ ", y=" ++ String.ofList (Hex.ofNat k.point.y.val) ++ ")"

end PublicKey
end KeyCodec
