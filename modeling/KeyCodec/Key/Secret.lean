import KeyCodec.Bytes
import KeyCodec.Curve.Multiply

/-!
# Secret keys

A secret key is a scalar.  It is written as 32 bytes or as their 64 hex digits, and shown with all
but its first and last four digits left out.
-/

namespace KeyCodec

/-- A secret key.  A key built from a mutable buffer keeps that buffer as its secret and is then not
`sealed`; such a key has no hash. -/
structure SecretKey where
  scalar : Curve.Scalar
  isSealed : Bool := true
  deriving DecidableEq

namespace SecretKey

def width : Nat := 32

def secret (k : SecretKey) : List UInt8 :=
  Bytes.ofNat width k.scalar.val

def number (k : SecretKey) : Nat :=
  Bytes.toNat k.secret

def hex (k : SecretKey) : List Char :=
  Bytes.toHex k.secret

/-- The first and last four of some digits, with dots between them. -/
def masked (digits : List Char) : List Char :=
  digits.take 4 ++ ['.', '.', '.'] ++ digits.drop (digits.length - 4)

def display (k : SecretKey) : String :=
  "SecretKey(" ++ String.ofList (masked k.hex) ++ ")"

/-- Two secret keys are equal when their secrets are, whatever holds them. -/
def same (a b : SecretKey) : Bool :=
  a.scalar == b.scalar

end SecretKey
end KeyCodec
