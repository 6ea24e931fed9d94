import KeyCodec.Fault.Basic
import KeyCodec.Bytes
import KeyCodec.Number.HexFloat

/-!
# Values as bytes

What can be turned into bytes, and numbers of fixed width.  Apart from bytes themselves, any
iterable of integers below 256 spells bytes; the first item that does not decides the fault.
-/

namespace KeyCodec
namespace Value

def notIndex (v : Value) : Fault :=
  .ofMessage .type ("'" ++ v.typeName ++ "' object cannot be interpreted as an integer")

def octet (v : Value) : Except Fault UInt8 :=
  match v.integer? with
  | none => .error (notIndex v)
  | some i =>
    if 0 ≤ i ∧ i < 256 then .ok (UInt8.ofNat i.toNat)
    else .error (.ofMessage .value "bytes must be in range(0, 256)")

def octetsOf : List Value → Except Fault (List UInt8)
  | [] => .ok []
  | v :: vs => do
    let b ← octet v
    let bs ← octetsOf vs
    return b :: bs

def octets (v : Value) : Except Fault (List UInt8) :=
  let refused : Fault := .ofMessage .type ("cannot convert '" ++ v.typeName ++ "' object to bytes")
  match v with
  | bytes bs | buffer bs => .ok bs
  | text _ => .error refused
  | v =>
    match v.items? with
    | some vs => octetsOf vs
    | none => .error refused

def bytesToInt (v : Value) : Except Fault Value := do
  let bs ← octets v
  return .int (Bytes.toNat bs)

def lengthBound : Int := 0x8000000000000000

/-- The greatest length of bytes, which leaves room for a header of 33 bytes. -/
def longestBytes : Int := lengthBound - 34

def checkWidth (memory : Nat) (w : Int) : Except Fault Nat :=
  if lengthBound ≤ w ∨ w < -lengthBound then
    .error (.ofMessage .overflow "Python int too large to convert to C ssize_t")
  else if w < 0 then .error (.ofMessage .value "length argument must be non-negative")
  else if longestBytes < w then .error (.ofMessage .overflow "byte string is too large")
  else if memory < w then .error (.standard .memory [])
  else .ok w.toNat

/-- The bytes of a number at the given width, when there is memory for so many bytes.  Memory is
looked for before the number is, so without it the number does not matter. -/
def intToBytesWithin (memory : Nat) (v width : Value) : Except Fault Value := do
  let i ← match v.integer? with
    | some i => .ok i
    | none => .error (.noAttribute v "to_bytes")
  let w ← match width.integer? with
    | some w => .ok w
    | none => .error (notIndex width)
  let w ← checkWidth memory w
  if i < 0 then .error (.ofMessage .overflow "can't convert negative int to unsigned")
  else
    match Bytes.ofNat? w i.toNat with
    | some bs => return .bytes bs
    | none => .error (.ofMessage .overflow "int too big to convert")

/-- The number of bytes that there is memory for when values are computed.  A key needs far less,
and what is said of fixed widths is said for every amount. -/
def memoryBound : Nat := 0x100000000

def intToBytes (v width : Value) : Except Fault Value :=
  intToBytesWithin memoryBound v width

def bytesToHex : Value → Except Fault Value
  | bytes bs | buffer bs => .ok (.text (String.ofList (Bytes.toHex bs)))
  | secretKey k => .ok (.text (String.ofList k.hex))
  | publicKey k => .ok (.text (String.ofList k.hex))
  | float x => .ok (.text x.hexText)
  | v => .error (.noAttribute v "hex")

end Value
end KeyCodec
