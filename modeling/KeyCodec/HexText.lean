import KeyCodec.Fault.Refusal
import KeyCodec.Hex

/-!
# Integers as hex text

The codec between integers and hex text, on values: only a non-negative integer is written, and only
a text of one or more hex digits is read.
-/

namespace KeyCodec
namespace HexText

def encode : Value → Except Refusal String
  | .int i => if i < 0 then .error (.negative i) else .ok (String.ofList (Hex.ofNat i.toNat))
  | v => .error (.notInteger v)

def decode : Value → Except Refusal Nat
  | .text s =>
    if s.isEmpty then .error .emptyText
    else match Hex.toNat? s.toList with
      | some n => .ok n
      | none => .error (.notHex s)
  | v => .error (.notText v)

def isValid : Value → Bool
  | .text s => Hex.isHex s.toList
  | _ => false

end HexText
end KeyCodec
