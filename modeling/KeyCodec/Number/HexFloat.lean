import KeyCodec.Hex
import KeyCodec.Number.Binary64

/-!
# Floats in base sixteen

The exact text of a float: its leading digit, thirteen digits of fraction, and the power of two in
decimal.
-/

namespace KeyCodec
namespace Binary64

def withSign (x : Binary64) (digits : List Char) : List Char :=
  if x.isNegative then '-' :: digits else digits

def hexDigits (x : Binary64) : List Char :=
  let lead := if x.exponentBits = 0 then '0' else '1'
  let power := x.exponent + 52
  let powerSign := if power < 0 then '-' else '+'
  ['0', 'x', lead, '.'] ++ Hex.padLeft 13 (Hex.ofNat x.fraction)
    ++ ['p', powerSign] ++ (Nat.repr power.natAbs).toList

def hexText (x : Binary64) : String :=
  String.ofList <|
    if x.isNaN then ['n', 'a', 'n']
    else if x.isInfinite then x.withSign ['i', 'n', 'f']
    else if x.isZero then x.withSign "0x0.0p+0".toList
    else x.withSign x.hexDigits

end Binary64
end KeyCodec
