import KeyCodec.Fault.Basic
import KeyCodec.Value.Fingerprint

/-!
# Values in sets

Only values with a fingerprint may be compared by fingerprint or stand in a set.
-/

namespace KeyCodec
namespace Value

variable (declared : FieldNames)

def unhashable (typeName : String) : Fault :=
  .ofMessage .type ("unhashable type: '" ++ typeName ++ "'")

def requireFingerprint (v : Value) : Except Fault Fingerprint :=
  (v.fingerprint declared).mapError unhashable

def sameFingerprint (a b : Value) : Except Fault Bool := do
  let f ← requireFingerprint declared a
  let g ← requireFingerprint declared b
  return f == g

/-- Every value of a list has a fingerprint; the first that has none decides the fault. -/
def requireFingerprints : List Value → Except Fault Unit
  | [] => .ok ()
  | v :: vs => do
    let _ ← requireFingerprint declared v
    requireFingerprints vs

def countDistinct (vs : List Value) : Except Fault Nat := do
  requireFingerprints declared vs
  return (distinct vs).length

end Value
end KeyCodec
