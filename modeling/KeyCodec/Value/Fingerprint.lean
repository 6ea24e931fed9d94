import KeyCodec.Value.Equality

/-!
# Fingerprints

Values that may stand in a set have a fingerprint; equal values have equal fingerprints.  What may
still change has none: lists, tables and buffers, and whatever contains one.  A text has the
fingerprint of the bytes that store it.  An instance of a model has that of the values of its
declared fields, so the names of these have to be known.
-/

namespace KeyCodec

inductive Mark where
  | absent
  | number (residue : Int)
  | octets (bytes : List Nat)
  | notANumber (bits : UInt64)
  | stream (id : Nat) (derived : Bool)
  /-- A declared field that an instance lacks. -/
  | unset
  | secretKey (scalar : Nat)
  | publicKey (x y : Nat)
  | openGroup
  | closeGroup
  deriving DecidableEq

abbrev Fingerprint := List Mark

namespace Fingerprint

/-- Numbers are identified by their residue to this modulus, which is `2 ^ 61 - 1`. -/
def modulus : Nat := 0x1FFFFFFFFFFFFFFF

/-- The fingerprint of a number with the given sign and magnitude; minus one shares that of minus
two. -/
def ofResidue (negative : Bool) (magnitude : Nat) : Fingerprint :=
  let r : Int := magnitude % modulus
  if negative then [.number (if r = 1 then -2 else -r)] else [.number r]

/-- The fingerprint of an exact number; halving is multiplying by `2 ^ 60`. -/
def ofDyadic : Dyadic → Fingerprint
  | .zero => ofResidue false 0
  | .ofOdd n k _ => ofResidue (n < 0) (n.natAbs * Nat.pow 2 ((-k) % 61).toNat)

/-- The fingerprint of a float; infinity has a residue of its own. -/
def ofFloat (x : Binary64) : Fingerprint :=
  match x.toDyadic? with
  | some d => ofDyadic d
  | none => if x.isInfinite then ofResidue x.isNegative 314159 else [.notANumber x.bits]

/-- The fingerprint of bytes; nothing at all counts as zero. -/
def ofOctets (bytes : List Nat) : Fingerprint :=
  if bytes.isEmpty then ofResidue false 0 else [.octets bytes]

/-- The number of bytes that store one character of a text: as many as its widest one needs, out of
one, two and four. -/
def characterWidth (codes : List Nat) : Nat :=
  if codes.all (· < 0x100) then 1 else if codes.all (· < 0x10000) then 2 else 4

def storedNumber : Nat → Nat → List Nat
  | 0, _ => []
  | width + 1, n => n % 256 :: storedNumber width (n / 256)

def storedText (s : String) : List Nat :=
  let codes := s.toList.map Char.toNat
  codes.flatMap (storedNumber (characterWidth codes))

def group (parts : Fingerprint) : Fingerprint :=
  .openGroup :: parts ++ [.closeGroup]

/-- The fingerprint of an instance from those of its fields: that of a single field is not put in a
group. -/
def ofFields (declared : List String) (known : List (String × Fingerprint)) : Fingerprint :=
  match declared.map fun name => ((known.find? (·.1 == name)).map Prod.snd).getD [.unset] with
  | [part] => part
  | parts => group parts.flatten

end Fingerprint

namespace Value

open Fingerprint

abbrev FieldNames := String → List String

variable (declared : FieldNames)

mutual

/-- The fingerprint of a value, or the name of the type that keeps it from having one. -/
def fingerprint : Value → Except String Fingerprint
  | null => .ok [.absent]
  | bool b => .ok (ofResidue false (if b then 1 else 0))
  | int i => .ok (ofResidue (i < 0) i.natAbs)
  | float x => .ok (ofFloat x)
  | text s => .ok (ofOctets (storedText s))
  | bytes bs => .ok (ofOctets (bs.map UInt8.toNat))
  | tuple vs => (fingerprintAll vs).map group
  | point x y => do
    let x ← fingerprint x
    let y ← fingerprint y
    return group (x ++ y)
  | stream id derived _ => .ok [.stream id derived]
  | secretKey k => if k.isSealed then .ok [.secretKey k.scalar.val] else .error "bytearray"
  | publicKey k => .ok [.publicKey k.point.x.val k.point.y.val]
  | fakeSecret content => fingerprint content
  | fakePublic content => fingerprint content
  | model _ name fields => (fingerprintFields fields).map (ofFields (declared name))
  | buffer _ => .error "bytearray"
  | list _ => .error "list"
  | table _ => .error "dict"

def fingerprintAll : List Value → Except String Fingerprint
  | [] => .ok []
  | v :: vs => do
    let first ← fingerprint v
    let rest ← fingerprintAll vs
    return first ++ rest

def fingerprintFields : List (String × Value) → Except String (List (String × Fingerprint))
  | [] => .ok []
  | (name, v) :: fields => do
    let first ← fingerprint v
    let rest ← fingerprintFields fields
    return (name, first) :: rest

end

def distinct (vs : List Value) : List Value :=
  vs.foldl (fun seen v => if seen.any (same · v) then seen else seen ++ [v]) []

end Value
end KeyCodec
