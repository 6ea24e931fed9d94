import KeyCodec.Value.Equality
import KeyCodec.Value.Octets
import KeyCodec.Fault.Refusal

/-!
# Building keys

The ways to make a key out of a value: from bytes or hex text, which may start with `0x` once, from
another key, from an integer, from a pair of coordinates, and a public key from a secret one.  Each
way has its checks in a fixed order, and the first that fails decides the fault.
-/

namespace KeyCodec

/-- One leading `0x` is taken off. -/
def dropHexMark : List Char → List Char
  | '0' :: 'x' :: rest => rest
  | digits => digits

def keyTextBytes (role : KeyRole) (s : String) : Except Refusal (List UInt8) :=
  let digits := dropHexMark s.toList
  if Hex.isHex digits then
    match Bytes.ofHexPairs? digits with
    | some bs => .ok bs
    | none => .error (.oddDigits role digits.length)
  else .error (.keyText role)

/-- A text is replaced by the bytes that it spells. -/
def spelledBytes (role : KeyRole) : Value → Except Fault Value
  | .text s => ((keyTextBytes role s).map Value.bytes).mapError Refusal.fault
  | v => .ok v

def checkLength (role : KeyRole) (expected : Nat) (v : Value) : Except Fault Unit :=
  match v.length? with
  | none => .error (.noLength v)
  | some n =>
    if n = expected then .ok () else .error (Refusal.keyLength role expected n).fault

namespace SecretKey

/-- The scalar that bytes spell, which must not be zero and must lie below the order. -/
def scalarOf (bs : List UInt8) : Except Refusal Curve.Scalar :=
  let n := Bytes.toNat bs
  if n = 0 then .error .zeroSecret
  else match Curve.Scalar.ofNat? n with
    | some k => .ok k
    | none => .error .secretExceedsOrder

def check (v : Value) : Except Fault (Value × Curve.Scalar) := do
  let holder ← spelledBytes .secretKey v
  checkLength .secretKey width holder
  let bs ← holder.octets
  let k ← (scalarOf bs).mapError Refusal.fault
  return (holder, k)

/-- The bytes of a valid secret; a value that is no text is handed back as it is. -/
def validate (v : Value) : Except Fault Value :=
  (check v).map Prod.fst

def ofValue : Value → Except Fault SecretKey
  | .secretKey k => .ok k
  | v => do
    let (holder, k) ← check v
    match holder with
    | .bytes _ => return ⟨k, true⟩
    | .buffer _ => return ⟨k, false⟩
    | holder => .error (.ofMessage .type ("can't concat " ++ holder.typeName ++ " to bytes"))

def isScalar (v : Value) : Bool :=
  match v.integer? with
  | some i => 0 < i && i < Curve.order
  | none => false

def ofInteger (v : Value) : Except Fault SecretKey :=
  if isScalar v then do
    ofValue (← v.intToBytes (.int width))
  else .error Refusal.secretScalar.fault

def stored (k : SecretKey) : Value :=
  if k.isSealed then .bytes k.secret else .buffer k.secret

end SecretKey

def unpackPair (v : Value) : Except Fault (Value × Value) :=
  match v.items? with
  | none =>
    .error (.ofMessage .type ("cannot unpack non-iterable " ++ v.typeName ++ " object"))
  | some [a, b] => .ok (a, b)
  | some items =>
    if items.length < 2 then
      .error (.ofMessage .value
        ("not enough values to unpack (expected 2, got " ++ toString items.length ++ ")"))
    else .error (.ofMessage .value "too many values to unpack (expected 2)")

/-- What is left of a stream after an attempt to unpack two items: the attempt looks for a third. -/
def unreadAfterPair (unread : List Value) : List Value :=
  unread.drop 3

namespace PublicKey

def isCoordinate (v : Value) : Bool :=
  match v.integer? with
  | some i => 0 ≤ i && i < Curve.prime
  | none => false

/-- The first item of a value that has a length, or the value under zero in a table. -/
def firstItem : Value → Except Fault Value
  | .table entries =>
    match Value.find? entries (.int 0) with
    | some v => .ok v
    | none => .error (.standard .key [.int 0])
  | v =>
    match v.items? with
    | some (first :: _) => .ok first
    | _ => .error Refusal.keyHeader.fault

/-- The layout of the uncompressed form; a value that is no text is handed back as it is. -/
def validate (v : Value) : Except Fault Value := do
  let holder ← spelledBytes .publicKey v
  checkLength .publicKey width holder
  let first ← firstItem holder
  if first.same (.int header.toNat) then return holder else .error Refusal.keyHeader.fault

/-- The public key that a value stands for.  A holder of 65 items that is no bytes is found out only
when the bytes are needed.  Of that fault only the class is meant, which is that of types; its text
is made up. -/
def ofValue : Value → Except Fault PublicKey
  | .publicKey k => .ok k
  | v => do
    match ← validate v with
    | .bytes bs =>
      match ofBytes? bs with
      | some k => return k
      | none => .error Refusal.unparsable.fault
    | holder => .error (.ofMessage .type ("a public key is made of bytes, not " ++ holder.typeName))

def coordinate (axis : Axis) (point v : Value) : Except Refusal Curve.Coordinate :=
  match v.integer? with
  | some i =>
    if i < 0 then .error (.coordinate axis point)
    else match Curve.Coordinate.ofNat? i.toNat with
      | some c => .ok c
      | none => .error (.coordinate axis point)
  | none => .error (.coordinate axis point)

/-- The public key with the given coordinates, built from its uncompressed form once that has been
found to be a point. -/
def ofCoordinates (point x y : Value) : Except Fault PublicKey := do
  let cx ← (coordinate .x point x).mapError Refusal.fault
  let cy ← (coordinate .y point y).mapError Refusal.fault
  match ofBytes? (layout cx cy) with
  | some k => ofValue (.bytes k.bytes)
  | none => .error (Refusal.offCurve point).fault

def ofPoint (point : Value) : Except Fault PublicKey := do
  let (x, y) ← unpackPair point
  ofCoordinates point x y

def toPoint (k : PublicKey) : Value :=
  .point (.int k.point.x.val) (.int k.point.y.val)

end PublicKey

/-- The public key that belongs to a secret one, built from the uncompressed form of the base point
times its scalar. -/
def SecretKey.publicKey (k : SecretKey) : Except Fault PublicKey :=
  let (x, y) := k.scalar.baseMultiple
  PublicKey.ofValue (.bytes (PublicKey.layout x y))

end KeyCodec
