import KeyCodec.Core
import KeyCodec.Record.Reader

/-!
# The two key codecs

A secret key is written as the hex text of its scalar, a public key as a record of the hex texts of
its coordinates.  Both directions go through a core.  A fault of the core that says by its class
that a key could not be built passes as it is; any other value fault becomes the cause of such a
fault; everything else is none of the codec's business.
-/

namespace KeyCodec

/-- A core's answer to a request for a key, with its faults sorted by class. -/
def accept (role : KeyRole) (data : Value) : Except Fault Value → Except Fault Value
  | .ok key => .ok key
  | .error (.codec .keyConstruction attributes cause) =>
    .error (.codec .keyConstruction attributes cause)
  | .error f => .error (if f.isValueFault then .rejected role data f else f)

def encodeSecretKey (core : Core) (key : Value) : Except Fault String := do
  let scalar ← core.toScalar key
  (HexText.encode scalar).mapError Refusal.fault

/-- The secret key that a text of hex digits stands for.  The text is never repeated in a fault. -/
def decodeSecretKey (core : Core) (v : Value) : Except Fault Value :=
  match HexText.decode v with
  | .error _ => .error Refusal.secretText.fault
  | .ok n => accept .secretKey .null (core.ofScalar (.int n))

def recordOf (x y : String) : Value :=
  .table [(.text Axis.x.name, .text x), (.text Axis.y.name, .text y)]

def encodePublicKey (core : Core) (key : Value) : Except Fault Value := do
  let (x, y) ← unpackPair (← core.toPoint key)
  let x ← (HexText.encode x).mapError Refusal.fault
  let y ← (HexText.encode y).mapError Refusal.fault
  return recordOf x y

section Asking

variable {m : Type → Type} [Monad m] (ask : Value → m (Except Fault Value))

/-- The public key of the coordinates read from a record; the key of a point has to be asked for.  A
strict reader insists on both coordinates; a lenient one takes zero for what is missing and leaves
it to the core to refuse. -/
def publicKeyOf (strict : Bool) (c : Record.Coordinates) :
    m (Except Fault Value × List Notice) :=
  match strict, Record.missing c with
  | true, axis :: _ => pure (.error (Refusal.missingField (.text axis.name)).fault, [])
  | _, axes => do
    let answer ← ask c.point
    return (accept .publicKey c.point answer, axes.map .defaulted)

/-- The public key that a record stands for; the key of a point has to be asked for. -/
def readPublicKey (strict : Bool) (record : Value) : m (Reading Value) :=
  match Record.items? record with
  | none => pure ⟨.error (Refusal.notRecord record).fault, [], []⟩
  | some items =>
    let reading := Record.read items
    match reading.outcome with
    | .error f => pure ⟨.error f, reading.notices, reading.unread⟩
    | .ok c => do
      let (outcome, notices) ← publicKeyOf ask strict c
      return ⟨outcome, reading.notices ++ notices, reading.unread⟩

end Asking

def decodePublicKey (core : Core) (strict : Bool) (record : Value) : Reading Value :=
  Id.run (readPublicKey (fun point => pure (core.ofPoint point)) strict record)

end KeyCodec
