import KeyCodec.Fault.Basic

/-!
# Refusals

Every reason for which a codec or a key constructor refuses its input, with the wording in one
place.  A refusal becomes a fault by writing its message; when a value in the message is too long to
be written, the fault is that, and not the refusal.
-/

namespace KeyCodec

inductive Axis where
  | x
  | y
  deriving DecidableEq

def Axis.name : Axis → String
  | x => "x"
  | y => "y"

inductive KeyRole where
  | secretKey
  | publicKey
  deriving DecidableEq

namespace KeyRole

def title : KeyRole → String
  | secretKey => "Secret key"
  | publicKey => "Public key"

def noun : KeyRole → String
  | secretKey => "secret key"
  | publicKey => "public key"

end KeyRole

/-- Why an input is refused. -/
inductive Refusal where
  /-- Only an integer can be written in hex, and a truth value is none. -/
  | notInteger (v : Value)
  | negative (i : Int)
  | notText (v : Value)
  | emptyText
  | notHex (s : String)
  /-- The text of a secret key is unreadable; it is not repeated. -/
  | secretText
  /-- The scalar of a secret key is out of range; it is not repeated. -/
  | secretScalar
  | coordinate (axis : Axis) (point : Value)
  | offCurve (point : Value)
  | unparsable
  | notRecord (v : Value)
  | notPair (item : Value)
  | unknownField (name : Value)
  | missingField (name : Value)
  | coordinateText (axis : Axis) (v : Value) (why : Refusal)
  | keyText (role : KeyRole)
  | oddDigits (role : KeyRole) (count : Nat)
  | keyLength (role : KeyRole) (expected got : Nat)
  | zeroSecret
  | secretExceedsOrder
  | keyHeader

namespace Refusal

def curveMessage : String :=
  "The public key could not be parsed or is invalid."

def oddMessage (count : Nat) : String :=
  "non-hexadecimal number found in fromhex() arg at position " ++ toString count

def kind : Refusal → CodecClass
  | notInteger _ | negative _ | keyText _ | oddDigits _ _ | keyLength _ _ _ | zeroSecret
  | secretExceedsOrder | keyHeader => .validation
  | notText _ | emptyText | notHex _ | secretText | coordinateText _ _ _ => .hexParse
  | secretScalar | coordinate _ _ | offCurve _ | unparsable => .keyConstruction
  | notRecord _ | notPair _ => .serialization
  | unknownField _ => .unknownField
  | missingField _ => .missingField

/-- The message of a refusal; `none` when it would repeat an integer that is too long. -/
def message? : Refusal → Option String
  | notInteger v => some ("Expected integer, got " ++ v.typeName)
  | negative i => (Integer.text? i).map ("Cannot hex-encode negative integer: " ++ ·)
  | notText v => some ("Expected hex string, got " ++ v.typeName)
  | emptyText => some "Empty hex string"
  | notHex s => some ("Invalid hex string: " ++ Text.quoted s)
  | secretText => some "Secret key is not a valid hex string"
  | secretScalar => some "Secret scalar must be in range [1, n) for secp256k1"
  | coordinate axis _ => some ("Coordinate " ++ axis.name ++ " is not a field element")
  | offCurve _ => some ("Point is not on the curve: " ++ curveMessage)
  | unparsable => some ("Invalid public key: " ++ curveMessage)
  | notRecord v => some ("Expected public key record, got " ++ v.typeName)
  | notPair item =>
    item.display?.map ("Expected (name, value) pair in public key record, got " ++ ·)
  | unknownField name =>
    name.display?.map fun t => "Unknown public key field " ++ t ++ ", expected 'x' or 'y'"
  | missingField name => name.display?.map ("Missing public key field " ++ ·)
  | coordinateText axis _ why =>
    why.message?.map fun t => "Public key field '" ++ axis.name ++ "': " ++ t
  | keyText role => some (role.title ++ " must be hexadecimal")
  | oddDigits role count => some ("Invalid hex " ++ role.noun ++ ": " ++ oddMessage count)
  | keyLength role expected got =>
    some (role.title ++ " must be " ++ toString expected ++ " bytes, got " ++ toString got)
  | zeroSecret => some "Secret key cannot be zero"
  | secretExceedsOrder => some "Secret key exceeds curve order"
  | keyHeader => some "Uncompressed public key must start with 0x04"

def data : Refusal → Value
  | notText v | notRecord v => v
  | emptyText => .text ""
  | notHex s => .text s
  | coordinate _ point | offCurve point => point
  | notPair item => item
  | coordinateText _ v _ => v
  | _ => .null

def field : Refusal → Value
  | coordinate axis _ | coordinateText axis _ _ => .text axis.name
  | unknownField name | missingField name => name
  | _ => .null

def attributes (r : Refusal) (message : String) : FaultAttributes :=
  { message := .text message, data := r.data, field := r.field }

def cause : Refusal → Option Fault
  | offCurve _ | unparsable => some (.ofMessage .value curveMessage)
  | oddDigits _ count => some (.ofMessage .value (oddMessage count))
  | coordinateText _ _ why => why.message?.map fun m => .codec why.kind (why.attributes m) none
  | _ => none

def fault? (r : Refusal) : Option Fault :=
  r.message?.map fun m => .codec r.kind (r.attributes m) r.cause

def fault (r : Refusal) : Fault :=
  r.fault?.getD .digitLimit

end Refusal

namespace Fault

/-- The fault of a key that its core has rejected, caused by the core's own fault. -/
def rejected (role : KeyRole) (data : Value) (why : Fault) : Fault :=
  match why.text with
  | .error inner => inner
  | .ok t =>
    .codec .keyConstruction
      { message := .text (role.title ++ " rejected: " ++ t), data := data } (some why)

end Fault
end KeyCodec
