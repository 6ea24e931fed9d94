import KeyCodec.Key.Build
import KeyCodec.Text.Template

/-!
# What keys answer

The parts of a key that a value may be asked for.  A value without the part in question has no
answer.  The fault names the part that was looked for: a core asks a key for its scalar or its
point, while the operations of a key go straight to what the key stores.
-/

namespace KeyCodec
namespace Value

def scalar : Value → Except Fault Value
  | secretKey k => .ok (int k.number)
  | v => .error (.noAttribute v "to_int")

def shownPoint : Value → Except Fault Value
  | publicKey k => .ok k.toPoint
  | fakePublic content => .ok content
  | v => .error (.noAttribute v "point")

def storedSecret : Value → Except Fault Value
  | secretKey k => .ok k.stored
  | v => .error (.noAttribute v "secret")

def readSecret : Value → Except Fault SecretKey
  | secretKey k => .ok k
  | v => .error (.noAttribute v "_secret")

def secretNumber (v : Value) : Except Fault Value :=
  (readSecret v).map fun k => int k.number

def secretHex (v : Value) : Except Fault Value :=
  (readSecret v).map fun k => text (String.ofList k.hex)

def publicPartner : Value → Except Fault Value
  | secretKey k => k.publicKey.map publicKey
  | publicKey k => .error (.noAttribute (publicKey k) "public_key")
  | v => .error (.noAttribute v "_key")

def uncompressed : Value → Except Fault Value
  | publicKey k => .ok (bytes k.bytes)
  | secretKey _ =>
    .error (.ofMessage .member "'PrivateKey' object has no attribute 'format'")
  | v => .error (.noAttribute v "_key")

def templateFault : Template.Offence → Fault
  | .lone bracket =>
    .ofMessage .value ("Single '" ++ bracket.toString ++ "' encountered in format string")
  | .openGap => .ofMessage .value "expected '\x7d' before end of string"
  | .openInName => .ofMessage .value "unexpected '\x7b' in field name"
  | .noConversion =>
    .ofMessage .value "end of string while looking for conversion specifier"
  | .afterConversion => .ofMessage .value "expected ':' after conversion specifier"
  | .openLayout => .ofMessage .value "unmatched '\x7b' in format spec"
  | .hugeNumber => .ofMessage .value "Too many decimal digits in format string"
  | .numbered n =>
    .ofMessage (.other "IndexError")
      ("Replacement index " ++ toString n ++ " out of range for positional args tuple")
  | .named name => .standard .key [.text name]

/-- The hex digits of the uncompressed form of a public key.  The form of a text is the text filled
in as a template, which has no hex digits. -/
def uncompressedHex : Value → Except Fault Value
  | publicKey k => .ok (text (String.ofList k.hex))
  | text s =>
    .error (match Template.offence? s.toList with
      | some offence => templateFault offence
      | none => .noAttribute (text s) "hex")
  | v => .error (.noAttribute v "format")

/-- The part of a value that goes by a name. -/
def part (v : Value) (name : String) : Except Fault Value :=
  let missing : Fault :=
    .ofMessage .member
      (Text.quoted v.typeName ++ " object has no attribute " ++ Text.quoted name)
  match v with
  | model _ _ fields =>
    match fields.find? (·.1 == name) with
    | some (_, found) => .ok found
    | none => .error missing
  | point x y => if name = "x" then .ok x else if name = "y" then .ok y else .error missing
  | fakeSecret content => if name = "value" then .ok content else .error missing
  | fakePublic content => if name = "point" then .ok content else .error missing
  | secretKey k => if name = "secret" then .ok k.stored else .error missing
  | publicKey k => if name = "point" then .ok k.toPoint else .error missing
  | _ => .error missing

end Value
end KeyCodec
