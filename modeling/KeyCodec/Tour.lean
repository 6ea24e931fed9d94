import KeyCodec.Model.Catalog
import KeyCodec.Model.Dump
import KeyCodec.Model.Validate

/-!
# A tour

Two short demonstrations with printed text: a model that survives being written out and read back,
and the codecs by themselves, on a key and on two records that are refused.
-/

namespace KeyCodec
namespace Tour

structure Printed where
  text : Except Fault String
  notices : List Notice

def key : SecretKey where
  scalar := ⟨123456, by decide, by decide⟩

def abscissa : String :=
  "79be667ef9dcbbac55a06295ce870b07029bfcdb2dce28d959f2815b16f81798"

def heading (title : String) : String :=
  "\n=== " ++ title ++ " Example ===\n"

def pair (publicKey : PublicKey) : Value :=
  .model none Catalog.keyPair.name [("sk", .secretKey key), ("pk", .publicKey publicKey)]

def survives (instanceValue : Value) (text : String) : Bool :=
  match (Catalog.keyPair.toModel.validateText (.text text)).verdict with
  | .accepted again => again.same instanceValue
  | _ => false

def modelExample : Printed where
  text := do
    let publicKey ← key.publicKey
    let text ← (Catalog.keyPair.toModel.dumpText (pair publicKey)).outcome
    let verdict := if survives (pair publicKey) text then "True" else "False"
    return heading "Model" ++ "Serialized: " ++ text ++ "\nRound trip equal: " ++ verdict ++ "\n"
  notices := []

def refused (record : Value) : Printed :=
  let reading := decodePublicKey .secp256k1 false record
  let text := match reading.outcome with
    | .ok _ => .ok ""
    | .error f => f.text.map fun t => "Rejected record: " ++ t ++ "\n"
  ⟨text, reading.notices⟩

def unknownName : Printed :=
  refused (.table [(.text "x", .text "1"), (.text "w", .text "2")])

/-- A record without an ordinate, which is then zero and not on the curve. -/
def noOrdinate : Printed :=
  refused (.table [(.text "x", .text abscissa)])

def codecExample : Printed where
  text := do
    let scalar ← encodeSecretKey .secp256k1 (.secretKey key)
    let unknown ← unknownName.text
    let off ← noOrdinate.text
    return heading "Codec" ++ "Secret scalar 123456 -> " ++ scalar ++ "\n" ++ unknown ++ off
  notices := unknownName.notices ++ noOrdinate.notices

def full : Printed where
  text := do
    let model ← modelExample.text
    let codec ← codecExample.text
    return model ++ codec
  notices := modelExample.notices ++ codecExample.notices

end Tour
end KeyCodec
