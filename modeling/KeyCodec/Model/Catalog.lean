import KeyCodec.Model.Schema

/-!
# The catalog of models

Models for one key and for both, over the curve and over the unchecked cores, and a wallet that
nests them.
-/

namespace KeyCodec
namespace Catalog

def secretSlot : KeySlot := .secretKey .secp256k1 .secretKey

def publicSlot : KeySlot := .publicKey .secp256k1 .publicKey false

def fakePublicSlot : KeySlot := .publicKey .unchecked .fakePublic false

def sk : KeyForm where
  name := "SK"
  fields := [⟨"sk", secretSlot, none⟩]

def pk : KeyForm where
  name := "PK"
  fields := [⟨"pk", publicSlot, none⟩]

def keyPair : KeyForm where
  name := "KeyPair"
  fields := [⟨"sk", secretSlot, none⟩, ⟨"pk", publicSlot, none⟩]

def strictPk : KeyForm where
  name := "StrictPK"
  fields := [⟨"pk", .publicKey .secp256k1 .publicKey true, none⟩]

def fake : KeyForm where
  name := "Fake"
  fields := [⟨"sk", .secretKey .unchecked .fakeSecret, none⟩, ⟨"pk", fakePublicSlot, none⟩]

def strictFake : KeyForm where
  name := "StrictFake"
  fields := [⟨"pk", .publicKey .unchecked .fakePublic true, none⟩]

/-- Both keys of a core that refuses to build any. -/
def reject : KeyForm where
  name := "Reject"
  fields := [⟨"sk", .secretKey .rejecting .fakeSecret, none⟩,
    ⟨"pk", .publicKey .rejecting .fakePublic false, none⟩]

/-- Positions for keys of the curve, over the unchecked core. -/
def mismatch : KeyForm where
  name := "Mismatch"
  fields := [⟨"sk", .secretKey .unchecked .secretKey, none⟩,
    ⟨"pk", .publicKey .unchecked .publicKey false, none⟩]

/-- The fields of a wallet: who owns it, who may sign, and other keys by name. -/
def wallet : Model where
  name := "Wallet"
  fields := [⟨"owner", .optionalKey secretSlot, some .null⟩, ⟨"signers", .forms keyPair, none⟩,
    ⟨"known", .keyTable fakePublicSlot, some (.table [])⟩]

def all : List Model :=
  [sk, pk, keyPair, strictPk, fake, strictFake, reject, mismatch].map KeyForm.toModel ++ [wallet]

def find? (name : String) : Option Model :=
  all.find? (·.name == name)

def fieldNames (name : String) : List String :=
  ((find? name).map fun model => model.fields.map (·.name)).getD []

end Catalog
end KeyCodec
