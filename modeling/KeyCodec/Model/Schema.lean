import KeyCodec.Reads
import KeyCodec.Model.Report

/-!
# Schemas

A schema names the fields of a model and says what each holds.  Key positions carry their codec: a
core, the type of key that may stand there, and for public keys whether records have to be complete.
-/

namespace KeyCodec

/-- The codec of a key position. -/
inductive KeySlot where
  | secretKey (core : Core) (type : KeyType)
  | publicKey (core : Core) (type : KeyType) (strict : Bool)

namespace KeySlot

def type : KeySlot → KeyType
  | secretKey _ type => type
  | publicKey _ type _ => type

def decode : KeySlot → Value → Reading Value
  | secretKey core _, v => ⟨decodeSecretKey core v, [], []⟩
  | publicKey core _ strict, v => decodePublicKey core strict v

def encode : KeySlot → Value → Except Fault Value
  | secretKey core _, v => (encodeSecretKey core v).map .text
  | publicKey core _ _, v => encodePublicKey core v

def reads : KeySlot → Value → Drains
  | secretKey _ _, _ => []
  | publicKey core _ _, key => Reads.encoding core key

def readsStreams : KeySlot → Bool
  | secretKey _ _ => false
  | publicKey _ _ _ => true

end KeySlot

/-- A field of a schema.  A field with a default may be left out. -/
structure SchemaField (Slot : Type) where
  name : String
  slot : Slot
  default? : Option Value := none

structure Schema (Slot : Type) where
  name : String
  fields : List (SchemaField Slot)

namespace Schema

def field? {Slot : Type} (s : Schema Slot) (name : String) : Option (SchemaField Slot) :=
  s.fields.find? (·.name == name)

def declares {Slot : Type} (s : Schema Slot) (name : String) : Bool :=
  s.fields.any (·.name == name)

end Schema

abbrev KeyForm := Schema KeySlot

inductive Slot where
  | key (slot : KeySlot)
  | optionalKey (slot : KeySlot)
  /-- A list of filled-in forms. -/
  | forms (form : KeyForm)
  | keyTable (slot : KeySlot)

abbrev Model := Schema Slot

def KeyForm.toModel (form : KeyForm) : Model where
  name := form.name
  fields := form.fields.map fun f => ⟨f.name, .key f.slot, f.default?⟩

end KeyCodec
