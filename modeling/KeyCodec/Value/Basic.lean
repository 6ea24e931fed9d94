import KeyCodec.Key.Secret
import KeyCodec.Key.Public
import KeyCodec.Number.Binary64

/-!
# Values

Whatever can be handed to a codec or come out of one: plain data, keys, keys of the unchecked core,
filled-in models, and one-shot streams.  A stream has an identity and the items it has not yet given
out, because reading from it is visible to everyone who holds it.  An instance of a model has an
identity once a session keeps it, because attributes may then be added to it.
-/

namespace KeyCodec

inductive Value where
  | null
  | bool (b : Bool)
  | int (i : Int)
  | float (x : Binary64)
  | text (s : String)
  | bytes (bs : List UInt8)
  /-- Bytes in a buffer that may still change. -/
  | buffer (bs : List UInt8)
  | list (vs : List Value)
  | tuple (vs : List Value)
  /-- A pair of coordinates, which need not be numbers. -/
  | point (x y : Value)
  /-- Entries in insertion order, with distinct keys. -/
  | table (entries : List (Value × Value))
  /-- A one-shot stream and its unread items.  A `derived` one reads another stream, whose identity
  it shares, and gives out its items in a different form. -/
  | stream (id : Nat) (derived : Bool) (unread : List Value)
  | secretKey (k : SecretKey)
  | publicKey (k : PublicKey)
  /-- A secret key of the unchecked core, which holds anything. -/
  | fakeSecret (content : Value)
  /-- A public key of the unchecked core, which holds anything. -/
  | fakePublic (content : Value)
  /-- A filled-in model: its identity, if it has one, its name, and its fields in declared order. -/
  | model (id : Option Nat) (name : String) (fields : List (String × Value))
  deriving Inhabited

namespace Value

def typeName : Value → String
  | null => "NoneType"
  | bool _ => "bool"
  | int _ => "int"
  | float _ => "float"
  | text _ => "str"
  | bytes _ => "bytes"
  | buffer _ => "bytearray"
  | list _ => "list"
  | tuple _ => "tuple"
  | point _ _ => "Point"
  | table _ => "dict"
  | stream _ derived _ => if derived then "SerializationIterator" else "list_iterator"
  | secretKey _ => "SecretKey"
  | publicKey _ => "PublicKey"
  | fakeSecret _ => "FakeSecretKey"
  | fakePublic _ => "FakePublicKey"
  | model _ name _ => name

/-- The integer that a value is; a truth value counts as one or zero. -/
def integer? : Value → Option Int
  | int i => some i
  | bool b => some (if b then 1 else 0)
  | _ => none

def length? : Value → Option Nat
  | text s => some s.length
  | bytes bs | buffer bs => some bs.length
  | list vs | tuple vs => some vs.length
  | point _ _ => some 2
  | table entries => some entries.length
  | _ => none

/-- What a value yields, item by item; `none` when it cannot be iterated. -/
def items? : Value → Option (List Value)
  | text s => some (s.toList.map fun c => text (String.ofList [c]))
  | bytes bs | buffer bs => some (bs.map fun b => int b.toNat)
  | list vs | tuple vs => some vs
  | point x y => some [x, y]
  | table entries => some (entries.map Prod.fst)
  | stream _ _ unread => some unread
  | model _ _ fields => some (fields.map fun (name, v) => tuple [text name, v])
  | _ => none

def isTruthy : Value → Bool
  | null => false
  | bool b => b
  | int i => i != 0
  | float x => !x.isZero
  | v => v.length? != some 0

end Value
end KeyCodec
