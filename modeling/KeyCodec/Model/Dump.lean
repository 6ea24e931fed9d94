import KeyCodec.Json.Writer
import KeyCodec.Model.Place
import KeyCodec.Text.Utf8
import KeyCodec.Value.Distinct

/-!
# Writing out models

An instance is written out as a table, key by key with the codecs of its positions, or as the JSON
text of that table.  A codec that fails makes the whole dump fail, with a message that names its
fault.  An instance that was never checked may hold anything; what is not expected is written by its
own kind, instances by the fields that their own model declares.

Writing reads the streams that it meets, part by part, so a part sees what the parts before it have
left, and after a failure everything behind it is still unread.  Among values a stream is not read:
a stream that writes out its items takes its place.
-/

namespace KeyCodec

/-- What a dump is made for: values to be held, or JSON text. -/
inductive Medium where
  | values
  | text
  deriving DecidableEq

/-- A part of a dump: it may fail, and it reads from streams either way. -/
abbrev Dumping := ExceptT Fault (StateM Drains)

def Dumping.outcome {α : Type} (d : Dumping α) : Except Fault α :=
  (d.run.run []).1

def Dumping.reads {α : Type} (d : Dumping α) : Drains :=
  (d.run.run []).2

namespace Dump

def described (f : Fault) : String :=
  let text := match f.text with
    | .ok t => t
    | .error _ => "<exception str() failed>"
  f.className ++ ": " ++ text

def codecFault (why : Fault) : Fault :=
  .ofMessage .dump ("Error calling function `_serialize`: " ++ described why)

def textFault (why : String) : Fault :=
  .ofMessage .dump ("Error serializing to JSON: " ++ why)

def report : Medium → Fault → Fault
  | .values, f => f
  | .text, f => textFault (described f)

def typePath (v : Value) : String :=
  match v with
  | .secretKey _ | .publicKey _ => "ecserde.crypto.keys." ++ v.typeName
  | v => "__main__." ++ v.typeName

/-- A key cannot stand in a text by itself. -/
def unknownType (v : Value) : Fault :=
  .ofMessage .dump ("Unable to serialize unknown type: <class '" ++ typePath v ++ "'>")

def notName (kind : String) : Fault :=
  .ofMessage .type ("`" ++ kind ++ "` not valid as object key")

def nameOfBytes (bs : List UInt8) : Except Fault String :=
  (Utf8.decode bs).mapError fun o => .ofMessage (.other "UnicodeDecodeError" true) o.nameMessage

mutual

/-- The name of a member made from the key of an entry: that of a sequence has those of its items,
with commas between them, and that of an instance is its text. -/
def memberName : Value → Except Fault String
  | .text s => .ok s
  | .null => .ok "None"
  | .bool b => .ok (if b then "true" else "false")
  | .int i => Fault.requireText (Integer.text? i)
  | .float x => .ok (FloatNotation.message.render x)
  | .bytes bs => nameOfBytes bs
  | .buffer bs => nameOfBytes bs
  | .tuple vs => (memberNames vs).map (",".intercalate ·)
  | .point x y => do
    let x ← memberName x
    let y ← memberName y
    return x ++ "," ++ y
  | .model id name fields => Fault.requireText (Value.model id name fields).plain?
  | .list _ => .error (notName "list")
  | .table _ => .error (notName "dict")
  | .stream _ _ _ => .error (notName "generator")
  | .secretKey k => .error (unknownType (.secretKey k))
  | .publicKey k => .error (unknownType (.publicKey k))
  | .fakeSecret content => .error (unknownType (.fakeSecret content))
  | .fakePublic content => .error (unknownType (.fakePublic content))

def memberNames : List Value → Except Fault (List String)
  | [] => .ok []
  | v :: vs => do
    let name ← memberName v
    let names ← memberNames vs
    return name :: names

end

/-- A value without parts.  In a text, bytes have to spell a text, and a float that is no number is
left out. -/
def leaf : Medium → Value → Except Fault Value
  | .values, v => .ok v
  | .text, .bytes bs => ((Utf8.decode bs).map .text).mapError fun o => textFault o.message
  | .text, .buffer bs => ((Utf8.decode bs).map .text).mapError fun o => textFault o.message
  | .text, .float x => .ok (if x.isNaN || x.isInfinite then .null else .float x)
  | .text, .secretKey k => .error (unknownType (.secretKey k))
  | .text, .publicKey k => .error (unknownType (.publicKey k))
  | .text, .fakeSecret content => .error (unknownType (.fakeSecret content))
  | .text, .fakePublic content => .error (unknownType (.fakePublic content))
  | .text, v => .ok v

/-- A value without parts at a place.  A key of the unchecked core that stands where a form is
expected is written as a form in which nothing is filled in. -/
def leafAt (medium : Medium) : Place → Value → Except Fault Value
  | .form _, .fakeSecret _ => .ok (.table [])
  | .form _, .fakePublic _ => .ok (.table [])
  | _, v => leaf medium v

def tooDeep : Medium → Value → Except Fault Value
  | .values, v => .ok v
  | .text, _ =>
    .error (report .text (.ofMessage .value "Circular reference detected (depth exceeded)"))

def sequence : Medium → List Value → Value
  | .values, vs => .tuple vs
  | .text, vs => .list vs

def writeKey (medium : Medium) (codec : KeySlot) (key : Value) : Dumping Value := do
  let key := key.refresh (← get)
  modify (codec.reads key ++ ·)
  MonadExcept.ofExcept ((codec.encode key).mapError fun f => report medium (codecFault f))

mutual

def write (medium : Medium) (room : Nat) (place : Place) (v : Value) : Dumping Value :=
  match place.codec? v with
  | some codec => writeKey medium codec v
  | none =>
    match place.enter room v with
    | none => MonadExcept.ofExcept (tooDeep medium v)
    | some room =>
      match v with
      | .list vs => return .list (← writeItems medium room place.item vs)
      | .tuple vs => return sequence medium (← writeItems medium room .anything vs)
      | .point x y => do
        let x ← write medium room .anything x
        let y ← write medium room .anything y
        return sequence medium [x, y]
      | .table entries => return .table (← writeEntries medium room place.entry entries)
      | .stream id _ items =>
        match medium with
        | .values => return .stream id true (← writeAhead room items)
        | .text => return .list (← writeStream medium room id items)
      | .model _ name fields =>
        return .table (← writeFields medium room (place.schema name) fields)
      | v => MonadExcept.ofExcept (leafAt medium place v)

def writeItems (medium : Medium) (room : Nat) (place : Place) :
    List Value → Dumping (List Value)
  | [] => return []
  | v :: vs => do
    let item ← write medium room place v
    let items ← writeItems medium room place vs
    return item :: items

/-- Entries written out, one after the other.  Among values, a written key has to be fit for a
table again. -/
def writeEntries (medium : Medium) (room : Nat) (place : Place) :
    List (Value × Value) → Dumping (List (Value × Value))
  | [] => return []
  | (k, v) :: entries => do
    let key ← match medium with
      | .values => write medium room .anything k
      | .text => MonadExcept.ofExcept (((memberName k).map .text).mapError (report medium))
    let written ← write medium room place v
    let _ ← MonadExcept.ofExcept (Value.requireFingerprint Catalog.fieldNames key)
    let rest ← writeEntries medium room place entries
    return (key, written) :: rest

/-- The items of a stream read and written out, one after the other; those that have been read
before are passed over. -/
def writeStream (medium : Medium) (room id : Nat) : List Value → Dumping (List Value)
  | [] => return []
  | v :: rest => do
    if (← get).left id (rest.length + 1) ≤ rest.length then writeStream medium room id rest
    else
      modify ((id, rest.length) :: ·)
      let item ← write medium room .anything v
      let items ← writeStream medium room id rest
      return item :: items

/-- The items of a stream as they will be written out when they are read; one that cannot be written
stays as it is. -/
def writeAhead (room : Nat) : List Value → Dumping (List Value)
  | [] => return []
  | v :: rest => do
    let ahead := ((write .values room .anything v).run.run (← get)).1
    let items ← writeAhead room rest
    return (ahead.toOption.getD v) :: items

/-- The fields of an instance written out; what the schema does not declare is left out. -/
def writeFields (medium : Medium) (room : Nat) (schema : Model) :
    List (String × Value) → Dumping (List (Value × Value))
  | [] => return []
  | (name, v) :: fields =>
    match schema.field? name with
    | none => writeFields medium room schema fields
    | some field => do
      let written ← write medium room (.slot field.slot) v
      let rest ← writeFields medium room schema fields
      return (.text name, written) :: rest

end

end Dump

namespace Model

def fieldsOf : Value → List (String × Value)
  | .model _ _ fields => fields
  | _ => []

def dump (model : Model) (medium : Medium) (v : Value) : Dumping Value := do
  return .table (← Dump.writeFields medium Place.nestingLimit model (fieldsOf v))

def dumpText (model : Model) (v : Value) : Dumping String := do
  return (Json.ofValue (← model.dump .text v)).write

def dumpBytes (model : Model) (v : Value) : Dumping (List UInt8) := do
  return (← model.dumpText v).toUTF8.toList

end Model
end KeyCodec
