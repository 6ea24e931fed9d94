import KeyCodec.Json.Reader
import KeyCodec.Model.Schema
import KeyCodec.Model.Source
import KeyCodec.Model.Verdict

/-!
# Filling in models

Every field is checked, in declared order, and every problem is reported; fields that are not
declared come last, in the order of the input.  A key position takes an instance of its type as it
is and hands everything else to its codec, whose answer has to be an instance again.
-/

namespace KeyCodec

namespace KeySlot

def judge (slot : KeySlot) : Except Fault Value → Verdict Value
  | .ok key =>
    if slot.type.admits key then .accepted key
    else .rejected [⟨[], .notInstance slot.type⟩]
  | .error f => if f.isValueFault then .rejected [⟨[], .refused f⟩] else .failed f

def check (slot : KeySlot) (drains : Drains) (s : Source) : Step Value :=
  let v := drains.current s.toValue
  if slot.type.admits v then Step.of drains (.accepted v)
  else
    let reading := slot.decode v
    let drains := if slot.readsStreams then drains.note v reading.unread else drains
    ⟨slot.judge reading.outcome, reading.notices, drains⟩

end KeySlot

namespace Schema

/-- The check of the field of a schema, given the source for it, if there is one. -/
def checkField {Slot : Type} (check : Slot → Drains → Source → Step Value)
    (f : SchemaField Slot) (drains : Drains) : Option Source → Step Value
  | some s => (check f.slot drains s).under (.name f.name)
  | none =>
    match f.default? with
    | some v => Step.of drains (.accepted v)
    | none => Step.of drains (.rejected [⟨[.name f.name], .missing⟩])

def checkFields {Slot : Type} (check : Slot → Drains → Source → Step Value)
    (entries : List (Value × Source)) :
    List (SchemaField Slot) → Drains → Step (List (String × Value))
  | [], drains => Step.of drains (.accepted [])
  | f :: fields, drains =>
    (checkField check f drains (Source.named? entries f.name)).andThen
      (fun v rest => (f.name, v) :: rest) (checkFields check entries fields)

/-- The rows about entries that are not declared. -/
def extras {Slot : Type} (schema : Schema Slot) (entries : List (Value × Source)) : List Row :=
  entries.filterMap fun (k, _) =>
    match k with
    | .text name => if schema.declares name then none else some ⟨[.name name], .extra⟩
    | k => some ⟨[PathItem.ofKey k], .keyNotText⟩

def isInstance {Slot : Type} (schema : Schema Slot) : Value → Bool
  | .model _ name _ => name == schema.name
  | _ => false

def check {Slot : Type} (slotCheck : Slot → Drains → Source → Step Value)
    (schema : Schema Slot) (drains : Drains) (s : Source) : Step Value :=
  if schema.isInstance s.toValue then Step.of drains (.accepted s.toValue)
  else
    match s.members? with
    | none => Step.of drains (.rejected [⟨[], .notModel schema.name s.fromText⟩])
    | some entries =>
      ((checkFields slotCheck entries schema.fields drains).andThen (fun fields _ => fields)
        fun drains => Step.of drains (.ofRows (schema.extras entries))).map (.model none schema.name)

end Schema

def KeyForm.check (form : KeyForm) (drains : Drains) (s : Source) : Step Value :=
  Schema.check KeySlot.check form drains s

namespace Slot

def checkItems (check : Drains → Source → Step Value) :
    Nat → List Source → Drains → Step (List Value)
  | _, [], drains => Step.of drains (.accepted [])
  | i, s :: rest, drains =>
    ((check drains s).under (.index i)).andThen List.cons (checkItems check (i + 1) rest)

/-- The name of an entry of a table; bytes are read as text. -/
def entryName (k : Value) : Verdict Value :=
  match k with
  | .text s => .accepted (.text s)
  | .bytes bs | .buffer bs =>
    match String.fromUTF8? ⟨bs.toArray⟩ with
    | some s => .accepted (.text s)
    | none => .rejected [⟨[PathItem.ofKey k, .name "[key]"], .notUnicode⟩]
  | k => .rejected [⟨[PathItem.ofKey k, .name "[key]"], .notText⟩]

def checkEntries (check : Drains → Source → Step Value) :
    List (Value × Source) → Drains → Step (List (Value × Value))
  | [], drains => Step.of drains (.accepted [])
  | (k, s) :: rest, drains =>
    ((Step.of drains (entryName k)).andThen Prod.mk fun drains =>
        (check drains s).under (PathItem.ofKey k)).andThen
      List.cons (checkEntries check rest)

def check (slot : Slot) (drains : Drains) (s : Source) : Step Value :=
  match slot with
  | key slot => slot.check drains s
  | optionalKey slot =>
    match s.toValue with
    | .null => Step.of drains (.accepted .null)
    | _ => slot.check drains s
  | forms form =>
    let s := s.refresh drains
    match s.sequence? with
    | none => Step.of drains (.rejected [⟨[], .notList s.fromText⟩])
    | some items => (checkItems form.check 0 items (drains.note s.toValue [])).map .list
  | keyTable slot =>
    match s.entries? with
    | none => Step.of drains (.rejected [⟨[], .notTable s.fromText⟩])
    | some entries => (checkEntries slot.check entries drains).map .tableOf

end Slot

namespace Model

def check (model : Model) (drains : Drains) (s : Source) : Step Value :=
  Schema.check Slot.check model drains s

def validate (model : Model) (v : Value) : Step Value :=
  model.check [] (.held v)

/-- The characters of a text, which may be given as bytes. -/
def characters? : Value → Option String
  | .text s => some s
  | .bytes bs | .buffer bs => String.fromUTF8? ⟨bs.toArray⟩
  | _ => none

def validateText (model : Model) (text : Value) : Step Value :=
  match (characters? text).bind Json.parse? with
  | some j => model.check [] (.parsed j)
  | none => Step.of [] (.rejected [⟨[], .invalidText⟩])

/-- An instance without any check: given fields, then defaults; what is neither stays out. -/
def construct (model : Model) (given : List (Value × Value)) : Value :=
  .model none model.name <| model.fields.filterMap fun f =>
    ((Value.find? given (.text f.name)).or f.default?).map fun v => (f.name, v)

end Model
end KeyCodec
