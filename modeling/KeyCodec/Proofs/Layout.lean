import KeyCodec.Model.Catalog
import KeyCodec.Model.Validate
import KeyCodec.Proofs.Sources

/-!
# Where the keys of an input are

The layout of an input names its key positions: the path to each, the codec of the position and the
value that stands there.  It also says whether everything else is in order, that is, whether nothing
is missing, nothing is left over, and lists and tables stand where they are expected.  Finding a
layout reads no key and decodes nothing.
-/

namespace KeyCodec

structure KeyPosition where
  path : List PathItem
  slot : KeySlot
  value : Value

namespace KeyPosition

def under (item : PathItem) (pos : KeyPosition) : KeyPosition :=
  { pos with path := item :: pos.path }

/-- The position holds an instance of its type, which is kept, or something that its codec makes a
key of when it is called on it. -/
def Takes (pos : KeyPosition) (key : Value) : Prop :=
  pos.slot.type.admits pos.value = true ∧ key = pos.value ∨
    pos.slot.type.admits pos.value = false ∧ (pos.slot.decode pos.value).outcome = .ok key

/-- The position holds something that is no instance of its type, and that its codec refuses when it
is called on it. -/
def Refuses (pos : KeyPosition) (f : Fault) : Prop :=
  pos.slot.type.admits pos.value = false ∧ (pos.slot.decode pos.value).outcome = .error f

section Codecs

variable {path : List PathItem} {core : Core} {type : KeyType} {v key : Value} {f : Fault}

/-- At a position for secret keys the codec that is called is `decodeSecretKey`, with the core of
the position. -/
theorem takes_secretKey_iff :
    Takes ⟨path, .secretKey core type, v⟩ key ↔
      type.admits v = true ∧ key = v ∨
        type.admits v = false ∧ decodeSecretKey core v = .ok key :=
  Iff.rfl

/-- At a position for public keys the codec that is called is `decodePublicKey`, with the core of
the position, and as strict as the position is. -/
theorem takes_publicKey_iff {strict : Bool} :
    Takes ⟨path, .publicKey core type strict, v⟩ key ↔
      type.admits v = true ∧ key = v ∨
        type.admits v = false ∧ (decodePublicKey core strict v).outcome = .ok key :=
  Iff.rfl

theorem refuses_secretKey_iff :
    Refuses ⟨path, .secretKey core type, v⟩ f ↔
      type.admits v = false ∧ decodeSecretKey core v = .error f :=
  Iff.rfl

theorem refuses_publicKey_iff {strict : Bool} :
    Refuses ⟨path, .publicKey core type strict, v⟩ f ↔
      type.admits v = false ∧ (decodePublicKey core strict v).outcome = .error f :=
  Iff.rfl

end Codecs

/-- The same position, after something may have been read from the stream that stands there. -/
def RemainsOf (pos before : KeyPosition) : Prop :=
  pos.path = before.path ∧ pos.slot = before.slot ∧
    ∃ drains : Drains, pos.value = drains.current before.value

end KeyPosition

structure Layout where
  positions : List KeyPosition
  /-- The identities of the streams that stand where a key or a list is expected, one for each
  place. -/
  streams : List Nat
  /-- Nothing is missing, left over or of the wrong kind. -/
  filled : Prop
  /-- The keys of all tables that are looked into are distinct texts. -/
  textual : Prop

namespace Layout

def done : Layout := ⟨[], [], True, True⟩

def blank : Layout := ⟨[], [], False, True⟩

def under (item : PathItem) (layout : Layout) : Layout :=
  { layout with positions := layout.positions.map (.under item) }

def both (a b : Layout) : Layout :=
  ⟨a.positions ++ b.positions, a.streams ++ b.streams, a.filled ∧ b.filled,
    a.textual ∧ b.textual⟩

def all : List (PathItem × Layout) → Layout
  | [] => done
  | (item, layout) :: rest => (layout.under item).both (all rest)

theorem both_no_positions (layout : Layout) (filled textual : Prop) :
    layout.both ⟨[], [], filled, textual⟩ =
      { layout with
        filled := layout.filled ∧ filled
        textual := layout.textual ∧ textual } := by
  simp [both]

end Layout

def Source.HasTextKeys (entries : List (Value × Source)) : Prop :=
  ∃ names : List String, entries.map Prod.fst = names.map .text ∧ names.Nodup

def KeySlot.layout (slot : KeySlot) (s : Source) : Layout :=
  ⟨[⟨[], slot, s.toValue⟩], s.streamId?.toList, True, True⟩

def Schema.fieldLayout {Slot : Type} (slotLayout : Slot → Source → Layout)
    (entries : List (Value × Source)) (f : SchemaField Slot) : Layout :=
  match Source.named? entries f.name with
  | some s => slotLayout f.slot s
  | none => if f.default?.isSome then .done else .blank

/-- The source as an input of a schema.  An instance is not looked into.  A table has to have all
fields without a default, and no others than those that are declared. -/
def Schema.layout {Slot : Type} (slotLayout : Slot → Source → Layout) (schema : Schema Slot)
    (s : Source) : Layout :=
  if schema.isInstance s.toValue then .done
  else
    match s.members? with
    | none => .blank
    | some entries =>
      let fields := Layout.all
        (schema.fields.map fun f => (.name f.name, fieldLayout slotLayout entries f))
      { fields with
        filled := fields.filled ∧
          ∀ entry ∈ entries, ∃ f ∈ schema.fields, entry.1 = .text f.name
        textual := fields.textual ∧ Source.HasTextKeys entries }

def KeyForm.layout (form : KeyForm) (s : Source) : Layout :=
  Schema.layout KeySlot.layout form s

def Slot.layout (slot : Slot) (s : Source) : Layout :=
  match slot with
  | key slot => slot.layout s
  | optionalKey slot =>
    match s.toValue with
    | .null => .done
    | _ => slot.layout s
  | forms form =>
    match s.sequence? with
    | none => .blank
    | some items =>
      let inside := Layout.all (items.zipIdx.map fun (item, i) => (.index i, form.layout item))
      { inside with streams := s.streamId?.toList ++ inside.streams }
  | keyTable slot =>
    match s.entries? with
    | none => .blank
    | some entries =>
      let inside := Layout.all (entries.map fun (k, s) => (PathItem.ofKey k, slot.layout s))
      { inside with textual := inside.textual ∧ Source.HasTextKeys entries }

theorem Slot.layout_optionalKey_of_ne_null {slot : KeySlot} {s : Source} (h : s.toValue ≠ .null) :
    (optionalKey slot).layout s = slot.layout s := by
  cases hv : s.toValue with
  | null => exact absurd hv h
  | _ => simp only [layout, hv]

def Model.layout (model : Model) (s : Source) : Layout :=
  Schema.layout Slot.layout model s

namespace Value

def child? : PathItem → Value → Option Value
  | .name name, .model _ _ fields => (fields.find? (·.1 == name)).map Prod.snd
  | .name name, .table entries => find? entries (.text name)
  | .index i, .list vs => if 0 ≤ i then vs[i.toNat]? else none
  | _, _ => none

def at? : List PathItem → Value → Option Value
  | [], v => some v
  | item :: path, v => (v.child? item).bind (at? path)

end Value
end KeyCodec
