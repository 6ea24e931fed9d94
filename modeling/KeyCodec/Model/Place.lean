import KeyCodec.Model.Catalog

/-!
# Places in an instance

Whoever writes out an instance knows from its schema what to expect at a place.  Where something
else stands, or where nothing is known, the value itself decides how it is written.
-/

namespace KeyCodec

inductive Place where
  | slot (slot : Slot)
  /-- An item of a list of filled-in forms. -/
  | form (form : KeyForm)
  | anything

namespace Place

def codec? : Place → Value → Option KeySlot
  | slot (.key codec), _ => some codec
  | slot (.optionalKey _), .null => none
  | slot (.optionalKey codec), _ => some codec
  | _, _ => none

/-- The value is what is expected.  As a form counts everything that has attributes of its own. -/
def expects : Place → Value → Bool
  | slot (.optionalKey _), .null => true
  | slot (.forms _), .list _ => true
  | slot (.keyTable _), .table _ => true
  | form _, .model _ _ _ => true
  | form _, .fakeSecret _ => true
  | form _, .fakePublic _ => true
  | _, _ => false

def item : Place → Place
  | slot (.forms f) => form f
  | _ => anything

def entry : Place → Place
  | slot (.keyTable codec) => slot (.key codec)
  | _ => anything

/-- The schema by which an instance of the model of a name is written. -/
def schema (place : Place) (name : String) : Model :=
  match place with
  | form f => f.toModel
  | _ => (Catalog.find? name).getD ⟨name, []⟩

def nestingLimit : Nat := 255

/-- The levels that are left inside a value; an unexpected value takes one. -/
def enter (place : Place) (room : Nat) (v : Value) : Option Nat :=
  if place.expects v then some room
  else match room with
    | 0 => none
    | room + 1 => some room

end Place
end KeyCodec
