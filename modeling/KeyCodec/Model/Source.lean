import KeyCodec.Json.Basic
import KeyCodec.Value.Stream

/-!
# Sources of a model

A model is filled in from a value that is held or from parsed text.  The two differ in what counts
as a container.  In parsed text a name may be repeated: the members of a model are looked up by
name, so each counts once, but as entries of a table they all count.
-/

namespace KeyCodec

/-- What a model is filled in from. -/
inductive Source where
  | held (v : Value)
  | parsed (j : Json)

namespace Source

def fromText : Source → Bool
  | held _ => false
  | parsed _ => true

def toValue : Source → Value
  | held v => v
  | parsed j => j.toValue

/-- A stream is given the items that it has left. -/
def refresh (drains : Drains) : Source → Source
  | held v => held (drains.current v)
  | parsed j => parsed j

/-- The entries of a table or of an object, repeated names included. -/
def entries? : Source → Option (List (Value × Source))
  | held (.table entries) => some (entries.map fun (k, v) => (k, held v))
  | parsed (.object members) => some (members.map fun (name, j) => (.text name, parsed j))
  | _ => none

/-- The members of what may stand for an instance, every name once. -/
def members? : Source → Option (List (Value × Source))
  | parsed (.object members) => entries? (parsed (.object (Json.distinctMembers members)))
  | s => s.entries?

/-- The items of what may stand for a list. -/
def sequence? : Source → Option (List Source)
  | held (.text _) | held (.bytes _) | held (.buffer _) | held (.table _) => none
  | held v => v.items?.map fun items => items.map held
  | parsed (.array items) => some (items.map parsed)
  | parsed _ => none

def isNamed (name : String) : Value × Source → Bool
  | (.text s, _) => s == name
  | _ => false

def named? (entries : List (Value × Source)) (name : String) : Option Source :=
  (entries.find? (isNamed name)).map Prod.snd

end Source
end KeyCodec
