import KeyCodec.Codec
import KeyCodec.Value.Octets
import KeyCodec.Value.Stream

/-!
# What operations read

An operation that iterates over a stream leaves some of its items unread: none when it wants them
all, those after the third when it wants exactly two, and those after the first offence when it
checks them one by one.
-/

namespace KeyCodec
namespace Reads

def all (v : Value) : Drains :=
  Drains.note [] v []

def pair (v : Value) : Drains :=
  match v with
  | .stream _ _ items => Drains.note [] v (unreadAfterPair items)
  | _ => []

def isOctet (v : Value) : Bool :=
  match v.octet with
  | .ok _ => true
  | .error _ => false

def octets (v : Value) : Drains :=
  match v with
  | .stream _ _ items => Drains.note [] v ((items.dropWhile isOctet).drop 1)
  | _ => []

/-- The items of a record are read up to the first offence. -/
def record (v : Value) (reading : Reading Value) : Drains :=
  Drains.note [] v reading.unread

/-- The point that the core hands out is unpacked. -/
def encoding (core : Core) (key : Value) : Drains :=
  match core.toPoint key with
  | .ok point => pair point
  | .error _ => []

end Reads
end KeyCodec
