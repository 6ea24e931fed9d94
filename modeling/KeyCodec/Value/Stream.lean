import KeyCodec.Value.Basic

/-!
# What streams have left

Reading from a stream shows wherever the stream is held.  The reads are kept in a list, latest
first, of streams with the number of their unread items; a value is refreshed by giving every stream
in it the items that are left, which are always the last ones.
-/

namespace KeyCodec

/-- Streams that have been read from, with the number of unread items, the latest read first. -/
abbrev Drains := List (Nat × Nat)

namespace Drains

def left (drains : Drains) (id total : Nat) : Nat :=
  ((drains.find? (·.1 == id)).map Prod.snd).getD total

def unread (drains : Drains) (id : Nat) (items : List Value) : List Value :=
  items.drop (items.length - drains.left id items.length)

def current (drains : Drains) : Value → Value
  | .stream id derived items => .stream id derived (drains.unread id items)
  | v => v

/-- A read that left some items, if the value is a stream. -/
def note (drains : Drains) (v : Value) (unread : List Value) : Drains :=
  match v with
  | .stream id _ _ => (id, unread.length) :: drains
  | _ => drains

end Drains

namespace Value

mutual

/-- A value in which every stream has the items that are left. -/
def refresh (drains : Drains) : Value → Value
  | list vs => list (refreshAll drains vs)
  | tuple vs => tuple (refreshAll drains vs)
  | point x y => point (refresh drains x) (refresh drains y)
  | table entries => table (refreshEntries drains entries)
  | stream id derived items => stream id derived (drains.unread id (refreshAll drains items))
  | fakeSecret content => fakeSecret (refresh drains content)
  | fakePublic content => fakePublic (refresh drains content)
  | model id name fields => model id name (refreshFields drains fields)
  | null => null
  | bool b => bool b
  | int i => int i
  | float x => float x
  | text s => text s
  | bytes bs => bytes bs
  | buffer bs => buffer bs
  | secretKey k => secretKey k
  | publicKey k => publicKey k
termination_by structural v => v

def refreshAll (drains : Drains) : List Value → List Value
  | [] => []
  | v :: vs => refresh drains v :: refreshAll drains vs

def refreshEntries (drains : Drains) : List (Value × Value) → List (Value × Value)
  | [] => []
  | (k, v) :: entries => (refresh drains k, refresh drains v) :: refreshEntries drains entries

def refreshFields (drains : Drains) : List (String × Value) → List (String × Value)
  | [] => []
  | (name, v) :: fields => (name, refresh drains v) :: refreshFields drains fields

end

end Value
end KeyCodec
