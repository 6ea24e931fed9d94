import KeyCodec.HexText

/-!
# Reading a record of coordinates

A record is a table, or any sequence of (name, value) pairs that is not a text.  It is read item by
item: an item has to be a pair, its name a coordinate's, and its value hex text, in this order.  A
name that occurs again replaces the earlier value and leaves a notice; the first item that offends
decides the fault, and nothing after it is read.
-/

namespace KeyCodec

inductive Notice where
  | repeated (axis : Axis)
  | defaulted (axis : Axis)
  deriving DecidableEq

def Notice.text : Notice → String
  | repeated axis => "Public key field '" ++ axis.name ++ "' repeated, keeping last value"
  | defaulted axis => "Public key field '" ++ axis.name ++ "' missing, defaulting to 0"

/-- What came of reading a sequence: the outcome, the notices in order, and the items not read. -/
structure Reading (α : Type) where
  outcome : Except Fault α
  notices : List Notice
  unread : List Value

namespace Record

structure Coordinates where
  x : Option Nat := none
  y : Option Nat := none
  deriving DecidableEq

namespace Coordinates

def get (c : Coordinates) : Axis → Option Nat
  | .x => c.x
  | .y => c.y

def put (c : Coordinates) : Axis → Nat → Coordinates
  | .x, n => { c with x := some n }
  | .y, n => { c with y := some n }

def point (c : Coordinates) : Value :=
  .point (.int (c.x.getD 0)) (.int (c.y.getD 0))

end Coordinates

/-- The items of a record, those of a table being its entries as pairs; `none` for what is no
record. -/
def items? : Value → Option (List Value)
  | .table entries => some (entries.map fun (k, v) => .tuple [k, v])
  | .text _ => none
  | .bytes _ => none
  | v => v.items?

def pair? : Value → Option (Value × Value)
  | .list [name, v] => some (name, v)
  | .tuple [name, v] => some (name, v)
  | .point name v => some (name, v)
  | _ => none

def axis? : Value → Option Axis
  | .text s => if s = "x" then some .x else if s = "y" then some .y else none
  | _ => none

/-- The axis of an item, with its value, or why the item is refused. -/
def field (item : Value) : Except Refusal (Axis × Value) :=
  match pair? item with
  | none => .error (.notPair item)
  | some (name, v) =>
    match axis? name with
    | none => .error (.unknownField name)
    | some axis => .ok (axis, v)

def coordinate (axis : Axis) (v : Value) : Except Refusal Nat :=
  (HexText.decode v).mapError (.coordinateText axis v)

def repetition (seen : Coordinates) (axis : Axis) : List Notice :=
  if (seen.get axis).isSome then [.repeated axis] else []

/-- The coordinates of a sequence of items, after those seen already. -/
def readFrom (seen : Coordinates) : List Value → Reading Coordinates
  | [] => ⟨.ok seen, [], []⟩
  | item :: rest =>
    match field item with
    | .error r => ⟨.error r.fault, [], rest⟩
    | .ok (axis, v) =>
      match coordinate axis v with
      | .error r => ⟨.error r.fault, repetition seen axis, rest⟩
      | .ok n =>
        let tail := readFrom (seen.put axis n) rest
        { tail with notices := repetition seen axis ++ tail.notices }

def read (items : List Value) : Reading Coordinates :=
  readFrom {} items

def missing (c : Coordinates) : List Axis :=
  [Axis.x, Axis.y].filter fun axis => (c.get axis).isNone

end Record
end KeyCodec
