import KeyCodec.Value.Equality

/-!
# JSON trees

A tree as it stands in the text: the members of an object keep their order, and a name may occur
more than once.  Whoever looks for names finds each of them once, where it stands first, with what
stands under it last.
-/

namespace KeyCodec

inductive Json where
  | null
  | bool (b : Bool)
  | int (i : Int)
  | float (x : Binary64)
  | text (s : String)
  | array (items : List Json)
  | object (members : List (String × Json))
  deriving Inhabited

namespace Json

/-- Members with one more, which takes the place of an earlier one of its name. -/
def putMember : List (String × Json) → String → Json → List (String × Json)
  | [], name, j => [(name, j)]
  | (other, i) :: members, name, j =>
    if other = name then (name, j) :: members else (other, i) :: putMember members name j

def distinctMembers (members : List (String × Json)) : List (String × Json) :=
  members.foldl (fun done (name, j) => putMember done name j) []

mutual

def toValue : Json → Value
  | null => .null
  | bool b => .bool b
  | int i => .int i
  | float x => .float x
  | text s => .text s
  | array items => .list (toValues items)
  | object members => .tableOf (toEntries members)

def toValues : List Json → List Value
  | [] => []
  | j :: items => toValue j :: toValues items

/-- The members of an object as entries, equal names included. -/
def toEntries : List (String × Json) → List (Value × Value)
  | [] => []
  | (name, j) :: members => (.text name, toValue j) :: toEntries members

end

def nameOf : Value → String
  | .text s => s
  | _ => ""

mutual

/-- The tree of what JSON text can hold: nothing, truth values, numbers, texts, lists, and tables of
these under names.  Anything else counts as nothing. -/
def ofValue : Value → Json
  | .bool b => bool b
  | .int i => int i
  | .float x => float x
  | .text s => text s
  | .list vs => array (ofValues vs)
  | .table entries => object (ofEntries entries)
  | _ => null

def ofValues : List Value → List Json
  | [] => []
  | v :: vs => ofValue v :: ofValues vs

def ofEntries : List (Value × Value) → List (String × Json)
  | [] => []
  | (k, v) :: entries => (nameOf k, ofValue v) :: ofEntries entries

end

end Json
end KeyCodec
