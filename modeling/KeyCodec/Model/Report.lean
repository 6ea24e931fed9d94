import KeyCodec.Fault.Basic

/-!
# Validation reports

What is wrong with the input of a model, row by row.  A row gives the path to a place in the input
and the problem there; the input itself is not shown, except by an attempt to change an instance,
which shows the value that was to be put in.
-/

namespace KeyCodec

inductive PathItem where
  | name (s : String)
  | index (i : Int)
  deriving DecidableEq

namespace PathItem

def unprintable (v : Value) : String :=
  "<unprintable " ++ v.typeName ++ " object>"

def shown (v : Value) : String :=
  v.display?.getD (unprintable v)

/-- The step that leads to a key of a table: texts and machine integers stand for themselves. -/
def ofKey (k : Value) : PathItem :=
  match k with
  | .text s => name s
  | k =>
    match k.integer? with
    | some i => if -0x8000000000000000 ≤ i ∧ i < 0x8000000000000000 then index i else name (shown k)
    | none => name (shown k)

/-- The text of a step; a name with a dot in it is set off. -/
def text : PathItem → String
  | name s => if s.contains '.' then "`" ++ s ++ "`" else s
  | index i => toString i

end PathItem

/-- The types whose instances a key position may hold. -/
inductive KeyType where
  | secretKey
  | publicKey
  | fakeSecret
  | fakePublic
  deriving DecidableEq

namespace KeyType

def name : KeyType → String
  | secretKey => "SecretKey"
  | publicKey => "PublicKey"
  | fakeSecret => "FakeSecretKey"
  | fakePublic => "FakePublicKey"

def admits : KeyType → Value → Bool
  | secretKey, .secretKey _ => true
  | publicKey, .publicKey _ => true
  | fakeSecret, .fakeSecret _ => true
  | fakePublic, .fakePublic _ => true
  | _, _ => false

end KeyType

/-- What is wrong at one place.  Containers are called differently when the input is JSON text. -/
inductive Problem where
  | missing
  | extra
  | refused (why : Fault)
  | notInstance (type : KeyType)
  | notModel (model : String) (fromText : Bool)
  | notList (fromText : Bool)
  | notTable (fromText : Bool)
  | keyNotText
  | notText
  | notUnicode
  | frozen (v : Value)
  | invalidText

namespace Problem

def type : Problem → String
  | missing => "missing"
  | extra => "extra_forbidden"
  | refused _ => "value_error"
  | notInstance _ => "is_instance_of"
  | notModel _ _ => "model_type"
  | notList _ => "list_type"
  | notTable _ => "dict_type"
  | keyNotText => "invalid_key"
  | notText => "string_type"
  | notUnicode => "string_unicode"
  | frozen _ => "frozen_instance"
  | invalidText => "json_invalid"

def faultText (f : Fault) : String :=
  match f.text with
  | .ok t => t
  | .error _ => "<unprintable " ++ f.className ++ " object>"

def message : Problem → String
  | missing => "Field required"
  | extra => "Extra inputs are not permitted"
  | refused why => "Value error, " ++ faultText why
  | notInstance type => "Input should be an instance of " ++ type.name
  | notModel model fromText =>
    if fromText then "Input should be an object"
    else "Input should be a valid dictionary or instance of " ++ model
  | notList fromText =>
    if fromText then "Input should be a valid array" else "Input should be a valid list"
  | notTable fromText =>
    if fromText then "Input should be an object" else "Input should be a valid dictionary"
  | keyNotText => "Keys should be strings"
  | notText => "Input should be a valid string"
  | notUnicode =>
    "Input should be a valid string, unable to parse raw data as a unicode string"
  | frozen _ => "Instance is frozen"
  | invalidText => "Invalid JSON"

def inner? : Problem → Option String
  | refused why => some why.className
  | _ => none

/-- The first and last bytes of a long text, cut at whole characters. -/
def abridged (s : String) : String :=
  if s.utf8ByteSize ≤ 50 then s
  else
    let cs := s.toList
    let widthUpTo (n : Nat) : Nat := (String.ofList (cs.take n)).utf8ByteSize
    let front := ((List.range 26).filter fun n => widthUpTo n ≤ 25).length - 1
    let back := ((List.range 25).filter fun n =>
      s.utf8ByteSize - widthUpTo (cs.length - n) ≤ 24).length - 1
    String.ofList (cs.take front) ++ "..." ++ String.ofList (cs.drop (cs.length - back))

def remark : Problem → String
  | frozen v =>
    "[type=frozen_instance, input_value=" ++ abridged (PathItem.shown v)
      ++ ", input_type=" ++ v.typeName ++ "]"
  | p => "[type=" ++ p.type ++ "]"

end Problem

structure Row where
  path : List PathItem
  problem : Problem

/-- The lines of a row: its path, unless it is the whole input, and its problem. -/
def Row.text (row : Row) : String :=
  let place := if row.path.isEmpty then ""
    else ".".intercalate (row.path.map PathItem.text) ++ "\n"
  place ++ "  " ++ row.problem.message ++ " " ++ row.problem.remark

structure Report where
  model : String
  rows : List Row

def Report.text (r : Report) : String :=
  let count := r.rows.length
  let noun := if count = 1 then " validation error for " else " validation errors for "
  "\n".intercalate ((toString count ++ noun ++ r.model) :: r.rows.map Row.text)

end KeyCodec
