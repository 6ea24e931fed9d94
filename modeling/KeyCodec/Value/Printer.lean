import KeyCodec.Value.Basic
import KeyCodec.Number.Notation
import KeyCodec.Text.Quoted

/-!
# Values in messages

The text of a value inside a message.  A value has no text when it holds an integer that is too long
to be written in decimal.
-/

namespace KeyCodec
namespace Value

def enclose (before : String) (parts : List String) (after : String) : String :=
  before ++ ", ".intercalate parts ++ after

/-- The text of a sequence in round brackets: a single item keeps its comma. -/
def encloseTuple : List String → String
  | [part] => "(" ++ part ++ ",)"
  | parts => enclose "(" parts ")"

mutual

def display? : Value → Option String
  | null => some "None"
  | bool b => some (if b then "True" else "False")
  | int i => Integer.text? i
  | float x => some (FloatNotation.message.render x)
  | text s => some (Text.quoted s)
  | bytes bs => some (Text.quotedBytes bs)
  | buffer bs => some ("bytearray(" ++ Text.quotedBuffer bs ++ ")")
  | list vs => (displayAll? vs).map fun parts => enclose "[" parts "]"
  | tuple vs => (displayAll? vs).map encloseTuple
  | point x y => do
    let x ← display? x
    let y ← display? y
    return "Point(x=" ++ x ++ ", y=" ++ y ++ ")"
  | table entries => (displayEntries? entries).map fun parts => enclose "\x7b" parts "\x7d"
  | stream _ derived _ =>
    let plain := "<list_iterator object>"
    some (if derived then "SerializationIterator(index=0, iterator=" ++ plain ++ ")" else plain)
  | secretKey k => some k.display
  | publicKey k => some k.display
  | fakeSecret content => (display? content).map fun t => "FakeSecretKey(" ++ t ++ ")"
  | fakePublic content => (display? content).map fun t => "FakePublicKey(" ++ t ++ ")"
  | model _ name fields => (displayFields? fields).map fun parts => enclose (name ++ "(") parts ")"

def displayAll? : List Value → Option (List String)
  | [] => some []
  | v :: vs => do
    let part ← display? v
    let parts ← displayAll? vs
    return part :: parts

def displayEntries? : List (Value × Value) → Option (List String)
  | [] => some []
  | (k, v) :: entries => do
    let key ← display? k
    let value ← display? v
    let parts ← displayEntries? entries
    return (key ++ ": " ++ value) :: parts

def displayFields? : List (String × Value) → Option (List String)
  | [] => some []
  | (name, v) :: fields => do
    let value ← display? v
    let parts ← displayFields? fields
    return (name ++ "=" ++ value) :: parts

end

/-- The text of a value where it stands by itself: a text is not quoted there. -/
def plain? : Value → Option String
  | text s => some s
  | model _ _ fields => (displayFields? fields).map (" ".intercalate ·)
  | v => v.display?

end Value
end KeyCodec
