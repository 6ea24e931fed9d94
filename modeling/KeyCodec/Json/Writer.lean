import KeyCodec.Hex
import KeyCodec.Json.Basic
import KeyCodec.Number.Notation

/-!
# Writing JSON text

Trees are written without white space.  In a text only the quote, the backslash and control
characters are escaped, the common ones by a letter.
-/

namespace KeyCodec
namespace Json

def escape (c : Char) : List Char :=
  if c = '"' then ['\\', '"']
  else if c = '\\' then ['\\', '\\']
  else if c = '\x08' then ['\\', 'b']
  else if c = '\t' then ['\\', 't']
  else if c = '\n' then ['\\', 'n']
  else if c = '\x0c' then ['\\', 'f']
  else if c = '\r' then ['\\', 'r']
  else if c < ' ' then '\\' :: 'u' :: Hex.padLeft 4 (Hex.ofNat c.toNat)
  else [c]

def writeText (s : String) : List Char :=
  '"' :: s.toList.flatMap escape ++ ['"']

mutual

def writeTree : Json → List Char
  | null => "null".toList
  | bool b => (if b then "true" else "false").toList
  | int i => (toString i).toList
  | float x => (FloatNotation.json.render x).toList
  | text s => writeText s
  | array items => '[' :: writeItems items ++ [']']
  | object members => '{' :: writeMembers members ++ ['}']

def writeItems : List Json → List Char
  | [] => []
  | [j] => writeTree j
  | j :: items => writeTree j ++ ',' :: writeItems items

def writeMembers : List (String × Json) → List Char
  | [] => []
  | [(name, j)] => writeText name ++ ':' :: writeTree j
  | (name, j) :: members => writeText name ++ ':' :: writeTree j ++ ',' :: writeMembers members

end

def write (j : Json) : String :=
  String.ofList (writeTree j)

end Json
end KeyCodec
