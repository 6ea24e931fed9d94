import KeyCodec.Hex
import KeyCodec.Text.Printable

/-!
# Quoted text

How text and bytes look inside a message: between quotes, with everything that cannot be shown as
it is escaped.  Single quotes are preferred; double quotes are taken when the content holds a single
quote and no double one.
-/

namespace KeyCodec
namespace Text

def quoteFor (hasSingle hasDouble : Bool) : Char :=
  if hasSingle && !hasDouble then '"' else '\''

/-- A backslash, a letter and the hex digits of `n`, at least `width` of them. -/
def escapeCode (letter : Char) (width n : Nat) : List Char :=
  '\\' :: letter :: Hex.padLeft width (Hex.ofNat n)

def escapeChar (quote c : Char) : List Char :=
  if c = quote ∨ c = '\\' then ['\\', c]
  else if c = '\n' then ['\\', 'n']
  else if c = '\r' then ['\\', 'r']
  else if c = '\t' then ['\\', 't']
  else if isPrintable c then [c]
  else if c.toNat < 0x100 then escapeCode 'x' 2 c.toNat
  else if c.toNat < 0x10000 then escapeCode 'u' 4 c.toNat
  else escapeCode 'U' 8 c.toNat

def quoted (s : String) : String :=
  let cs := s.toList
  let quote := quoteFor (cs.contains '\'') (cs.contains '"')
  String.ofList (quote :: cs.flatMap (escapeChar quote) ++ [quote])

def escapeByte (quote : Char) (b : UInt8) : List Char :=
  let c := Char.ofNat b.toNat
  if c = quote ∨ c = '\\' then ['\\', c]
  else if c = '\n' then ['\\', 'n']
  else if c = '\r' then ['\\', 'r']
  else if c = '\t' then ['\\', 't']
  else if b < 0x20 ∨ 0x7F ≤ b then escapeCode 'x' 2 b.toNat
  else [c]

def bytesQuote (bytes : List UInt8) : Char :=
  quoteFor (bytes.contains 0x27) (bytes.contains 0x22)

def quotedBytes (bytes : List UInt8) : String :=
  let quote := bytesQuote bytes
  String.ofList ('b' :: quote :: bytes.flatMap (escapeByte quote) ++ [quote])

/-- The quoted form of the bytes of a buffer, where a single quote is escaped between double quotes
as well. -/
def quotedBuffer (bytes : List UInt8) : String :=
  let quote := bytesQuote bytes
  String.ofList ('b' :: quote :: bytes.flatMap (escapeByte '\'') ++ [quote])

end Text
end KeyCodec
