import KeyCodec.Hex

/-!
# Bytes that are no text

Bytes spell a text when they are UTF-8.  When they are not, the place where they stop being UTF-8 is
the start of the first character that cannot be completed, either because a byte does not fit or
because the bytes end too early.
-/

namespace KeyCodec
namespace Utf8

structure ByteRange where
  low : UInt8
  high : UInt8

def ByteRange.admits (r : ByteRange) (b : UInt8) : Bool :=
  r.low ≤ b && b ≤ r.high

def continuation : ByteRange := ⟨0x80, 0xBF⟩

/-- Where the bytes after the first one of a character may lie; `none` if no character starts with
the byte.  The second byte may be restricted, so that no character has two forms, and none is a
surrogate or too large. -/
def continuations? (first : UInt8) : Option (List ByteRange) :=
  if first < 0x80 then some []
  else if first < 0xC2 then none
  else if first < 0xE0 then some [continuation]
  else if first = 0xE0 then some [⟨0xA0, 0xBF⟩, continuation]
  else if first = 0xED then some [⟨0x80, 0x9F⟩, continuation]
  else if first < 0xF0 then some [continuation, continuation]
  else if first = 0xF0 then some [⟨0x90, 0xBF⟩, continuation, continuation]
  else if first < 0xF4 then some [continuation, continuation, continuation]
  else if first = 0xF4 then some [⟨0x80, 0x8F⟩, continuation, continuation]
  else none

structure Offence where
  /-- The number of bytes before the character that cannot be completed. -/
  index : Nat
  /-- The number of bytes that belong to it; `none` if there are no bytes after them. -/
  width : Option Nat
  first : UInt8

/-- The offence in bytes that follow `index` complete characters, `seen` bytes of the next one,
whose first is `first`, and ahead of the `awaited` ones. -/
def offenceFrom (index seen : Nat) (first : UInt8) (awaited : List ByteRange) :
    List UInt8 → Option Offence
  | [] => if awaited.isEmpty then none else some ⟨index, none, first⟩
  | b :: rest =>
    match awaited with
    | range :: awaited =>
      if range.admits b then offenceFrom index (seen + 1) first awaited rest
      else some ⟨index, some seen, first⟩
    | [] =>
      let start := index + seen
      match continuations? b with
      | some awaited => offenceFrom start 1 b awaited rest
      | none => some ⟨start, some 1, b⟩

def offence? (bytes : List UInt8) : Option Offence :=
  offenceFrom 0 0 0 [] bytes

namespace Offence

def message (o : Offence) : String :=
  match o.width with
  | some width =>
    "invalid utf-8 sequence of " ++ toString width ++ " bytes from index " ++ toString o.index
  | none => "incomplete utf-8 byte sequence from index " ++ toString o.index

def nameMessage (o : Offence) : String :=
  "'utf-8' codec can't decode byte 0x" ++ String.ofList (Hex.padLeft 2 (Hex.ofNat o.first.toNat))
    ++ " in position " ++ toString o.index ++ ": invalid utf-8"

end Offence

/-- The text that bytes spell, or where they stop spelling one; without an offence they are UTF-8.
-/
def decode (bytes : List UInt8) : Except Offence String :=
  match offence? bytes with
  | some o => .error o
  | none => .ok ((String.fromUTF8? ⟨bytes.toArray⟩).getD "")

end Utf8
end KeyCodec
