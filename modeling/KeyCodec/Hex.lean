/-!
# Base sixteen

Two ways to write a number in base sixteen: the canonical text, which has no leading zero, and the
positional value of any run of digits.  Reading accepts both cases and leading zeros and nothing
else, so it is a recogniser with a value attached.
-/

namespace KeyCodec
namespace Hex

def digit (n : Nat) : Char :=
  if n < 10 then Char.ofNat (48 + n) else Char.ofNat (87 + n)

def isDigit (c : Char) : Bool :=
  ('0' ≤ c && c ≤ '9') || ('a' ≤ c && c ≤ 'f') || ('A' ≤ c && c ≤ 'F')

def digitValue (c : Char) : Nat :=
  if c ≤ '9' then c.toNat - 48 else if c ≤ 'F' then c.toNat - 55 else c.toNat - 87

def value (digits : List Char) : Nat :=
  digits.foldl (fun total c => 16 * total + digitValue c) 0

/-- The canonical digits of `n` in front of `tail`. -/
def digitsOnto (n : Nat) (tail : List Char) : List Char :=
  if n < 16 then digit n :: tail else digitsOnto (n / 16) (digit (n % 16) :: tail)

/-- The canonical text of a number: lowercase, no leading zero, `0` for zero. -/
def ofNat (n : Nat) : List Char :=
  digitsOnto n []

def isHex (text : List Char) : Bool :=
  !text.isEmpty && text.all isDigit

def toNat? (text : List Char) : Option Nat :=
  if isHex text then some (value text) else none

def lowerDigit (c : Char) : Char :=
  if 'A' ≤ c ∧ c ≤ 'F' then Char.ofNat (c.toNat + 32) else c

/-- Lowercase digits without leading zeros, `0` when nothing else is left. -/
def normalize (text : List Char) : List Char :=
  match (text.map lowerDigit).dropWhile (· = '0') with
  | [] => ['0']
  | c :: rest => c :: rest

def padLeft (width : Nat) (text : List Char) : List Char :=
  List.replicate (width - text.length) '0' ++ text

example : ofNat 123456 = ['1', 'e', '2', '4', '0'] := by cbv

example : toNat? ['0', '0', 'F', 'f'] = some 255 := by decide

example : toNat? ['0', 'x', '1'] = none := by decide

end Hex
end KeyCodec
