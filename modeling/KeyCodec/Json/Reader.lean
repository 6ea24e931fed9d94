import KeyCodec.Hex
import KeyCodec.Json.Basic

/-!
# Reading JSON text

The grammar of JSON, extended by the names of the floats that are no numbers.  A number has at most
4300 digits before its point, and only so many containers that are not empty may be nested.  The
members of a container are read by one loop that takes the reader of the next level as an argument,
so each level is a definition of its own.
-/

namespace KeyCodec
namespace Json

def isBlank (c : Char) : Bool :=
  c == ' ' || c == '\t' || c == '\n' || c == '\r'

def skipBlank (cs : List Char) : List Char :=
  cs.dropWhile isBlank

def codeUnit? (a b c d : Char) : Option Nat :=
  Hex.toNat? [a, b, c, d]

def escaped? : Char → Option Char
  | '"' => some '"'
  | '\\' => some '\\'
  | '/' => some '/'
  | 'b' => some '\x08'
  | 'f' => some '\x0c'
  | 'n' => some '\n'
  | 'r' => some '\r'
  | 't' => some '\t'
  | _ => none

def unitChar? (u : Nat) : Option Char :=
  if 0xD800 ≤ u ∧ u < 0xE000 then none else some (Char.ofNat u)

def pairChar? (high low : Nat) : Option Char :=
  if 0xD800 ≤ high ∧ high < 0xDC00 ∧ 0xDC00 ≤ low ∧ low < 0xE000 then
    some (Char.ofNat (0x10000 + (high - 0xD800) * 0x400 + (low - 0xDC00)))
  else none

/-- The rest of a text after its opening quote, up to the closing one.  `high` is a surrogate that
still waits for its partner, and `done` holds the characters so far, the last one first. -/
def readText (high : Option Nat) (done : List Char) : List Char → Option (String × List Char)
  | [] => none
  | '\\' :: 'u' :: a :: b :: c :: d :: rest =>
    match codeUnit? a b c d, high with
    | none, _ => none
    | some u, none =>
      match unitChar? u with
      | some ch => readText none (ch :: done) rest
      | none => readText (some u) done rest
    | some u, some high =>
      match pairChar? high u with
      | some ch => readText none (ch :: done) rest
      | none => none
  | c :: rest =>
    if high.isSome then none
    else if c = '"' then some (String.ofList done.reverse, rest)
    else if c = '\\' then
      match rest with
      | [] => none
      | letter :: rest =>
        match escaped? letter with
        | some ch => readText none (ch :: done) rest
        | none => none
    else if c < ' ' then none
    else readText none (c :: done) rest

def isDecimal (c : Char) : Bool :=
  '0' ≤ c && c ≤ '9'

def decimalValue (digits : List Char) : Nat :=
  digits.foldl (fun total c => 10 * total + (c.toNat - 48)) 0

/-- The greatest number of digits before the point of a number. -/
def wholeDigits : Nat := 4300

/-- The digits before anything else: at least one, not too many, and no zero before another. -/
def readWhole (cs : List Char) : Option (List Char × List Char) :=
  let digits := cs.takeWhile isDecimal
  match digits with
  | [] => none
  | '0' :: _ :: _ => none
  | _ => if wholeDigits < digits.length then none else some (digits, cs.dropWhile isDecimal)

def readFraction (cs : List Char) : Option (Option (List Char) × List Char) :=
  match cs with
  | '.' :: rest =>
    let digits := rest.takeWhile isDecimal
    if digits.isEmpty then none else some (some digits, rest.dropWhile isDecimal)
  | _ => some (none, cs)

def readPower (negative : Bool) (cs : List Char) : Option (Option Int × List Char) :=
  let digits := cs.takeWhile isDecimal
  if digits.isEmpty then none
  else
    let n : Int := decimalValue digits
    some (some (if negative then -n else n), cs.dropWhile isDecimal)

def readExponent (cs : List Char) : Option (Option Int × List Char) :=
  match cs with
  | 'e' :: '-' :: rest | 'E' :: '-' :: rest => readPower true rest
  | 'e' :: '+' :: rest | 'E' :: '+' :: rest => readPower false rest
  | 'e' :: rest | 'E' :: rest => readPower false rest
  | _ => some (none, cs)

def readMagnitude (negative : Bool) (cs : List Char) : Option (Json × List Char) := do
  let (whole, rest) ← readWhole cs
  let (fraction, rest) ← readFraction rest
  let (power, rest) ← readExponent rest
  match fraction, power with
  | none, none =>
    let n : Int := decimalValue whole
    some (.int (if negative then -n else n), rest)
  | _, _ =>
    let digits := fraction.getD []
    let x := Binary64.ofDecimal negative (decimalValue (whole ++ digits))
      (power.getD 0 - digits.length)
    some (.float x, rest)

def readScalar : List Char → Option (Json × List Char)
  | 'n' :: 'u' :: 'l' :: 'l' :: rest => some (.null, rest)
  | 't' :: 'r' :: 'u' :: 'e' :: rest => some (.bool true, rest)
  | 'f' :: 'a' :: 'l' :: 's' :: 'e' :: rest => some (.bool false, rest)
  | 'N' :: 'a' :: 'N' :: rest => some (.float .nan, rest)
  | 'I' :: 'n' :: 'f' :: 'i' :: 'n' :: 'i' :: 't' :: 'y' :: rest =>
    some (.float (.infinity false), rest)
  | '-' :: 'I' :: 'n' :: 'f' :: 'i' :: 'n' :: 'i' :: 't' :: 'y' :: rest =>
    some (.float (.infinity true), rest)
  | '-' :: rest => readMagnitude true rest
  | cs => readMagnitude false cs

abbrev Reader := List Char → Option (Json × List Char)

def readItems (next : Reader) : Nat → List Char → Option (List Json × List Char)
  | 0, _ => none
  | bound + 1, cs => do
    let (j, rest) ← next cs
    match skipBlank rest with
    | ',' :: rest =>
      let (items, rest) ← readItems next bound rest
      some (j :: items, rest)
    | ']' :: rest => some ([j], rest)
    | _ => none

def readMembers (next : Reader) : Nat → List Char → Option (List (String × Json) × List Char)
  | 0, _ => none
  | bound + 1, cs =>
    match skipBlank cs with
    | '"' :: rest => do
      let (name, rest) ← readText none [] rest
      match skipBlank rest with
      | ':' :: rest =>
        let (j, rest) ← next rest
        match skipBlank rest with
        | ',' :: rest =>
          let (members, rest) ← readMembers next bound rest
          some ((name, j) :: members, rest)
        | '}' :: rest => some ([(name, j)], rest)
        | _ => none
      | _ => none
    | _ => none

/-- One tree, whose containers are read by the reader of the next level, if there is one. -/
def readLevel (next? : Option Reader) : Reader := fun cs =>
  match skipBlank cs with
  | '"' :: rest => do
    let (s, rest) ← readText none [] rest
    some (.text s, rest)
  | '[' :: rest =>
    match skipBlank rest with
    | ']' :: rest => some (.array [], rest)
    | inside => do
      let next ← next?
      let (items, rest) ← readItems next inside.length inside
      some (.array items, rest)
  | '{' :: rest =>
    match skipBlank rest with
    | '}' :: rest => some (.object [], rest)
    | inside => do
      let next ← next?
      let (members, rest) ← readMembers next inside.length inside
      some (.object members, rest)
  | cs => readScalar cs

/-- One tree with containers nested at most `depth` deep, empty ones not counted. -/
def readTree : Nat → Reader
  | 0 => readLevel none
  | depth + 1 => readLevel (some (readTree depth))

def parseWithin (depth : Nat) (cs : List Char) : Option Json :=
  match readTree depth cs with
  | some (j, rest) => if (skipBlank rest).isEmpty then some j else none
  | none => none

def nestingLimit : Nat := 200

def parse? (s : String) : Option Json :=
  parseWithin nestingLimit s.toList

end Json
end KeyCodec
