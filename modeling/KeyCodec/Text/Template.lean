/-!
# Templates

A text with gaps between curly brackets, where a doubled bracket stands for itself.  A gap has a
name or a number, and after that perhaps a conversion and a layout.  With nothing to fill in, a
template is complete only if it has no gap at all, so its first bracket that is not doubled decides
what is wrong with it.
-/

namespace KeyCodec
namespace Template

/-- What is wrong with a template that is filled in with nothing. -/
inductive Offence where
  /-- A bracket without a partner. -/
  | lone (bracket : Char)
  /-- The template ends inside the name of a gap. -/
  | openGap
  /-- A bracket opens inside the name of a gap. -/
  | openInName
  /-- The template ends where a conversion should be named. -/
  | noConversion
  /-- A conversion is followed by something else than a layout. -/
  | afterConversion
  /-- The template ends inside the layout of a gap. -/
  | openLayout
  /-- The number of a gap is out of all bounds. -/
  | hugeNumber
  | numbered (n : Nat)
  | named (name : String)
  deriving DecidableEq

def opening : Char := '\x7b'

def closing : Char := '\x7d'

/-- Numbers above this one are not continued by another digit. -/
def numberBound : Nat := 0x7FFFFFFFFFFFFFFF / 10

/-- The number that digits spell; `none` if there are other characters or no digits at all. -/
def number? : Option Nat → List Char → Except Offence (Option Nat)
  | total, [] => .ok total
  | total, c :: rest =>
    if c.isDigit then
      let total := total.getD 0
      if numberBound < total then .error .hugeNumber
      else number? (some (10 * total + (c.toNat - 48))) rest
    else .ok none

/-- What is wrong with a gap whose parts are in order: there is nothing for its name.  A gap without
a name is the first one by number. -/
def unfilled (name : List Char) : Offence :=
  let first := name.takeWhile fun c => c != '.' && c != '['
  if first.isEmpty then .numbered 0
  else match number? none first with
    | .error offence => offence
    | .ok (some n) => .numbered n
    | .ok none => .named (String.ofList first)

/-- The layout of a gap ends where all brackets in it are closed. -/
def afterLayout (name : List Char) : Nat → List Char → Offence
  | _, [] => .openLayout
  | depth, c :: rest =>
    if c = opening then afterLayout name (depth + 1) rest
    else if c = closing then
      match depth with
      | 0 => unfilled name
      | depth + 1 => afterLayout name depth rest
    else afterLayout name depth rest

/-- A conversion is one character, after which the gap ends or a layout follows. -/
def afterMark (name : List Char) : List Char → Offence
  | [] => .noConversion
  | [_] => .openLayout
  | _ :: c :: rest =>
    if c = closing then unfilled name
    else if c = ':' then afterLayout name 0 rest
    else .afterConversion

/-- The name of a gap, of which `done` has been read, the last character first; what stands between
square brackets is not looked at. -/
def afterName (bracketed : Bool) (done : List Char) : List Char → Offence
  | [] => .openGap
  | c :: rest =>
    if bracketed then afterName (c != ']') (c :: done) rest
    else if c = opening then .openInName
    else if c = closing then unfilled done.reverse
    else if c = ':' then afterLayout done.reverse 0 rest
    else if c = '!' then afterMark done.reverse rest
    else afterName (c = '[') (c :: done) rest

def offence? : List Char → Option Offence
  | [] => none
  | [c] => if c = opening ∨ c = closing then some (.lone c) else none
  | c :: d :: rest =>
    if c = opening then
      if d = opening then offence? rest else some (afterName false [] (d :: rest))
    else if c = closing then
      if d = closing then offence? rest else some (.lone c)
    else offence? (d :: rest)

end Template
end KeyCodec
