import KeyCodec.Fault.Refusal

/-!
# Faults from arguments

A fault may be declared by naming its class and giving arguments by position or by name.  Arguments
that do not fit the class's parameters are a fault of their own.
-/

namespace KeyCodec

/-- The parameters that a class declares after the fault itself, the first of them required. -/
structure Signature where
  owner : String
  required : String
  optional : List String

namespace Signature

def receiver : String := "self"

def parameters (s : Signature) : List String := s.required :: s.optional

def call (s : Signature) : String := s.owner ++ ".__init__()"

/-- The positional arguments with their parameters; the excess is left out. -/
def positional (s : Signature) (arguments : List Value) : List (String × Value) :=
  s.parameters.zip arguments

def addNamed (s : Signature) : List (String × Value) → List (String × Value) →
    Except Fault (List (String × Value))
  | bound, [] => .ok bound
  | bound, (name, v) :: rest =>
    if name != receiver && !s.parameters.contains name then
      .error (.ofMessage .type (s.call ++ " got an unexpected keyword argument '" ++ name ++ "'"))
    else if name == receiver || bound.any (·.1 == name) then
      .error (.ofMessage .type (s.call ++ " got multiple values for argument '" ++ name ++ "'"))
    else addNamed s (bound ++ [(name, v)]) rest

/-- The message about more positional arguments than parameters; the fault itself counts as one. -/
def excess (s : Signature) (given : Nat) : String :=
  let most := s.parameters.length + 1
  let range := if s.optional.isEmpty then toString most else "from 2 to " ++ toString most
  s.call ++ " takes " ++ range ++ " positional arguments but " ++ toString (given + 1)
    ++ " were given"

def bindArguments (s : Signature) (arguments : List Value) (named : List (String × Value)) :
    Except Fault (List (String × Value)) := do
  let bound ← s.addNamed (s.positional arguments) named
  if s.parameters.length < arguments.length then
    .error (.ofMessage .type (s.excess arguments.length))
  else if !bound.any (·.1 == s.required) then
    .error (.ofMessage .type
      (s.call ++ " missing 1 required positional argument: '" ++ s.required ++ "'"))
  else return bound

end Signature

namespace CodecClass

/-- The parameters of a class; a class without its own takes those of the class above it. -/
def signature : CodecClass → Signature
  | general | validation | crypto => ⟨general.name, "message", ["code", "data"]⟩
  | serialization | hexParse => ⟨serialization.name, "message", ["field", "code", "data"]⟩
  | unknownField => ⟨unknownField.name, "field", []⟩
  | missingField => ⟨missingField.name, "field", []⟩
  | keyConstruction => ⟨keyConstruction.name, "message", ["field", "data"]⟩

end CodecClass

namespace Fault

def argument (bound : List (String × Value)) (name : String) : Value :=
  ((bound.find? (·.1 == name)).map Prod.snd).getD .null

/-- The fault that a refusal becomes, provided that its message can be written. -/
def written (r : Refusal) : Except Fault Fault :=
  match r.fault? with
  | some f => .ok f
  | none => .error digitLimit

def declareCodec (kind : CodecClass) (arguments : List Value) (named : List (String × Value)) :
    Except Fault Fault := do
  let bound ← kind.signature.bindArguments arguments named
  match kind with
  | .unknownField => written (.unknownField (argument bound "field"))
  | .missingField => written (.missingField (argument bound "field"))
  | _ =>
    return .codec kind
      { message := argument bound "message"
        code := argument bound "code"
        data := argument bound "data"
        field := argument bound "field" } none

/-- A standard fault from arguments, which it takes by position only. -/
def declareStandard (kind : StandardClass) (arguments : List Value)
    (named : List (String × Value)) : Except Fault Fault :=
  if named.isEmpty then .ok (.standard kind arguments)
  else .error (.ofMessage .type (kind.name ++ "() takes no keyword arguments"))

def codecClasses : List CodecClass :=
  [.general, .validation, .crypto, .serialization, .hexParse, .unknownField, .missingField,
    .keyConstruction]

def standardClasses : List StandardClass :=
  [.value, .type, .key, .overflow, .unicode, .runtime, .memory, .member, .dump]

def declare (className : String) (arguments : List Value) (named : List (String × Value)) :
    Except Fault Fault :=
  match codecClasses.find? (·.name == className) with
  | some kind => declareCodec kind arguments named
  | none =>
    let kind := (standardClasses.find? (·.name == className)).getD (.other className)
    declareStandard kind arguments named

end Fault
end KeyCodec
