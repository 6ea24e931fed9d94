import KeyCodec.Value.Printer

/-!
# Faults

What a caller sees when something is refused.  A fault of the codec family carries a message and the
attributes code, data and field, and may name the fault that caused it; a standard fault carries
arguments only.  The class of a fault decides who handles it, so the class relation is part of the
model.
-/

namespace KeyCodec

inductive CodecClass where
  | general
  | validation
  | crypto
  | serialization
  | hexParse
  | unknownField
  | missingField
  | keyConstruction
  deriving DecidableEq

namespace CodecClass

def name : CodecClass → String
  | general => "EcSerdeError"
  | validation => "ValidationError"
  | crypto => "CryptoError"
  | serialization => "SerializationError"
  | hexParse => "HexParseError"
  | unknownField => "UnknownFieldError"
  | missingField => "MissingFieldError"
  | keyConstruction => "KeyConstructionError"

def ancestors : CodecClass → List CodecClass
  | general => [general]
  | validation => [general, validation]
  | crypto => [general, crypto]
  | serialization => [general, serialization]
  | hexParse => [general, serialization, hexParse]
  | unknownField => [general, serialization, unknownField]
  | missingField => [general, serialization, missingField]
  | keyConstruction => [general, crypto, serialization, keyConstruction]

/-- A serialization fault counts as a value fault, and so do all classes below it. -/
def isSerialization (c : CodecClass) : Bool :=
  c.ancestors.contains serialization

end CodecClass

inductive StandardClass where
  | value
  | type
  | key
  | overflow
  | unicode
  | runtime
  | memory
  | member
  | dump
  /-- A class declared elsewhere, which may count as a value fault. -/
  | other (name : String) (isValue : Bool := false)
  deriving DecidableEq

namespace StandardClass

def name : StandardClass → String
  | value => "ValueError"
  | type => "TypeError"
  | key => "KeyError"
  | overflow => "OverflowError"
  | unicode => "UnicodeError"
  | runtime => "RuntimeError"
  | memory => "MemoryError"
  | member => "AttributeError"
  | dump => "PydanticSerializationError"
  | other name _ => name

/-- Value faults, text encoding faults among them. -/
def isValueFault : StandardClass → Bool
  | value | unicode | dump => true
  | other _ isValue => isValue
  | _ => false

end StandardClass

structure FaultAttributes where
  message : Value
  code : Value := .null
  data : Value := .null
  field : Value := .null

/-- What a caller sees when something is refused. -/
inductive Fault where
  | codec (kind : CodecClass) (attributes : FaultAttributes) (cause : Option Fault)
  | standard (kind : StandardClass) (arguments : List Value)

namespace Fault

def className : Fault → String
  | codec kind _ _ => kind.name
  | standard kind _ => kind.name

def isValueFault : Fault → Bool
  | codec kind _ _ => kind.isSerialization
  | standard kind _ => kind.isValueFault

/-- The classes that a fault belongs to, standard ones first. -/
def classNames : Fault → List String
  | codec kind _ _ =>
    (if kind.isSerialization then [StandardClass.value.name] else [])
      ++ kind.ancestors.map CodecClass.name
  | standard kind _ =>
    if kind.isValueFault && kind != .value then [StandardClass.value.name, kind.name]
    else [kind.name]

def ofMessage (kind : StandardClass) (message : String) : Fault :=
  standard kind [.text message]

/-- An integer is too long to be written in a message. -/
def digitLimit : Fault :=
  ofMessage .value ("Exceeds the limit (4300 digits) for integer string conversion; "
    ++ "use sys.set_int_max_str_digits() to increase the limit")

def noAttribute (v : Value) (name : String) : Fault :=
  ofMessage .member ("'" ++ v.typeName ++ "' object has no attribute '" ++ name ++ "'")

def attributes : Fault → Except Fault FaultAttributes
  | codec _ attributes _ => .ok attributes
  | standard kind _ =>
    .error (ofMessage .member ("'" ++ kind.name ++ "' object has no attribute 'message'"))

def noLength (v : Value) : Fault :=
  ofMessage .type ("object of type '" ++ v.typeName ++ "' has no len()")

def requireText (text : Option String) : Except Fault String :=
  match text with
  | some t => .ok t
  | none => .error digitLimit

/-- The text of a fault.  A code stands in square brackets before the message unless it counts as
false; a bare message has to be a text. -/
def text : Fault → Except Fault String
  | codec _ attributes _ =>
    if attributes.code.isTruthy then do
      let code ← requireText attributes.code.plain?
      let message ← requireText attributes.message.plain?
      return "[" ++ code ++ "] " ++ message
    else
      match attributes.message with
      | .text message => .ok message
      | v => .error (ofMessage .type ("__str__ returned non-string (type " ++ v.typeName ++ ")"))
  | standard _ [] => .ok ""
  | standard .key [v] => requireText v.display?
  | standard _ [v] => requireText v.plain?
  | standard _ vs => requireText (Value.tuple vs).display?

end Fault
end KeyCodec
