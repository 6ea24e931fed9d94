import KeyCodec.Key.Access

/-!
# Cores

A codec never looks inside a key.  It asks a core to turn a secret key into a scalar and back, and a
public key into a point and back.  A core may hand out anything and may refuse with any fault.
-/

namespace KeyCodec

/-- The four conversions that codecs rely on. -/
structure Core where
  toScalar : Value → Except Fault Value
  ofScalar : Value → Except Fault Value
  toPoint : Value → Except Fault Value
  ofPoint : Value → Except Fault Value

namespace Core

def secp256k1 : Core where
  toScalar := Value.scalar
  ofScalar v := (SecretKey.ofInteger v).map .secretKey
  toPoint := Value.shownPoint
  ofPoint p := (PublicKey.ofPoint p).map .publicKey

def pointOfItems (v : Value) : Except Fault Value :=
  match v.items? with
  | none =>
    .error (.ofMessage .type
      ("ecserde.types.common.Point() argument after * must be an iterable, not " ++ v.typeName))
  | some [x, y] => .ok (.point x y)
  | some [] =>
    .error (.ofMessage .type
      "Point.__new__() missing 2 required positional arguments: 'x' and 'y'")
  | some [_] =>
    .error (.ofMessage .type "Point.__new__() missing 1 required positional argument: 'y'")
  | some items =>
    .error (.ofMessage .type
      ("Point.__new__() takes 3 positional arguments but " ++ toString (items.length + 1)
        ++ " were given"))

/-- A core that checks nothing: its keys hold whatever they are given. -/
def unchecked : Core where
  toScalar
    | .fakeSecret content => .ok content
    | v => .error (.noAttribute v "value")
  ofScalar v := .ok (.fakeSecret v)
  toPoint := Value.shownPoint
  ofPoint p := (pointOfItems p).map .fakePublic

def silent : Core where
  toScalar _ := .ok .null
  ofScalar _ := .ok .null
  toPoint _ := .ok .null
  ofPoint _ := .ok .null

def rejecting : Core where
  toScalar := unchecked.toScalar
  ofScalar _ := .error (.ofMessage .value "scalar rejected by core")
  toPoint := unchecked.toPoint
  ofPoint _ := .error (.ofMessage .value "point rejected by core")

def name : String := "Secp256k1Core()"

def conversionNames : List String := ["to_int", "from_int", "to_point", "from_point"]

def conversion? (core : Core) : String → Option (Value → Except Fault Value)
  | "to_int" => some core.toScalar
  | "from_int" => some core.ofScalar
  | "to_point" => some core.toPoint
  | "from_point" => some core.ofPoint
  | _ => none

/-- The core with the named conversion replaced by a fixed answer. -/
def override (core : Core) (name : String) (answer : Except Fault Value) : Core :=
  match name with
  | "to_int" => { core with toScalar := fun _ => answer }
  | "from_int" => { core with ofScalar := fun _ => answer }
  | "to_point" => { core with toPoint := fun _ => answer }
  | "from_point" => { core with ofPoint := fun _ => answer }
  | _ => core

/-- Having methods of the given names is enough to convert scalars, to convert points, and to be a
core. -/
def capabilities (methods : List String) : Bool × Bool × Bool :=
  let scalars := methods.contains "to_int" && methods.contains "from_int"
  let points := methods.contains "to_point" && methods.contains "from_point"
  (scalars, points, scalars && points)

end Core
end KeyCodec
