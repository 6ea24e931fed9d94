import KeyCodec.Key.Access
import KeyCodec.Model.Verdict

/-!
# Sessions

A session keeps values under names.  A value that is fetched shows every read that has happened to
the streams in it since it was put in.  A stream that is opened gets an identity of its own, and so
does an instance of a model when it is put under a name: the fields of an instance never change, but
attributes whose names start with an underscore may be added to it.
-/

namespace KeyCodec

/-- Named values, the reads from streams, the attributes added to instances, the latest first, and
the numbers of streams and of instances that have an identity so far. -/
structure Session where
  registers : List (String × Value) := []
  drains : Drains := []
  additions : List ((Nat × String) × Value) := []
  streams : Nat := 0
  instances : Nat := 0

namespace Session

def get? (s : Session) (name : String) : Option Value :=
  (s.registers.find? (·.1 == name)).map fun (_, v) => v.refresh s.drains

def identify (s : Session) : Value → Value × Session
  | .model none name fields =>
    (.model (some s.instances) name fields, { s with instances := s.instances + 1 })
  | v => (v, s)

def set (s : Session) (name : String) (v : Value) : Session :=
  let (v, s) := s.identify v
  { s with registers := (name, v) :: s.registers }

def openStream (s : Session) (items : List Value) : Value × Session :=
  (.stream s.streams false items, { s with streams := s.streams + 1 })

/-- The reads of an operation, which come after all earlier ones. -/
def record (s : Session) (reads : Drains) : Session :=
  { s with drains := reads ++ s.drains }

def added? (s : Session) (v : Value) (name : String) : Option Value :=
  match v with
  | .model (some id) _ _ =>
    (s.additions.find? (·.1 == (id, name))).map fun (_, v) => v.refresh s.drains
  | _ => none

/-- The part of a value that goes by a name; what was added to it comes first. -/
def part (s : Session) (v : Value) (name : String) : Except Fault Value :=
  match s.added? v name with
  | some found => .ok found
  | none => v.part name

/-- A value given to an attribute.  An instance accepts it only under a name that starts with an
underscore, which no field has. -/
def assign (s : Session) (v : Value) (name : String) (new : Value) : Verdict Session :=
  match v with
  | .model id _ _ =>
    if name.startsWith "_" then
      match id with
      | some id => .accepted { s with additions := ((id, name), new) :: s.additions }
      | none => .accepted s
    else .rejected [⟨[.name name], .frozen new⟩]
  | v => .failed (.noAttribute v name)

end Session
end KeyCodec
