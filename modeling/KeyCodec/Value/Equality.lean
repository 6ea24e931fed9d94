import KeyCodec.Value.Basic

/-!
# Equality of values

Numbers are equal when they stand for the same number, bytes when they hold the same bytes, tables
when they have the same entries in any order, keys when they stand for the same scalar or point, and
streams only when they are the same stream.  Instances of one model are equal when their fields are.
-/

namespace KeyCodec
namespace Value

def number? : Value → Option Dyadic
  | float x => x.toDyadic?
  | v => v.integer?.map Dyadic.ofInt

/-- Two values stand for the same number, infinities included. -/
def sameNumber (a b : Value) : Bool :=
  match a.number?, b.number? with
  | some m, some n => m == n
  | none, none =>
    match a, b with
    | float x, float y => x.isInfinite && x == y
    | _, _ => false
  | _, _ => false

mutual

def same : Value → Value → Bool
  | null, w => match w with
    | null => true
    | _ => false
  | bool b, w => sameNumber (bool b) w
  | int i, w => sameNumber (int i) w
  | float x, w => sameNumber (float x) w
  | text s, w => match w with
    | text t => s == t
    | _ => false
  | bytes bs, w => match w with
    | bytes cs | buffer cs => bs == cs
    | _ => false
  | buffer bs, w => match w with
    | bytes cs | buffer cs => bs == cs
    | _ => false
  | list vs, w => match w with
    | list ws => sameAll vs ws
    | _ => false
  | tuple vs, w => match w with
    | tuple ws => sameAll vs ws
    | point x y => sameAll vs [x, y]
    | _ => false
  | point x y, w => match w with
    | tuple [a, b] | point a b => same x a && same y b
    | _ => false
  | table entries, w => match w with
    | table others => entries.length == others.length && sameEntries entries others
    | _ => false
  | stream id derived _, w => match w with
    | stream other alike _ => id == other && derived == alike
    | _ => false
  | secretKey k, w => match w with
    | secretKey l => k.same l
    | _ => false
  | publicKey k, w => match w with
    | publicKey l => k == l
    | _ => false
  | fakeSecret c, w => match w with
    | fakeSecret d => same c d
    | _ => false
  | fakePublic c, w => match w with
    | fakePublic d => same c d
    | _ => false
  | model _ name fields, w => match w with
    | model _ other others => name == other && sameFields fields others
    | _ => false
termination_by structural v => v

def sameAll : List Value → List Value → Bool
  | [], ws => ws.isEmpty
  | v :: vs, ws => match ws with
    | [] => false
    | w :: ws => same v w && sameAll vs ws

/-- Every entry of the first table is one of the second. -/
def sameEntries : List (Value × Value) → List (Value × Value) → Bool
  | [], _ => true
  | (k, v) :: entries, others =>
    others.any (fun (l, w) => same k l && same v w) && sameEntries entries others

def sameFields : List (String × Value) → List (String × Value) → Bool
  | [], others => others.isEmpty
  | (name, v) :: fields, others => match others with
    | [] => false
    | (other, w) :: others => name == other && same v w && sameFields fields others

end

/-- Entries with a value put under a key: a key that is there keeps its place. -/
def insert (entries : List (Value × Value)) (k v : Value) : List (Value × Value) :=
  match entries with
  | [] => [(k, v)]
  | (l, w) :: rest => if same l k then (l, v) :: rest else (l, w) :: insert rest k v

def tableOf (entries : List (Value × Value)) : Value :=
  table (entries.foldl (fun t (k, v) => insert t k v) [])

def find? (entries : List (Value × Value)) (k : Value) : Option Value :=
  (entries.find? fun (l, _) => same l k).map Prod.snd

end Value
end KeyCodec
