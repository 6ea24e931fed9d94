import KeyCodec.Record.Reader
import KeyCodec.Proofs.Digits
import KeyCodec.Proofs.Outcome

/-!
# What a record means

The meaning of a record is said item by item and without a reader.  Which items a record has is said
kind by kind.  An item is a field when it gives hex digits to an axis; a record is in order when all
its items are fields; the number on an axis is that of the last field on it.  The reader keeps, at
every item, the meaning of the items before it: the induction goes along the items, and what it
carries is the table of coordinates seen so far.
-/

namespace KeyCodec

theorem Axis.name_inj {a b : Axis} : a.name = b.name ↔ a = b := by
  cases a <;> cases b <;> decide

namespace Record

/-! ### The items of a record -/

/-- A record has items by its kind.  The items of a table are its entries as pairs, and so are those
of an instance of a model; the items of a buffer are the numbers of its bytes; those of a stream are
the ones that have not been read. -/
inductive HasItems : Value → List Value → Prop
  | list (vs : List Value) : HasItems (.list vs) vs
  | tuple (vs : List Value) : HasItems (.tuple vs) vs
  | point (x y : Value) : HasItems (.point x y) [x, y]
  | buffer (bs : List UInt8) : HasItems (.buffer bs) (bs.map fun b => .int b.toNat)
  | table (entries : List (Value × Value)) :
      HasItems (.table entries) (entries.map fun (name, v) => .tuple [name, v])
  | stream (id : Nat) (derived : Bool) (unread : List Value) :
      HasItems (.stream id derived unread) unread
  | model (id : Option Nat) (model : String) (fields : List (String × Value)) :
      HasItems (.model id model fields) (fields.map fun (name, v) => .tuple [.text name, v])

/-- The value is no record: a text or bytes, which have items and are still not read as records, or
a value of a kind that has no items. -/
inductive IsNoRecord : Value → Prop
  | text (s : String) : IsNoRecord (.text s)
  | bytes (bs : List UInt8) : IsNoRecord (.bytes bs)
  | null : IsNoRecord .null
  | bool (b : Bool) : IsNoRecord (.bool b)
  | int (i : Int) : IsNoRecord (.int i)
  | float (x : Binary64) : IsNoRecord (.float x)
  | secretKey (k : SecretKey) : IsNoRecord (.secretKey k)
  | publicKey (k : PublicKey) : IsNoRecord (.publicKey k)
  | fakeSecret (content : Value) : IsNoRecord (.fakeSecret content)
  | fakePublic (content : Value) : IsNoRecord (.fakePublic content)

theorem HasItems.items?_eq {record : Value} {items : List Value} (h : HasItems record items) :
    items? record = some items := by
  cases h <;> rfl

theorem IsNoRecord.items?_eq {record : Value} (h : IsNoRecord record) : items? record = none := by
  cases h <;> rfl

theorem hasItems_or_isNoRecord (record : Value) :
    (∃ items, HasItems record items) ∨ IsNoRecord record := by
  cases record with
  | list vs => exact Or.inl ⟨_, .list vs⟩
  | tuple vs => exact Or.inl ⟨_, .tuple vs⟩
  | point x y => exact Or.inl ⟨_, .point x y⟩
  | buffer bs => exact Or.inl ⟨_, .buffer bs⟩
  | table entries => exact Or.inl ⟨_, .table entries⟩
  | stream id derived unread => exact Or.inl ⟨_, .stream id derived unread⟩
  | model id name fields => exact Or.inl ⟨_, .model id name fields⟩
  | _ =>
      right
      constructor

/-- What is read of a record are the items that it has by its kind. -/
theorem items?_eq_some_iff {record : Value} {items : List Value} :
    items? record = some items ↔ HasItems record items := by
  constructor
  · intro h
    rcases hasItems_or_isNoRecord record with ⟨others, hothers⟩ | hnone
    · rw [hothers.items?_eq] at h
      cases h
      exact hothers
    · rw [hnone.items?_eq] at h
      cases h
  · exact HasItems.items?_eq

/-- What the reader takes for no record is none by its kind. -/
theorem items?_eq_none_iff {record : Value} : items? record = none ↔ IsNoRecord record := by
  constructor
  · intro h
    rcases hasItems_or_isNoRecord record with ⟨items, hitems⟩ | hnone
    · rw [hitems.items?_eq] at h
      cases h
    · exact hnone
  · exact IsNoRecord.items?_eq

/-! ### The meaning of a record -/

def texts? : Value → Option (String × String)
  | .list [.text name, .text s] => some (name, s)
  | .tuple [.text name, .text s] => some (name, s)
  | .point (.text name) (.text s) => some (name, s)
  | _ => none

/-- The hex digits that an item gives to an axis. -/
def digitsOn (axis : Axis) (item : Value) : Option (List Char) :=
  match texts? item with
  | some (name, s) =>
    if name = axis.name ∧ Hex.isHex s.toList = true then some s.toList else none
  | none => none

def IsAxisField (item : Value) : Prop :=
  (digitsOn .x item).isSome ∨ (digitsOn .y item).isSome

instance (item : Value) : Decidable (IsAxisField item) :=
  inferInstanceAs (Decidable (_ ∨ _))

def Occurs (axis : Axis) (items : List Value) : Prop :=
  ∃ item ∈ items, (digitsOn axis item).isSome

instance (axis : Axis) (items : List Value) : Decidable (Occurs axis items) :=
  inferInstanceAs (Decidable (∃ _ ∈ _, _))

def last? (axis : Axis) (items : List Value) : Option Nat :=
  ((items.filterMap (digitsOn axis)).getLast?).map Hex.value

/-- The point of the items: the last number on either axis, and zero where there is none. -/
def pointOf (items : List Value) : Value :=
  .point (.int ((last? .x items).getD 0)) (.int ((last? .y items).getD 0))

/-- Every item is a field, and a strict reader finds both axes. -/
def InOrder (strict : Bool) (items : List Value) : Prop :=
  (∀ item ∈ items, IsAxisField item) ∧ (strict = true → Occurs .x items ∧ Occurs .y items)

instance (strict : Bool) (items : List Value) : Decidable (InOrder strict items) :=
  inferInstanceAs (Decidable (_ ∧ _))

/-- The point that a record stands for, if the record is in order. -/
def meaning? (strict : Bool) (record : Value) : Option Value :=
  match items? record with
  | some items => if InOrder strict items then some (pointOf items) else none
  | none => none

theorem meaning?_of_items {strict : Bool} {record : Value} {items : List Value}
    (h : items? record = some items) :
    meaning? strict record = if InOrder strict items then some (pointOf items) else none := by
  simp only [meaning?, h]

/-- A record stands for a point when its kind gives it items, these are in order, and the point is
theirs. -/
theorem meaning?_eq_some_iff {strict : Bool} {record point : Value} :
    meaning? strict record = some point ↔
      ∃ items, HasItems record items ∧ InOrder strict items ∧ pointOf items = point := by
  simp only [← items?_eq_some_iff]
  cases hitems : items? record with
  | none => simp [meaning?, hitems]
  | some items => simp [meaning?_of_items hitems]

/-- What stands for no point is no record, or has items that are not in order. -/
theorem meaning?_eq_none_iff {strict : Bool} {record : Value} :
    meaning? strict record = none ↔
      IsNoRecord record ∨ ∃ items, HasItems record items ∧ ¬ InOrder strict items := by
  simp only [← items?_eq_some_iff, ← items?_eq_none_iff]
  cases hitems : items? record with
  | none => simp [meaning?, hitems]
  | some items => simp [meaning?_of_items hitems]

/-! ### One item -/

theorem isAxisField_iff {item : Value} :
    IsAxisField item ↔ ∃ axis digits, digitsOn axis item = some digits := by
  simp only [IsAxisField, Option.isSome_iff_exists]
  constructor
  · rintro (⟨digits, h⟩ | ⟨digits, h⟩)
    · exact ⟨.x, digits, h⟩
    · exact ⟨.y, digits, h⟩
  · rintro ⟨axis, digits, h⟩
    cases axis with
    | x => exact Or.inl ⟨digits, h⟩
    | y => exact Or.inr ⟨digits, h⟩

theorem digitsOn_eq_some_iff {axis : Axis} {item : Value} {digits : List Char} :
    digitsOn axis item = some digits ↔
      ∃ s, texts? item = some (axis.name, s) ∧ Hex.isHex digits = true ∧ s.toList = digits := by
  unfold digitsOn
  cases texts? item with
  | none => simp
  | some texts =>
      obtain ⟨name, s⟩ := texts
      simp only [Option.ite_none_right_eq_some, Option.some.injEq, Prod.mk.injEq]
      constructor
      · rintro ⟨⟨rfl, hhex⟩, rfl⟩
        exact ⟨s, ⟨rfl, rfl⟩, hhex, rfl⟩
      · rintro ⟨t, ⟨rfl, rfl⟩, hhex, rfl⟩
        exact ⟨⟨rfl, hhex⟩, rfl⟩

theorem digitsOn_other {axis other : Axis} {item : Value} {digits : List Char}
    (h : digitsOn axis item = some digits) (hne : other ≠ axis) : digitsOn other item = none := by
  obtain ⟨s, htexts, _⟩ := digitsOn_eq_some_iff.mp h
  have hname : axis.name ≠ other.name := fun heq => hne (Axis.name_inj.mp heq).symm
  simp [digitsOn, htexts, hname]

theorem texts?_eq_some_iff {item : Value} {name s : String} :
    texts? item = some (name, s) ↔ pair? item = some (.text name, .text s) := by
  unfold texts? pair?
  constructor
  · intro h
    split at h
    all_goals cases h
    all_goals rfl
  · intro h
    split at h
    all_goals cases h
    all_goals rfl

@[simp] theorem axis?_name (axis : Axis) : axis? (.text axis.name) = some axis := by
  cases axis <;> decide

theorem axis?_eq_some_iff {name : Value} {axis : Axis} :
    axis? name = some axis ↔ name = .text axis.name := by
  constructor
  · intro h
    unfold axis? at h
    split at h
    · next s =>
      split at h
      · next hx =>
        cases h
        rw [hx, Axis.name]
      · split at h
        · next hy =>
          cases h
          rw [hy, Axis.name]
        · cases h
    · cases h
  · rintro rfl
    exact axis?_name axis

/-- An item that is a field passes all three checks of the reader. -/
theorem field_of_digitsOn {axis : Axis} {item : Value} {digits : List Char}
    (h : digitsOn axis item = some digits) :
    ∃ v, field item = .ok (axis, v) ∧ coordinate axis v = .ok (Hex.value digits) := by
  obtain ⟨s, htexts, hhex, rfl⟩ := digitsOn_eq_some_iff.mp h
  have hpair := texts?_eq_some_iff.mp htexts
  have hread : HexText.decode (.text s) = .ok (Hex.value s.toList) :=
    HexText.decode_text_iff.mpr ⟨hhex, rfl⟩
  exact ⟨.text s, by simp [field, hpair], by simp [coordinate, hread]⟩

/-- An item that passes all three checks of the reader is a field. -/
theorem digitsOn_of_field {axis : Axis} {item v : Value} {n : Nat}
    (hfield : field item = .ok (axis, v)) (hv : coordinate axis v = .ok n) :
    ∃ digits, digitsOn axis item = some digits := by
  obtain ⟨s, rfl, hhex, -⟩ := HexText.decode_eq_ok_iff.mp (Outcome.mapError_eq_ok_iff.mp hv)
  unfold field at hfield
  split at hfield
  · cases hfield
  · next name w hpair =>
    split at hfield
    · cases hfield
    · next found haxis =>
      cases hfield
      rw [axis?_eq_some_iff] at haxis
      rw [haxis] at hpair
      exact ⟨s.toList, digitsOn_eq_some_iff.mpr
        ⟨s, texts?_eq_some_iff.mpr hpair, hhex, rfl⟩⟩

/-! ### A run over fields -/

theorem Coordinates.get_put (c : Coordinates) (axis other : Axis) (n : Nat) :
    (c.put axis n).get other = if other = axis then some n else c.get other := by
  cases axis <;> cases other <;> rfl

theorem Coordinates.ext_get {c d : Coordinates} (h : ∀ axis, c.get axis = d.get axis) : c = d := by
  have hx := h .x
  have hy := h .y
  cases c
  cases d
  simp only [get] at hx hy
  rw [hx, hy]

def through (seen : Coordinates) (items : List Value) : Coordinates where
  x := (last? .x items).or seen.x
  y := (last? .y items).or seen.y

theorem get_through (seen : Coordinates) (items : List Value) (axis : Axis) :
    (through seen items).get axis = (last? axis items).or (seen.get axis) := by
  cases axis <;> rfl

@[simp] theorem through_nil (seen : Coordinates) : through seen [] = seen := by
  apply Coordinates.ext_get
  intro axis
  simp [get_through, last?]

theorem last?_cons_of_digitsOn {axis : Axis} {item : Value} {digits : List Char}
    (h : digitsOn axis item = some digits) (rest : List Value) :
    last? axis (item :: rest) = (last? axis rest).or (some (Hex.value digits)) := by
  unfold last?
  rw [List.filterMap_cons_some h, List.getLast?_cons]
  cases (rest.filterMap (digitsOn axis)).getLast? <;> rfl

theorem last?_cons_of_none {axis : Axis} {item : Value} (h : digitsOn axis item = none)
    (rest : List Value) : last? axis (item :: rest) = last? axis rest := by
  unfold last?
  rw [List.filterMap_cons_none h]

theorem through_cons {axis : Axis} {item : Value} {digits : List Char}
    (h : digitsOn axis item = some digits) (seen : Coordinates) (rest : List Value) :
    through seen (item :: rest) = through (seen.put axis (Hex.value digits)) rest := by
  apply Coordinates.ext_get
  intro other
  rw [get_through, get_through, Coordinates.get_put]
  by_cases hother : other = axis
  · rw [hother, last?_cons_of_digitsOn h, if_pos rfl, Option.or_assoc, Option.some_or]
  · rw [last?_cons_of_none (digitsOn_other h hother), if_neg hother]

/-- One step of the reader over a field. -/
theorem readFrom_cons_of_digitsOn {axis : Axis} {item : Value} {digits : List Char}
    (h : digitsOn axis item = some digits) (seen : Coordinates) (rest : List Value) :
    readFrom seen (item :: rest) =
      { readFrom (seen.put axis (Hex.value digits)) rest with
        notices := repetition seen axis ++
          (readFrom (seen.put axis (Hex.value digits)) rest).notices } := by
  obtain ⟨v, hfield, hv⟩ := field_of_digitsOn h
  rw [readFrom, hfield]
  simp only [hv]

/-- What the reader does after fields does not depend on how it got to their coordinates.  A field
changes the table for the fields after it, so this is said for every table. -/
theorem readFrom_append {fields : List Value} (h : ∀ item ∈ fields, IsAxisField item)
    (seen : Coordinates) (rest : List Value) :
    (readFrom seen (fields ++ rest)).outcome = (readFrom (through seen fields) rest).outcome ∧
      (readFrom seen (fields ++ rest)).unread = (readFrom (through seen fields) rest).unread := by
  induction fields generalizing seen with
  | nil => simp
  | cons item fields ih =>
      obtain ⟨hitem, hfields⟩ := List.forall_mem_cons.mp h
      obtain ⟨axis, digits, hdigits⟩ := isAxisField_iff.mp hitem
      rw [List.cons_append, readFrom_cons_of_digitsOn hdigits, through_cons hdigits]
      exact ih hfields (seen.put axis (Hex.value digits))

/-- A record of fields is read to its end, and what has been read is the last number on each axis.
-/
theorem read_of_fields {items : List Value} (h : ∀ item ∈ items, IsAxisField item) :
    (read items).outcome = .ok (through {} items) ∧ (read items).unread = [] := by
  have hrun := readFrom_append h {} []
  rwa [List.append_nil, readFrom] at hrun

theorem point_through (items : List Value) : (through {} items).point = pointOf items := by
  simp [Coordinates.point, pointOf, through]

theorem occurs_iff {axis : Axis} {items : List Value} :
    Occurs axis items ↔ (last? axis items).isSome := by
  rw [last?, Option.isSome_map, List.getLast?_isSome, Ne, List.filterMap_eq_nil_iff]
  simp [Occurs, Option.isSome_iff_ne_none]

theorem get_through_empty (axis : Axis) (items : List Value) :
    (through {} items).get axis = last? axis items := by
  rw [get_through]
  cases axis <;> exact Option.or_none

/-- The axes that the reader misses, in the order in which it misses them. -/
theorem missing_through (items : List Value) :
    missing (through {} items) =
      (if Occurs .x items then [] else [.x]) ++ if Occurs .y items then [] else [.y] := by
  simp only [missing, List.filter_cons, get_through_empty, occurs_iff]
  cases last? .x items <;> cases last? .y items <;> rfl

/-! ### The first item that is no field -/

def refusal? (item : Value) : Option Refusal :=
  match field item with
  | .error r => some r
  | .ok (axis, v) =>
    match coordinate axis v with
    | .error r => some r
    | .ok _ => none

theorem refusal?_eq_none_iff {item : Value} : refusal? item = none ↔ IsAxisField item := by
  constructor
  · intro h
    unfold refusal? at h
    cases hfield : field item with
    | error r => simp [hfield] at h
    | ok pair =>
        obtain ⟨axis, v⟩ := pair
        cases hv : coordinate axis v with
        | error r => simp [hfield, hv] at h
        | ok n => exact isAxisField_iff.mpr ⟨axis, digitsOn_of_field hfield hv⟩
  · intro h
    obtain ⟨axis, digits, hdigits⟩ := isAxisField_iff.mp h
    obtain ⟨v, hfield, hv⟩ := field_of_digitsOn hdigits
    simp [refusal?, hfield, hv]

theorem exists_refusal {item : Value} (h : ¬ IsAxisField item) : ∃ r, refusal? item = some r :=
  Option.ne_none_iff_exists'.mp (mt refusal?_eq_none_iff.mp h)

/-- One step of the reader over an item that is no field: nothing after it is read. -/
theorem readFrom_cons_of_refusal {item : Value} {r : Refusal} (h : refusal? item = some r)
    (seen : Coordinates) (rest : List Value) :
    (readFrom seen (item :: rest)).outcome = .error r.fault ∧
      (readFrom seen (item :: rest)).unread = rest := by
  unfold refusal? at h
  cases hfield : field item with
  | error s =>
      simp only [hfield, Option.some.injEq] at h
      simp [readFrom, hfield, h]
  | ok pair =>
      obtain ⟨axis, v⟩ := pair
      cases hv : coordinate axis v with
      | error s =>
          simp only [hfield, hv, Option.some.injEq] at h
          simp [readFrom, hfield, hv, h]
      | ok n => simp [hfield, hv] at h

/-- The first item that is no field decides the outcome, whatever follows it. -/
theorem read_of_refusal {before : List Value} {item : Value} {r : Refusal}
    (hbefore : ∀ i ∈ before, IsAxisField i) (h : refusal? item = some r) (after : List Value) :
    (read (before ++ item :: after)).outcome = .error r.fault ∧
      (read (before ++ item :: after)).unread = after := by
  obtain ⟨houtcome, hunread⟩ := readFrom_append hbefore {} (item :: after)
  obtain ⟨hstep, hrest⟩ := readFrom_cons_of_refusal h (through {} before) after
  exact ⟨houtcome.trans hstep, hunread.trans hrest⟩

theorem exists_first_not_isAxisField {items : List Value} (h : ¬ ∀ item ∈ items, IsAxisField item) :
    ∃ before item after, items = before ++ item :: after ∧
      (∀ i ∈ before, IsAxisField i) ∧ ¬ IsAxisField item := by
  induction items with
  | nil => simp at h
  | cons item rest ih =>
      by_cases hitem : IsAxisField item
      · have hrest : ¬ ∀ i ∈ rest, IsAxisField i :=
          fun hall => h (List.forall_mem_cons.mpr ⟨hitem, hall⟩)
        obtain ⟨before, next, after, rfl, hbefore, hnext⟩ := ih hrest
        exact ⟨item :: before, next, after, rfl,
          List.forall_mem_cons.mpr ⟨hitem, hbefore⟩, hnext⟩
      · exact ⟨[], item, rest, rfl, by simp, hitem⟩

theorem read_of_not_fields {items : List Value} (h : ¬ ∀ item ∈ items, IsAxisField item) :
    ∃ f, (read items).outcome = .error f := by
  obtain ⟨before, item, after, rfl, hbefore, hitem⟩ := exists_first_not_isAxisField h
  obtain ⟨r, hr⟩ := exists_refusal hitem
  exact ⟨r.fault, (read_of_refusal hbefore hr after).1⟩

end Record
end KeyCodec
