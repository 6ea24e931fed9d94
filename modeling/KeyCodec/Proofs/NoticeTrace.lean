import KeyCodec.Proofs.FirstOffence

/-!
# The notices of reading a record

Reading leaves a notice at every item that names an axis once more, up to the first item that is no
field and including it: the notice comes before the value is looked at.  When all items are fields,
a lenient reader goes on to remark the axes that it misses.  So the notices depend on the names of
the items and on the place of the first offence, and on no value.  What carries the induction is
that an axis has a coordinate as soon as an item before has named it.
-/

namespace KeyCodec
namespace Record

def namedAxis (item : Value) : Option Axis :=
  (pair? item).bind fun pair => axis? pair.1

/-- The place of the first item that is no field, or the number of all items. -/
def firstOffence (items : List Value) : Nat :=
  items.findIdx fun item => !decide (IsAxisField item)

def noticesAt (names : List (Option Axis)) (i : Nat) : List Notice :=
  match names[i]? with
  | some (some axis) => if some axis ∈ names.take i then [.repeated axis] else []
  | _ => []

/-- The notices that names leave when the first offence is at a given place: one for each
repetition up to this place, and, for a lenient reader that gets to the end, one for each axis that
is missed. -/
def trace (strict : Bool) (names : List (Option Axis)) (offence : Nat) : List Notice :=
  (List.range (offence + 1)).flatMap (noticesAt names) ++
    if strict = false ∧ offence = names.length then
      ([Axis.x, Axis.y].filter fun axis => some axis ∉ names).map .defaulted
    else []

theorem namedAxis_of_field {item v : Value} {axis : Axis} (h : field item = .ok (axis, v)) :
    namedAxis item = some axis := by
  unfold field at h
  unfold namedAxis
  cases hpair : pair? item with
  | none => simp [hpair] at h
  | some pair =>
      obtain ⟨name, w⟩ := pair
      cases haxis : axis? name with
      | none => simp [hpair, haxis] at h
      | some found =>
          simp only [hpair, haxis, Except.ok.injEq, Prod.mk.injEq] at h
          rw [Option.bind_some, haxis, h.1]

theorem namedAxis_of_no_field {item : Value} {r : Refusal} (h : field item = .error r) :
    namedAxis item = none := by
  unfold field at h
  unfold namedAxis
  cases hpair : pair? item with
  | none => rfl
  | some pair =>
      obtain ⟨name, w⟩ := pair
      cases haxis : axis? name with
      | none => exact haxis
      | some found => simp [hpair, haxis] at h

theorem namedAxis_of_digitsOn {axis : Axis} {item : Value} {digits : List Char}
    (h : digitsOn axis item = some digits) : namedAxis item = some axis := by
  obtain ⟨v, hfield, -⟩ := field_of_digitsOn h
  exact namedAxis_of_field hfield

/-! ### Places in a list of names -/

@[simp] theorem noticesAt_length (names : List (Option Axis)) :
    noticesAt names names.length = [] := by
  simp [noticesAt]

theorem noticesAt_append (before : List (Option Axis)) (axis : Axis) (after : List (Option Axis)) :
    noticesAt (before ++ some axis :: after) before.length =
      if some axis ∈ before then [.repeated axis] else [] := by
  simp [noticesAt]

theorem noticesAt_append_none (before after : List (Option Axis)) :
    noticesAt (before ++ none :: after) before.length = [] := by
  simp [noticesAt]

/-- The places from one on are that place and those behind it. -/
theorem flatMap_range_succ (before : List (Option Axis)) (name : Option Axis)
    (after : List (Option Axis)) (n : Nat) :
    ((List.range (n + 1)).flatMap fun i =>
        noticesAt (before ++ name :: after) (before.length + i)) =
      noticesAt (before ++ name :: after) before.length ++
        (List.range n).flatMap fun i =>
          noticesAt ((before ++ [name]) ++ after) ((before ++ [name]).length + i) := by
  have hshift : ∀ i, before.length + (i + 1) = (before ++ [name]).length + i := by
    intro i
    rw [List.length_append, List.length_singleton]
    omega
  rw [List.range_succ_eq_map, List.flatMap_cons, List.flatMap_map, Nat.add_zero]
  simp only [Nat.succ_eq_add_one, hshift, List.append_assoc, List.singleton_append]

/-! ### The reader -/

theorem firstOffence_cons_of_field {item : Value} (h : IsAxisField item) (rest : List Value) :
    firstOffence (item :: rest) = firstOffence rest + 1 := by
  simp [firstOffence, List.findIdx_cons, h]

theorem firstOffence_cons_of_not_field {item : Value} (h : ¬ IsAxisField item)
    (rest : List Value) : firstOffence (item :: rest) = 0 := by
  simp [firstOffence, List.findIdx_cons, h]

/-- The axes that have a coordinate are those that have been named. -/
def Remembers (seen : Coordinates) (before : List (Option Axis)) : Prop :=
  ∀ axis, (seen.get axis).isSome ↔ some axis ∈ before

theorem Remembers.repetition {seen : Coordinates} {before : List (Option Axis)}
    (h : Remembers seen before) (axis : Axis) :
    repetition seen axis = if some axis ∈ before then [.repeated axis] else [] := by
  simp only [Record.repetition, h axis]

theorem Remembers.put {seen : Coordinates} {before : List (Option Axis)}
    (h : Remembers seen before) (axis : Axis) (n : Nat) :
    Remembers (seen.put axis n) (before ++ [some axis]) := by
  intro other
  rw [Coordinates.get_put, List.mem_append, List.mem_singleton, ← h other]
  by_cases hother : other = axis
  · simp [hother]
  · simp [hother]

/-- The reader leaves the notices of the names up to the first offence.  Of the items that are no
fields, only one whose value is at fault leaves a notice on its way out. -/
theorem notices_readFrom {seen : Coordinates} {before : List (Option Axis)}
    (hseen : Remembers seen before) (items : List Value) :
    (readFrom seen items).notices =
      (List.range (firstOffence items + 1)).flatMap fun i =>
        noticesAt (before ++ items.map namedAxis) (before.length + i) := by
  induction items generalizing seen before with
  | nil => simp [readFrom, firstOffence]
  | cons item rest ih =>
      rw [List.map_cons, flatMap_range_succ]
      by_cases hitem : IsAxisField item
      · obtain ⟨axis, digits, hdigits⟩ := isAxisField_iff.mp hitem
        rw [firstOffence_cons_of_field hitem, namedAxis_of_digitsOn hdigits, noticesAt_append,
          readFrom_cons_of_digitsOn hdigits, ← hseen.repetition axis, ← ih (hseen.put axis _)]
      · rw [firstOffence_cons_of_not_field hitem, List.range_zero, List.flatMap_nil,
          List.append_nil]
        cases hfield : field item with
        | error r =>
            rw [namedAxis_of_no_field hfield, noticesAt_append_none]
            simp [readFrom, hfield]
        | ok pair =>
            obtain ⟨axis, v⟩ := pair
            rw [namedAxis_of_field hfield, noticesAt_append, ← hseen.repetition axis]
            cases hv : coordinate axis v with
            | error r => simp [readFrom, hfield, hv]
            | ok n =>
                obtain ⟨digits, hdigits⟩ := digitsOn_of_field hfield hv
                exact absurd (isAxisField_iff.mpr ⟨axis, digits, hdigits⟩) hitem

theorem notices_read (items : List Value) :
    (read items).notices =
      (List.range (firstOffence items + 1)).flatMap (noticesAt (items.map namedAxis)) := by
  have hseen : Remembers {} [] := by
    intro axis
    cases axis <;> simp [Coordinates.get]
  have hrun := notices_readFrom hseen items
  simp only [List.nil_append, List.length_nil, Nat.zero_add] at hrun
  exact hrun

theorem firstOffence_eq_length_iff {items : List Value} :
    firstOffence items = items.length ↔ ∀ item ∈ items, IsAxisField item := by
  rw [firstOffence, List.findIdx_eq_length]
  simp

theorem occurs_iff_named {items : List Value} (h : ∀ item ∈ items, IsAxisField item)
    (axis : Axis) : Occurs axis items ↔ some axis ∈ items.map namedAxis := by
  rw [List.mem_map]
  constructor
  · rintro ⟨item, hitem, hdigits⟩
    obtain ⟨digits, hdigits⟩ := Option.isSome_iff_exists.mp hdigits
    exact ⟨item, hitem, namedAxis_of_digitsOn hdigits⟩
  · rintro ⟨item, hitem, hnamed⟩
    obtain ⟨other, digits, hdigits⟩ := isAxisField_iff.mp (h item hitem)
    rw [namedAxis_of_digitsOn hdigits, Option.some.injEq] at hnamed
    rw [hnamed] at hdigits
    exact ⟨item, hitem, Option.isSome_iff_exists.mpr ⟨digits, hdigits⟩⟩

theorem missing_eq_filter {items : List Value} (h : ∀ item ∈ items, IsAxisField item) :
    missing (through {} items) =
      [Axis.x, Axis.y].filter fun axis => some axis ∉ items.map namedAxis := by
  rw [missing_through]
  simp only [occurs_iff_named h, List.filter_cons, List.filter_nil, decide_not]
  by_cases hx : some Axis.x ∈ items.map namedAxis
  · by_cases hy : some Axis.y ∈ items.map namedAxis <;> simp [hx, hy]
  · by_cases hy : some Axis.y ∈ items.map namedAxis <;> simp [hx, hy]

end Record

open Record

/-! ### The decoder -/

theorem notices_decodePublicKey {record : Value} {items : List Value}
    (hitems : items? record = some items) (core : Core) (strict : Bool) :
    (decodePublicKey core strict record).notices =
      trace strict (items.map namedAxis) (firstOffence items) := by
  rw [trace, ← notices_read, List.length_map]
  by_cases hfields : ∀ item ∈ items, IsAxisField item
  · have hend := firstOffence_eq_length_iff.mpr hfields
    rw [decodePublicKey, readPublicKey_of_fields (m := Id) _ hitems hfields]
    by_cases hoccurs : strict = true → Occurs .x items ∧ Occurs .y items
    · rw [publicKeyOf_of_occurs (m := Id) _ hoccurs]
      show (read items).notices ++ (missing (through {} items)).map .defaulted = _
      cases strict with
      | false => rw [if_pos ⟨rfl, hend⟩, missing_eq_filter hfields]
      | true =>
          obtain ⟨hx, hy⟩ := hoccurs rfl
          rw [if_neg (by simp), missing_through, if_pos hx, if_pos hy]
          rfl
    · obtain ⟨rfl, hmissing⟩ := Classical.not_imp.mp hoccurs
      rw [publicKeyOf_of_not_occurs (m := Id) _ hmissing, if_neg (by simp)]
      rfl
  · have hend : firstOffence items ≠ items.length := mt firstOffence_eq_length_iff.mp hfields
    obtain ⟨f, houtcome⟩ := read_of_not_fields hfields
    rw [decodePublicKey, readPublicKey_of_not_fields (m := Id) _ hitems houtcome,
      if_neg fun h => hend h.2, List.append_nil]
    rfl

theorem notices_decodePublicKey_of_no_items {record : Value} (h : items? record = none)
    (core : Core) (strict : Bool) : (decodePublicKey core strict record).notices = [] := by
  simp only [decodePublicKey, readPublicKey, h]
  rfl

/-! ### How often an axis is repeated -/

/-- An axis is remarked each time it is named but the very first. -/
theorem count_repeated (axis : Axis) (before names : List (Option Axis)) :
    ((List.range (names.length + 1)).flatMap fun i =>
        noticesAt (before ++ names) (before.length + i)).count (.repeated axis) =
      if some axis ∈ before then names.count (some axis) else names.count (some axis) - 1 := by
  induction names generalizing before with
  | nil => simp
  | cons name rest ih =>
      rw [List.length_cons, flatMap_range_succ, List.count_append, ih, List.count_cons]
      cases name with
      | none => simp [noticesAt_append_none]
      | some other =>
          rw [noticesAt_append]
          by_cases hother : other = axis
          · have hnow : some axis ∈ before ++ [some axis] := by simp
            rw [hother, if_pos hnow, beq_self_eq_true, if_pos rfl]
            by_cases hbefore : some axis ∈ before
            · rw [if_pos hbefore, if_pos hbefore, List.count_singleton_self, Nat.add_comm]
            · rw [if_neg hbefore, if_neg hbefore, List.count_nil, Nat.zero_add,
                Nat.add_sub_cancel]
          · have hnone : (if some other ∈ before then [Notice.repeated other] else []).count
                (.repeated axis) = 0 := by
              rw [List.count_eq_zero]
              split
              · simp [Ne.symm hother]
              · exact List.not_mem_nil
            simp [hnone, hother, Ne.symm hother]

theorem count_repeated_of_fields {record : Value} {items : List Value}
    (hitems : items? record = some items) (hfields : ∀ item ∈ items, IsAxisField item)
    (core : Core) (strict : Bool) (axis : Axis) :
    (decodePublicKey core strict record).notices.count (.repeated axis) =
      (items.map namedAxis).count (some axis) - 1 := by
  have hmissed : ∀ axes : List Axis, (axes.map Notice.defaulted).count (.repeated axis) = 0 := by
    intro axes
    rw [List.count_eq_zero]
    simp
  have hrun := count_repeated axis [] (items.map namedAxis)
  simp only [List.nil_append, List.length_nil, Nat.zero_add, List.not_mem_nil, if_false,
    List.length_map] at hrun
  rw [notices_decodePublicKey hitems, trace, firstOffence_eq_length_iff.mpr hfields,
    List.count_append, hrun]
  split
  · rw [hmissed, Nat.add_zero]
  · rw [List.count_nil, Nat.add_zero]

/-! ### All uses of the codecs -/

inductive CodecUse where
  | encodeSecret (core : Core) (key : Value)
  | decodeSecret (core : Core) (v : Value)
  | encodePublic (core : Core) (key : Value)
  | decodePublic (core : Core) (strict : Bool) (record : Value)

namespace CodecUse

/-- What comes of a use.  Only the reader of records has more than an outcome to show.  The other
three uses are given empty notices here, so the last part of `decodePublicKey_notices` holds by
construction. -/
def answer : CodecUse → Reading Value
  | encodeSecret core key => ⟨(encodeSecretKey core key).map .text, [], []⟩
  | decodeSecret core v => ⟨decodeSecretKey core v, [], []⟩
  | encodePublic core key => ⟨encodePublicKey core key, [], []⟩
  | decodePublic core strict record => decodePublicKey core strict record

end CodecUse

/-- The notices of a record are those of its names up to the first offence, and then, for a lenient
reader that gets to the end, those of the axes that are missed; what is no record leaves none.  So
an axis that is named a number of times in a record of fields is remarked one time less, and records
with the same names and the first offence in the same place leave the same notices, whatever their
values are and whatever the cores answer.  Nothing else that the codecs do leaves a notice. -/
theorem decodePublicKey_notices :
    (∀ (core : Core) (strict : Bool) (record : Value),
      (∀ items, items? record = some items → (decodePublicKey core strict record).notices =
        trace strict (items.map namedAxis) (firstOffence items)) ∧
      (items? record = none → (decodePublicKey core strict record).notices = [])) ∧
    (∀ (core : Core) (strict : Bool) (record : Value) (items : List Value),
      items? record = some items → (∀ item ∈ items, IsAxisField item) →
      ∀ axis, (decodePublicKey core strict record).notices.count (.repeated axis) =
        (items.map namedAxis).count (some axis) - 1) ∧
    (∀ (core other : Core) (strict : Bool) (record again : Value) (items more : List Value),
      items? record = some items → items? again = some more →
      items.map namedAxis = more.map namedAxis → firstOffence items = firstOffence more →
      (decodePublicKey core strict record).notices =
        (decodePublicKey other strict again).notices) ∧
    (∀ use : CodecUse, (∀ core strict record, use ≠ .decodePublic core strict record) →
      use.answer.notices = []) := by
  refine ⟨?_, ?_, ?_, ?_⟩
  · intro core strict record
    exact ⟨fun items hitems => notices_decodePublicKey hitems core strict,
      fun hnone => notices_decodePublicKey_of_no_items hnone core strict⟩
  · intro core strict record items hitems hfields axis
    exact count_repeated_of_fields hitems hfields core strict axis
  · intro core other strict record again items more hitems hmore hnames hoffence
    rw [notices_decodePublicKey hitems, notices_decodePublicKey hmore, hnames, hoffence]
  · intro use huse
    cases use with
    | encodeSecret core key => rfl
    | decodeSecret core v => rfl
    | encodePublic core key => rfl
    | decodePublic core strict record => exact absurd rfl (huse core strict record)

/-- A repeated name whose value cannot be read is still remarked and nothing behind it is; two
streams that name `x` three times leave two notices, whatever their values are. -/
theorem decodePublicKey_notices_of_streams :
    (decodePublicKey .secp256k1 false (.stream 0 false [.tuple [.text "x", .text "1"],
      .list [.text "x", .null], .tuple [.text "y", .text "1"],
      .tuple [.text "y", .text "1"]])).notices = [.repeated .x] ∧
    (decodePublicKey .unchecked true (.stream 0 false [.tuple [.text "x", .text "1"],
      .tuple [.text "x", .text "2"], .tuple [.text "x", .text "3"]])).notices.count
        (.repeated .x) = 2 ∧
    (decodePublicKey .unchecked false (.list [.tuple [.text "x", .text "1"],
      .tuple [.text "x", .text "2"]])).notices =
      (decodePublicKey .rejecting false (.stream 0 false [.list [.text "x", .text "00"],
        .tuple [.text "x", .text "FF"]])).notices ∧
    (CodecUse.encodeSecret .secp256k1 .null).answer.notices = [] := by
  obtain ⟨htrace, hcount, halike, hsilent⟩ := decodePublicKey_notices
  refine ⟨?_, ?_, ?_, ?_⟩
  · rw [(htrace .secp256k1 false _).1 _ rfl]
    decide
  · rw [hcount .unchecked true _ _ rfl (by decide)]
    decide
  · exact halike .unchecked .rejecting false _ _ _ _ rfl rfl (by decide) (by decide)
  · apply hsilent
    intro core strict record h
    cases h

end KeyCodec
