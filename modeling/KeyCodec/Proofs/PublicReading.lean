import KeyCodec.Codec
import KeyCodec.Proofs.RecordMeaning
import Mathlib.Data.List.Forall2

/-!
# Reading a record asks for its meaning

A record that is in order is read by asking for the key of its point, once and for nothing else; any
other record is refused without asking.  This is said in every monad, so it also holds of a core
that counts its calls or changes its answers.
-/

namespace KeyCodec

open Record

section Asking

variable {m : Type → Type} [Monad m] (ask : Value → m (Except Fault Value))

theorem publicKeyOf_of_occurs {strict : Bool} {items : List Value}
    (h : strict = true → Occurs .x items ∧ Occurs .y items) :
    publicKeyOf ask strict (through {} items) = do
      let answer ← ask (pointOf items)
      return (accept .publicKey (pointOf items) answer,
        (missing (through {} items)).map .defaulted) := by
  unfold publicKeyOf
  rw [point_through]
  split
  · next axis axes hmissing =>
    obtain ⟨hx, hy⟩ := h rfl
    rw [missing_through, if_pos hx, if_pos hy] at hmissing
    cases hmissing
  · rfl

/-- The first axis that does not occur, `x` before `y`. -/
def firstMissing (items : List Value) : Axis :=
  if Occurs .x items then .y else .x

theorem publicKeyOf_of_not_occurs {items : List Value}
    (h : ¬ (Occurs .x items ∧ Occurs .y items)) :
    publicKeyOf ask true (through {} items) =
      pure (.error (Refusal.missingField (.text (firstMissing items).name)).fault, []) := by
  unfold publicKeyOf
  rw [missing_through, firstMissing]
  by_cases hx : Occurs .x items
  · have hy : ¬ Occurs .y items := fun hy => h ⟨hx, hy⟩
    simp [hx, hy]
  · simp [hx]

/-- A record of fields leads to the request for its point, unless a strict reader misses an axis. -/
theorem readPublicKey_of_fields {record : Value} {items : List Value}
    (hitems : items? record = some items) (hfields : ∀ item ∈ items, IsAxisField item)
    (strict : Bool) :
    readPublicKey ask strict record = do
      let (outcome, notices) ← publicKeyOf ask strict (through {} items)
      return ⟨outcome, (read items).notices ++ notices, []⟩ := by
  obtain ⟨houtcome, hunread⟩ := read_of_fields hfields
  simp only [readPublicKey, hitems, houtcome, hunread]

theorem readPublicKey_of_not_fields {record : Value} {items : List Value}
    (hitems : items? record = some items) {f : Fault} (houtcome : (read items).outcome = .error f)
    (strict : Bool) :
    readPublicKey ask strict record =
      pure ⟨.error f, (read items).notices, (read items).unread⟩ := by
  simp only [readPublicKey, hitems, houtcome]

end Asking

/-- A record in order is read by asking for the key of its point, once. -/
theorem readPublicKey_of_meaning {strict : Bool} {record point : Value}
    (h : meaning? strict record = some point) :
    ∃ notices, ∀ (m : Type → Type) [Monad m] [LawfulMonad m]
      (ask : Value → m (Except Fault Value)),
      readPublicKey ask strict record = do
        let answer ← ask point
        return ⟨accept .publicKey point answer, notices, []⟩ := by
  obtain ⟨items, hitems, ⟨hfields, hoccurs⟩, rfl⟩ := meaning?_eq_some_iff.mp h
  refine ⟨(read items).notices ++ (missing (through {} items)).map .defaulted, ?_⟩
  intro m _ _ ask
  rw [readPublicKey_of_fields ask hitems.items?_eq hfields, publicKeyOf_of_occurs ask hoccurs]
  simp

/-- A record that is not in order is refused, and nothing is asked for. -/
theorem readPublicKey_of_no_meaning {strict : Bool} {record : Value}
    (h : meaning? strict record = none) :
    ∃ f notices unread, ∀ (m : Type → Type) [Monad m] [LawfulMonad m]
      (ask : Value → m (Except Fault Value)),
      readPublicKey ask strict record = pure ⟨.error f, notices, unread⟩ := by
  rcases meaning?_eq_none_iff.mp h with hnone | ⟨items, hitems, horder⟩
  · refine ⟨(Refusal.notRecord record).fault, [], [], ?_⟩
    intro m _ _ ask
    simp only [readPublicKey, hnone.items?_eq]
  · by_cases hfields : ∀ item ∈ items, IsAxisField item
    · have hmissing : ¬ (strict = true → Occurs .x items ∧ Occurs .y items) :=
        fun hoccurs => horder ⟨hfields, hoccurs⟩
      obtain ⟨rfl, hoccurs⟩ := Classical.not_imp.mp hmissing
      refine ⟨(Refusal.missingField (.text (firstMissing items).name)).fault,
        (read items).notices, [], ?_⟩
      intro m _ _ ask
      rw [readPublicKey_of_fields ask hitems.items?_eq hfields,
        publicKeyOf_of_not_occurs ask hoccurs]
      simp
    · obtain ⟨f, houtcome⟩ := read_of_not_fields hfields
      refine ⟨f, (read items).notices, (read items).unread, ?_⟩
      intro m _ _ ask
      exact readPublicKey_of_not_fields ask hitems.items?_eq houtcome strict

theorem decodePublicKey_of_meaning {strict : Bool} {record point : Value}
    (h : meaning? strict record = some point) (core : Core) :
    (decodePublicKey core strict record).outcome =
      accept .publicKey point (core.ofPoint point) := by
  obtain ⟨notices, hread⟩ := readPublicKey_of_meaning h
  rw [decodePublicKey, hread Id]
  rfl

theorem decodePublicKey_of_no_meaning {strict : Bool} {record : Value}
    (h : meaning? strict record = none) :
    ∃ f, ∀ core : Core, (decodePublicKey core strict record).outcome = .error f := by
  obtain ⟨f, notices, unread, hread⟩ := readPublicKey_of_no_meaning h
  refine ⟨f, fun core => ?_⟩
  rw [decodePublicKey, hread Id]
  rfl

/-- Nothing but a key passes from the core. -/
theorem accept_eq_ok_iff {role : KeyRole} {data key : Value} {answer : Except Fault Value} :
    accept role data answer = .ok key ↔ answer = .ok key := by
  unfold accept
  split <;> simp

/-- A record is accepted when it is in order and the core has a key for its point. -/
theorem decodePublicKey_eq_ok_iff {core : Core} {strict : Bool} {record key : Value} :
    (decodePublicKey core strict record).outcome = .ok key ↔
      ∃ point, meaning? strict record = some point ∧ core.ofPoint point = .ok key := by
  cases h : meaning? strict record with
  | none =>
      obtain ⟨f, hf⟩ := decodePublicKey_of_no_meaning h
      simp [hf core]
  | some point => simp [decodePublicKey_of_meaning h core, accept_eq_ok_iff]

/-- The record of two texts of digits stands for the point of the numbers that they spell. -/
theorem meaning?_recordOf_of_isHex (strict : Bool) {sx sy : String}
    (hx : Hex.isHex sx.toList = true) (hy : Hex.isHex sy.toList = true) :
    meaning? strict (recordOf sx sy) =
      some (.point (.int (Hex.value sx.toList)) (.int (Hex.value sy.toList))) := by
  have hdigitsX : digitsOn .x (.tuple [.text Axis.x.name, .text sx]) = some sx.toList :=
    digitsOn_eq_some_iff.mpr ⟨_, rfl, hx, rfl⟩
  have hdigitsY : digitsOn .y (.tuple [.text Axis.y.name, .text sy]) = some sy.toList :=
    digitsOn_eq_some_iff.mpr ⟨_, rfl, hy, rfl⟩
  have hxy := digitsOn_other hdigitsX (show Axis.y ≠ .x by decide)
  have hyx := digitsOn_other hdigitsY (show Axis.x ≠ .y by decide)
  have hitems : items? (recordOf sx sy) =
      some [.tuple [.text Axis.x.name, .text sx], .tuple [.text Axis.y.name, .text sy]] := rfl
  rw [meaning?_of_items hitems, if_pos]
  · simp [pointOf, last?, hdigitsX, hdigitsY, hxy, hyx]
  · simp [InOrder, IsAxisField, Occurs, hdigitsX, hdigitsY]

/-- The record of two numbers stands for the point that has them as coordinates. -/
theorem meaning?_recordOf (strict : Bool) (x y : Nat) :
    meaning? strict (recordOf (String.ofList (Hex.ofNat x)) (String.ofList (Hex.ofNat y))) =
      some (.point (.int x) (.int y)) := by
  have hdigits : ∀ n, Hex.isHex (String.ofList (Hex.ofNat n)).toList = true := by
    intro n
    rw [String.toList_ofList]
    exact Hex.isHex_ofNat n
  rw [meaning?_recordOf_of_isHex strict (hdigits x) (hdigits y), String.toList_ofList,
    String.toList_ofList, Hex.value_ofNat, Hex.value_ofNat]

/-! ### Records of one meaning -/

def fieldsOn (axis : Axis) (items : List Value) : List Value :=
  items.filter fun item => (digitsOn axis item).isSome

/-- The digits that an item gives to an axis are spelled in another way. -/
def Respelled (item other : Value) : Prop :=
  ∃ axis digits otherDigits, digitsOn axis item = some digits ∧
    digitsOn axis other = some otherDigits ∧ Hex.normalize digits = Hex.normalize otherDigits

/-- The number on an axis depends on nothing but the fields on that axis. -/
theorem last?_fieldsOn (axis : Axis) (items : List Value) :
    last? axis (fieldsOn axis items) = last? axis items := by
  have hread : (fieldsOn axis items).filterMap (digitsOn axis) =
      items.filterMap (digitsOn axis) := by
    rw [fieldsOn, List.filterMap_filter]
    congr 1
    funext item
    cases digitsOn axis item <;> rfl
  rw [last?, hread, last?]

/-- The order of fields on different axes does not matter. -/
theorem meaning?_of_perm {strict : Bool} {record other : Value} {items others : List Value}
    (hitems : items? record = some items) (hothers : items? other = some others)
    (hperm : others.Perm items) (hfields : ∀ axis, fieldsOn axis others = fieldsOn axis items) :
    meaning? strict other = meaning? strict record := by
  have hlast : ∀ axis, last? axis others = last? axis items := by
    intro axis
    rw [← last?_fieldsOn axis others, hfields axis, last?_fieldsOn]
  have horder : InOrder strict others ↔ InOrder strict items := by
    simp only [InOrder, occurs_iff, hlast, hperm.mem_iff]
  rw [meaning?_of_items hitems, meaning?_of_items hothers]
  simp only [horder, pointOf, hlast]

theorem Respelled.digits {item other : Value} (h : Respelled item other) (axis : Axis) :
    (digitsOn axis item).map Hex.value = (digitsOn axis other).map Hex.value := by
  obtain ⟨found, digits, otherDigits, hitem, hother, hnormal⟩ := h
  by_cases haxis : axis = found
  · rw [haxis, hitem, hother, Option.map_some, Option.map_some,
      Hex.value_eq_of_normalize_eq hnormal]
  · rw [digitsOn_other hitem haxis, digitsOn_other hother haxis]

theorem last?_of_respelled {items others : List Value} (h : List.Forall₂ Respelled items others)
    (axis : Axis) : last? axis items = last? axis others := by
  have hread : ∀ l : List Value, (l.filterMap (digitsOn axis)).map Hex.value =
      l.filterMap fun item => (digitsOn axis item).map Hex.value :=
    fun l => List.map_filterMap
  have hsame : (items.filterMap (digitsOn axis)).map Hex.value =
      (others.filterMap (digitsOn axis)).map Hex.value := by
    rw [hread, hread]
    induction h with
    | nil => rfl
    | cons hitem _ ih => rw [List.filterMap_cons, List.filterMap_cons, hitem.digits axis, ih]
  rw [last?, ← List.getLast?_map, hsame, List.getLast?_map, last?]

theorem isAxisField_of_respelled {items others : List Value}
    (h : List.Forall₂ Respelled items others) :
    (∀ item ∈ items, IsAxisField item) ∧ ∀ item ∈ others, IsAxisField item := by
  induction h with
  | nil => simp
  | cons hitem _ ih =>
      obtain ⟨axis, digits, otherDigits, hdigits, hother, -⟩ := hitem
      exact ⟨List.forall_mem_cons.mpr ⟨isAxisField_iff.mpr ⟨axis, digits, hdigits⟩, ih.1⟩,
        List.forall_mem_cons.mpr ⟨isAxisField_iff.mpr ⟨axis, otherDigits, hother⟩, ih.2⟩⟩

/-- Neither the case of digits nor leading zeros matter. -/
theorem meaning?_of_respelled {strict : Bool} {record other : Value} {items others : List Value}
    (hitems : items? record = some items) (hothers : items? other = some others)
    (h : List.Forall₂ Respelled items others) :
    meaning? strict other = meaning? strict record := by
  have hlast : ∀ axis, last? axis others = last? axis items :=
    fun axis => (last?_of_respelled h axis).symm
  obtain ⟨hitemFields, hotherFields⟩ := isAxisField_of_respelled h
  have horder : InOrder strict others ↔ InOrder strict items := by
    simp only [InOrder, occurs_iff, hlast, iff_true_intro hitemFields,
      iff_true_intro hotherFields]
  rw [meaning?_of_items hitems, meaning?_of_items hothers]
  simp only [horder, pointOf, hlast]

/-- Records in order that mean the same are read alike. -/
theorem outcome_eq_of_meaning?_eq {strict : Bool} {record other : Value}
    (h : meaning? strict other = meaning? strict record) (hsome : (meaning? strict record).isSome)
    (core : Core) :
    (decodePublicKey core strict other).outcome = (decodePublicKey core strict record).outcome := by
  obtain ⟨point, hpoint⟩ := Option.isSome_iff_exists.mp hsome
  rw [decodePublicKey_of_meaning hpoint, decodePublicKey_of_meaning (h.trans hpoint)]

/-! ### The reader and the meaning of records -/

/-- Reading a record is asking for its meaning, which `meaning?_eq_some_iff` and
`meaning?_eq_none_iff` describe without the reader.  A record in order leads to one request, for the
key of its point, and the answer is handed on; any other record is refused without a request.  So a
table is read like the list of its entries, and neither the order of fields on different axes nor
the spelling of digits changes what a record in order is read as. -/
theorem readPublicKey_eq_meaning :
    (∀ (strict : Bool) (record point : Value), meaning? strict record = some point →
      (∃ notices, ∀ (m : Type → Type) [Monad m] [LawfulMonad m]
        (ask : Value → m (Except Fault Value)),
        readPublicKey ask strict record = do
          let answer ← ask point
          return ⟨accept .publicKey point answer, notices, []⟩) ∧
      ∀ (core : Core) (key : Value), core.ofPoint point = .ok key →
        (decodePublicKey core strict record).outcome = .ok key) ∧
    (∀ (strict : Bool) (record : Value), meaning? strict record = none →
      (∃ f notices unread, ∀ (m : Type → Type) [Monad m] [LawfulMonad m]
        (ask : Value → m (Except Fault Value)),
        readPublicKey ask strict record = pure ⟨.error f, notices, unread⟩) ∧
      ∃ f, ∀ core : Core, (decodePublicKey core strict record).outcome = .error f) ∧
    (∀ (core : Core) (strict : Bool) (entries : List (Value × Value)),
      decodePublicKey core strict (.table entries) =
        decodePublicKey core strict (.list (entries.map fun (k, v) => .tuple [k, v]))) ∧
    (∀ (core : Core) (strict : Bool) (record other : Value) (items others : List Value),
      items? record = some items → items? other = some others → (meaning? strict record).isSome →
      (others.Perm items ∧ ∀ axis, fieldsOn axis others = fieldsOn axis items) ∨
        List.Forall₂ Respelled items others →
      (decodePublicKey core strict other).outcome =
        (decodePublicKey core strict record).outcome) := by
  refine ⟨?_, ?_, ?_, ?_⟩
  · intro strict record point hpoint
    refine ⟨readPublicKey_of_meaning hpoint, ?_⟩
    intro core key hkey
    rw [decodePublicKey_of_meaning hpoint, hkey, accept]
  · intro strict record hnone
    exact ⟨readPublicKey_of_no_meaning hnone, decodePublicKey_of_no_meaning hnone⟩
  · intro core strict entries
    rfl
  · intro core strict record other items others hitems hothers hsome h
    apply outcome_eq_of_meaning?_eq _ hsome core
    rcases h with ⟨hperm, hfields⟩ | hrespelled
    · exact meaning?_of_perm hitems hothers hperm hfields
    · exact meaning?_of_respelled hitems hothers hrespelled

/-- A strict reader takes the last `x` of a stream, refuses a stream whose only field is no hex
text, and does not mind the order of `x` and `y`. -/
theorem readPublicKey_eq_meaning_of_streams :
    (decodePublicKey .unchecked true (.stream 0 false [.tuple [.text "y", .text "2"],
      .list [.text "x", .text "1"], .tuple [.text "x", .text "0F"]])).outcome =
        .ok (.fakePublic (.point (.int 15) (.int 2))) ∧
    (∃ f, ∀ core, (decodePublicKey core true (.stream 0 false
      [.tuple [.text "x", .text "zz"]])).outcome = .error f) ∧
    (decodePublicKey .unchecked true
        (.list [.tuple [.text "y", .text "2"], .tuple [.text "x", .text "1"]])).outcome =
      (decodePublicKey .unchecked true
        (.list [.tuple [.text "x", .text "1"], .tuple [.text "y", .text "2"]])).outcome := by
  obtain ⟨hmeaning, hrefused, -, hvariant⟩ := readPublicKey_eq_meaning
  refine ⟨(hmeaning true _ (.point (.int 15) (.int 2)) rfl).2 .unchecked _ rfl,
    (hrefused true _ rfl).2, ?_⟩
  apply hvariant .unchecked true _ _ _ _ rfl rfl rfl
  refine Or.inl ⟨List.Perm.swap _ _ _, ?_⟩
  intro axis
  cases axis <;> rfl

end KeyCodec
