import KeyCodec.Reads
import KeyCodec.Proofs.PublicReading
import KeyCodec.Proofs.ShortIntegers

/-!
# The first offence decides

An item that is no field is reported by a fault that depends on the item alone.  The first such item
of a record decides the outcome, whatever follows it and whatever the core would answer, and the
reader stops right after it.  A missing axis is reported only when every item is a field, and the
core has a say only when no axis is missed.
-/

namespace KeyCodec
namespace Record

def IsPair (item name v : Value) : Prop :=
  item = .list [name, v] ∨ item = .tuple [name, v] ∨ item = .point name v

def IsHexText (v : Value) : Prop :=
  ∃ s, v = .text s ∧ Hex.isHex s.toList = true

def complaint : Value → String
  | .text s => if s.isEmpty then "Empty hex string" else "Invalid hex string: " ++ Text.quoted s
  | v => "Expected hex string, got " ++ v.typeName

/-- The fault by which an item is reported that is no field: it is no pair, or its name is no axis,
or its value is no hex text, in this order. -/
inductive Offence (item : Value) : Fault → Prop
  | notPair (shown : String) (hitem : ∀ name v, ¬ IsPair item name v)
      (hshown : item.display? = some shown) :
      Offence item (.codec .serialization
        { message := .text ("Expected (name, value) pair in public key record, got " ++ shown)
          data := item } none)
  | unknownName (name v : Value) (shown : String) (hitem : IsPair item name v)
      (hname : ∀ axis : Axis, name ≠ .text axis.name) (hshown : name.display? = some shown) :
      Offence item (.codec .unknownField
        { message := .text ("Unknown public key field " ++ shown ++ ", expected 'x' or 'y'")
          field := name } none)
  | unreadable (axis : Axis) (v : Value) (hitem : IsPair item (.text axis.name) v)
      (hv : ¬ IsHexText v) :
      Offence item (.codec .hexParse
        { message := .text ("Public key field '" ++ axis.name ++ "': " ++ complaint v)
          data := v
          field := .text axis.name }
        (some (.codec .hexParse { message := .text (complaint v), data := v } none)))

/-- Why the reader refuses an item: it makes three checks, in the order of the cases. -/
inductive Refused (item : Value) : Refusal → Prop
  | notPair (hitem : ∀ name v, ¬ IsPair item name v) : Refused item (.notPair item)
  | unknownName (name v : Value) (hitem : IsPair item name v)
      (hname : ∀ axis : Axis, name ≠ .text axis.name) : Refused item (.unknownField name)
  | unreadable (axis : Axis) (v : Value) (why : Refusal) (hitem : IsPair item (.text axis.name) v)
      (hread : HexText.decode v = .error why) : Refused item (.coordinateText axis v why)

def missingFault (axis : Axis) : Fault :=
  .codec .missingField
    { message := .text ("Missing public key field '" ++ axis.name ++ "'")
      field := .text axis.name } none

theorem pair?_eq_some_iff {item name v : Value} :
    pair? item = some (name, v) ↔ IsPair item name v := by
  constructor
  · intro h
    unfold pair? at h
    split at h
    · cases h
      exact Or.inl rfl
    · cases h
      exact Or.inr (Or.inl rfl)
    · cases h
      exact Or.inr (Or.inr rfl)
    · cases h
  · rintro (rfl | rfl | rfl) <;> rfl

theorem IsPair.unique {item name v name' v' : Value} (h : IsPair item name v)
    (h' : IsPair item name' v') : name = name' ∧ v = v' := by
  rw [← pair?_eq_some_iff] at h h'
  rw [h] at h'
  cases h'
  exact ⟨rfl, rfl⟩

theorem IsPair.shortIntegers {item name v : Value} (h : IsPair item name v)
    (hitem : item.ShortIntegers) : name.ShortIntegers := by
  rcases h with rfl | rfl | rfl
  · exact hitem.1
  · exact hitem.1
  · exact hitem.1

theorem missingField_fault (axis : Axis) :
    (Refusal.missingField (.text axis.name)).fault = missingFault axis := by
  have hmessage : "Missing public key field " ++ Text.quoted axis.name =
      "Missing public key field '" ++ axis.name ++ "'" := by
    cases axis <;> decide +kernel
  simp [Refusal.fault, Refusal.fault?, Refusal.message?, Value.display?, hmessage, missingFault,
    Refusal.kind, Refusal.attributes, Refusal.data, Refusal.field, Refusal.cause]

/-- The values that can be read as numbers are the texts of hex digits. -/
theorem isHexText_iff {v : Value} : IsHexText v ↔ ∃ n, HexText.decode v = .ok n := by
  constructor
  · rintro ⟨s, rfl, hhex⟩
    exact ⟨Hex.value s.toList, HexText.decode_text_iff.mpr ⟨hhex, rfl⟩⟩
  · rintro ⟨n, hn⟩
    obtain ⟨s, rfl, hhex, -⟩ := HexText.decode_eq_ok_iff.mp hn
    exact ⟨s, rfl, hhex⟩

/-- A refused value is handed back with what is wrong with it. -/
theorem attributes_of_decode {v : Value} {why : Refusal} (h : HexText.decode v = .error why) :
    why.message? = some (complaint v) ∧ why.kind = .hexParse ∧
      why.attributes (complaint v) = { message := .text (complaint v), data := v } := by
  cases v with
  | text s =>
      by_cases hs : s = ""
      · subst hs
        cases h
        exact ⟨rfl, rfl, rfl⟩
      · have hempty : s.isEmpty = false := by simpa using hs
        have hread : Hex.toNat? s.toList = none := by
          cases hn : Hex.toNat? s.toList with
          | none => rfl
          | some n => simp [HexText.decode, hempty, hn] at h
        simp only [HexText.decode, hempty, hread, Bool.false_eq_true, if_false,
          Except.error.injEq] at h
        rw [← h, complaint, hempty]
        exact ⟨rfl, rfl, rfl⟩
  | _ =>
      cases h
      exact ⟨rfl, rfl, rfl⟩

/-- The reader refuses an item for the first of the three checks that it fails. -/
theorem refused_of_refusal {item : Value} {r : Refusal} (h : refusal? item = some r) :
    Refused item r := by
  unfold refusal? field at h
  cases hpair : pair? item with
  | none =>
      have hitem : ∀ name v, ¬ IsPair item name v := by
        intro name v hitem
        rw [pair?_eq_some_iff.mpr hitem] at hpair
        cases hpair
      simp only [hpair, Option.some.injEq] at h
      rw [← h]
      exact .notPair hitem
  | some pair =>
      obtain ⟨name, v⟩ := pair
      have hitem := pair?_eq_some_iff.mp hpair
      cases haxis : axis? name with
      | none =>
          have hname : ∀ axis : Axis, name ≠ .text axis.name := by
            rintro axis rfl
            rw [axis?_name] at haxis
            cases haxis
          simp only [hpair, haxis, Option.some.injEq] at h
          rw [← h]
          exact .unknownName name v hitem hname
      | some axis =>
          rw [axis?_eq_some_iff] at haxis
          rw [haxis] at hitem hpair
          cases hread : HexText.decode v with
          | ok n => simp [hpair, coordinate, hread] at h
          | error why =>
              simp only [hpair, axis?_name, coordinate, hread, Outcome.mapError_error,
                Option.some.injEq] at h
              rw [← h]
              exact .unreadable axis v why hitem hread

/-- The fault of an item that is no field, provided that its integers can be written. -/
theorem offence_of_refusal {item : Value} {r : Refusal} (h : refusal? item = some r)
    (hshort : item.ShortIntegers) : Offence item r.fault := by
  cases refused_of_refusal h with
  | notPair hitem =>
      obtain ⟨shown, hshown⟩ :=
        Option.isSome_iff_exists.mp ((Value.display?_isSome_iff item).mpr hshort)
      rw [Refusal.fault, Refusal.fault?, Refusal.message?, hshown]
      exact .notPair shown hitem hshown
  | unknownName name v hitem hname =>
      obtain ⟨shown, hshown⟩ := Option.isSome_iff_exists.mp
        ((Value.display?_isSome_iff name).mpr (hitem.shortIntegers hshort))
      rw [Refusal.fault, Refusal.fault?, Refusal.message?, hshown]
      exact .unknownName name v shown hitem hname hshown
  | unreadable axis v why hitem hread =>
      obtain ⟨hmessage, hkind, hattributes⟩ := attributes_of_decode hread
      have hv : ¬ IsHexText v := by
        rw [isHexText_iff]
        rintro ⟨n, hn⟩
        rw [hread] at hn
        cases hn
      have hcause : (Refusal.coordinateText axis v why).cause =
          some (.codec .hexParse { message := .text (complaint v), data := v } none) := by
        rw [Refusal.cause, hmessage, Option.map_some, hkind, hattributes]
      rw [Refusal.fault, Refusal.fault?, Refusal.message?, hmessage, hcause]
      exact .unreadable axis v hitem hv

/-- An item is reported by one fault only. -/
theorem Offence.unique {item : Value} {f g : Fault} (hf : Offence item f) (hg : Offence item g) :
    f = g := by
  cases hf with
  | notPair shown hitem hshown =>
      cases hg with
      | notPair shown' _ hshown' =>
          rw [hshown] at hshown'
          cases hshown'
          rfl
      | unknownName name v _ hpair => exact absurd hpair (hitem name v)
      | unreadable axis v hpair => exact absurd hpair (hitem _ v)
  | unknownName name v shown hitem hname hshown =>
      cases hg with
      | notPair _ hnone => exact absurd hitem (hnone name v)
      | unknownName name' v' shown' hitem' _ hshown' =>
          obtain ⟨rfl, rfl⟩ := hitem.unique hitem'
          rw [hshown] at hshown'
          cases hshown'
          rfl
      | unreadable axis v' hitem' => exact absurd (hitem.unique hitem').1 (hname axis)
  | unreadable axis v hitem hv =>
      cases hg with
      | notPair _ hnone => exact absurd hitem (hnone _ v)
      | unknownName name' v' _ hitem' hname' =>
          exact absurd (hitem.unique hitem').1.symm (hname' axis)
      | unreadable axis' v' hitem' _ =>
          obtain ⟨hname, rfl⟩ := hitem.unique hitem'
          obtain rfl := Axis.name_inj.mp (Value.text.inj hname)
          rfl

/-- An item is reported by some fault exactly when it is no field. -/
theorem exists_offence_iff {item : Value} (hshort : item.ShortIntegers) :
    (∃ f, Offence item f) ↔ ¬ IsAxisField item := by
  constructor
  · rintro ⟨f, hf⟩ hitem
    obtain ⟨axis, digits, hdigits⟩ := isAxisField_iff.mp hitem
    obtain ⟨s, htexts, hhex, rfl⟩ := digitsOn_eq_some_iff.mp hdigits
    have hpair : IsPair item (.text axis.name) (.text s) :=
      pair?_eq_some_iff.mp (texts?_eq_some_iff.mp htexts)
    cases hf with
    | notPair _ hnone => exact hnone _ _ hpair
    | unknownName name v _ hitem' hname => exact hname axis (hitem'.unique hpair).1
    | unreadable _ v hitem' hv => exact hv ⟨s, (hitem'.unique hpair).2, hhex⟩
  · intro hitem
    obtain ⟨r, hr⟩ := exists_refusal hitem
    exact ⟨r.fault, offence_of_refusal hr hshort⟩

/-- The fault that reports an item is the one by which the reader refuses it. -/
theorem Offence.exists_refusal {item : Value} {f : Fault} (h : Offence item f)
    (hshort : item.ShortIntegers) : ∃ r, refusal? item = some r ∧ f = r.fault := by
  have hitem : ¬ IsAxisField item := (exists_offence_iff hshort).mp ⟨f, h⟩
  obtain ⟨r, hr⟩ := Record.exists_refusal hitem
  exact ⟨r, hr, h.unique (offence_of_refusal hr hshort)⟩

end Record

open Record

/-- A stream of which some last items are unread has these left. -/
theorem Reads.current_record (id : Nat) (derived : Bool) (before : List Value)
    {after : List Value} {reading : Reading Value} (h : reading.unread = after) :
    (Reads.record (.stream id derived (before ++ after)) reading).current
      (.stream id derived (before ++ after)) = .stream id derived after := by
  have hleft : (before ++ after).length - after.length = before.length := by
    rw [List.length_append, Nat.add_sub_cancel]
  simp only [Reads.record, Drains.note, Drains.current, Drains.unread, Drains.left, h,
    List.find?_cons, beq_self_eq_true, Option.map_some, Option.getD_some, hleft,
    List.drop_left]

theorem decodePublicKey_of_refusal {record : Value} {before after : List Value} {item : Value}
    {r : Refusal} (hitems : items? record = some (before ++ item :: after))
    (hbefore : ∀ i ∈ before, IsAxisField i) (hr : refusal? item = some r) (core : Core)
    (strict : Bool) :
    (decodePublicKey core strict record).outcome = .error r.fault ∧
      (decodePublicKey core strict record).unread = after := by
  obtain ⟨houtcome, hunread⟩ := read_of_refusal hbefore hr after
  have hread := readPublicKey_of_not_fields (m := Id) (fun point => pure (core.ofPoint point))
    hitems houtcome strict
  rw [decodePublicKey, hread]
  exact ⟨rfl, hunread⟩

/-- The first item that is reported decides the outcome, and nothing after it is read. -/
theorem decodePublicKey_of_offence {record : Value} {before after : List Value} {item : Value}
    {f : Fault} (hitems : items? record = some (before ++ item :: after))
    (hbefore : ∀ i ∈ before, IsAxisField i) (h : Offence item f) (hshort : item.ShortIntegers)
    (core : Core) (strict : Bool) :
    (decodePublicKey core strict record).outcome = .error f ∧
      (decodePublicKey core strict record).unread = after := by
  obtain ⟨r, hr, rfl⟩ := h.exists_refusal hshort
  exact decodePublicKey_of_refusal hitems hbefore hr core strict

theorem decodePublicKey_of_missing {record : Value} {items : List Value}
    (hitems : items? record = some items) (hfields : ∀ item ∈ items, IsAxisField item)
    (hmissing : ¬ (Occurs .x items ∧ Occurs .y items)) (core : Core) :
    (decodePublicKey core true record).outcome = .error (missingFault (firstMissing items)) := by
  rw [decodePublicKey, readPublicKey_of_fields (m := Id) _ hitems hfields,
    publicKeyOf_of_not_occurs (m := Id) _ hmissing, missingField_fault]
  rfl

/-- What comes of a record: it is no record, an item of it is refused, a strict reader misses an
axis, or the core is asked for the key of its point. -/
inductive RecordOutcome (core : Core) (strict : Bool) (record : Value) :
    Except Fault Value → Prop
  | notRecord (hitems : items? record = none) :
      RecordOutcome core strict record (.error (Refusal.notRecord record).fault)
  | refused (before : List Value) (item : Value) (after : List Value) (r : Refusal)
      (hitems : items? record = some (before ++ item :: after))
      (hbefore : ∀ i ∈ before, IsAxisField i) (hr : refusal? item = some r) :
      RecordOutcome core strict record (.error r.fault)
  | missing (items : List Value) (hitems : items? record = some items)
      (hfields : ∀ item ∈ items, IsAxisField item) (hstrict : strict = true)
      (hmissing : ¬ (Occurs .x items ∧ Occurs .y items)) :
      RecordOutcome core strict record (.error (missingFault (firstMissing items)))
  | asked (items : List Value) (hitems : items? record = some items)
      (horder : InOrder strict items) :
      RecordOutcome core strict record
        (accept .publicKey (pointOf items) (core.ofPoint (pointOf items)))

theorem recordOutcome_decodePublicKey (core : Core) (strict : Bool) (record : Value) :
    RecordOutcome core strict record (decodePublicKey core strict record).outcome := by
  cases hitems : items? record with
  | none =>
      have hnone : (decodePublicKey core strict record).outcome =
          .error (Refusal.notRecord record).fault := by
        simp only [decodePublicKey, readPublicKey, hitems]
        rfl
      rw [hnone]
      exact .notRecord hitems
  | some items =>
      by_cases hfields : ∀ item ∈ items, IsAxisField item
      · by_cases hoccurs : strict = true → Occurs .x items ∧ Occurs .y items
        · have hmeaning : meaning? strict record = some (pointOf items) := by
            rw [meaning?_of_items hitems, if_pos ⟨hfields, hoccurs⟩]
          rw [decodePublicKey_of_meaning hmeaning]
          exact .asked items hitems ⟨hfields, hoccurs⟩
        · obtain ⟨rfl, hmissing⟩ := Classical.not_imp.mp hoccurs
          rw [decodePublicKey_of_missing hitems hfields hmissing]
          exact .missing items hitems hfields rfl hmissing
      · obtain ⟨before, item, after, rfl, hbefore, hitem⟩ := exists_first_not_isAxisField hfields
        obtain ⟨r, hr⟩ := exists_refusal hitem
        rw [(decodePublicKey_of_refusal hitems hbefore hr core strict).1]
        exact .refused before item after r hitems hbefore hr

/-- When every item is a field, the record is read to its end; only then is an axis missed, `x`
before `y`, and only when none is missed does the core have a say. -/
theorem decodePublicKey_of_fields {record : Value} {items : List Value}
    (hitems : items? record = some items) (hfields : ∀ item ∈ items, IsAxisField item)
    (core : Core) (strict : Bool) :
    (decodePublicKey core strict record).unread = [] ∧
      (strict = true → ¬ Occurs .x items →
        (decodePublicKey core strict record).outcome = .error (missingFault .x)) ∧
      (strict = true → Occurs .x items → ¬ Occurs .y items →
        (decodePublicKey core strict record).outcome = .error (missingFault .y)) ∧
      ((strict = true → Occurs .x items ∧ Occurs .y items) →
        (decodePublicKey core strict record).outcome =
          accept .publicKey (pointOf items) (core.ofPoint (pointOf items))) := by
  refine ⟨?_, ?_, ?_, ?_⟩
  · rw [decodePublicKey, readPublicKey_of_fields (m := Id) _ hitems hfields]
    rfl
  · rintro rfl hx
    rw [decodePublicKey_of_missing hitems hfields (fun h => hx h.1), firstMissing, if_neg hx]
  · rintro rfl hx hy
    rw [decodePublicKey_of_missing hitems hfields (fun h => hy h.2), firstMissing, if_pos hx]
  · intro hoccurs
    apply decodePublicKey_of_meaning
    rw [meaning?_of_items hitems, if_pos ⟨hfields, hoccurs⟩]

/-- The first offence decides.  If some item is no field, the first such item is reported, by a
fault that depends on this item alone, under every core and whatever follows it; a stream is left
right after it.  If every item is a field, the record is read to its end; a strict reader then
reports the first axis it misses, and the core decides the rest. -/
theorem decodePublicKey_reports_first_offence (record : Value) (items : List Value)
    (hitems : items? record = some items) (hshort : ∀ item ∈ items, item.ShortIntegers) :
    ((∃ item ∈ items, ¬ IsAxisField item) →
      ∃ before item after f, items = before ++ item :: after ∧ (∀ i ∈ before, IsAxisField i) ∧
        ¬ IsAxisField item ∧ Offence item f ∧ (∀ g, Offence item g → g = f) ∧
        ∀ core strict, (decodePublicKey core strict record).outcome = .error f ∧
          (decodePublicKey core strict record).unread = after ∧
          ∀ id derived, record = .stream id derived items →
            (Reads.record record (decodePublicKey core strict record)).current record =
              .stream id derived after) ∧
    ((∀ item ∈ items, IsAxisField item) →
      ∀ core strict, (decodePublicKey core strict record).unread = [] ∧
        (∀ id derived, record = .stream id derived items →
          (Reads.record record (decodePublicKey core strict record)).current record =
            .stream id derived []) ∧
        (strict = true → ¬ Occurs .x items →
          (decodePublicKey core strict record).outcome = .error (missingFault .x)) ∧
        (strict = true → Occurs .x items → ¬ Occurs .y items →
          (decodePublicKey core strict record).outcome = .error (missingFault .y)) ∧
        ((strict = true → Occurs .x items ∧ Occurs .y items) →
          (decodePublicKey core strict record).outcome =
            accept .publicKey (pointOf items) (core.ofPoint (pointOf items)))) := by
  constructor
  · rintro ⟨bad, hbad, hoffends⟩
    have hsome : ¬ ∀ item ∈ items, IsAxisField item := fun hall => hoffends (hall bad hbad)
    obtain ⟨before, item, after, rfl, hbefore, hitem⟩ := exists_first_not_isAxisField hsome
    have hprinted : item.ShortIntegers := hshort item (by simp)
    obtain ⟨f, hoffence⟩ := (exists_offence_iff hprinted).mpr hitem
    refine ⟨before, item, after, f, rfl, hbefore, hitem, hoffence,
      fun g hg => hg.unique hoffence, ?_⟩
    intro core strict
    obtain ⟨houtcome, hunread⟩ :=
      decodePublicKey_of_offence hitems hbefore hoffence hprinted core strict
    refine ⟨houtcome, hunread, ?_⟩
    rintro id derived rfl
    rw [List.append_cons] at hunread ⊢
    exact Reads.current_record id derived _ hunread
  · intro hfields core strict
    obtain ⟨hunread, hmissing⟩ := decodePublicKey_of_fields hitems hfields core strict
    refine ⟨hunread, ?_, hmissing⟩
    rintro id derived rfl
    have hleft := Reads.current_record id derived items hunread
    rwa [List.append_nil] at hleft

/-- A stream whose second item has an unknown name is left right after it, whatever the third is,
and a strict reader misses the `y` of a stream that gives only `x`. -/
theorem decodePublicKey_reports_first_offence_of_streams :
    (∃ f, Offence (.tuple [.text "w", .text "1"]) f ∧ ∀ core strict,
      let reading := decodePublicKey core strict (.stream 0 false [.tuple [.text "x", .text "1"],
        .tuple [.text "w", .text "1"], .tuple [.text "x", .text "zz"]])
      reading.outcome = .error f ∧ reading.unread = [.tuple [.text "x", .text "zz"]]) ∧
    ∀ core, (decodePublicKey core true (.stream 0 false [.tuple [.text "x", .text "1"]])).outcome =
      .error (missingFault .y) := by
  constructor
  · obtain ⟨before, item, after, f, hsplit, hbefore, hitem, hoffence, -, hread⟩ :=
      (decodePublicKey_reports_first_offence (.stream 0 false
        [.tuple [.text "x", .text "1"], .tuple [.text "w", .text "1"],
          .tuple [.text "x", .text "zz"]]) _ rfl
        (by simp [Value.ShortIntegers, Value.ShortIntegersAll])).1
        ⟨.tuple [.text "w", .text "1"], by simp, by decide⟩
    match before with
    | [] =>
        cases hsplit
        exact absurd (by decide) hitem
    | [_] =>
        cases hsplit
        exact ⟨f, hoffence, fun core strict => ⟨(hread core strict).1, (hread core strict).2.1⟩⟩
    | _ :: second :: _ =>
        have hsecond : second = .tuple [.text "w", .text "1"] := by
          injection hsplit with _ htail
          injection htail with hhead
          exact hhead.symm
        have hfield : IsAxisField second := hbefore second (by simp)
        rw [hsecond] at hfield
        exact absurd hfield (by decide)
  · intro core
    obtain ⟨-, -, -, hmissing, -⟩ :=
      (decodePublicKey_reports_first_offence (.stream 0 false
        [.tuple [.text "x", .text "1"]]) _ rfl
        (by simp [Value.ShortIntegers, Value.ShortIntegersAll])).2 (by decide) core true
    exact hmissing rfl (by decide) (by decide)

end KeyCodec
