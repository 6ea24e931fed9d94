import KeyCodec.Proofs.PublicAgreement

/-!
# The faults of records

A record is refused by a fault of the codec family, of the class of serialization faults or of one
below it, with one exception.  The report of an item that is no pair repeats the item, and the
report of an unknown name repeats the name; when an integer in what is repeated has more than 4300
digits, no report can be written, and what the caller sees is the standard fault that says so.
-/

namespace KeyCodec

open Record

def Fault.IsSerialization (f : Fault) : Prop :=
  ∃ kind attributes cause, f = .codec kind attributes cause ∧ kind.isSerialization = true

theorem Fault.not_isSerialization_digitLimit : ¬ digitLimit.IsSerialization := by
  rintro ⟨kind, attributes, cause, h, -⟩
  cases h

def Value.IsPublicKey (v : Value) : Prop :=
  (∃ k, v = .publicKey k) ∨ ∃ content, v = .fakePublic content

namespace Record

/-- The report of the item would repeat an integer that is too long to be written. -/
def IsUnprintable (item : Value) : Prop :=
  ((∀ name v, ¬ IsPair item name v) ∧ ¬ item.ShortIntegers) ∨
    ∃ name v, IsPair item name v ∧ (∀ axis : Axis, name ≠ .text axis.name) ∧ ¬ name.ShortIntegers

/-- The first item of the record that is no field has no report. -/
def StartsUnprintable (record : Value) : Prop :=
  ∃ before item after, items? record = some (before ++ item :: after) ∧
    (∀ i ∈ before, IsAxisField i) ∧ ¬ IsAxisField item ∧ IsUnprintable item

/-- A refusal has no message when it would repeat an integer that is too long.  Only the first two
of the three checks repeat a value that may hold integers. -/
theorem message?_eq_none_iff_of_refusal {item : Value} {r : Refusal} (h : refusal? item = some r) :
    r.message? = none ↔ IsUnprintable item := by
  have hshown : ∀ v : Value, v.display? = none ↔ ¬ v.ShortIntegers := by
    intro v
    rw [← Value.display?_isSome_iff, Bool.not_eq_true, Option.isSome_eq_false_iff,
      Option.isNone_iff_eq_none]
  cases refused_of_refusal h with
  | notPair hitem =>
      rw [Refusal.message?, Option.map_eq_none_iff, hshown]
      constructor
      · intro hlong
        exact Or.inl ⟨hitem, hlong⟩
      · rintro (⟨-, hlong⟩ | ⟨name, v, hpair, -⟩)
        · exact hlong
        · exact absurd hpair (hitem name v)
  | unknownName name v hitem hname =>
      rw [Refusal.message?, Option.map_eq_none_iff, hshown]
      constructor
      · intro hlong
        exact Or.inr ⟨name, v, hitem, hname, hlong⟩
      · rintro (⟨hnone, -⟩ | ⟨name', v', hitem', -, hlong⟩)
        · exact absurd hitem (hnone name v)
        · rwa [(hitem.unique hitem').1]
  | unreadable axis v why hitem hread =>
      obtain ⟨hmessage, -, -⟩ := attributes_of_decode hread
      rw [Refusal.message?, hmessage, Option.map_some]
      constructor
      · intro hnone
        cases hnone
      · rintro (⟨hnone, -⟩ | ⟨name', v', hitem', hname', -⟩)
        · exact absurd hitem (hnone _ v)
        · exact absurd (hitem.unique hitem').1.symm (hname' axis)

theorem fault_of_unprintable {item : Value} {r : Refusal} (h : refusal? item = some r)
    (hitem : IsUnprintable item) : r.fault = .digitLimit := by
  rw [Refusal.fault, Refusal.fault?, (message?_eq_none_iff_of_refusal h).mpr hitem]
  rfl

theorem isSerialization_fault_of_printable {item : Value} {r : Refusal}
    (h : refusal? item = some r) (hitem : ¬ IsUnprintable item) : r.fault.IsSerialization := by
  have hmessage := mt (message?_eq_none_iff_of_refusal h).mp hitem
  obtain ⟨message, hmessage⟩ := Option.ne_none_iff_exists'.mp hmessage
  rw [Refusal.fault, Refusal.fault?, hmessage]
  exact ⟨_, _, _, rfl, isSerialization_of_refusal h⟩

end Record

/-! ### The two cores -/

/-- The core answers a request for the key of numbers by a public key or by a fault that passes as
it is. -/
structure Core.IsDirect (core : Core) : Prop where
  answers : ∀ {x y : Nat} {key : Value}, core.ofPoint (.point (.int x) (.int y)) = .ok key →
    key.IsPublicKey
  refuses : ∀ {x y : Nat} {f : Fault}, core.ofPoint (.point (.int x) (.int y)) = .error f →
    ∃ attributes cause, f = .codec .keyConstruction attributes cause

theorem Core.isDirect_secp256k1 : Core.secp256k1.IsDirect where
  answers h := by
    obtain ⟨k, -, rfl⟩ := Outcome.map_eq_ok_iff.mp h
    exact Or.inl ⟨k, rfl⟩
  refuses {x y f} h := by
    simp only [Core.secp256k1] at h
    cases hkey : PublicKey.ofPoint (.point (.int x) (.int y)) with
    | ok k =>
        rw [hkey] at h
        cases h
    | error why =>
        obtain ⟨message, cause, rfl⟩ := PublicKey.ofPoint_eq_error rfl rfl hkey
        rw [hkey] at h
        cases h
        exact ⟨_, _, rfl⟩

theorem Core.isDirect_unchecked : Core.unchecked.IsDirect where
  answers h := by
    cases h
    exact Or.inr ⟨_, rfl⟩
  refuses h := by cases h

theorem Core.IsDirect.outcome_of_printable {core : Core} (hcore : core.IsDirect) {strict : Bool}
    {record : Value} (h : ¬ StartsUnprintable record) :
    (∃ key, (decodePublicKey core strict record).outcome = .ok key ∧ key.IsPublicKey) ∨
      ∃ f, (decodePublicKey core strict record).outcome = .error f ∧ f.IsSerialization := by
  have houtcome := recordOutcome_decodePublicKey core strict record
  generalize (decodePublicKey core strict record).outcome = outcome at houtcome ⊢
  cases houtcome with
  | notRecord hitems => exact Or.inr ⟨_, rfl, _, _, _, rfl, rfl⟩
  | refused before item after r hitems hbefore hr =>
      have hitem : ¬ IsAxisField item := by
        rw [← refusal?_eq_none_iff, hr]
        exact Option.some_ne_none r
      have hprintable : ¬ IsUnprintable item :=
        fun hlong => h ⟨before, item, after, hitems, hbefore, hitem, hlong⟩
      exact Or.inr ⟨_, rfl, isSerialization_fault_of_printable hr hprintable⟩
  | missing items hitems hfields hstrict hmissing => exact Or.inr ⟨_, rfl, _, _, _, rfl, rfl⟩
  | asked items hitems horder =>
      cases hanswer : core.ofPoint (pointOf items) with
      | ok key => exact Or.inl ⟨key, rfl, hcore.answers hanswer⟩
      | error why =>
          obtain ⟨attributes, cause, rfl⟩ := hcore.refuses hanswer
          exact Or.inr ⟨_, rfl, _, _, _, rfl, rfl⟩

theorem outcome_of_startsUnprintable {record : Value} (h : StartsUnprintable record) (core : Core)
    (strict : Bool) : (decodePublicKey core strict record).outcome = .error .digitLimit := by
  obtain ⟨before, item, after, hitems, hbefore, hitem, hlong⟩ := h
  obtain ⟨r, hr⟩ := exists_refusal hitem
  rw [(decodePublicKey_of_refusal hitems hbefore hr core strict).1, fault_of_unprintable hr hlong]

/-! ### All records -/

theorem outcome_of_unknownName {record name v item : Value} {before after : List Value}
    (hitems : items? record = some (before ++ item :: after))
    (hbefore : ∀ i ∈ before, IsAxisField i) (hpair : IsPair item name v)
    (hname : ∀ axis : Axis, name ≠ .text axis.name) (hshort : name.ShortIntegers) (core : Core)
    (strict : Bool) :
    ∃ message, (decodePublicKey core strict record).outcome =
      .error (.codec .unknownField { message := .text message, field := name } none) := by
  obtain ⟨shown, hshown⟩ :=
    Option.isSome_iff_exists.mp ((Value.display?_isSome_iff name).mpr hshort)
  have hrefusal : refusal? item = some (.unknownField name) := by
    have haxis : axis? name = none := by
      rw [Option.eq_none_iff_forall_ne_some]
      intro axis haxis
      exact hname axis (axis?_eq_some_iff.mp haxis)
    simp [refusal?, field, pair?_eq_some_iff.mpr hpair, haxis]
  rw [(decodePublicKey_of_refusal hitems hbefore hrefusal core strict).1, Refusal.fault,
    Refusal.fault?, Refusal.message?, hshown]
  exact ⟨_, rfl⟩

/-- The core of the curve and the unchecked core read a record as a public key or refuse it by a
serialization fault, except when the first item that is no field has no report; then the fault of
the digits is all that is left.  An unknown name that is met first is reported as such as long as
its integers are short. -/
theorem decodePublicKey_fault_classes (core : Core)
    (hcore : core = .secp256k1 ∨ core = .unchecked) (strict : Bool) (record : Value) :
    ((∃ key, (decodePublicKey core strict record).outcome = .ok key ∧ key.IsPublicKey) ∨
        (∃ f, (decodePublicKey core strict record).outcome = .error f ∧ f.IsSerialization) ↔
      ¬ StartsUnprintable record) ∧
    (StartsUnprintable record →
      (decodePublicKey core strict record).outcome = .error .digitLimit) ∧
    (∀ (name v item : Value) (before after : List Value),
      items? record = some (before ++ item :: after) → (∀ i ∈ before, IsAxisField i) →
      IsPair item name v → (∀ axis : Axis, name ≠ .text axis.name) → name.ShortIntegers →
      ∃ message, (decodePublicKey core strict record).outcome =
        .error (.codec .unknownField { message := .text message, field := name } none)) := by
  have hdirect : core.IsDirect := by
    rcases hcore with rfl | rfl
    · exact Core.isDirect_secp256k1
    · exact Core.isDirect_unchecked
  refine ⟨⟨?_, hdirect.outcome_of_printable⟩, ?_, ?_⟩
  · intro hproper hlong
    have hlimit := outcome_of_startsUnprintable hlong core strict
    rcases hproper with ⟨key, hkey, -⟩ | ⟨f, hf, hclass⟩
    · rw [hlimit] at hkey
      cases hkey
    · rw [hlimit] at hf
      cases hf
      exact Fault.not_isSerialization_digitLimit hclass
  · intro hlong
    exact outcome_of_startsUnprintable hlong core strict
  · intro name v item before after hitems hbefore hpair hname hshort
    exact outcome_of_unknownName hitems hbefore hpair hname hshort core strict

/-- An unknown name of two letters is reported as such, whatever comes after it, by a fault of the
right class. -/
theorem decodePublicKey_fault_classes_of_unknownName :
    (∃ message, (decodePublicKey .secp256k1 true (.list [.tuple [.text "x", .text "1"],
        .list [.text "xy", .null], .int 1])).outcome =
      .error (.codec .unknownField { message := .text message, field := .text "xy" } none)) ∧
    ¬ StartsUnprintable (.list [.tuple [.text "x", .text "1"],
      .list [.text "xy", .null], .int 1]) := by
  have hname : ∀ axis : Axis, Value.text "xy" ≠ .text axis.name := by
    intro axis
    cases axis <;> simp [Axis.name]
  obtain ⟨hproper, -, hunknown⟩ := decodePublicKey_fault_classes .secp256k1 (Or.inl rfl) true
    (.list [.tuple [.text "x", .text "1"], .list [.text "xy", .null], .int 1])
  obtain ⟨message, hmessage⟩ := hunknown (.text "xy") .null (.list [.text "xy", .null])
    [.tuple [.text "x", .text "1"]] [.int 1] rfl (by decide) (Or.inl rfl) hname trivial
  refine ⟨⟨message, hmessage⟩, hproper.mp (Or.inr ⟨_, hmessage, ?_⟩)⟩
  exact ⟨_, _, _, rfl, rfl⟩

/-- A name that is an integer of 4301 digits is reported by no serialization fault. -/
theorem decodePublicKey_escapes_of_long_name :
    ¬ ∀ (strict : Bool) (record : Value),
      (∃ key, (decodePublicKey .secp256k1 strict record).outcome = .ok key) ∨
      ∃ f, (decodePublicKey .secp256k1 strict record).outcome = .error f ∧ f.IsSerialization := by
  intro hall
  have hname : ∀ axis : Axis, Value.int Integer.textBound ≠ .text axis.name := by
    rintro axis ⟨⟩
  have hlong : ¬ (Value.int Integer.textBound).ShortIntegers := by
    rw [Value.ShortIntegers, Int.natAbs_natCast]
    exact Nat.lt_irrefl _
  have hitem : ¬ IsAxisField (.list [.int Integer.textBound, .text "1"]) := by
    simp [IsAxisField, digitsOn, texts?]
  have hstarts : StartsUnprintable (.list [.list [.int Integer.textBound, .text "1"]]) :=
    ⟨[], _, [], rfl, by simp, hitem, Or.inr ⟨_, _, Or.inl rfl, hname, hlong⟩⟩
  have hescapes := outcome_of_startsUnprintable hstarts .secp256k1 false
  rcases hall false (.list [.list [.int Integer.textBound, .text "1"]]) with
    ⟨key, hkey⟩ | ⟨f, hf, hclass⟩
  · rw [hescapes] at hkey
    cases hkey
  · rw [hescapes] at hf
    cases hf
    exact Fault.not_isSerialization_digitLimit hclass

end KeyCodec
