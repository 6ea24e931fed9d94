import KeyCodec.Proofs.NormalForms
import KeyCodec.Proofs.SpelledBytes

/-!
# The faults of the encoders

The encoders write numbers and nothing else.  What is no number is refused by a validation fault,
with one exception: the report of a negative integer repeats the integer, so one of more than 4300
digits cannot be reported, and the caller sees the standard fault that says so.  The unchecked core
hands over what its keys hold, so with it the content of a key alone decides.
-/

namespace KeyCodec

open Record

namespace Value

/-- An integer that is not negative; a truth value is none. -/
def IsNumber (v : Value) : Prop :=
  ∃ n : Nat, v = .int n

def IsLongNegative (v : Value) : Prop :=
  ∃ i : Int, v = .int i ∧ i < 0 ∧ Integer.textBound ≤ i.natAbs

theorem isNumber_int_iff {i : Int} : (int i).IsNumber ↔ 0 ≤ i := by
  constructor
  · rintro ⟨n, h⟩
    cases h
    exact Int.natCast_nonneg n
  · intro h
    obtain ⟨n, rfl⟩ := Int.eq_ofNat_of_zero_le h
    exact ⟨n, rfl⟩

theorem IsLongNegative.not_isNumber {v : Value} (h : v.IsLongNegative) : ¬ v.IsNumber := by
  obtain ⟨i, rfl, hneg, -⟩ := h
  rw [isNumber_int_iff]
  exact Int.not_le.mpr hneg

end Value

theorem Fault.not_isValidation_digitLimit : ¬ digitLimit.IsValidation := by
  rintro ⟨attributes, cause, h⟩
  cases h

theorem Integer.ten_le_textBound : 10 ≤ textBound := by
  have hpow : ∀ count, count ≠ 0 → 10 ≤ Nat.pow 10 count := by
    intro count hcount
    exact Nat.le_self_pow hcount 10
  unfold textBound
  apply hpow
  decide

/-! ### Why a value is not written -/

namespace HexText

def objection : Value → Refusal
  | .int i => .negative i
  | v => .notInteger v

/-- What is no number is refused, and with the objection to it. -/
theorem encode_of_not_isNumber {v : Value} (h : ¬ v.IsNumber) :
    encode v = .error (objection v) := by
  cases v with
  | int i =>
      rw [Value.isNumber_int_iff, Int.not_le] at h
      rw [encode, if_pos h, objection]
  | _ => rfl

theorem negative_fault_of_short {i : Int} (h : i.natAbs < Integer.textBound) :
    (Refusal.negative i).fault = .codec .validation
      { message := .text ("Cannot hex-encode negative integer: " ++ toString i) } none := by
  rw [Refusal.fault, Refusal.fault?, Refusal.message?, Integer.text?, if_pos h]
  rfl

theorem negative_fault_of_long {i : Int} (h : Integer.textBound ≤ i.natAbs) :
    (Refusal.negative i).fault = .digitLimit := by
  rw [Refusal.fault, Refusal.fault?, Refusal.message?, Integer.text?, if_neg (Nat.not_lt.mpr h)]
  rfl

theorem objection_fault_of_isLongNegative {v : Value} (h : v.IsLongNegative) :
    (objection v).fault = .digitLimit := by
  obtain ⟨i, rfl, -, hlong⟩ := h
  rw [objection, negative_fault_of_long hlong]

theorem isValidation_objection {v : Value} (hv : ¬ v.IsNumber) (hlong : ¬ v.IsLongNegative) :
    (objection v).fault.IsValidation := by
  cases v with
  | int i =>
      rw [Value.isNumber_int_iff, Int.not_le] at hv
      have hshort : i.natAbs < Integer.textBound := by
        by_contra hle
        exact hlong ⟨i, rfl, hv, Nat.not_lt.mp hle⟩
      rw [objection, negative_fault_of_short hshort]
      exact ⟨_, _, rfl⟩
  | _ => exact ⟨_, _, rfl⟩

end HexText

/-! ### Outcomes sorted by class -/

/-- The outcome is a proper result when something can be written, the fault of the digits when what
is refused cannot be repeated, and otherwise a validation fault. -/
structure EncoderOutcome {α : Type} (outcome : Except Fault α) (IsProper : α → Prop)
    (writable unprintable : Prop) : Prop where
  result : (∃ a, outcome = .ok a ∧ IsProper a) ↔ writable
  validation : (∃ f, outcome = .error f ∧ f.IsValidation) ↔ ¬ writable ∧ ¬ unprintable
  limit : outcome = .error .digitLimit ↔ unprintable

theorem EncoderOutcome.of_cases {α : Type} {outcome : Except Fault α} {IsProper : α → Prop}
    {writable unprintable : Prop} (hresult : writable → ∃ a, outcome = .ok a ∧ IsProper a)
    (hlimit : unprintable → outcome = .error .digitLimit)
    (hvalidation : ¬ writable → ¬ unprintable → ∃ f, outcome = .error f ∧ f.IsValidation) :
    EncoderOutcome outcome IsProper writable unprintable := by
  by_cases hw : writable
  · obtain ⟨a, rfl, ha⟩ := hresult hw
    have hprintable : ¬ unprintable := by
      intro hu
      cases hlimit hu
    constructor
    · exact iff_of_true ⟨a, rfl, ha⟩ hw
    · simp [hw]
    · simp [hprintable]
  · by_cases hu : unprintable
    · obtain rfl := hlimit hu
      constructor
      · simp [hw]
      · simp [hu, Fault.not_isValidation_digitLimit]
      · simp [hu]
    · obtain ⟨f, rfl, hf⟩ := hvalidation hw hu
      have hne : f ≠ .digitLimit := by
        rintro rfl
        exact Fault.not_isValidation_digitLimit hf
      constructor
      · simp [hw]
      · simp [hw, hu, hf]
      · simp [hu, hne]

/-! ### The two encoders of the unchecked core -/

theorem encodeSecretKey_of_not_isNumber {core : Core} {key v : Value}
    (h : core.toScalar key = .ok v) (hv : ¬ v.IsNumber) :
    encodeSecretKey core key = .error (HexText.objection v).fault := by
  rw [encodeSecretKey, h, Outcome.bind_ok, HexText.encode_of_not_isNumber hv,
    Outcome.mapError_error]

theorem encodePublicKey_of_not_isNumber {core : Core} {key pair x y : Value}
    (h : core.toPoint key = .ok pair) (hpair : unpackPair pair = .ok (x, y)) :
    (¬ x.IsNumber → encodePublicKey core key = .error (HexText.objection x).fault) ∧
      (x.IsNumber → ¬ y.IsNumber →
        encodePublicKey core key = .error (HexText.objection y).fault) := by
  constructor
  · intro hx
    simp only [encodePublicKey, h, hpair, Outcome.bind_ok, HexText.encode_of_not_isNumber hx,
      Outcome.mapError_error, Outcome.bind_error]
  · rintro ⟨n, rfl⟩ hy
    simp only [encodePublicKey, h, hpair, Outcome.bind_ok, HexText.encode_natCast,
      HexText.encode_of_not_isNumber hy, Outcome.mapError_ok, Outcome.mapError_error,
      Outcome.bind_error]

theorem encodeSecretKey_outcome (v : Value) :
    EncoderOutcome (encodeSecretKey .unchecked (.fakeSecret v))
      (fun s => Hex.IsCanonical s.toList) v.IsNumber v.IsLongNegative := by
  have hscalar : Core.unchecked.toScalar (.fakeSecret v) = .ok v := rfl
  apply EncoderOutcome.of_cases
  · rintro ⟨n, rfl⟩
    exact ⟨_, encodeSecretKey_of_toScalar hscalar, Hex.isCanonical_written n⟩
  · intro hlong
    rw [encodeSecretKey_of_not_isNumber hscalar hlong.not_isNumber,
      HexText.objection_fault_of_isLongNegative hlong]
  · intro hv hlong
    exact ⟨_, encodeSecretKey_of_not_isNumber hscalar hv, HexText.isValidation_objection hv hlong⟩

/-- The first coordinate that is no number is too long to be repeated. -/
def StopsAtLongNegative (x y : Value) : Prop :=
  x.IsLongNegative ∨ x.IsNumber ∧ y.IsLongNegative

theorem encodePublicKey_outcome (x y : Value) :
    EncoderOutcome (encodePublicKey .unchecked (.fakePublic (.point x y))) IsCanonical
      (x.IsNumber ∧ y.IsNumber) (StopsAtLongNegative x y) := by
  have hpoint : Core.unchecked.toPoint (.fakePublic (.point x y)) = .ok (.point x y) := rfl
  have hpair : unpackPair (.point x y) = .ok (x, y) := rfl
  obtain ⟨hfirst, hsecond⟩ := encodePublicKey_of_not_isNumber hpoint hpair
  apply EncoderOutcome.of_cases
  · rintro ⟨⟨m, rfl⟩, n, rfl⟩
    exact ⟨_, encodePublicKey_of_toPoint hpoint hpair, _, _, Hex.isCanonical_written m,
      Hex.isCanonical_written n, rfl⟩
  · rintro (hlong | ⟨hx, hlong⟩)
    · rw [hfirst hlong.not_isNumber, HexText.objection_fault_of_isLongNegative hlong]
    · rw [hsecond hx hlong.not_isNumber, HexText.objection_fault_of_isLongNegative hlong]
  · intro hnumbers hlong
    by_cases hx : x.IsNumber
    · have hy : ¬ y.IsNumber := fun hy => hnumbers ⟨hx, hy⟩
      exact ⟨_, hsecond hx hy,
        HexText.isValidation_objection hy fun hylong => hlong (Or.inr ⟨hx, hylong⟩)⟩
    · exact ⟨_, hfirst hx,
        HexText.isValidation_objection hx fun hxlong => hlong (Or.inl hxlong)⟩

/-- A key of the unchecked core is written, canonically, exactly when what it holds are numbers.
Otherwise it is refused by a validation fault, except when the first value that is no number is a
negative integer of more than 4300 digits; then the fault of the digits is all that is left. -/
theorem encode_fault_classes (v x y : Value) :
    (((∃ s, encodeSecretKey .unchecked (.fakeSecret v) = .ok s ∧ Hex.IsCanonical s.toList) ↔
        v.IsNumber) ∧
      ((∃ f, encodeSecretKey .unchecked (.fakeSecret v) = .error f ∧ f.IsValidation) ↔
        ¬ v.IsNumber ∧ ¬ v.IsLongNegative) ∧
      (encodeSecretKey .unchecked (.fakeSecret v) = .error .digitLimit ↔ v.IsLongNegative)) ∧
    ((∃ r, encodePublicKey .unchecked (.fakePublic (.point x y)) = .ok r ∧ IsCanonical r) ↔
        x.IsNumber ∧ y.IsNumber) ∧
    ((∃ f, encodePublicKey .unchecked (.fakePublic (.point x y)) = .error f ∧ f.IsValidation) ↔
        ¬ (x.IsNumber ∧ y.IsNumber) ∧ ¬ StopsAtLongNegative x y) ∧
    (encodePublicKey .unchecked (.fakePublic (.point x y)) = .error .digitLimit ↔
        StopsAtLongNegative x y) := by
  obtain ⟨hresult, hvalidation, hlimit⟩ := encodeSecretKey_outcome v
  obtain ⟨hrecord, hrefused, hlong⟩ := encodePublicKey_outcome x y
  exact ⟨⟨hresult, hvalidation, hlimit⟩, hrecord, hrefused, hlong⟩

/-- A truth value and a small negative integer are refused by validation faults, and a point of two
numbers is written. -/
theorem encode_fault_classes_of_small :
    (∃ f, encodeSecretKey .unchecked (.fakeSecret (.bool true)) = .error f ∧ f.IsValidation) ∧
    (∃ f, encodePublicKey .unchecked (.fakePublic (.point (.int 3) (.int (-1)))) = .error f ∧
      f.IsValidation) ∧
    ∃ r, encodePublicKey .unchecked (.fakePublic (.point (.int 3) (.int 255))) = .ok r ∧
      IsCanonical r := by
  have hthree : (Value.int 3).IsNumber := ⟨3, rfl⟩
  have hnegative : ¬ (Value.int (-1)).IsNumber := by
    rw [Value.isNumber_int_iff]
    decide
  have hbool : ¬ (Value.bool true).IsNumber := by
    rintro ⟨n, h⟩
    cases h
  have hboolShort : ¬ (Value.bool true).IsLongNegative := by
    rintro ⟨i, h, -⟩
    cases h
  have hshort : ¬ StopsAtLongNegative (.int 3) (.int (-1)) := by
    rintro (hlong | ⟨-, i, h, -, hlong⟩)
    · exact hlong.not_isNumber hthree
    · cases h
      have hbound := Integer.ten_le_textBound
      omega
  obtain ⟨⟨-, hbool', -⟩, -, hpoint, -⟩ := encode_fault_classes (.bool true) (.int 3) (.int (-1))
  obtain ⟨-, hrecord, -⟩ := encode_fault_classes .null (.int 3) (.int 255)
  refine ⟨hbool'.mpr ⟨hbool, hboolShort⟩, hpoint.mpr ⟨?_, hshort⟩, hrecord.mpr ⟨hthree, 255, rfl⟩⟩
  exact fun h => hnegative h.2

/-- A negative integer of 4301 digits is reported by no validation fault. -/
theorem encode_escapes_of_long_negative :
    ¬ ∀ v : Value, ¬ v.IsNumber →
      ∃ f, encodeSecretKey .unchecked (.fakeSecret v) = .error f ∧ f.IsValidation := by
  intro hall
  have hlong : (Value.int (-(Integer.textBound : Int))).IsLongNegative := by
    refine ⟨_, rfl, ?_, ?_⟩
    · have hbound := Integer.ten_le_textBound
      omega
    · rw [Int.natAbs_neg, Int.natAbs_natCast]
  obtain ⟨f, hf, hclass⟩ := hall _ hlong.not_isNumber
  rw [(encodeSecretKey_outcome _).limit.mpr hlong] at hf
  cases hf
  exact Fault.not_isValidation_digitLimit hclass

end KeyCodec
