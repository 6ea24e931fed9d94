import KeyCodec.Model.Catalog
import KeyCodec.Model.Validate
import KeyCodec.Proofs.FirstOffence
import KeyCodec.Proofs.SecretFlaws

/-!
# Faults that a report can show

A report has a row for a value fault and shows its text.  Every fault with which a codec refuses its
input is of this kind, provided that those of its core are.  The faults of the cores behind the
catalog are, so the codecs of key positions are regular: they answer with keys that the position
admits or refuse with something that fits into a row.
-/

namespace KeyCodec

/-- The fault counts as a value fault, and its text can be written. -/
def Fault.IsReportable (f : Fault) : Prop :=
  f.isValueFault = true ∧ ∃ t, f.text = .ok t

structure Core.IsReportable (core : Core) : Prop where
  scalar : ∀ {n : Nat} {f : Fault}, core.ofScalar (.int n) = .error f → f.IsReportable
  point : ∀ {x y : Nat} {f : Fault}, core.ofPoint (.point (.int x) (.int y)) = .error f →
    f.IsReportable

def KeySlot.IsReportable (slot : KeySlot) : Prop :=
  ∀ {v : Value} {f : Fault}, (slot.decode v).outcome = .error f → f.IsReportable

/-- The codec answers with keys that its position admits, and its faults can be reported. -/
structure KeySlot.IsRegular (slot : KeySlot) : Prop where
  answers : ∀ {v key : Value}, (slot.decode v).outcome = .ok key → slot.type.admits key = true
  refuses : ∀ {v : Value} {f : Fault}, (slot.decode v).outcome = .error f → f.IsReportable

/-! ### Refusals -/

theorem Fault.isReportable_ofMessage (message : String) :
    (Fault.ofMessage .value message).IsReportable :=
  ⟨rfl, message, rfl⟩

theorem Fault.isReportable_codec {kind : CodecClass} (h : kind.isSerialization = true)
    (message : String) (data field : Value) (cause : Option Fault) :
    (Fault.codec kind { message := .text message, data := data, field := field }
      cause).IsReportable :=
  ⟨h, message, rfl⟩

theorem Refusal.isReportable {r : Refusal} (h : r.kind.isSerialization = true) :
    r.fault.IsReportable := by
  unfold fault fault?
  cases r.message? with
  | none => exact Fault.isReportable_ofMessage _
  | some message => exact Fault.isReportable_codec h message r.data r.field r.cause

/-- A key that its core has rejected is reported, as long as the core's own fault has a text. -/
theorem Fault.IsReportable.rejected {why : Fault} (h : why.IsReportable) (role : KeyRole)
    (data : Value) : (Fault.rejected role data why).IsReportable := by
  obtain ⟨-, t, ht⟩ := h
  simp only [Fault.rejected, ht]
  exact Fault.isReportable_codec rfl _ data .null (some why)

theorem isReportable_of_accept {role : KeyRole} {data : Value} {answer : Except Fault Value}
    {f : Fault} (hanswer : ∀ {why}, answer = .error why → why.IsReportable)
    (h : accept role data answer = .error f) : f.IsReportable := by
  unfold accept at h
  split at h
  · cases h
  · cases h
    exact hanswer rfl
  · next why _ =>
    have hwhy : why.IsReportable := hanswer rfl
    simp only [hwhy.1, if_true, Except.error.injEq] at h
    rw [← h]
    exact hwhy.rejected role data

/-! ### Codecs -/

theorem Core.IsReportable.decodeSecretKey {core : Core} (hcore : core.IsReportable) {v : Value}
    {f : Fault} (h : decodeSecretKey core v = .error f) : f.IsReportable := by
  unfold KeyCodec.decodeSecretKey at h
  split at h
  · cases h
    exact Refusal.isReportable rfl
  · exact isReportable_of_accept hcore.scalar h

theorem Record.isSerialization_of_refusal {item : Value} {r : Refusal}
    (h : Record.refusal? item = some r) : r.kind.isSerialization = true := by
  cases Record.refused_of_refusal h with
  | notPair hitem => rfl
  | unknownName name v hitem hname => rfl
  | unreadable axis v why hitem hread => rfl

/-- Whatever a record is refused for can be reported, if the faults of its core can. -/
theorem Core.IsReportable.decodePublicKey {core : Core} (hcore : core.IsReportable)
    {strict : Bool} {record : Value} {f : Fault}
    (h : (decodePublicKey core strict record).outcome = .error f) : f.IsReportable := by
  have houtcome := recordOutcome_decodePublicKey core strict record
  generalize (KeyCodec.decodePublicKey core strict record).outcome = outcome at houtcome h
  cases houtcome with
  | notRecord hitems =>
      cases h
      exact Refusal.isReportable rfl
  | refused before item after r hitems hbefore hr =>
      cases h
      exact Refusal.isReportable (Record.isSerialization_of_refusal hr)
  | missing items hitems hfields hstrict hmissing =>
      cases h
      exact Fault.isReportable_codec rfl _ _ _ _
  | asked items hitems horder => exact isReportable_of_accept hcore.point h

/-! ### The cores behind the catalog -/

theorem PublicKey.isReportable_of_ofCoordinates {point x y : Value} {f : Fault}
    (h : ofCoordinates point x y = .error f) : f.IsReportable := by
  obtain ⟨r, hr, rfl⟩ := unfit_of_ofCoordinates h
  cases hr with
  | abscissa hx => exact Refusal.isReportable rfl
  | ordinate hx hy => exact Refusal.isReportable rfl
  | curve hx hy => exact Refusal.isReportable rfl

theorem Core.secp256k1_isReportable : Core.secp256k1.IsReportable where
  scalar {n f} h := by
    by_cases hscalar : SecretKey.isScalar (.int n) = true
    · obtain ⟨k, hk⟩ := SecretKey.isScalar_iff.mp hscalar
      have hok : SecretKey.ofInteger (.int n) = .ok ⟨k, true⟩ :=
        SecretKey.ofInteger_eq_ok_iff.mpr ⟨hk, rfl⟩
      simp only [Core.secp256k1, hok, Outcome.map_ok] at h
      cases h
    · simp only [Core.secp256k1, SecretKey.ofInteger_of_not_isScalar hscalar,
        Outcome.map_error, Except.error.injEq] at h
      rw [← h]
      exact Refusal.isReportable rfl
  point {x y f} h := by
    have hpoint : PublicKey.ofPoint (.point (.int x) (.int y)) =
        PublicKey.ofCoordinates (.point (.int x) (.int y)) (.int x) (.int y) := rfl
    simp only [Core.secp256k1, hpoint] at h
    cases hkey : PublicKey.ofCoordinates (.point (.int x) (.int y)) (.int x) (.int y) with
    | error why =>
        rw [hkey] at h
        cases h
        exact PublicKey.isReportable_of_ofCoordinates hkey
    | ok key =>
        rw [hkey] at h
        cases h

theorem Core.unchecked_isReportable : Core.unchecked.IsReportable where
  scalar h := by cases h
  point h := by cases h

theorem Core.rejecting_isReportable : Core.rejecting.IsReportable where
  scalar h := by
    cases h
    exact Fault.isReportable_ofMessage _
  point h := by
    cases h
    exact Fault.isReportable_ofMessage _

/-! ### Regular positions -/

namespace KeySlot

theorem isReportable_secretKey {core : Core} (hcore : core.IsReportable) (type : KeyType) :
    (secretKey core type).IsReportable :=
  hcore.decodeSecretKey

theorem isReportable_publicKey {core : Core} (hcore : core.IsReportable) (type : KeyType)
    (strict : Bool) : (publicKey core type strict).IsReportable :=
  hcore.decodePublicKey

theorem isRegular_secretKey {core : Core} {type : KeyType} (hcore : core.IsReportable)
    (hanswers : ∀ {n : Nat} {key : Value}, core.ofScalar (.int n) = .ok key →
      type.admits key = true) : (secretKey core type).IsRegular where
  answers h := by
    obtain ⟨n, -, hkey⟩ := decodeSecretKey_eq_ok_iff.mp h
    exact hanswers hkey
  refuses h := hcore.decodeSecretKey h

theorem isRegular_publicKey {core : Core} {type : KeyType} {strict : Bool}
    (hcore : core.IsReportable)
    (hanswers : ∀ {x y key : Value}, core.ofPoint (.point x y) = .ok key →
      type.admits key = true) : (publicKey core type strict).IsRegular where
  answers h := by
    obtain ⟨point, hpoint, hkey⟩ := decodePublicKey_eq_ok_iff.mp h
    obtain ⟨items, -, -, rfl⟩ := Record.meaning?_eq_some_iff.mp hpoint
    exact hanswers hkey
  refuses h := hcore.decodePublicKey h

theorem isRegular_secretKey_secp256k1 : (secretKey .secp256k1 .secretKey).IsRegular := by
  apply isRegular_secretKey Core.secp256k1_isReportable
  intro n key h
  obtain ⟨k, -, rfl⟩ := Outcome.map_eq_ok_iff.mp h
  rfl

theorem isRegular_publicKey_secp256k1 (strict : Bool) :
    (publicKey .secp256k1 .publicKey strict).IsRegular := by
  apply isRegular_publicKey Core.secp256k1_isReportable
  intro x y key h
  obtain ⟨k, -, rfl⟩ := Outcome.map_eq_ok_iff.mp h
  rfl

theorem isRegular_secretKey_unchecked : (secretKey .unchecked .fakeSecret).IsRegular := by
  apply isRegular_secretKey Core.unchecked_isReportable
  intro n key h
  cases h
  rfl

theorem isRegular_publicKey_unchecked (strict : Bool) :
    (publicKey .unchecked .fakePublic strict).IsRegular := by
  apply isRegular_publicKey Core.unchecked_isReportable
  intro x y key h
  cases h
  rfl

theorem isRegular_secretKey_rejecting : (secretKey .rejecting .fakeSecret).IsRegular := by
  apply isRegular_secretKey Core.rejecting_isReportable
  intro n key h
  cases h

theorem isRegular_publicKey_rejecting (strict : Bool) :
    (publicKey .rejecting .fakePublic strict).IsRegular := by
  apply isRegular_publicKey Core.rejecting_isReportable
  intro x y key h
  cases h

end KeySlot
end KeyCodec
