import KeyCodec.Proofs.HexGrammar
import KeyCodec.Proofs.PublicReading

/-!
# Faults of a core

Once a text or a record has been read, the rest is up to the core.  What a codec makes of its fault
depends on the class alone: a fault of key construction passes, every other value fault becomes the
cause of one, and all the rest pass.  Since key construction counts as a value fault too, the order
of these questions matters.  No fault of a core is ever taken for one of the reader's own.
-/

namespace KeyCodec
namespace Fault

def IsOf (c : CodecClass) (f : Fault) : Prop :=
  ∃ kind attributes cause, f = .codec kind attributes cause ∧ c ∈ kind.ancestors

/-- The fault says that something could not be read. -/
def IsOfReading (f : Fault) : Prop :=
  f.IsOf .hexParse ∨ f.IsOf .unknownField ∨ f.IsOf .missingField

theorem not_isOf_standard (c : CodecClass) (kind : StandardClass) (arguments : List Value) :
    ¬ IsOf c (.standard kind arguments) := by
  rintro ⟨_, _, _, h, -⟩
  cases h

theorem isOf_codec_iff {c kind : CodecClass} {attributes : FaultAttributes} {cause : Option Fault} :
    IsOf c (.codec kind attributes cause) ↔ c ∈ kind.ancestors := by
  constructor
  · rintro ⟨_, _, _, h, hc⟩
    cases h
    exact hc
  · intro h
    exact ⟨kind, attributes, cause, rfl, h⟩

/-- Nothing lies below key construction. -/
theorem isOf_keyConstruction_iff {f : Fault} :
    f.IsOf .keyConstruction ↔ ∃ attributes cause, f = .codec .keyConstruction attributes cause := by
  cases f with
  | standard kind arguments =>
      simp [not_isOf_standard]
  | codec kind attributes cause =>
      rw [isOf_codec_iff]
      cases kind <;> simp [CodecClass.ancestors]

theorem isValueFault_of_isOfReading {f : Fault} (h : f.IsOfReading) : f.isValueFault = true := by
  cases f with
  | standard kind arguments =>
      simp [IsOfReading, not_isOf_standard] at h
  | codec kind attributes cause =>
      simp only [IsOfReading, isOf_codec_iff] at h
      cases kind <;> simp_all [CodecClass.ancestors, isValueFault, CodecClass.isSerialization]

theorem not_isOfReading_keyConstruction (attributes : FaultAttributes) (cause : Option Fault) :
    ¬ (codec .keyConstruction attributes cause).IsOfReading := by
  simp [IsOfReading, isOf_codec_iff, CodecClass.ancestors]

theorem not_isOfReading_ofMessage (kind : StandardClass) (message : String) :
    ¬ (ofMessage kind message).IsOfReading := by
  simp [IsOfReading, ofMessage, not_isOf_standard]

theorem eq_digitLimit_of_requireText {text : Option String} {inner : Fault}
    (h : requireText text = .error inner) : inner = digitLimit := by
  cases text with
  | none =>
      cases h
      rfl
  | some t => cases h

/-- What keeps a fault from having a text is a standard fault. -/
theorem not_isOfReading_of_text {f inner : Fault} (h : f.text = .error inner) :
    ¬ inner.IsOfReading := by
  have hlimit {text : Option String} (ht : requireText text = .error inner) :
      ¬ inner.IsOfReading := by
    rw [eq_digitLimit_of_requireText ht]
    exact not_isOfReading_ofMessage _ _
  unfold text at h
  split at h
  · split at h
    · rcases Outcome.bind_eq_error_iff.mp h with hcode | ⟨code, -, hrest⟩
      · exact hlimit hcode
      · rcases Outcome.bind_eq_error_iff.mp hrest with hmessage | ⟨message, -, hdone⟩
        · exact hlimit hmessage
        · cases hdone
    · split at h
      · cases h
      · cases h
        exact not_isOfReading_ofMessage _ _
  · cases h
  · exact hlimit h
  · exact hlimit h
  · exact hlimit h

theorem not_isOfReading_rejected (role : KeyRole) (data : Value) (why : Fault) :
    ¬ (rejected role data why).IsOfReading := by
  unfold rejected
  split
  · next htext => exact not_isOfReading_of_text htext
  · exact not_isOfReading_keyConstruction _ _

end Fault

/-! ### The answer of a core -/

/-- How the answer of a core shows in the outcome of a codec that asked for a key.  The heading
stands before the text of a fault that the codec wraps, and the data goes with it. -/
structure Surfaces (heading : String) (data : Value) (answer outcome : Except Fault Value) :
    Prop where
  returned : ∀ {key}, answer = .ok key → outcome = .ok key
  construction : ∀ {f}, answer = .error f → f.IsOf .keyConstruction → outcome = .error f
  wrapped : ∀ {f t}, answer = .error f → f.isValueFault = true → ¬ f.IsOf .keyConstruction →
    f.text = .ok t → outcome = .error (.codec .keyConstruction
      { message := .text (heading ++ t), code := .null, data := data, field := .null } (some f))
  unwritable : ∀ {f inner}, answer = .error f → f.isValueFault = true →
    ¬ f.IsOf .keyConstruction → f.text = .error inner → outcome = .error inner
  passed : ∀ {f}, answer = .error f → f.isValueFault = false → outcome = .error f
  notOfReading : ∀ {f g}, answer = .error f → outcome = .error g → ¬ g.IsOfReading

theorem accept_of_not_keyConstruction {role : KeyRole} {data : Value} {f : Fault}
    (h : ¬ f.IsOf .keyConstruction) :
    accept role data (.error f) = .error (if f.isValueFault then .rejected role data f else f) := by
  unfold accept
  split
  · next heq => cases heq
  · next attributes cause heq =>
    cases heq
    exact absurd (Fault.isOf_codec_iff.mpr (by decide)) h
  · next heq =>
    cases heq
    rfl

theorem surfaces_accept (role : KeyRole) (data : Value) (answer : Except Fault Value) :
    Surfaces (role.title ++ " rejected: ") data answer (accept role data answer) where
  returned := by
    rintro key rfl
    rfl
  construction := by
    rintro f rfl h
    obtain ⟨attributes, cause, rfl⟩ := Fault.isOf_keyConstruction_iff.mp h
    rfl
  wrapped := by
    rintro f t rfl hvalue hconstruction ht
    simp [accept_of_not_keyConstruction hconstruction, hvalue, Fault.rejected, ht]
  unwritable := by
    rintro f inner rfl hvalue hconstruction ht
    simp [accept_of_not_keyConstruction hconstruction, hvalue, Fault.rejected, ht]
  passed := by
    rintro f rfl hvalue
    have hconstruction : ¬ f.IsOf .keyConstruction := by
      intro h
      obtain ⟨attributes, cause, rfl⟩ := Fault.isOf_keyConstruction_iff.mp h
      cases hvalue
    simp [accept_of_not_keyConstruction hconstruction, hvalue]
  notOfReading := by
    rintro f g rfl hg
    by_cases hconstruction : f.IsOf .keyConstruction
    · obtain ⟨attributes, cause, rfl⟩ := Fault.isOf_keyConstruction_iff.mp hconstruction
      cases hg
      exact Fault.not_isOfReading_keyConstruction attributes cause
    · rw [accept_of_not_keyConstruction hconstruction, Except.error.injEq] at hg
      split at hg
      · exact hg ▸ Fault.not_isOfReading_rejected role data f
      · next hvalue =>
        rintro hreading
        exact hvalue (Fault.isValueFault_of_isOfReading (hg ▸ hreading))

/-! ### The two codecs -/

theorem surfaces_decodeSecretKey (core : Core) {s : String} (h : Hex.IsRun s.toList) :
    Surfaces "Secret key rejected: " .null (core.ofScalar (.int (Hex.positional s.toList)))
      (decodeSecretKey core (.text s)) := by
  have hread : HexText.decode (.text s) = .ok (Hex.positional s.toList) :=
    HexText.decode_eq_ok_iff_positional.mpr ⟨s, rfl, h, rfl⟩
  have houtcome : decodeSecretKey core (.text s) =
      accept .secretKey .null (core.ofScalar (.int (Hex.positional s.toList))) := by
    rw [decodeSecretKey, hread]
  rw [houtcome]
  exact surfaces_accept .secretKey .null _

theorem surfaces_decodePublicKey (core : Core) {strict : Bool} {record point : Value}
    (h : Record.meaning? strict record = some point) :
    Surfaces "Public key rejected: " point (core.ofPoint point)
      (decodePublicKey core strict record).outcome := by
  rw [decodePublicKey_of_meaning h core]
  exact surfaces_accept .publicKey point _

/-- Whatever a core answers about an accepted text or record surfaces in the same way: its keys are
handed out, its faults of key construction and its faults that are no value faults pass as they are,
and its other value faults are wrapped.  The value faults are those below the serialization faults
and the standard ones. -/
theorem core_faults_surface (core : Core) :
    (∀ s : String, Hex.IsRun s.toList →
      Surfaces "Secret key rejected: " .null (core.ofScalar (.int (Hex.positional s.toList)))
        (decodeSecretKey core (.text s))) ∧
    (∀ (strict : Bool) (record point : Value), Record.meaning? strict record = some point →
      Surfaces "Public key rejected: " point (core.ofPoint point)
        (decodePublicKey core strict record).outcome) ∧
    (∀ (kind : CodecClass) (attributes : FaultAttributes) (cause : Option Fault),
      (Fault.codec kind attributes cause).isValueFault = false ↔
        kind ∈ [.general, .validation, .crypto]) ∧
    ∀ (kind : StandardClass) (arguments : List Value),
      (Fault.standard kind arguments).isValueFault = true ↔
        kind ∈ [.value, .unicode, .dump] ∨ ∃ name, kind = .other name true := by
  refine ⟨?_, ?_, ?_, ?_⟩
  · intro s h
    exact surfaces_decodeSecretKey core h
  · intro strict record point h
    exact surfaces_decodePublicKey core h
  · intro kind attributes cause
    cases kind <;> simp [Fault.isValueFault, CodecClass.isSerialization, CodecClass.ancestors]
  · intro kind arguments
    cases kind <;> simp [Fault.isValueFault, StandardClass.isValueFault]

/-- A reading fault of a core about a scalar is wrapped, and a validation fault of a core about a
point passes. -/
theorem core_faults_surface_of_refusing :
    (∀ why : Fault, why = Refusal.emptyText.fault →
      decodeSecretKey (Core.secp256k1.override "from_int" (.error why)) (.text "1f") =
        .error (.codec .keyConstruction
          { message := .text "Secret key rejected: Empty hex string" } (some why))) ∧
    (decodePublicKey (Core.secp256k1.override "from_point" (.error Refusal.keyHeader.fault)) true
      (recordOf "1" "2")).outcome = .error Refusal.keyHeader.fault := by
  constructor
  · rintro why rfl
    have hrun : Hex.IsRun "1f".toList := Hex.isHex_iff.mp (by decide)
    have hconstruction : ¬ Refusal.emptyText.fault.IsOf .keyConstruction := by
      intro h
      obtain ⟨attributes, cause, heq⟩ := Fault.isOf_keyConstruction_iff.mp h
      cases heq
    have htext : Refusal.emptyText.fault.text = .ok "Empty hex string" := rfl
    exact ((core_faults_surface _).1 "1f" hrun).wrapped rfl rfl hconstruction htext
  · have hmeaning : Record.meaning? true (recordOf "1" "2") = some (.point (.int 1) (.int 2)) :=
      meaning?_recordOf_of_isHex true (by decide) (by decide)
    exact ((core_faults_surface _).2.1 true _ _ hmeaning).passed rfl rfl

end KeyCodec
