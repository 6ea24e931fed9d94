import KeyCodec.Proofs.KeyTexts
import KeyCodec.Proofs.RoundTrip

/-!
# What is wrong with a rejected secret

A rejected secret is described by the check that it fails, and by nothing else of it but its length.
The fault by which it is reported is a function of this description.
-/

namespace KeyCodec

inductive SecretFlaw where
  /-- The value is no text of hex digits. -/
  | unreadable
  /-- The digits spell no scalar. -/
  | outOfRange

namespace SecretFlaw

def In : SecretFlaw → Value → Prop
  | unreadable, v => ¬ HexText.IsDigitText v
  | outOfRange, v => ∃ s, v = .text s ∧ Hex.IsRun s.toList ∧
      ¬ (0 < Hex.positional s.toList ∧ Hex.positional s.toList < Curve.order)

def refusal : SecretFlaw → Refusal
  | unreadable => .secretText
  | outOfRange => .secretScalar

end SecretFlaw

/-! ### Integers and decoded texts -/

theorem SecretKey.isScalar_natCast_iff {n : Nat} :
    isScalar (.int n) = true ↔ 0 < n ∧ n < Curve.order := by
  simp only [isScalar, Value.integer?, Bool.and_eq_true, decide_eq_true_eq]
  omega

theorem SecretKey.ofInteger_of_not_isScalar {v : Value} (h : ¬ isScalar v = true) :
    ofInteger v = .error Refusal.secretScalar.fault := by
  simp [ofInteger, h]

/-- An integer that is rejected is out of range: nothing after the range check rejects anything. -/
theorem SecretKey.not_isScalar_of_rejected {v : Value} (h : ∀ k, ofInteger v ≠ .ok k) :
    ¬ isScalar v = true := by
  intro hscalar
  obtain ⟨k, hk⟩ := isScalar_iff.mp hscalar
  exact h ⟨k, true⟩ (ofInteger_eq_ok_iff.mpr ⟨hk, rfl⟩)

/-- The fault of a rejected secret depends on its flaw only. -/
theorem decodeSecretKey_of_flaw {flaw : SecretFlaw} {v : Value} (h : flaw.In v) :
    decodeSecretKey .secp256k1 v = .error flaw.refusal.fault := by
  cases flaw with
  | unreadable =>
      cases hread : HexText.decode v with
      | ok n => exact absurd (HexText.isDigitText_iff.mpr ⟨n, hread⟩) h
      | error why => simp only [decodeSecretKey, hread, SecretFlaw.refusal]
  | outOfRange =>
      obtain ⟨s, rfl, hrun, hrange⟩ := h
      have hread : HexText.decode (.text s) = .ok (Hex.positional s.toList) :=
        HexText.decode_eq_ok_iff_positional.mpr ⟨s, rfl, hrun, rfl⟩
      have hscalar := mt SecretKey.isScalar_natCast_iff.mp hrange
      simp only [decodeSecretKey, hread, Core.secp256k1,
        SecretKey.ofInteger_of_not_isScalar hscalar, Outcome.map_error]
      rfl

/-- Whatever the decoder of secrets rejects has one of the flaws. -/
theorem exists_flaw_of_rejected {v : Value} (h : ∀ key, decodeSecretKey .secp256k1 v ≠ .ok key) :
    ∃ flaw : SecretFlaw, flaw.In v := by
  by_cases hdigits : HexText.IsDigitText v
  · obtain ⟨s, rfl, hrun⟩ := hdigits
    refine ⟨.outOfRange, s, rfl, hrun, ?_⟩
    intro hrange
    have hread : HexText.decode (.text s) = .ok (Hex.positional s.toList) :=
      HexText.decode_eq_ok_iff_positional.mpr ⟨s, rfl, hrun, rfl⟩
    have hkey : SecretKey.ofInteger (.int (Hex.positional s.toList)) =
        .ok ⟨⟨Hex.positional s.toList, hrange.1, hrange.2⟩, true⟩ :=
      SecretKey.ofInteger_eq_ok_iff.mpr ⟨rfl, rfl⟩
    exact h _ (decodeSecretKey_eq_ok_iff.mpr
      ⟨_, hread, Outcome.map_eq_ok_iff.mpr ⟨_, hkey, rfl⟩⟩)
  · exact ⟨.unreadable, hdigits⟩

/-! ### Texts and bytes of secrets -/

/-- The checks that the constructor of secrets makes, in their order. -/
inductive SecretCheck where
  | hexDigits
  | evenLength
  | byteLength
  | nonzero
  | belowOrder

namespace SecretCheck

/-- The digits of a text pass the checks before this one, and fail it. -/
def FailedByDigits : SecretCheck → List Char → Prop
  | hexDigits, digits => ¬ Hex.IsRun digits
  | evenLength, digits => Hex.IsRun digits ∧ digits.length % 2 = 1
  | byteLength, digits => Hex.IsRun digits ∧ digits.length % 2 = 0 ∧ digits.length ≠ 64
  | nonzero, digits => Hex.IsRun digits ∧ digits.length = 64 ∧ Hex.positional digits = 0
  | belowOrder, digits =>
      Hex.IsRun digits ∧ digits.length = 64 ∧ Curve.order ≤ Hex.positional digits

/-- Bytes pass the checks before this one, and fail it. -/
def FailedByBytes : SecretCheck → List UInt8 → Prop
  | hexDigits, _ => False
  | evenLength, _ => False
  | byteLength, bs => bs.length ≠ 32
  | nonzero, bs => bs.length = 32 ∧ Bytes.toNat bs = 0
  | belowOrder, bs => bs.length = 32 ∧ Curve.order ≤ Bytes.toNat bs

def refusal (byteCount digitCount : Nat) : SecretCheck → Refusal
  | hexDigits => .keyText .secretKey
  | evenLength => .oddDigits .secretKey digitCount
  | byteLength => .keyLength .secretKey SecretKey.width byteCount
  | nonzero => .zeroSecret
  | belowOrder => .secretExceedsOrder

end SecretCheck

theorem SecretKey.ofValue_of_failedByBytes {check : SecretCheck} {bs : List UInt8}
    (h : check.FailedByBytes bs) (digitCount : Nat) :
    ofValue (.bytes bs) = .error (check.refusal bs.length digitCount).fault := by
  rw [ofValue_bytes_eq]
  cases check with
  | hexDigits => exact h.elim
  | evenLength => exact h.elim
  | byteLength => exact if_neg h
  | nonzero =>
      have hlength : bs.length = width := h.1
      rw [if_pos hlength, scalarOf_of_zero h.2, SecretCheck.refusal]
  | belowOrder =>
      have hlength : bs.length = width := h.1
      rw [if_pos hlength, scalarOf_of_order_le h.2, SecretCheck.refusal]

theorem SecretCheck.exists_failedByBytes {bs : List UInt8}
    (h : ∀ k, SecretKey.ofValue (.bytes bs) ≠ .ok k) :
    ∃ check : SecretCheck, check.FailedByBytes bs := by
  by_cases hlength : bs.length = 32
  · by_cases hzero : Bytes.toNat bs = 0
    · exact ⟨.nonzero, hlength, hzero⟩
    · refine ⟨.belowOrder, hlength, ?_⟩
      by_contra hlt
      exact h ⟨⟨Bytes.toNat bs, by omega, by omega⟩, true⟩
        (SecretKey.ofValue_bytes_eq_ok_iff.mpr ⟨hlength, rfl, rfl⟩)
  · exact ⟨.byteLength, hlength⟩

theorem SecretKey.ofValue_text_of_not_isRun {s : String}
    (h : ¬ Hex.IsRun (dropHexMark s.toList)) :
    ofValue (.text s) = .error (Refusal.keyText .secretKey).fault := by
  have hhex := mt Hex.isHex_iff.mp h
  simp [ofValue_text, keyTextBytes, hhex]

theorem SecretKey.ofValue_text_of_odd {s : String} (h : Hex.IsRun (dropHexMark s.toList))
    (hodd : (dropHexMark s.toList).length % 2 = 1) :
    ofValue (.text s) =
      .error (Refusal.oddDigits .secretKey (dropHexMark s.toList).length).fault := by
  have hpairs := Bytes.ofHexPairs?_eq_none_iff.mpr hodd
  simp only [ofValue_text, keyTextBytes, Hex.isHex_iff.mpr h, hpairs, if_true]

theorem SecretKey.ofValue_text_of_pairs {s : String} (h : Hex.IsRun (dropHexMark s.toList))
    {bs : List UInt8} (hpairs : Bytes.ofHexPairs? (dropHexMark s.toList) = some bs) :
    ofValue (.text s) = ofValue (.bytes bs) := by
  simp only [ofValue_text, keyTextBytes, Hex.isHex_iff.mpr h, hpairs, if_true]

theorem exists_pairs {digits : List Char} (heven : digits.length % 2 = 0) :
    ∃ bs, Bytes.ofHexPairs? digits = some bs ∧ bs.length = digits.length / 2 := by
  have hsome : Bytes.ofHexPairs? digits ≠ none := by
    rw [Ne, Bytes.ofHexPairs?_eq_none_iff]
    omega
  obtain ⟨bs, hbs⟩ := Option.ne_none_iff_exists'.mp hsome
  have hlength := Bytes.length_of_ofHexPairs? hbs
  exact ⟨bs, hbs, by omega⟩

theorem SecretKey.ofValue_of_failedByDigits {check : SecretCheck} {s : String}
    (h : check.FailedByDigits (dropHexMark s.toList)) :
    ofValue (.text s) = .error (check.refusal ((dropHexMark s.toList).length / 2)
      (dropHexMark s.toList).length).fault := by
  cases check with
  | hexDigits => exact ofValue_text_of_not_isRun h
  | evenLength => exact ofValue_text_of_odd h.1 h.2
  | byteLength =>
      obtain ⟨hrun, heven, hne⟩ := h
      obtain ⟨bs, hbs, hlength⟩ := exists_pairs heven
      have hfailed : SecretCheck.byteLength.FailedByBytes bs := by
        show bs.length ≠ 32
        omega
      rw [ofValue_text_of_pairs hrun hbs, ofValue_of_failedByBytes hfailed, hlength]
  | nonzero =>
      obtain ⟨hrun, hcount, hzero⟩ := h
      have heven : (dropHexMark s.toList).length % 2 = 0 := by omega
      obtain ⟨bs, hbs, hlength⟩ := exists_pairs heven
      have hfailed : SecretCheck.nonzero.FailedByBytes bs :=
        ⟨by omega, (Bytes.toNat_of_ofHexPairs? hbs hrun.2).trans hzero⟩
      rw [ofValue_text_of_pairs hrun hbs, ofValue_of_failedByBytes hfailed, hlength]
  | belowOrder =>
      obtain ⟨hrun, hcount, horder⟩ := h
      have heven : (dropHexMark s.toList).length % 2 = 0 := by omega
      obtain ⟨bs, hbs, hlength⟩ := exists_pairs heven
      have hfailed : SecretCheck.belowOrder.FailedByBytes bs :=
        ⟨by omega, horder.trans_eq (Bytes.toNat_of_ofHexPairs? hbs hrun.2).symm⟩
      rw [ofValue_text_of_pairs hrun hbs, ofValue_of_failedByBytes hfailed, hlength]

theorem SecretCheck.exists_failedByDigits {s : String}
    (h : ∀ k, SecretKey.ofValue (.text s) ≠ .ok k) :
    ∃ check : SecretCheck, check.FailedByDigits (dropHexMark s.toList) := by
  by_cases hrun : Hex.IsRun (dropHexMark s.toList)
  · rcases Nat.mod_two_eq_zero_or_one (dropHexMark s.toList).length with heven | hodd
    · obtain ⟨bs, hbs, hlength⟩ := exists_pairs heven
      have hvalue := Bytes.toNat_of_ofHexPairs? hbs hrun.2
      rw [SecretKey.ofValue_text_of_pairs hrun hbs] at h
      obtain ⟨check, hcheck⟩ := exists_failedByBytes h
      cases check with
      | hexDigits => exact hcheck.elim
      | evenLength => exact hcheck.elim
      | byteLength =>
          have hne : bs.length ≠ 32 := hcheck
          exact ⟨.byteLength, hrun, heven, by omega⟩
      | nonzero =>
          obtain ⟨hcount, hzero⟩ := hcheck
          exact ⟨.nonzero, hrun, by omega, hvalue.symm.trans hzero⟩
      | belowOrder =>
          obtain ⟨hcount, horder⟩ := hcheck
          exact ⟨.belowOrder, hrun, by omega, horder.trans_eq hvalue⟩
    · exact ⟨.evenLength, hrun, hodd⟩
  · exact ⟨.hexDigits, hrun⟩

/-! ### The mark in front of a text -/

def IsMarked (text : List Char) : Prop :=
  ∃ digits, text = '0' :: 'x' :: digits

theorem length_dropHexMark_of_isMarked {text : List Char} (h : IsMarked text) :
    (dropHexMark text).length + 2 = text.length := by
  obtain ⟨digits, rfl⟩ := h
  rfl

theorem dropHexMark_of_not_isMarked {text : List Char} (h : ¬ IsMarked text) :
    dropHexMark text = text := by
  unfold dropHexMark
  split
  · next digits => exact absurd ⟨digits, rfl⟩ h
  · rfl

theorem length_dropHexMark_eq {text other : List Char} (hlength : text.length = other.length)
    (hmark : IsMarked text ↔ IsMarked other) :
    (dropHexMark text).length = (dropHexMark other).length := by
  by_cases h : IsMarked text
  · have htext := length_dropHexMark_of_isMarked h
    have hother := length_dropHexMark_of_isMarked (hmark.mp h)
    omega
  · rw [dropHexMark_of_not_isMarked h, dropHexMark_of_not_isMarked (mt hmark.mpr h), hlength]

end KeyCodec
