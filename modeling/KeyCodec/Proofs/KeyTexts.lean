import KeyCodec.Proofs.HexGrammar
import KeyCodec.Proofs.KeyForms

/-!
# Texts of keys

The text of a key stands for the bytes that its digits spell two by two.  These bytes spell the same
number as the digits, so whatever is asked of the number of a secret may be asked of its text.
-/

namespace KeyCodec

namespace Hex

theorem digitValue_lt_of_isNumeral {c : Char} (h : IsNumeral c) : digitValue c < 16 := by
  rw [← digitValue_lowerDigit]
  exact digitValue_lt (lowerDigit_mem_smallDigits h)

end Hex

namespace Bytes

/-- A digit is left over exactly when there is an odd number of them. -/
theorem ofHexPairs?_eq_none_iff {digits : List Char} :
    ofHexPairs? digits = none ↔ digits.length % 2 = 1 := by
  fun_induction ofHexPairs? digits with
  | case1 => simp
  | case2 c => simp
  | case3 high low rest ih =>
      rw [Option.map_eq_none_iff, ih, List.length_cons, List.length_cons]
      omega

theorem length_of_ofHexPairs? {digits : List Char} {bs : List UInt8}
    (h : ofHexPairs? digits = some bs) : 2 * bs.length = digits.length := by
  fun_induction ofHexPairs? digits generalizing bs with
  | case1 =>
      cases h
      rfl
  | case2 c => cases h
  | case3 high low rest ih =>
      obtain ⟨tail, htail, rfl⟩ := Option.map_eq_some_iff.mp h
      rw [List.length_cons, List.length_cons, List.length_cons, ← ih htail]
      omega

/-- Two digits and their byte bring a reader to the same number. -/
theorem toNatFrom_of_ofHexPairs? {digits : List Char} {bs : List UInt8}
    (h : ofHexPairs? digits = some bs) (hdigits : ∀ c ∈ digits, Hex.IsNumeral c) (start : Nat) :
    toNatFrom start bs = Hex.valueFrom start digits := by
  fun_induction ofHexPairs? digits generalizing bs start with
  | case1 =>
      cases h
      rfl
  | case2 c => cases h
  | case3 high low rest ih =>
      obtain ⟨tail, htail, rfl⟩ := Option.map_eq_some_iff.mp h
      obtain ⟨hhigh, hmore⟩ := List.forall_mem_cons.mp hdigits
      obtain ⟨hlow, hrest⟩ := List.forall_mem_cons.mp hmore
      have hhighLt := Hex.digitValue_lt_of_isNumeral hhigh
      have hlowLt := Hex.digitValue_lt_of_isNumeral hlow
      have hbyte : (UInt8.ofNat (16 * Hex.digitValue high + Hex.digitValue low)).toNat =
          16 * Hex.digitValue high + Hex.digitValue low := by
        rw [UInt8.toNat_ofNat']
        exact Nat.mod_eq_of_lt (by omega)
      have hnext : 256 * start + (16 * Hex.digitValue high + Hex.digitValue low) =
          16 * (16 * start + Hex.digitValue high) + Hex.digitValue low := by omega
      rw [toNatFrom_cons, hbyte, hnext, ih htail hrest, Hex.valueFrom_cons, Hex.valueFrom_cons]

theorem toNat_of_ofHexPairs? {digits : List Char} {bs : List UInt8}
    (h : ofHexPairs? digits = some bs) (hdigits : ∀ c ∈ digits, Hex.IsNumeral c) :
    toNat bs = Hex.positional digits := by
  rw [toNat_eq_toNatFrom, toNatFrom_of_ofHexPairs? h hdigits, ← Hex.value_eq_valueFrom,
    Hex.value_eq_positional hdigits]

end Bytes

namespace SecretKey

/-- A text is as good a secret as the bytes that it spells, and no better. -/
theorem ofValue_text (s : String) :
    ofValue (.text s) =
      match keyTextBytes .secretKey s with
      | .ok bs => ofValue (.bytes bs)
      | .error r => .error r.fault := by
  cases h : keyTextBytes .secretKey s with
  | ok bs => simp [ofValue, check, spelledBytes, h]
  | error r => simp [ofValue, check, spelledBytes, h]

/-- Bytes are a secret when there are as many of them as a secret has and they spell a scalar. -/
theorem ofValue_bytes_eq (bs : List UInt8) :
    ofValue (.bytes bs) =
      if bs.length = width then
        match scalarOf bs with
        | .ok k => .ok ⟨k, true⟩
        | .error r => .error r.fault
      else .error (Refusal.keyLength .secretKey width bs.length).fault := by
  by_cases hlength : bs.length = width
  · have hoctets : Value.octets (.bytes bs) = .ok bs := rfl
    cases h : scalarOf bs with
    | ok k => simp [ofValue, check, spelledBytes, checkLength, Value.length?, hlength, hoctets, h]
    | error r =>
        simp [ofValue, check, spelledBytes, checkLength, Value.length?, hlength, hoctets, h]
  · simp [ofValue, check, spelledBytes, checkLength, Value.length?, hlength]

theorem scalarOf_of_zero {bs : List UInt8} (h : Bytes.toNat bs = 0) :
    scalarOf bs = .error .zeroSecret := by
  simp [scalarOf, h]

theorem scalarOf_of_order_le {bs : List UInt8} (h : Curve.order ≤ Bytes.toNat bs) :
    scalarOf bs = .error .secretExceedsOrder := by
  have hpos : Bytes.toNat bs ≠ 0 := by
    have horder : 0 < Curve.order := by decide
    omega
  have hrange : ¬ (0 < Bytes.toNat bs ∧ Bytes.toNat bs < Curve.order) := by omega
  simp [scalarOf, hpos, Curve.Scalar.ofNat?, hrange]

end SecretKey
end KeyCodec
