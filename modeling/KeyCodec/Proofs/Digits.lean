import KeyCodec.HexText

/-!
# Reading back canonical digits

The digits of a number are read as that number.  The writer puts a digit in front of those already
written, so the induction follows the writer and the reader starts from the part of the number that
is not yet written.  The value of a text depends neither on leading zeros nor on the case of its
letters.
-/

namespace KeyCodec
namespace Hex

theorem digitValue_digit {n : Nat} (h : n < 16) : digitValue (digit n) = n := by
  have hall : ∀ k < 16, digitValue (digit k) = k := by decide
  exact hall n h

theorem isDigit_digit {n : Nat} (h : n < 16) : isDigit (digit n) = true := by
  have hall : ∀ k < 16, isDigit (digit k) = true := by decide
  exact hall n h

def valueFrom (start : Nat) (digits : List Char) : Nat :=
  digits.foldl (fun total c => 16 * total + digitValue c) start

@[simp] theorem valueFrom_nil (start : Nat) : valueFrom start [] = start := rfl

@[simp] theorem valueFrom_cons (start : Nat) (c : Char) (digits : List Char) :
    valueFrom start (c :: digits) = valueFrom (16 * start + digitValue c) digits := rfl

theorem value_eq_valueFrom (digits : List Char) : value digits = valueFrom 0 digits := rfl

/-- The digits in front of `tail` bring the reader to their number. -/
theorem valueFrom_digitsOnto (n : Nat) (tail : List Char) :
    valueFrom 0 (digitsOnto n tail) = valueFrom n tail := by
  fun_induction digitsOnto n tail with
  | case1 n tail h => simp [digitValue_digit h]
  | case2 n tail h ih =>
      have hlow : n % 16 < 16 := Nat.mod_lt n (by decide)
      rw [ih, valueFrom_cons, digitValue_digit hlow, Nat.div_add_mod]

theorem value_ofNat (n : Nat) : value (ofNat n) = n := by
  rw [value_eq_valueFrom, ofNat, valueFrom_digitsOnto, valueFrom_nil]

theorem all_isDigit_digitsOnto (n : Nat) (tail : List Char) :
    (digitsOnto n tail).all isDigit = tail.all isDigit := by
  fun_induction digitsOnto n tail with
  | case1 n tail h => simp [isDigit_digit h]
  | case2 n tail h ih =>
      have hlow : n % 16 < 16 := Nat.mod_lt n (by decide)
      rw [ih, List.all_cons, isDigit_digit hlow, Bool.true_and]

theorem digitsOnto_ne_nil (n : Nat) (tail : List Char) : digitsOnto n tail ≠ [] := by
  fun_induction digitsOnto n tail with
  | case1 n tail h => simp
  | case2 n tail h ih => exact ih

theorem isHex_ofNat (n : Nat) : isHex (ofNat n) = true := by
  have hne : ofNat n ≠ [] := digitsOnto_ne_nil n []
  have hall : (ofNat n).all isDigit = true := all_isDigit_digitsOnto n []
  simp [isHex, hne, hall]

/-! ### Respelled digits -/

theorem value_upper {c : Char} (h : 'A' ≤ c ∧ c ≤ 'F') :
    digitValue (Char.ofNat (c.toNat + 32)) = digitValue c := by
  have hall : ∀ k < 71, 65 ≤ k → digitValue (Char.ofNat (k + 32)) = digitValue (Char.ofNat k) := by
    decide
  have hlow : 65 ≤ c.toNat := UInt32.le_iff_toNat_le.mp h.1
  have hhigh : c.toNat ≤ 70 := UInt32.le_iff_toNat_le.mp h.2
  simpa using hall c.toNat (by omega) hlow

theorem digitValue_lowerDigit (c : Char) : digitValue (lowerDigit c) = digitValue c := by
  unfold lowerDigit
  split
  · next h => exact value_upper h
  · rfl

theorem valueFrom_map_lowerDigit (start : Nat) (text : List Char) :
    valueFrom start (text.map lowerDigit) = valueFrom start text := by
  induction text generalizing start with
  | nil => rfl
  | cons c text ih => simp [digitValue_lowerDigit, ih]

theorem valueFrom_dropWhile_zero (text : List Char) :
    valueFrom 0 (text.dropWhile (· = '0')) = valueFrom 0 text := by
  induction text with
  | nil => rfl
  | cons c text ih =>
      by_cases hc : c = '0'
      · have hzero : digitValue '0' = 0 := by decide
        simp [hc, hzero, ih]
      · simp [hc]

theorem value_normalize (text : List Char) : value (normalize text) = value text := by
  have hdrop : value ((text.map lowerDigit).dropWhile (· = '0')) = value text := by
    rw [value_eq_valueFrom, valueFrom_dropWhile_zero, valueFrom_map_lowerDigit, value_eq_valueFrom]
  unfold normalize
  split
  · next h =>
    rw [h] at hdrop
    exact hdrop
  · next c rest h =>
    rw [← h]
    exact hdrop

/-- Neither leading zeros nor the case of letters changes what digits spell. -/
theorem value_eq_of_normalize_eq {a b : List Char} (h : normalize a = normalize b) :
    value a = value b := by
  rw [← value_normalize a, h, value_normalize]

end Hex

namespace HexText

theorem decode_text_iff {s : String} {n : Nat} :
    decode (.text s) = .ok n ↔ Hex.isHex s.toList = true ∧ Hex.value s.toList = n := by
  by_cases hs : s = ""
  · simp [decode, hs, Hex.isHex]
  · by_cases hhex : Hex.isHex s.toList = true
    · simp [decode, Hex.toNat?, hs, hhex]
    · simp [decode, Hex.toNat?, hs, hhex]

/-- Only texts of one or more hex digits are read, and what is read is their value. -/
theorem decode_eq_ok_iff {v : Value} {n : Nat} :
    decode v = .ok n ↔ ∃ s, v = .text s ∧ Hex.isHex s.toList = true ∧ Hex.value s.toList = n := by
  constructor
  · intro h
    cases v with
    | text s => exact ⟨s, rfl, decode_text_iff.mp h⟩
    | _ => simp [decode] at h
  · rintro ⟨s, rfl, h⟩
    exact decode_text_iff.mpr h

theorem encode_natCast (n : Nat) :
    encode (.int n) = .ok (String.ofList (Hex.ofNat n)) := by
  simp [encode]

/-- The text of a number is read as the number. -/
theorem decode_ofNat (n : Nat) : decode (.text (String.ofList (Hex.ofNat n))) = .ok n := by
  rw [decode_text_iff, String.toList_ofList]
  exact ⟨Hex.isHex_ofNat n, Hex.value_ofNat n⟩

end HexText
end KeyCodec
