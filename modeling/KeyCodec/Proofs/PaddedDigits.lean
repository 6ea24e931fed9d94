import KeyCodec.Proofs.HexGrammar
import KeyCodec.Proofs.KeyForms

/-!
# Digits of fixed width

The hex text of bytes has two small digits for each byte and spells the number that the bytes spell.
Small digits are their own canonical form with the leading zeros put back, so the hex text of bytes
is the canonical text of their number, filled up with zeros.
-/

namespace KeyCodec

namespace Hex

theorem digit_mem_smallDigits {n : Nat} (h : n < 16) : digit n ∈ smallDigits := by
  have hall : ∀ k < 16, digit k ∈ smallDigits := by decide
  exact hall n h

theorem lowerDigit_of_small {c : Char} (h : c ∈ smallDigits) : lowerDigit c = c := by
  have hall : ∀ d ∈ smallDigits, lowerDigit d = d := forall_mem_of_all (by decide)
  exact hall c h

theorem normalize_zero_cons (rest : List Char) : normalize ('0' :: rest) = normalize rest := by
  have hlower : lowerDigit '0' = '0' := by decide
  simp [normalize, hlower]

theorem normalize_of_head {c : Char} {rest : List Char}
    (hsmall : ∀ d ∈ c :: rest, d ∈ smallDigits) (hzero : c ≠ '0') :
    normalize (c :: rest) = c :: rest := by
  have hmap : (c :: rest).map lowerDigit = c :: rest := by
    rw [List.map_congr_left fun d hd => lowerDigit_of_small (hsmall d hd), List.map_id']
  simp [normalize, hmap, hzero]

theorem length_normalize_le {text : List Char} (h : text ≠ []) :
    (normalize text).length ≤ text.length := by
  have hdrop : ((text.map lowerDigit).dropWhile (· = '0')).length ≤ (text.map lowerDigit).length :=
    (List.dropWhile_sublist _).length_le
  rw [List.length_map] at hdrop
  unfold normalize
  split
  · exact List.length_pos_iff.mpr h
  · next c rest hrest =>
    rw [hrest] at hdrop
    exact hdrop

theorem padLeft_succ {width : Nat} {text : List Char} (h : text.length ≤ width) :
    padLeft (width + 1) text = '0' :: padLeft width text := by
  have hsub : width + 1 - text.length = width - text.length + 1 := by omega
  rw [padLeft, hsub, List.replicate_succ, List.cons_append, padLeft]

theorem padLeft_of_length_eq {text : List Char} : padLeft text.length text = text := by
  rw [padLeft, Nat.sub_self, List.replicate_zero, List.nil_append]

/-- The zeros that are dropped are put back.  A zero in front is one of them; any other digit ends
them. -/
theorem padLeft_normalize {text : List Char} (hsmall : ∀ c ∈ text, c ∈ smallDigits)
    (hne : text ≠ []) : padLeft text.length (normalize text) = text := by
  induction text with
  | nil => exact absurd rfl hne
  | cons c rest ih =>
      have hrest := (List.forall_mem_cons.mp hsmall).2
      by_cases hzero : c = '0'
      · subst hzero
        by_cases hnil : rest = []
        · subst hnil
          decide
        · rw [normalize_zero_cons, List.length_cons, padLeft_succ (length_normalize_le hnil),
            ih hrest hnil]
      · rw [normalize_of_head hsmall hzero, padLeft_of_length_eq]

/-- Small digits are the canonical text of what they spell, filled up with zeros. -/
theorem padLeft_ofNat_value {text : List Char} (hsmall : ∀ c ∈ text, c ∈ smallDigits)
    (hne : text ≠ []) : padLeft text.length (ofNat (value text)) = text := by
  rw [ofNat_value fun c hc => Or.inl (hsmall c hc), padLeft_normalize hsmall hne]

end Hex

namespace Bytes

theorem toHex_cons (b : UInt8) (bs : List UInt8) : toHex (b :: bs) = hexPair b ++ toHex bs := rfl

theorem toHex_append (bs cs : List UInt8) : toHex (bs ++ cs) = toHex bs ++ toHex cs :=
  List.flatMap_append

theorem length_toHex (bs : List UInt8) : (toHex bs).length = 2 * bs.length := by
  induction bs with
  | nil => rfl
  | cons b bs ih =>
      rw [toHex_cons, List.length_append, ih, List.length_cons]
      show 2 + 2 * bs.length = 2 * (bs.length + 1)
      omega

theorem toHex_small (bs : List UInt8) : ∀ c ∈ toHex bs, c ∈ Hex.smallDigits := by
  have hpair : ∀ b : UInt8, ∀ c ∈ hexPair b, c ∈ Hex.smallDigits := by
    intro b
    have hlt := b.toNat_lt
    have hhigh := Hex.digit_mem_smallDigits (n := b.toNat / 16) (by omega)
    have hlow := Hex.digit_mem_smallDigits (n := b.toNat % 16) (by omega)
    simp only [hexPair, List.forall_mem_cons]
    exact ⟨hhigh, hlow, by simp⟩
  intro c hc
  obtain ⟨b, -, hb⟩ := List.mem_flatMap.mp hc
  exact hpair b c hb

/-- A byte and its two digits bring a reader from `start` to the same number. -/
theorem valueFrom_toHex (bs : List UInt8) (start : Nat) :
    Hex.valueFrom start (toHex bs) = toNatFrom start bs := by
  induction bs generalizing start with
  | nil => rfl
  | cons b bs ih =>
      have hlt := b.toNat_lt
      have hhigh := Hex.digitValue_digit (n := b.toNat / 16) (by omega)
      have hlow := Hex.digitValue_digit (n := b.toNat % 16) (by omega)
      have hnext : 16 * (16 * start + b.toNat / 16) + b.toNat % 16 = 256 * start + b.toNat := by
        omega
      rw [toHex_cons, hexPair, List.cons_append, List.cons_append, List.nil_append,
        Hex.valueFrom_cons, Hex.valueFrom_cons, hhigh, hlow, hnext, ih, toNatFrom_cons]

theorem value_toHex (bs : List UInt8) : Hex.value (toHex bs) = toNat bs :=
  valueFrom_toHex bs 0

/-- The hex text of bytes is the canonical text of their number, filled up with zeros. -/
theorem toHex_eq_padLeft {bs : List UInt8} (h : bs ≠ []) :
    toHex bs = Hex.padLeft (2 * bs.length) (Hex.ofNat (toNat bs)) := by
  have hsmall := toHex_small bs
  have hpos := List.length_pos_iff.mpr h
  have hne : toHex bs ≠ [] := by
    rw [← List.length_pos_iff, length_toHex]
    omega
  rw [← value_toHex, ← length_toHex, Hex.padLeft_ofNat_value hsmall hne]

theorem toHex_ofNat {width n : Nat} (hwidth : width ≠ 0) (h : n < 256 ^ width) :
    toHex (ofNat width n) = Hex.padLeft (2 * width) (Hex.ofNat n) := by
  have hne : ofNat width n ≠ [] := by
    rw [← List.length_pos_iff, length_ofNat]
    exact Nat.pos_of_ne_zero hwidth
  rw [toHex_eq_padLeft hne, length_ofNat, toNat_ofNat_of_lt h]

end Bytes

namespace SecretKey

theorem length_hex (k : SecretKey) : k.hex.length = 64 := by
  rw [hex, Bytes.length_toHex, secret, Bytes.length_ofNat]
  rfl

theorem hex_small (k : SecretKey) : ∀ c ∈ k.hex, c ∈ Hex.smallDigits :=
  Bytes.toHex_small k.secret

theorem value_hex (k : SecretKey) : Hex.value k.hex = k.number :=
  Bytes.value_toHex k.secret

end SecretKey
end KeyCodec
