import KeyCodec.Proofs.PaddedDigits

/-!
# What a masked display shows

The display of a secret key repeats the first four and the last four of its 64 digits.  Digits of a
fixed width are cut as their number is divided: those in front spell the quotient, those behind the
remainder.  So the display tells the sixteen highest and the sixteen lowest of 256 bits, leading
zeros included, and nothing of the bits between them.
-/

namespace KeyCodec

/-! ### Digits cut in two -/

namespace Hex

theorem value_lt {text : List Char} (h : ∀ c ∈ text, c ∈ smallDigits) :
    value text < 16 ^ text.length := by
  induction text using List.reverseRecOn with
  | nil => decide
  | append_singleton text c ih =>
      have hlast := digitValue_lt (h c (by simp))
      have hfront := ih fun d hd => h d (by simp [hd])
      rw [value_concat, List.length_append, List.length_singleton, pow_succ]
      omega

theorem value_append (front back : List Char) :
    value (front ++ back) = value front * 16 ^ back.length + value back := by
  induction back using List.reverseRecOn with
  | nil => simp [value]
  | append_singleton back c ih =>
      rw [← List.append_assoc, value_concat, ih, value_concat, List.length_append,
        List.length_singleton, pow_succ]
      ring

theorem value_split (text : List Char) (count : Nat) :
    value text =
      value (text.take count) * 16 ^ (text.length - count) + value (text.drop count) := by
  rw [← List.length_drop, ← value_append, List.take_append_drop]

theorem value_drop_lt {text : List Char} (h : ∀ c ∈ text, c ∈ smallDigits) (count : Nat) :
    value (text.drop count) < 16 ^ (text.length - count) := by
  rw [← List.length_drop]
  apply value_lt
  intro c hc
  exact h c (List.mem_of_mem_drop hc)

theorem value_take {text : List Char} (h : ∀ c ∈ text, c ∈ smallDigits) (count : Nat) :
    value (text.take count) = value text / 16 ^ (text.length - count) := by
  have hpos : 0 < 16 ^ (text.length - count) := Nat.pow_pos (by decide)
  rw [value_split text count, Nat.mul_comm, Nat.mul_add_div hpos,
    Nat.div_eq_of_lt (value_drop_lt h count), Nat.add_zero]

theorem value_drop {text : List Char} (h : ∀ c ∈ text, c ∈ smallDigits) (count : Nat) :
    value (text.drop count) = value text % 16 ^ (text.length - count) := by
  rw [value_split text count, Nat.mul_comm, Nat.mul_add_mod_self_left,
    Nat.mod_eq_of_lt (value_drop_lt h count)]

/-- The digits in front are those of the quotient, leading zeros included. -/
theorem take_eq_padLeft {text : List Char} (h : ∀ c ∈ text, c ∈ smallDigits) {count : Nat}
    (hpos : count ≠ 0) (hle : count ≤ text.length) :
    text.take count = padLeft count (ofNat (value text / 16 ^ (text.length - count))) := by
  have hlength : (text.take count).length = count := by rw [List.length_take, Nat.min_eq_left hle]
  have hne : text.take count ≠ [] := by
    rw [← List.length_pos_iff, hlength]
    exact Nat.pos_of_ne_zero hpos
  have hpad := padLeft_ofNat_value (fun c hc => h c (List.mem_of_mem_take hc)) hne
  rw [hlength, value_take h] at hpad
  exact hpad.symm

/-- The digits behind are those of the remainder, leading zeros included. -/
theorem drop_eq_padLeft {text : List Char} (h : ∀ c ∈ text, c ∈ smallDigits) {count : Nat}
    (hlt : count < text.length) :
    text.drop count = padLeft (text.length - count)
      (ofNat (value text % 16 ^ (text.length - count))) := by
  have hne : text.drop count ≠ [] := by
    rw [← List.length_pos_iff, List.length_drop]
    exact Nat.sub_pos_of_lt hlt
  have hpad := padLeft_ofNat_value (fun c hc => h c (List.mem_of_mem_drop hc)) hne
  rw [List.length_drop, value_drop h] at hpad
  exact hpad.symm

end Hex

/-! ### The two ends of the digits of a key -/

namespace SecretKey

theorem value_front (k : SecretKey) : Hex.value (k.hex.take 4) = k.number >>> 240 := by
  have hpow : 16 ^ (64 - 4) = 2 ^ 240 := by norm_num
  rw [Hex.value_take k.hex_small, value_hex, length_hex, hpow, Nat.shiftRight_eq_div_pow]

theorem value_back (k : SecretKey) : Hex.value (k.hex.drop 60) = k.number % 2 ^ 16 := by
  have hpow : 16 ^ (64 - 60) = 2 ^ 16 := by norm_num
  rw [Hex.value_drop k.hex_small, value_hex, length_hex, hpow]

theorem front_eq (k : SecretKey) :
    k.hex.take 4 = Hex.padLeft 4 (Hex.ofNat (k.number >>> 240)) := by
  have hle : 4 ≤ k.hex.length := by rw [length_hex]; decide
  rw [Hex.take_eq_padLeft k.hex_small (by decide) hle, ← Hex.value_take k.hex_small, value_front]

theorem back_eq (k : SecretKey) :
    k.hex.drop 60 = Hex.padLeft 4 (Hex.ofNat (k.number % 2 ^ 16)) := by
  have hlt : 60 < k.hex.length := by rw [length_hex]; decide
  rw [Hex.drop_eq_padLeft k.hex_small hlt, ← Hex.value_drop k.hex_small, value_back, length_hex]

theorem front_eq_iff {a b : SecretKey} :
    a.hex.take 4 = b.hex.take 4 ↔ a.number >>> 240 = b.number >>> 240 := by
  constructor
  · intro h
    rw [← value_front, h, value_front]
  · intro h
    rw [front_eq, h, front_eq]

theorem back_eq_iff {a b : SecretKey} :
    a.hex.drop 60 = b.hex.drop 60 ↔ a.number % 2 ^ 16 = b.number % 2 ^ 16 := by
  constructor
  · intro h
    rw [← value_back, h, value_back]
  · intro h
    rw [back_eq, h, back_eq]

theorem masked_hex (k : SecretKey) :
    masked k.hex = k.hex.take 4 ++ (['.', '.', '.'] ++ k.hex.drop 60) := by
  rw [masked, length_hex, List.append_assoc]

/-- Two displays are equal when both ends of the digits are. -/
theorem display_eq_iff {a b : SecretKey} :
    a.display = b.display ↔
      a.hex.take 4 = b.hex.take 4 ∧ a.hex.drop 60 = b.hex.drop 60 := by
  have hlength : (a.hex.take 4).length = (b.hex.take 4).length := by
    rw [List.length_take, List.length_take, length_hex, length_hex]
  rw [display, display, String.append_left_inj, String.append_right_inj, String.ofList_inj,
    masked_hex, masked_hex]
  constructor
  · intro h
    obtain ⟨hfront, hrest⟩ := List.append_inj h hlength
    exact ⟨hfront, List.append_cancel_left hrest⟩
  · rintro ⟨hfront, hback⟩
    rw [hfront, hback]

end SecretKey

/-! ### Bits -/

/-- The quotient by one power of two and the remainder by another are the bits on either side. -/
theorem outer_bits_iff {m n low high : Nat} :
    m >>> high = n >>> high ∧ m % 2 ^ low = n % 2 ^ low ↔
      ∀ i, i < low ∨ high ≤ i → m.testBit i = n.testBit i := by
  constructor
  · rintro ⟨hhigh, hlow⟩ i (hi | hi)
    · have hbit := congrArg (Nat.testBit · i) hlow
      simpa [Nat.testBit_mod_two_pow, hi] using hbit
    · have hbit := congrArg (Nat.testBit · (i - high)) hhigh
      simpa [Nat.testBit_shiftRight, Nat.add_sub_cancel' hi] using hbit
  · intro h
    constructor
    · apply Nat.eq_of_testBit_eq
      intro i
      rw [Nat.testBit_shiftRight, Nat.testBit_shiftRight]
      exact h (high + i) (Or.inr (Nat.le_add_right high i))
    · apply Nat.eq_of_testBit_eq
      intro i
      rw [Nat.testBit_mod_two_pow, Nat.testBit_mod_two_pow]
      by_cases hi : i < low
      · rw [h i (Or.inl hi)]
      · simp [hi]

/-- The two ends of the digits do not depend on each other: there is a key for any two of them.  One
more bit in the middle keeps the scalar from being zero. -/
theorem exists_secretKey_of_ends (high low : Fin (2 ^ 16)) :
    ∃ k : SecretKey, k.number >>> 240 = high ∧ k.number % 2 ^ 16 = low := by
  have hhigh := high.isLt
  have hlow := low.isLt
  have hpos : 0 < high.val * 2 ^ 240 + 2 ^ 16 + low.val := by omega
  have hlt : high.val * 2 ^ 240 + 2 ^ 16 + low.val < Curve.order := by
    rw [Curve.order]
    omega
  refine ⟨⟨⟨_, hpos, hlt⟩, true⟩, ?_, ?_⟩
  · rw [SecretKey.number_eq_val, Nat.shiftRight_eq_div_pow]
    show (high.val * 2 ^ 240 + 2 ^ 16 + low.val) / 2 ^ 240 = high
    omega
  · rw [SecretKey.number_eq_val]
    show (high.val * 2 ^ 240 + 2 ^ 16 + low.val) % 2 ^ 16 = low
    omega

def SecretKey.ShownAlike (a b : SecretKey) : Prop :=
  ∃ text, (Value.secretKey a).display? = some text ∧ (Value.secretKey b).display? = some text

theorem SecretKey.shownAlike_iff {a b : SecretKey} :
    ShownAlike a b ↔
      a.number >>> 240 = b.number >>> 240 ∧ a.number % 2 ^ 16 = b.number % 2 ^ 16 := by
  rw [← front_eq_iff, ← back_eq_iff, ← display_eq_iff]
  constructor
  · rintro ⟨text, ha, hb⟩
    rw [← hb] at ha
    exact Option.some.inj ha
  · intro h
    exact ⟨a.display, rfl, congrArg some h.symm⟩

/-- A secret key shows 32 bits of its scalar.  Two keys are shown alike exactly when their scalars
agree in the sixteen highest and the sixteen lowest of 256 bits, bit by bit, so the bits between
them have no part in the text; the text repeats these bits in four digits at either end, zeros
included; and any 32 bits are shown by some key. -/
theorem display_shows_outer_bits :
    (∀ a b : SecretKey,
      (a.ShownAlike b ↔
        a.number >>> 240 = b.number >>> 240 ∧ a.number % 2 ^ 16 = b.number % 2 ^ 16) ∧
      (a.ShownAlike b ↔
        ∀ i, i < 16 ∨ 240 ≤ i → a.number.testBit i = b.number.testBit i)) ∧
    (∀ k : SecretKey, (Value.secretKey k).display? =
      some ("SecretKey(" ++
        String.ofList (Hex.padLeft 4 (Hex.ofNat (k.number >>> 240)) ++ ['.', '.', '.'] ++
          Hex.padLeft 4 (Hex.ofNat (k.number % 2 ^ 16))) ++ ")")) ∧
    ∀ high low : Fin (2 ^ 16), ∃ k : SecretKey,
      k.number >>> 240 = high ∧ k.number % 2 ^ 16 = low := by
  refine ⟨?_, ?_, exists_secretKey_of_ends⟩
  · intro a b
    have halike := SecretKey.shownAlike_iff (a := a) (b := b)
    exact ⟨halike, halike.trans outer_bits_iff⟩
  · intro k
    rw [Value.display?, SecretKey.display, SecretKey.masked_hex, k.front_eq, k.back_eq,
      List.append_assoc]

/-- The scalars one and `2 ^ 16 + 1`, the second in a buffer, are shown alike, so their highest bits
agree; one and two are not. -/
theorem display_shows_outer_bits_of_small :
    (∃ one far : SecretKey, one.number = 1 ∧ far.number = 65537 ∧ one.ShownAlike far ∧
      one.number.testBit 255 = far.number.testBit 255) ∧
    ∃ one two : SecretKey, one.number = 1 ∧ two.number = 2 ∧ ¬ one.ShownAlike two := by
  obtain ⟨halike, -, -⟩ := display_shows_outer_bits
  constructor
  · obtain ⟨hshift, hbits⟩ := halike ⟨⟨1, by decide, by decide⟩, true⟩
      ⟨⟨65537, by decide, by decide⟩, false⟩
    have hshown := hshift.mpr ⟨by decide, by decide⟩
    exact ⟨_, _, by decide, by decide, hshown, hbits.mp hshown 255 (Or.inr (by decide))⟩
  · obtain ⟨hshift, -⟩ := halike ⟨⟨1, by decide, by decide⟩, true⟩
      ⟨⟨2, by decide, by decide⟩, true⟩
    have hdiffer := hshift.not.mpr (by decide)
    exact ⟨_, _, by decide, by decide, hdiffer⟩

end KeyCodec
