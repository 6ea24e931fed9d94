import KeyCodec.Proofs.PaddedDigits

/-!
# Integers in a given number of bytes

The bytes of an integer at a width, the integer itself and its two hex texts say the same.  The hex
text of the bytes has two digits for each byte, so it is the canonical text of the integer filled up
with zeros.  An integer has bytes of a width exactly when it is not negative and fits, as long as
there is room for the width; when there is none, the width decides the fault and the integer has no
part in it.  All this holds for any amount of memory, so for the one that is taken to be there.
-/

namespace KeyCodec
namespace Value

/-- The bytes have the width and are read as the integer.  Their digits are two for each of them, in
small letters, and are read as the integer in their turn: they are its text behind zeros. -/
structure StandsAt (i : Int) (width : Nat) (bs : List UInt8) : Prop where
  length : bs.length = width
  number : bytesToInt (.bytes bs) = .ok (.int i)
  hex : ∃ digits, bytesToHex (.bytes bs) = .ok (.text (String.ofList digits)) ∧
    digits.length = 2 * width ∧ (∀ c ∈ digits, c ∈ Hex.smallDigits) ∧
    (width ≠ 0 → ∃ s, HexText.encode (.int i) = .ok s ∧
      digits = Hex.padLeft (2 * width) s.toList)

theorem bytesToInt_bytes (bs : List UInt8) : bytesToInt (.bytes bs) = .ok (.int (Bytes.toNat bs)) :=
  rfl

theorem bytesToHex_bytes (bs : List UInt8) :
    bytesToHex (.bytes bs) = .ok (.text (String.ofList (Bytes.toHex bs))) :=
  rfl

theorem standsAt_ofNat {n width : Nat} (h : n < 256 ^ width) :
    StandsAt n width (Bytes.ofNat width n) where
  length := Bytes.length_ofNat width n
  number := by rw [bytesToInt_bytes, Bytes.toNat_ofNat_of_lt h]
  hex := by
    refine ⟨_, bytesToHex_bytes _, ?_, Bytes.toHex_small _, ?_⟩
    · rw [Bytes.length_toHex, Bytes.length_ofNat]
    · intro hwidth
      refine ⟨_, HexText.encode_natCast n, ?_⟩
      rw [String.toList_ofList, Bytes.toHex_ofNat hwidth h]

section Integers

variable {w : Value} {width memory : Nat} (hw : w.integer? = some (width : Int))

include hw

theorem exists_standsAt_iff (hroom : HasRoom memory width) (i : Int) :
    (∃ bs, intToBytesWithin memory (int i) w = .ok (.bytes bs) ∧ StandsAt i width bs) ↔
      0 ≤ i ∧ i < 256 ^ width := by
  constructor
  · rintro ⟨bs, hbs, -⟩
    by_contra hunfit
    obtain ⟨f, hf, -⟩ := intToBytesWithin_of_unfit (v := int i) rfl hw hroom hunfit
    rw [hbs] at hf
    cases hf
  · rintro ⟨hsign, hlt⟩
    obtain ⟨n, rfl⟩ := Int.eq_ofNat_of_zero_le hsign
    have hfits : n < 256 ^ width := by exact_mod_cast hlt
    exact ⟨_, intToBytesWithin_of_lt rfl hw hroom rfl hfits, standsAt_ofNat hfits⟩

theorem exists_isOverflow_iff (hroom : HasRoom memory width) (i : Int) :
    (∃ f, intToBytesWithin memory (int i) w = .error f ∧ f.IsOverflow) ↔
      ¬ (0 ≤ i ∧ i < 256 ^ width) := by
  constructor
  · rintro ⟨f, hf, -⟩ hfits
    obtain ⟨bs, hbs, -⟩ := (exists_standsAt_iff hw hroom i).mpr hfits
    rw [hf] at hbs
    cases hbs
  · intro hunfit
    exact intToBytesWithin_of_unfit rfl hw hroom hunfit

theorem isOverflow_of_longest_lt (h : longestBytes < width) (i : Int) :
    ∃ f, intToBytesWithin memory (int i) w = .error f ∧ f.IsOverflow := by
  obtain ⟨f, hf, hclass⟩ := checkWidth_of_longest_lt h memory
  exact ⟨f, intToBytesWithin_of_no_room rfl hw hf, hclass⟩

theorem intToBytesWithin_of_memory_lt (hlongest : (width : Int) ≤ longestBytes)
    (h : memory < width) (i : Int) :
    intToBytesWithin memory (int i) w = .error (.standard .memory []) :=
  intToBytesWithin_of_no_room rfl hw (checkWidth_of_memory_lt hlongest h)

end Integers

/-- Bytes are written again for their number at their own width. -/
theorem intToBytesWithin_bytesToInt {memory : Nat} {bs : List UInt8}
    (hroom : HasRoom memory bs.length) :
    ∃ v, bytesToInt (.bytes bs) = .ok v ∧
      intToBytesWithin memory v (.int bs.length) = .ok (.bytes bs) := by
  refine ⟨_, bytesToInt_bytes bs, ?_⟩
  rw [intToBytesWithin_of_lt rfl rfl hroom rfl (Bytes.toNat_lt bs), Bytes.ofNat_toNat]

theorem decode_bytesToHex {bs : List UInt8} (h : bs ≠ []) :
    ∃ s n, bytesToHex (.bytes bs) = .ok (.text s) ∧ HexText.decode (.text s) = .ok n ∧
      bytesToInt (.bytes bs) = .ok (.int n) := by
  refine ⟨_, Bytes.toNat bs, bytesToHex_bytes bs, ?_, bytesToInt_bytes bs⟩
  rw [HexText.decode_text_iff, String.toList_ofList, Bytes.value_toHex, Hex.isHex_iff]
  refine ⟨⟨?_, fun c hc => Or.inl (Bytes.toHex_small bs c hc)⟩, rfl⟩
  have hpos := List.length_pos_iff.mpr h
  rw [← List.length_pos_iff, Bytes.length_toHex]
  omega

/-- Integers and bytes of a width.  Where there is room for the width, an integer has bytes exactly
when it is not negative and fits, and these stand for it; otherwise it overflows.  A width beyond
the longest bytes is an overflow and one beyond the memory is a fault of the memory, whatever the
integer is.  Bytes are got back from their number at their own width, and their digits are read as
that number unless there are none. -/
theorem fixed_width_bytes_codec :
    (∀ (memory width : Nat) (w : Value) (i : Int), w.integer? = some (width : Int) →
      (HasRoom memory width →
        ((∃ bs, intToBytesWithin memory (int i) w = .ok (.bytes bs) ∧ StandsAt i width bs) ↔
          0 ≤ i ∧ i < 256 ^ width) ∧
        ((∃ f, intToBytesWithin memory (int i) w = .error f ∧ f.IsOverflow) ↔
          ¬ (0 ≤ i ∧ i < 256 ^ width))) ∧
      (longestBytes < width → ∃ f, intToBytesWithin memory (int i) w = .error f ∧ f.IsOverflow) ∧
      ((width : Int) ≤ longestBytes → memory < width →
        intToBytesWithin memory (int i) w = .error (.standard .memory []))) ∧
    (∀ (memory : Nat) (bs : List UInt8), HasRoom memory bs.length →
      ∃ v, bytesToInt (.bytes bs) = .ok v ∧
        intToBytesWithin memory v (.int bs.length) = .ok (.bytes bs)) ∧
    ∀ bs : List UInt8, bs ≠ [] → ∃ s n, bytesToHex (.bytes bs) = .ok (.text s) ∧
      HexText.decode (.text s) = .ok n ∧ bytesToInt (.bytes bs) = .ok (.int n) := by
  refine ⟨?_, fun memory bs => intToBytesWithin_bytesToInt, fun bs => decode_bytesToHex⟩
  intro memory width w i hw
  refine ⟨?_, fun h => isOverflow_of_longest_lt hw h i,
    fun hlongest h => intToBytesWithin_of_memory_lt hw hlongest h i⟩
  intro hroom
  exact ⟨exists_standsAt_iff hw hroom i, exists_isOverflow_iff hw hroom i⟩

/-- Two bytes hold 258 and not 65536, a truth value is a width as well, there is no memory for two
bytes in one, and two bytes and their digits are read alike. -/
theorem fixed_width_bytes_codec_of_two :
    (∃ bs, intToBytesWithin 4 (int 258) (.int 2) = .ok (.bytes bs) ∧ StandsAt 258 2 bs) ∧
    (∃ f, intToBytesWithin 4 (int 65536) (.int 2) = .error f ∧ f.IsOverflow) ∧
    (∃ f, intToBytesWithin 4 (int (-1)) (.bool true) = .error f ∧ f.IsOverflow) ∧
    intToBytesWithin 1 (int 0) (.int 2) = .error (.standard .memory []) ∧
    (∃ f, (int 0).intToBytes (.int 0x8000000000000000) = .error f ∧ f.IsOverflow) ∧
    (∃ v, bytesToInt (.bytes [0, 171]) = .ok v ∧
      intToBytesWithin 4 v (.int 2) = .ok (.bytes [0, 171])) ∧
    ∃ s n, bytesToHex (.bytes [0, 171]) = .ok (.text s) ∧ HexText.decode (.text s) = .ok n ∧
      bytesToInt (.bytes [0, 171]) = .ok (.int n) := by
  obtain ⟨hwidth, hback, hdigits⟩ := fixed_width_bytes_codec
  have htwo : HasRoom 4 2 := ⟨by decide, by decide⟩
  have hone : HasRoom 4 1 := ⟨by decide, by decide⟩
  refine ⟨?_, ?_, ?_, ?_, ?_, hback 4 [0, 171] htwo, hdigits [0, 171] (by decide)⟩
  · exact ((hwidth 4 2 (.int 2) 258 rfl).1 htwo).1.mpr (by decide)
  · exact ((hwidth 4 2 (.int 2) 65536 rfl).1 htwo).2.mpr (by decide)
  · exact ((hwidth 4 1 (.bool true) (-1) rfl).1 hone).2.mpr (by decide)
  · exact (hwidth 1 2 (.int 2) 0 rfl).2.2 (by decide) (by decide)
  · exact (hwidth memoryBound 0x8000000000000000 (.int 0x8000000000000000) 0 rfl).2.1 (by decide)

/-- However much memory there is below `2 ^ 62` bytes, some width has no room in it.  At that width
a negative integer is no overflow, and zero, which fits every width, has no bytes. -/
theorem fixed_width_bytes_lack_room :
    (int (-1)).intToBytes (.int 0x4000000000000000) = .error (.standard .memory []) ∧
    ∀ memory < 0x4000000000000000,
      (intToBytesWithin memory (int (-1)) (.int 0x4000000000000000) =
          .error (.standard .memory []) ∧
        ¬ ∀ (i : Int) (width : Nat), ¬ (0 ≤ i ∧ i < 256 ^ width) →
          ∃ f, intToBytesWithin memory (int i) (.int width) = .error f ∧ f.IsOverflow) ∧
      ¬ ∀ (i : Int) (width : Nat), 0 ≤ i ∧ i < 256 ^ width →
        ∃ bs, intToBytesWithin memory (int i) (.int width) = .ok (.bytes bs) := by
  have hroom : ∀ memory < 0x4000000000000000, ∀ i,
      intToBytesWithin memory (int i) (.int (0x4000000000000000 : Nat)) =
        .error (.standard .memory []) := by
    intro memory hmemory i
    exact intToBytesWithin_of_memory_lt rfl (by decide) hmemory i
  refine ⟨hroom memoryBound (by decide) (-1), ?_⟩
  intro memory hmemory
  refine ⟨⟨hroom memory hmemory (-1), ?_⟩, ?_⟩
  · intro hall
    obtain ⟨f, hf, arguments, rfl⟩ := hall (-1) 0x4000000000000000 (by omega)
    rw [hroom memory hmemory] at hf
    cases hf
  · intro hall
    have hpos : ∀ width : Nat, (0 : Int) < 256 ^ width := fun width => Int.pow_pos (by decide)
    obtain ⟨bs, hbs⟩ := hall 0 0x4000000000000000 ⟨by decide, hpos _⟩
    rw [hroom memory hmemory] at hbs
    cases hbs

end Value
end KeyCodec
