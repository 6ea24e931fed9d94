import KeyCodec.Proofs.SecretAgreement

/-!
# The bytes that a text spells

A text of hex digits spells bytes, two digits for each of them, and a mark in front does not count.
The digits may be large or small, so a text spells the bytes of whose hex text it is a respelling.
Either constructor takes a text for the bytes that it spells, and a text that spells none is refused
by a validation fault before anything else is looked at.
-/

namespace KeyCodec

/-- The text consists of the digits, behind one mark at most. -/
def HasDigits (s : String) (digits : List Char) : Prop :=
  Hex.IsRun digits ∧ (s.toList = digits ∨ s.toList = '0' :: 'x' :: digits)

/-- The digits of the text are, in small letters, the hex text of the bytes. -/
def SpellsBytes (s : String) (bs : List UInt8) : Prop :=
  ∃ digits, HasDigits s digits ∧ digits.map Hex.lowerDigit = Bytes.toHex bs

def Fault.IsValidation (f : Fault) : Prop :=
  ∃ attributes cause, f = .codec .validation attributes cause

/-! ### Digits and the bytes that they spell -/

namespace Hex

theorem digit_digitValue_of_isNumeral {c : Char} (h : IsNumeral c) :
    digit (digitValue c) = lowerDigit c := by
  rw [← digitValue_lowerDigit]
  exact digit_digitValue (lowerDigit_mem_smallDigits h)

theorem eq_of_lowerDigit {c d : Char} (hc : IsNumeral c) (hd : d = '0' ∨ d = '4')
    (h : lowerDigit c = d) : c = d := by
  have hsmall : ∀ e ∈ smallDigits, lowerDigit e = '0' ∨ lowerDigit e = '4' →
      e = lowerDigit e := forall_mem_of_all (by decide)
  have hcapital : ∀ e ∈ capitalDigits, lowerDigit e = '0' ∨ lowerDigit e = '4' →
      e = lowerDigit e := forall_mem_of_all (by decide)
  rw [← h] at hd ⊢
  rcases hc with hc | hc
  · exact hsmall c hc hd
  · exact hcapital c hc hd

end Hex

namespace Bytes

theorem ofHexPairs?_toHex (bs : List UInt8) : ofHexPairs? (toHex bs) = some bs := by
  induction bs with
  | nil => rfl
  | cons b bs ih =>
      have hlt := b.toNat_lt
      have hhigh := Hex.digitValue_digit (n := b.toNat / 16) (by omega)
      have hlow := Hex.digitValue_digit (n := b.toNat % 16) (by omega)
      have hbyte : UInt8.ofNat (16 * (b.toNat / 16) + b.toNat % 16) = b := by
        rw [Nat.div_add_mod, UInt8.ofNat_toNat]
      rw [toHex_cons, hexPair, List.cons_append, List.cons_append, List.nil_append, ofHexPairs?,
        ih, hhigh, hlow, hbyte, Option.map_some]

theorem ofHexPairs?_map_lowerDigit (digits : List Char) :
    ofHexPairs? (digits.map Hex.lowerDigit) = ofHexPairs? digits := by
  fun_induction ofHexPairs? digits with
  | case1 => rfl
  | case2 c => rfl
  | case3 high low rest ih =>
      rw [List.map_cons, List.map_cons, ofHexPairs?, ih, Hex.digitValue_lowerDigit,
        Hex.digitValue_lowerDigit]

theorem toHex_of_ofHexPairs? {digits : List Char} {bs : List UInt8}
    (h : ofHexPairs? digits = some bs) (hdigits : ∀ c ∈ digits, Hex.IsNumeral c) :
    toHex bs = digits.map Hex.lowerDigit := by
  fun_induction ofHexPairs? digits generalizing bs with
  | case1 =>
      cases h
      rfl
  | case2 c => cases h
  | case3 high low rest ih =>
      obtain ⟨tail, htail, rfl⟩ := Option.map_eq_some_iff.mp h
      obtain ⟨hhigh, hmore⟩ := List.forall_mem_cons.mp hdigits
      obtain ⟨hlow, hrest⟩ := List.forall_mem_cons.mp hmore
      have hhighLt := Hex.digitValue_lt_of_isNumeral hhigh
      have hlowLt := Hex.digitValue_lt_of_isNumeral hlow
      have hbyte : (UInt8.ofNat (16 * Hex.digitValue high + Hex.digitValue low)).toNat =
          16 * Hex.digitValue high + Hex.digitValue low := by
        rw [UInt8.toNat_ofNat']
        exact Nat.mod_eq_of_lt (by omega)
      have hfirst : (16 * Hex.digitValue high + Hex.digitValue low) / 16 = Hex.digitValue high := by
        omega
      have hsecond : (16 * Hex.digitValue high + Hex.digitValue low) % 16 = Hex.digitValue low := by
        omega
      rw [toHex_cons, hexPair, hbyte, hfirst, hsecond, Hex.digit_digitValue_of_isNumeral hhigh,
        Hex.digit_digitValue_of_isNumeral hlow, ih htail hrest, List.map_cons, List.map_cons]
      rfl

/-- Digits spell the bytes of which they are the hex text in either case. -/
theorem ofHexPairs?_eq_some_iff {digits : List Char} {bs : List UInt8}
    (hdigits : ∀ c ∈ digits, Hex.IsNumeral c) :
    ofHexPairs? digits = some bs ↔ digits.map Hex.lowerDigit = toHex bs := by
  constructor
  · intro h
    exact (toHex_of_ofHexPairs? h hdigits).symm
  · intro h
    rw [← ofHexPairs?_map_lowerDigit, h, ofHexPairs?_toHex]

end Bytes

/-! ### A text stands for the bytes that it spells -/

theorem hasDigits_iff {s : String} {digits : List Char} :
    HasDigits s digits ↔ Hex.IsRun digits ∧ dropHexMark s.toList = digits := by
  constructor
  · rintro ⟨hrun, hs⟩
    exact ⟨hrun, SecretKey.dropHexMark_of_spelled hrun hs⟩
  · rintro ⟨hrun, hs⟩
    refine ⟨hrun, ?_⟩
    by_cases hmark : IsMarked s.toList
    · obtain ⟨rest, hrest⟩ := hmark
      rw [hrest] at hs ⊢
      exact Or.inr (congrArg _ (congrArg _ hs))
    · rw [dropHexMark_of_not_isMarked hmark] at hs
      exact Or.inl hs

/-- The reader of key texts takes exactly the texts that spell bytes. -/
theorem keyTextBytes_eq_ok_iff {role : KeyRole} {s : String} {bs : List UInt8} :
    keyTextBytes role s = .ok bs ↔ SpellsBytes s bs := by
  have hspelled : SpellsBytes s bs ↔ Hex.IsRun (dropHexMark s.toList) ∧
      Bytes.ofHexPairs? (dropHexMark s.toList) = some bs := by
    constructor
    · rintro ⟨digits, hs, hbs⟩
      obtain ⟨hrun, rfl⟩ := hasDigits_iff.mp hs
      exact ⟨hrun, (Bytes.ofHexPairs?_eq_some_iff hrun.2).mpr hbs⟩
    · rintro ⟨hrun, hbs⟩
      exact ⟨_, hasDigits_iff.mpr ⟨hrun, rfl⟩, (Bytes.ofHexPairs?_eq_some_iff hrun.2).mp hbs⟩
  rw [hspelled, ← Hex.isHex_iff]
  unfold keyTextBytes
  by_cases hhex : Hex.isHex (dropHexMark s.toList) = true
  · cases hpairs : Bytes.ofHexPairs? (dropHexMark s.toList) with
    | none => simp [hhex, hpairs]
    | some cs => simp [hhex, hpairs]
  · simp [hhex]

theorem isValidation_of_keyTextBytes {role : KeyRole} {s : String} {r : Refusal}
    (h : keyTextBytes role s = .error r) : r.fault.IsValidation := by
  simp only [keyTextBytes] at h
  split at h
  · split at h
    · cases h
    · cases h
      exact ⟨_, _, rfl⟩
  · cases h
    exact ⟨_, _, rfl⟩

theorem PublicKey.ofValue_text (s : String) :
    ofValue (.text s) =
      match keyTextBytes .publicKey s with
      | .ok bs => ofValue (.bytes bs)
      | .error r => .error r.fault := by
  cases h : keyTextBytes .publicKey s with
  | ok bs => simp [ofValue, validate, spelledBytes, h]
  | error r => simp [ofValue, validate, spelledBytes, h]

theorem SecretKey.ofValue_of_spellsBytes {s : String} {bs : List UInt8} (h : SpellsBytes s bs) :
    ofValue (.text s) = ofValue (.bytes bs) := by
  rw [ofValue_text, keyTextBytes_eq_ok_iff.mpr h]

theorem PublicKey.ofValue_of_spellsBytes {s : String} {bs : List UInt8} (h : SpellsBytes s bs) :
    ofValue (.text s) = ofValue (.bytes bs) := by
  rw [ofValue_text, keyTextBytes_eq_ok_iff.mpr h]

/-- The value holds the bytes, or is a text that spells them. -/
def StandsFor (v : Value) (bs : List UInt8) : Prop :=
  v = .bytes bs ∨ ∃ s, v = .text s ∧ SpellsBytes s bs

theorem standsFor_text_iff {s : String} {bs : List UInt8} :
    StandsFor (.text s) bs ↔ SpellsBytes s bs := by
  constructor
  · rintro (h | ⟨t, ht, hspelled⟩)
    · cases h
    · cases ht
      exact hspelled
  · intro h
    exact Or.inr ⟨s, rfl, h⟩

theorem StandsFor.secret {v : Value} {bs : List UInt8} (h : StandsFor v bs) :
    SecretKey.ofValue v = SecretKey.ofValue (.bytes bs) := by
  rcases h with rfl | ⟨s, rfl, hs⟩
  · rfl
  · exact SecretKey.ofValue_of_spellsBytes hs

theorem StandsFor.public {v : Value} {bs : List UInt8} (h : StandsFor v bs) :
    PublicKey.ofValue v = PublicKey.ofValue (.bytes bs) := by
  rcases h with rfl | ⟨s, rfl, hs⟩
  · rfl
  · exact PublicKey.ofValue_of_spellsBytes hs

def IsTextOrBytes (v : Value) : Prop :=
  (∃ s, v = .text s) ∨ ∃ bs, v = .bytes bs

theorem IsTextOrBytes.exists_refusal {v : Value} (hv : IsTextOrBytes v)
    (h : ¬ ∃ bs, StandsFor v bs) (role : KeyRole) :
    ∃ s r, v = .text s ∧ keyTextBytes role s = .error r := by
  rcases hv with ⟨s, rfl⟩ | ⟨bs, rfl⟩
  · cases hread : keyTextBytes role s with
    | ok bs => exact absurd ⟨bs, standsFor_text_iff.mpr (keyTextBytes_eq_ok_iff.mp hread)⟩ h
    | error r => exact ⟨s, r, rfl, hread⟩
  · exact absurd ⟨bs, Or.inl rfl⟩ h

theorem IsTextOrBytes.secret_isValidation {v : Value} (hv : IsTextOrBytes v)
    (h : ¬ ∃ bs, StandsFor v bs) : ∃ f, SecretKey.ofValue v = .error f ∧ f.IsValidation := by
  obtain ⟨s, r, rfl, hr⟩ := hv.exists_refusal h .secretKey
  rw [SecretKey.ofValue_text, hr]
  exact ⟨r.fault, rfl, isValidation_of_keyTextBytes hr⟩

theorem IsTextOrBytes.public_isValidation {v : Value} (hv : IsTextOrBytes v)
    (h : ¬ ∃ bs, StandsFor v bs) : ∃ f, PublicKey.ofValue v = .error f ∧ f.IsValidation := by
  obtain ⟨s, r, rfl, hr⟩ := hv.exists_refusal h .publicKey
  rw [PublicKey.ofValue_text, hr]
  exact ⟨r.fault, rfl, isValidation_of_keyTextBytes hr⟩

end KeyCodec
