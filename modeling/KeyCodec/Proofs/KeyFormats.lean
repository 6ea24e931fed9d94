import KeyCodec.Proofs.NormalForms
import KeyCodec.Proofs.PublicAgreement
import KeyCodec.Proofs.SpelledBytes

/-!
# The formats of keys

The constructors take texts for bytes, so their formats are settled on bytes: a secret is 32 of
them, and a public key is 64 of them behind a header.  Of the bytes that have the format of a public
key only the curve refuses any, and its fault is the one that is reported by a class of its own;
every other refusal is a validation fault.
-/

namespace KeyCodec

/-- The formats of a secret, with the number that is written: 32 bytes or 64 digits. -/
inductive SecretForm : Value → Nat → Prop
  | bytes (bs : List UInt8) (hlength : bs.length = 32) : SecretForm (.bytes bs) (Bytes.toNat bs)
  | digits (s : String) (digits : List Char) (hs : HasDigits s digits)
      (hlength : digits.length = 64) : SecretForm (.text s) (Hex.positional digits)

/-- The formats of a public key, with the two numbers that are written behind the header. -/
inductive PublicForm : Value → Nat → Nat → Prop
  | bytes (xs ys : List UInt8) (hxs : xs.length = 32) (hys : ys.length = 32) :
      PublicForm (.bytes (4 :: (xs ++ ys))) (Bytes.toNat xs) (Bytes.toNat ys)
  | digits (s : String) (xs ys : List Char) (hs : HasDigits s ('0' :: '4' :: (xs ++ ys)))
      (hxs : xs.length = 64) (hys : ys.length = 64) :
      PublicForm (.text s) (Hex.positional xs) (Hex.positional ys)

namespace Curve.Affine

/-- The abscissa behind a header that tells the parity of the ordinate. -/
def compressed (p : Affine) : List UInt8 :=
  (if p.y.val % 2 = 0 then 2 else 3) :: Bytes.ofNat 32 p.x.val

/-- Both coordinates behind a header that tells the parity of the ordinate once more. -/
def hybrid (p : Affine) : List UInt8 :=
  (if p.y.val % 2 = 0 then 6 else 7) :: (Bytes.ofNat 32 p.x.val ++ Bytes.ofNat 32 p.y.val)

end Curve.Affine

/-! ### Secrets -/

/-- What has the format of a secret stands for 32 bytes, which spell its number. -/
theorem secretForm_iff {v : Value} {n : Nat} :
    SecretForm v n ↔ ∃ bs, StandsFor v bs ∧ bs.length = 32 ∧ Bytes.toNat bs = n := by
  constructor
  · intro h
    cases h with
    | bytes bs hlength => exact ⟨bs, Or.inl rfl, hlength, rfl⟩
    | digits s digits hs hlength =>
        have heven : digits.length % 2 = 0 := by omega
        obtain ⟨bs, hbs, hcount⟩ := exists_pairs heven
        refine ⟨bs, Or.inr ⟨s, rfl, digits, hs, ?_⟩, by omega, ?_⟩
        · exact (Bytes.ofHexPairs?_eq_some_iff hs.1.2).mp hbs
        · exact Bytes.toNat_of_ofHexPairs? hbs hs.1.2
  · rintro ⟨bs, rfl | ⟨s, rfl, digits, hs, hdigits⟩, hlength, rfl⟩
    · exact .bytes bs hlength
    · have hbs := (Bytes.ofHexPairs?_eq_some_iff hs.1.2).mpr hdigits
      have hcount := Bytes.length_of_ofHexPairs? hbs
      rw [Bytes.toNat_of_ofHexPairs? hbs hs.1.2]
      exact .digits s digits hs (by omega)

namespace SecretKey

theorem ofValue_eq_ok_iff_form {v : Value} (hv : IsTextOrBytes v) {k : SecretKey} :
    ofValue v = .ok k ↔ SecretForm v k.scalar.val ∧ k.isSealed = true := by
  rw [secretForm_iff]
  constructor
  · intro h
    by_cases hbytes : ∃ bs, StandsFor v bs
    · obtain ⟨bs, hbs⟩ := hbytes
      rw [hbs.secret, ofValue_bytes_eq_ok_iff] at h
      obtain ⟨hlength, hvalue, hsealed⟩ := h
      exact ⟨⟨bs, hbs, hlength, hvalue⟩, hsealed⟩
    · obtain ⟨f, hf, -⟩ := hv.secret_isValidation hbytes
      rw [h] at hf
      cases hf
  · rintro ⟨⟨bs, hbs, hlength, hvalue⟩, hsealed⟩
    rw [hbs.secret, ofValue_bytes_eq_ok_iff]
    exact ⟨hlength, hvalue, hsealed⟩

theorem exists_key_iff_form {v : Value} (hv : IsTextOrBytes v) :
    (∃ k, ofValue v = .ok k) ↔ ∃ n, SecretForm v n ∧ 0 < n ∧ n < Curve.order := by
  constructor
  · rintro ⟨k, hk⟩
    exact ⟨_, ((ofValue_eq_ok_iff_form hv).mp hk).1, k.scalar.pos, k.scalar.lt⟩
  · rintro ⟨n, hform, hpos, hlt⟩
    exact ⟨⟨⟨n, hpos, hlt⟩, true⟩, (ofValue_eq_ok_iff_form hv).mpr ⟨hform, rfl⟩⟩

theorem isValidation_of_ofValue_bytes {bs : List UInt8} {f : Fault}
    (h : ofValue (.bytes bs) = .error f) : f.IsValidation := by
  have hrejected : ∀ k, ofValue (.bytes bs) ≠ .ok k := by
    intro k hk
    rw [hk] at h
    cases h
  obtain ⟨check, hcheck⟩ := SecretCheck.exists_failedByBytes hrejected
  rw [ofValue_of_failedByBytes hcheck 0] at h
  cases h
  cases check with
  | hexDigits => exact ⟨_, _, rfl⟩
  | evenLength => exact ⟨_, _, rfl⟩
  | byteLength => exact ⟨_, _, rfl⟩
  | nonzero => exact ⟨_, _, rfl⟩
  | belowOrder => exact ⟨_, _, rfl⟩

theorem isValidation_of_ofValue {v : Value} (hv : IsTextOrBytes v) {f : Fault}
    (h : ofValue v = .error f) : f.IsValidation := by
  by_cases hbytes : ∃ bs, StandsFor v bs
  · obtain ⟨bs, hbs⟩ := hbytes
    rw [hbs.secret] at h
    exact isValidation_of_ofValue_bytes h
  · obtain ⟨g, hg, hvalidation⟩ := hv.secret_isValidation hbytes
    rw [h] at hg
    cases hg
    exact hvalidation

end SecretKey

/-! ### Public keys -/

theorem eq_header_of_spelled {text : List Char} {bs : List UInt8}
    (hdigits : ∀ c ∈ text, Hex.IsNumeral c)
    (h : text.map Hex.lowerDigit = Bytes.toHex (4 :: bs)) :
    ∃ rest, text = '0' :: '4' :: rest ∧ rest.map Hex.lowerDigit = Bytes.toHex bs := by
  have hpair : Bytes.hexPair 4 = ['0', '4'] := by decide
  rw [Bytes.toHex_cons, hpair, List.cons_append, List.cons_append, List.nil_append] at h
  obtain ⟨c, more, rfl, hfirst, hmore⟩ := List.map_eq_cons_iff.mp h
  obtain ⟨d, rest, rfl, hsecond, hrest⟩ := List.map_eq_cons_iff.mp hmore
  have hc := Hex.eq_of_lowerDigit (hdigits c (by simp)) (Or.inl rfl) hfirst
  have hd := Hex.eq_of_lowerDigit (hdigits d (by simp)) (Or.inr rfl) hsecond
  rw [hc, hd]
  exact ⟨rest, rfl, hrest⟩

theorem HasDigits.numerals {s : String} {xs ys : List Char}
    (h : HasDigits s ('0' :: '4' :: (xs ++ ys))) :
    (∀ c ∈ xs, Hex.IsNumeral c) ∧ ∀ c ∈ ys, Hex.IsNumeral c := by
  obtain ⟨-, hmore⟩ := List.forall_mem_cons.mp h.1.2
  obtain ⟨-, hrest⟩ := List.forall_mem_cons.mp hmore
  exact List.forall_mem_append.mp hrest

/-- A text with 130 digits spells the header and two coordinates, 64 digits for each. -/
theorem publicForm_iff {v : Value} {x y : Nat} :
    PublicForm v x y ↔ ∃ xs ys, StandsFor v (4 :: (xs ++ ys)) ∧ xs.length = 32 ∧ ys.length = 32 ∧
      Bytes.toNat xs = x ∧ Bytes.toNat ys = y := by
  constructor
  · intro h
    cases h with
    | bytes xs ys hxs hys => exact ⟨xs, ys, Or.inl rfl, hxs, hys, rfl, rfl⟩
    | digits s xs ys hs hxs hys =>
        obtain ⟨hxsNumerals, hysNumerals⟩ := hs.numerals
        obtain ⟨bsX, hbsX, hcountX⟩ := exists_pairs (show xs.length % 2 = 0 by omega)
        obtain ⟨bsY, hbsY, hcountY⟩ := exists_pairs (show ys.length % 2 = 0 by omega)
        have hheader : Bytes.ofHexPairs? ['0', '4'] = some [4] := by decide
        have hpairs : Bytes.ofHexPairs? ('0' :: '4' :: (xs ++ ys)) = some (4 :: (bsX ++ bsY)) := by
          show Bytes.ofHexPairs? (['0', '4'] ++ (xs ++ ys)) = _
          rw [Bytes.ofHexPairs?_append hheader, Bytes.ofHexPairs?_append hbsX, hbsY]
          rfl
        refine ⟨bsX, bsY, Or.inr ⟨s, rfl, _, hs, ?_⟩, by omega, by omega, ?_, ?_⟩
        · exact (Bytes.ofHexPairs?_eq_some_iff hs.1.2).mp hpairs
        · exact Bytes.toNat_of_ofHexPairs? hbsX hxsNumerals
        · exact Bytes.toNat_of_ofHexPairs? hbsY hysNumerals
  · rintro ⟨bsX, bsY, rfl | ⟨s, rfl, digits, hs, hdigits⟩, hbsX, hbsY, rfl, rfl⟩
    · exact .bytes bsX bsY hbsX hbsY
    · obtain ⟨rest, rfl, hrest⟩ := eq_header_of_spelled hs.1.2 hdigits
      rw [Bytes.toHex_append] at hrest
      obtain ⟨xs, ys, rfl, hxs, hys⟩ := List.map_eq_append_iff.mp hrest
      obtain ⟨hxsNumerals, hysNumerals⟩ := hs.numerals
      have hpairsX := (Bytes.ofHexPairs?_eq_some_iff hxsNumerals).mpr hxs
      have hpairsY := (Bytes.ofHexPairs?_eq_some_iff hysNumerals).mpr hys
      have hcountX := Bytes.length_of_ofHexPairs? hpairsX
      have hcountY := Bytes.length_of_ofHexPairs? hpairsY
      rw [Bytes.toNat_of_ofHexPairs? hpairsX hxsNumerals,
        Bytes.toNat_of_ofHexPairs? hpairsY hysNumerals]
      exact .digits s xs ys hs (by omega) (by omega)

namespace PublicKey

theorem exists_layout_iff {bs : List UInt8} :
    (∃ xs ys, bs = 4 :: (xs ++ ys) ∧ xs.length = 32 ∧ ys.length = 32) ↔
      bs.length = width ∧ bs.head? = some header := by
  constructor
  · rintro ⟨xs, ys, rfl, hxs, hys⟩
    refine ⟨?_, rfl⟩
    rw [List.length_cons, List.length_append, hxs, hys, width]
  · rintro ⟨hlength, hhead⟩
    obtain ⟨rest, rfl⟩ := List.head?_eq_some_iff.mp hhead
    rw [List.length_cons, width] at hlength
    refine ⟨rest.take 32, rest.drop 32, ?_, ?_, ?_⟩
    · rw [List.take_append_drop, header]
    · rw [List.length_take]
      omega
    · rw [List.length_drop]
      omega

/-- Bytes without the layout never reach the curve. -/
theorem isValidation_of_no_layout {bs : List UInt8}
    (h : ¬ (bs.length = width ∧ bs.head? = some header)) :
    ∃ f, ofValue (.bytes bs) = .error f ∧ f.IsValidation := by
  by_cases hlength : bs.length = width
  · have hhead : bs.head? ≠ some header := fun hhead => h ⟨hlength, hhead⟩
    obtain ⟨b, rest, rfl⟩ : ∃ b rest, bs = b :: rest := by
      apply List.exists_cons_of_ne_nil
      rintro rfl
      cases hlength
    have hfirst : firstItem (.bytes (b :: rest)) = .ok (.int b.toNat) := rfl
    have hdiffers : (Value.int b.toNat).same (.int header.toNat) = false := by
      rw [Bool.eq_false_iff, Ne, Value.same_int_iff, Int.natCast_inj, UInt8.toNat_inj]
      rintro rfl
      exact hhead rfl
    have hcount : checkLength .publicKey width (.bytes (b :: rest)) = .ok () := by
      rw [checkLength, Value.length?, hlength]
      exact if_pos rfl
    refine ⟨Refusal.keyHeader.fault, ?_, _, _, rfl⟩
    simp [ofValue, validate, spelledBytes, hcount, hfirst, hdiffers]
  · refine ⟨(Refusal.keyLength .publicKey width bs.length).fault, ?_, _, _, rfl⟩
    simp [ofValue, validate, spelledBytes, checkLength, Value.length?, hlength]

theorem ofValue_of_layout {rest : List UInt8} (h : (header :: rest).length = width) :
    ofValue (.bytes (header :: rest)) =
      match ofBytes? (header :: rest) with
      | some k => .ok k
      | none => .error Refusal.unparsable.fault := by
  simp only [ofValue, validate_bytes h, Outcome.bind_ok]
  rfl

theorem ofValue_eq_ok_iff_form {v : Value} (hv : IsTextOrBytes v) {k : PublicKey} :
    ofValue v = .ok k ↔ PublicForm v k.point.x.val k.point.y.val := by
  rw [publicForm_iff]
  constructor
  · intro h
    by_cases hbytes : ∃ bs, StandsFor v bs
    · obtain ⟨bs, hbs⟩ := hbytes
      rw [hbs.public] at h
      by_cases hlayout : bs.length = width ∧ bs.head? = some header
      · obtain ⟨xs, ys, rfl, hxs, hys⟩ := exists_layout_iff.mpr hlayout
        exact ⟨xs, ys, hbs, hxs, hys, (ofValue_bytes_eq_ok_iff hxs hys).mp h⟩
      · obtain ⟨f, hf, -⟩ := isValidation_of_no_layout hlayout
        rw [h] at hf
        cases hf
    · obtain ⟨f, hf, -⟩ := hv.public_isValidation hbytes
      rw [h] at hf
      cases hf
  · rintro ⟨xs, ys, hbs, hxs, hys, hvalues⟩
    rw [hbs.public]
    exact (ofValue_bytes_eq_ok_iff hxs hys).mpr hvalues

theorem exists_key_iff_form {v : Value} (hv : IsTextOrBytes v) :
    (∃ k, ofValue v = .ok k) ↔ ∃ x y : Nat, PublicForm v x y ∧ Curve.IsPoint x y := by
  constructor
  · rintro ⟨k, hk⟩
    exact ⟨_, _, (ofValue_eq_ok_iff_form hv).mp hk, k.isPoint⟩
  · rintro ⟨x, y, hform, hpoint⟩
    obtain ⟨k, hx, hy⟩ := exists_isKeyAt_iff.mpr hpoint
    rw [← Int.natCast_inj.mp hx, ← Int.natCast_inj.mp hy] at hform
    exact ⟨k, (ofValue_eq_ok_iff_form hv).mpr hform⟩

/-- Of what has the format of a public key only the curve refuses any. -/
theorem ofValue_of_off_curve {v : Value} {x y : Nat} (hform : PublicForm v x y)
    (hcurve : ¬ Curve.IsPoint x y) :
    ofValue v = .error Refusal.unparsable.fault := by
  have hnone : ∀ k, ofValue v ≠ .ok k := by
    intro k hk
    obtain ⟨xs, ys, hbs, hxs, hys, rfl, rfl⟩ := publicForm_iff.mp hform
    rw [hbs.public] at hk
    exact hcurve (exists_isKeyAt_iff.mp ⟨k, (ofValue_bytes_eq_ok_iff_isKeyAt hxs hys).mp hk⟩)
  obtain ⟨xs, ys, hbs, hxs, hys, -, -⟩ := publicForm_iff.mp hform
  have hlength : (header :: (xs ++ ys)).length = width := by
    rw [List.length_cons, List.length_append, hxs, hys, width]
  have hread := hbs.public.trans (ofValue_of_layout hlength)
  cases hkey : ofBytes? (header :: (xs ++ ys)) with
  | some k =>
      rw [hkey] at hread
      exact absurd hread (hnone k)
  | none =>
      rw [hkey] at hread
      exact hread

/-- A text or bytes without the format of a public key are refused by a validation fault. -/
theorem isValidation_of_no_form {v : Value} (hv : IsTextOrBytes v)
    (h : ¬ ∃ x y, PublicForm v x y) : ∃ f, ofValue v = .error f ∧ f.IsValidation := by
  by_cases hbytes : ∃ bs, StandsFor v bs
  · obtain ⟨bs, hbs⟩ := hbytes
    rw [hbs.public]
    apply isValidation_of_no_layout
    intro hlayout
    obtain ⟨xs, ys, rfl, hxs, hys⟩ := exists_layout_iff.mpr hlayout
    exact h ⟨_, _, publicForm_iff.mpr ⟨xs, ys, hbs, hxs, hys, rfl, rfl⟩⟩
  · exact hv.public_isValidation hbytes

/-- A construction fault comes from the curve alone. -/
theorem eq_unparsable_of_keyConstruction {v : Value} (hv : IsTextOrBytes v)
    {attributes : FaultAttributes} {cause : Option Fault}
    (h : ofValue v = .error (.codec .keyConstruction attributes cause)) :
    (∃ x y : Nat, PublicForm v x y ∧ ¬ Curve.IsPoint x y) ∧
      Fault.codec .keyConstruction attributes cause = Refusal.unparsable.fault := by
  by_cases hform : ∃ x y, PublicForm v x y
  · obtain ⟨x, y, hform⟩ := hform
    by_cases hcurve : Curve.IsPoint x y
    · obtain ⟨k, hk⟩ := (exists_key_iff_form hv).mpr ⟨x, y, hform, hcurve⟩
      rw [h] at hk
      cases hk
    · refine ⟨⟨x, y, hform, hcurve⟩, ?_⟩
      rw [ofValue_of_off_curve hform hcurve] at h
      exact (Except.error.inj h).symm
  · obtain ⟨f, hf, _, _, rfl⟩ := isValidation_of_no_form hv hform
    rw [h] at hf
    cases hf

theorem isValidation_of_other_encoding {p : Curve.Affine} {bs : List UInt8}
    (h : bs = p.compressed ∨ bs = p.hybrid) {v : Value} (hv : StandsFor v bs) :
    ∃ f, ofValue v = .error f ∧ f.IsValidation := by
  rw [hv.public]
  apply isValidation_of_no_layout
  rintro ⟨hlength, hhead⟩
  rcases h with rfl | rfl
  · simp [Curve.Affine.compressed, width] at hlength
  · rw [Curve.Affine.hybrid, List.head?_cons, Option.some.injEq] at hhead
    split at hhead
    · exact absurd hhead (by decide)
    · exact absurd hhead (by decide)

end PublicKey

/-! ### All texts and bytes -/

/-- The constructors accept exactly the formats of keys.  A text or bytes are a secret when they
have its format and the number is a scalar, and a public key when they have its format and the
numbers are a point of the curve.  When only the curve is missed, the fault is a construction fault
caused by a value fault; every other refusal is a validation fault, that of the other two encodings
of a point among them.  A text is the same key as the bytes that it spells, and a text that is
accepted spells some. -/
theorem constructors_accept_formats :
    (∀ v, IsTextOrBytes v →
      ((∃ k, SecretKey.ofValue v = .ok k) ↔ ∃ n, SecretForm v n ∧ 0 < n ∧ n < Curve.order) ∧
      (∀ k, SecretKey.ofValue v = .ok k → SecretForm v k.scalar.val) ∧
      ((¬ ∃ n, SecretForm v n ∧ 0 < n ∧ n < Curve.order) →
        ∃ f, SecretKey.ofValue v = .error f ∧ f.IsValidation)) ∧
    (∀ v, IsTextOrBytes v →
      ((∃ k, PublicKey.ofValue v = .ok k) ↔
        ∃ x y : Nat, PublicForm v x y ∧ Curve.IsPoint x y) ∧
      (∀ k, PublicKey.ofValue v = .ok k → PublicForm v k.point.x.val k.point.y.val) ∧
      ((∃ attributes cause,
          PublicKey.ofValue v = .error (.codec .keyConstruction attributes cause)) ↔
        ∃ x y : Nat, PublicForm v x y ∧ ¬ Curve.IsPoint x y) ∧
      (∀ attributes cause,
        PublicKey.ofValue v = .error (.codec .keyConstruction attributes cause) →
          ∃ arguments, cause = some (.standard .value arguments)) ∧
      ((¬ ∃ x y, PublicForm v x y) → ∃ f, PublicKey.ofValue v = .error f ∧ f.IsValidation)) ∧
    (∀ (p : Curve.Affine) (bs : List UInt8), bs = p.compressed ∨ bs = p.hybrid →
      (∃ f, PublicKey.ofValue (.bytes bs) = .error f ∧ f.IsValidation) ∧
      ∀ s, SpellsBytes s bs → ∃ f, PublicKey.ofValue (.text s) = .error f ∧ f.IsValidation) ∧
    (∀ (s : String) (bs : List UInt8), SpellsBytes s bs →
      SecretKey.ofValue (.text s) = SecretKey.ofValue (.bytes bs) ∧
      PublicKey.ofValue (.text s) = PublicKey.ofValue (.bytes bs)) ∧
    (∀ s : String, ((∃ k, SecretKey.ofValue (.text s) = .ok k) ∨
      ∃ k, PublicKey.ofValue (.text s) = .ok k) → ∃ bs, SpellsBytes s bs) := by
  refine ⟨?_, ?_, ?_, ?_, ?_⟩
  · intro v hv
    refine ⟨SecretKey.exists_key_iff_form hv, ?_, ?_⟩
    · intro k hk
      exact ((SecretKey.ofValue_eq_ok_iff_form hv).mp hk).1
    · intro hform
      cases hread : SecretKey.ofValue v with
      | ok k => exact absurd ((SecretKey.exists_key_iff_form hv).mp ⟨k, hread⟩) hform
      | error f => exact ⟨f, rfl, SecretKey.isValidation_of_ofValue hv hread⟩
  · intro v hv
    refine ⟨PublicKey.exists_key_iff_form hv, ?_, ⟨?_, ?_⟩, ?_,
      PublicKey.isValidation_of_no_form hv⟩
    · intro k hk
      exact (PublicKey.ofValue_eq_ok_iff_form hv).mp hk
    · rintro ⟨attributes, cause, h⟩
      exact (PublicKey.eq_unparsable_of_keyConstruction hv h).1
    · rintro ⟨x, y, hform, hcurve⟩
      exact ⟨_, _, PublicKey.ofValue_of_off_curve hform hcurve⟩
    · intro attributes cause h
      have hfault := (PublicKey.eq_unparsable_of_keyConstruction hv h).2
      injection hfault with _ _ hcause
      exact ⟨_, hcause⟩
  · intro p bs hbs
    refine ⟨PublicKey.isValidation_of_other_encoding hbs (Or.inl rfl), ?_⟩
    intro s hs
    exact PublicKey.isValidation_of_other_encoding hbs (Or.inr ⟨s, rfl, hs⟩)
  · intro s bs hs
    exact ⟨SecretKey.ofValue_of_spellsBytes hs, PublicKey.ofValue_of_spellsBytes hs⟩
  · intro s hkey
    have hv : IsTextOrBytes (.text s) := Or.inl ⟨s, rfl⟩
    by_contra hnone
    have hbytes : ¬ ∃ bs, StandsFor (.text s) bs := by
      simpa only [standsFor_text_iff] using hnone
    rcases hkey with ⟨k, hk⟩ | ⟨k, hk⟩
    · obtain ⟨f, hf, -⟩ := hv.secret_isValidation hbytes
      rw [hk] at hf
      cases hf
    · obtain ⟨f, hf, -⟩ := hv.public_isValidation hbytes
      rw [hk] at hf
      cases hf

/-- Ten in marked digits is a secret and two marks are none; two ones are no point of the curve, and
the base point is refused in its compressed encoding. -/
theorem constructors_accept_formats_of_samples :
    (∃ k, SecretKey.ofValue
      (.text ("0x" ++ String.ofList (List.replicate 63 '0') ++ "A")) = .ok k) ∧
    (∃ f, SecretKey.ofValue (.text "0x0x") = .error f ∧ f.IsValidation) ∧
    (∃ attributes arguments,
      PublicKey.ofValue (.bytes (4 :: (Bytes.ofNat 32 1 ++ Bytes.ofNat 32 1))) =
        .error (.codec .keyConstruction attributes (some (.standard .value arguments)))) ∧
    ∃ f, PublicKey.ofValue (.bytes (Curve.Affine.compressed
      ⟨Curve.baseX, Curve.baseY, Curve.onCurve_base⟩)) = .error f ∧ f.IsValidation := by
  obtain ⟨hsecret, hpublic, hother, -, -⟩ := constructors_accept_formats
  refine ⟨?_, ?_, ?_, (hother _ _ (Or.inl rfl)).1⟩
  · apply (hsecret _ (Or.inl ⟨_, rfl⟩)).1.mpr
    have hspelled : HasDigits ("0x" ++ String.ofList (List.replicate 63 '0') ++ "A")
        (List.replicate 63 '0' ++ ['A']) :=
      ⟨⟨by decide, Hex.forall_mem_of_all (by decide)⟩, Or.inr (by simp)⟩
    exact ⟨_, .digits _ _ hspelled (by decide), by decide, by decide⟩
  · apply (hsecret _ (Or.inl ⟨_, rfl⟩)).2.2
    rintro ⟨n, hform, -, -⟩
    cases hform with
    | digits s digits hs hlength =>
        rcases hs.2 with hdigits | hdigits
        · rw [← hdigits] at hlength
          exact absurd hlength (by decide)
        · have hcount := congrArg List.length hdigits
          rw [List.length_cons, List.length_cons, hlength] at hcount
          exact absurd hcount (by decide)
  · obtain ⟨-, -, hcurve, hcause, -⟩ := hpublic _ (Or.inr ⟨_, rfl⟩)
    have hform := PublicForm.bytes (Bytes.ofNat 32 1) (Bytes.ofNat 32 1) (by decide) (by decide)
    obtain ⟨attributes, cause, hfault⟩ := hcurve.mpr ⟨_, _, hform, by decide⟩
    obtain ⟨arguments, rfl⟩ := hcause _ _ hfault
    exact ⟨attributes, arguments, hfault⟩

end KeyCodec
