import KeyCodec.Proofs.BaseMultiple
import KeyCodec.Proofs.PaddedDigits
import KeyCodec.Proofs.SecretFlaws

/-!
# All ways to a secret key agree

A number may be given to the constructors as an integer, as 32 bytes or as 64 digits, and to the
decoder as any digits.  Each way has checks of its own, but all of them accept exactly the scalars,
and all of them build one and the same key.
-/

namespace KeyCodec

/-- What comes of asking for the secret key of a number, in one of the ways to give the number. -/
inductive SecretAttempt (i : Int) : Except Fault Value → Prop
  | integer (v : Value) (hv : v.integer? = some i) :
      SecretAttempt i ((SecretKey.ofInteger v).map .secretKey)
  | decoded (s : String) (hrun : Hex.IsRun s.toList)
      (hvalue : (Hex.positional s.toList : Int) = i) :
      SecretAttempt i (decodeSecretKey .secp256k1 (.text s))
  | bytes (bs : List UInt8) (hlength : bs.length = 32) (hvalue : (Bytes.toNat bs : Int) = i) :
      SecretAttempt i ((SecretKey.ofValue (.bytes bs)).map .secretKey)
  | digits (s : String) (digits : List Char)
      (hs : s.toList = digits ∨ s.toList = '0' :: 'x' :: digits) (hrun : Hex.IsRun digits)
      (hlength : digits.length = 64) (hvalue : (Hex.positional digits : Int) = i) :
      SecretAttempt i ((SecretKey.ofValue (.text s)).map .secretKey)

namespace SecretKey

/-- The key is that of the number, and owns its bytes. -/
def IsKeyOf (i : Int) (k : SecretKey) : Prop :=
  (k.scalar.val : Int) = i ∧ k.isSealed = true

/-- The scalars are the numbers that have a secret key. -/
theorem exists_isKeyOf_iff {i : Int} : (∃ k, IsKeyOf i k) ↔ 0 < i ∧ i < Curve.order := by
  constructor
  · rintro ⟨k, hval, -⟩
    have hpos := k.scalar.pos
    have hlt := k.scalar.lt
    omega
  · rintro ⟨hpos, hlt⟩
    obtain ⟨n, rfl⟩ := Int.eq_ofNat_of_zero_le hpos.le
    exact ⟨⟨⟨n, by omega, by omega⟩, true⟩, rfl, rfl⟩

/-! ### The ways one by one -/

theorem ofInteger_eq_ok_iff_isKeyOf {v : Value} {i : Int} (hv : v.integer? = some i)
    {k : SecretKey} : ofInteger v = .ok k ↔ IsKeyOf i k := by
  rw [ofInteger_eq_ok_iff, hv, Option.some.injEq, IsKeyOf, eq_comm]

theorem ofValue_bytes_eq_ok_iff_isKeyOf {bs : List UInt8} (h : bs.length = 32) {k : SecretKey} :
    ofValue (.bytes bs) = .ok k ↔ IsKeyOf (Bytes.toNat bs) k := by
  rw [ofValue_bytes_eq_ok_iff, IsKeyOf, Int.natCast_inj, eq_comm (a := Bytes.toNat bs)]
  exact and_iff_right h

/-- A run of digits bears no mark, as the second character of the mark is no digit. -/
theorem dropHexMark_of_isRun {digits : List Char} (h : Hex.IsRun digits) :
    dropHexMark digits = digits := by
  apply dropHexMark_of_not_isMarked
  rintro ⟨rest, rfl⟩
  have hx : Hex.IsNumeral 'x' := h.2 'x' (by simp)
  exact absurd hx (by decide)

theorem dropHexMark_of_spelled {text digits : List Char} (hrun : Hex.IsRun digits)
    (h : text = digits ∨ text = '0' :: 'x' :: digits) : dropHexMark text = digits := by
  rcases h with rfl | rfl
  · exact dropHexMark_of_isRun hrun
  · rfl

theorem ofValue_text_eq_ok_iff_isKeyOf {s : String} {digits : List Char}
    (hs : dropHexMark s.toList = digits) (hrun : Hex.IsRun digits) (hlength : digits.length = 64)
    {k : SecretKey} : ofValue (.text s) = .ok k ↔ IsKeyOf (Hex.positional digits) k := by
  subst hs
  have heven : (dropHexMark s.toList).length % 2 = 0 := by omega
  obtain ⟨bs, hbs, hcount⟩ := exists_pairs heven
  rw [ofValue_text_of_pairs hrun hbs, ← Bytes.toNat_of_ofHexPairs? hbs hrun.2]
  exact ofValue_bytes_eq_ok_iff_isKeyOf (by omega)

end SecretKey

/-- However the number is given, what is built is its key. -/
theorem SecretAttempt.eq_ok_iff {i : Int} {outcome : Except Fault Value}
    (h : SecretAttempt i outcome) {key : Value} :
    outcome = .ok key ↔ ∃ k, SecretKey.IsKeyOf i k ∧ key = .secretKey k := by
  cases h with
  | integer v hv =>
      exact Outcome.map_eq_ok_iff_of_iff fun k => SecretKey.ofInteger_eq_ok_iff_isKeyOf hv
  | decoded s hrun hvalue =>
      have hread : HexText.decode (.text s) = .ok (Hex.positional s.toList) :=
        HexText.decode_eq_ok_iff_positional.mpr ⟨s, rfl, hrun, rfl⟩
      have hinteger : (Value.int (Hex.positional s.toList)).integer? = some i := by
        rw [Value.integer?, hvalue]
      have hdecode : decodeSecretKey .secp256k1 (.text s) = .ok key ↔
          (SecretKey.ofInteger (.int (Hex.positional s.toList))).map .secretKey = .ok key := by
        simp only [decodeSecretKey, hread, accept_eq_ok_iff, Core.secp256k1]
      rw [hdecode]
      exact Outcome.map_eq_ok_iff_of_iff fun k =>
        SecretKey.ofInteger_eq_ok_iff_isKeyOf hinteger
  | bytes bs hlength hvalue =>
      subst hvalue
      exact Outcome.map_eq_ok_iff_of_iff fun k =>
        SecretKey.ofValue_bytes_eq_ok_iff_isKeyOf hlength
  | digits s digits hs hrun hlength hvalue =>
      subst hvalue
      have hdropped := SecretKey.dropHexMark_of_spelled hrun hs
      exact Outcome.map_eq_ok_iff_of_iff fun k =>
        SecretKey.ofValue_text_eq_ok_iff_isKeyOf hdropped hrun hlength

/-! ### What the key shows -/

/-- What the secret key of a number shows: the number, its 32 bytes and their 64 small digits, which
are the encoder's text filled up with zeros, and a public key. -/
structure ShowsSecret (i : Int) (key : Value) : Prop where
  equal : key.same key = true
  number : key.secretNumber = .ok (.int i)
  secret : ∃ bs, key.storedSecret = .ok (.bytes bs) ∧ bs.length = 32 ∧ (Bytes.toNat bs : Int) = i
  hex : ∃ text digits, encodeSecretKey .secp256k1 key = .ok text ∧
    key.secretHex = .ok (.text (String.ofList digits)) ∧ digits.length = 64 ∧
    (∀ c ∈ digits, c ∈ Hex.smallDigits) ∧ digits = Hex.padLeft 64 text.toList
  partner : ∃ l, key.publicPartner = .ok (.publicKey l)

theorem SecretKey.hex_eq_padLeft (k : SecretKey) : k.hex = Hex.padLeft 64 (Hex.ofNat k.number) := by
  rw [number_eq_val]
  exact Bytes.toHex_ofNat (by decide) (Nat.lt_trans k.scalar.lt Curve.order_lt_width)

theorem SecretKey.encode_eq (k : SecretKey) :
    encodeSecretKey .secp256k1 (.secretKey k) = .ok (String.ofList (Hex.ofNat k.number)) :=
  encodeSecretKey_of_toScalar rfl

theorem SecretKey.IsKeyOf.shows {i : Int} {k : SecretKey} (h : IsKeyOf i k) :
    ShowsSecret i (.secretKey k) where
  equal := by simp [Value.same, SecretKey.same]
  number := by
    rw [Value.secretNumber, Value.readSecret, Outcome.map_ok, number_eq_val, h.1]
  secret := by
    refine ⟨k.secret, ?_, Bytes.length_ofNat _ _, ?_⟩
    · rw [Value.storedSecret, stored, h.2, if_pos rfl]
    · rw [← h.1, ← number_eq_val, number]
  hex := by
    refine ⟨_, k.hex, k.encode_eq, rfl, k.length_hex, k.hex_small, ?_⟩
    rw [String.toList_ofList, hex_eq_padLeft]
  partner := by
    obtain ⟨l, hl⟩ := k.exists_publicKey
    exact ⟨l, by rw [Value.publicPartner, hl, Outcome.map_ok]⟩

/-! ### All ways -/

theorem SecretKey.ofInteger_eq_error {v : Value} {f : Fault} (h : ofInteger v = .error f) :
    f = .codec .keyConstruction
      { message := .text "Secret scalar must be in range [1, n) for secp256k1" } none := by
  have hrejected : ∀ k, ofInteger v ≠ .ok k := by
    intro k hk
    rw [hk] at h
    cases h
  rw [ofInteger_of_not_isScalar (not_isScalar_of_rejected hrejected)] at h
  cases h
  rfl

/-- All ways to give a number to the constructors and the decoder of secret keys agree.  They accept
the scalars and nothing else, and build one key, which shows its number.  What is no integer is no
scalar, and whatever is rejected as an integer is rejected by the range check. -/
theorem secret_attempts_agree :
    (∀ (i : Int) (v : Value), v.integer? = some i →
      (SecretKey.isScalar v = true ↔ 0 < i ∧ i < Curve.order)) ∧
    (∀ (i : Int) (outcome : Except Fault Value), SecretAttempt i outcome →
      ((∃ key, outcome = .ok key) ↔ 0 < i ∧ i < Curve.order)) ∧
    (∀ i : Int, 0 < i ∧ i < Curve.order → ∃ key, ShowsSecret i key ∧
      ∀ outcome, SecretAttempt i outcome → outcome = .ok key) ∧
    (∀ v : Value, v.integer? = none → ∃ f, SecretKey.ofInteger v = .error f) ∧
    (∀ (v : Value) (f : Fault), SecretKey.ofInteger v = .error f →
      f = .codec .keyConstruction
        { message := .text "Secret scalar must be in range [1, n) for secp256k1" } none) := by
  refine ⟨?_, ?_, ?_, ?_, fun v f => SecretKey.ofInteger_eq_error⟩
  · intro i v hv
    simp [SecretKey.isScalar, hv]
  · intro i outcome hattempt
    rw [← SecretKey.exists_isKeyOf_iff]
    constructor
    · rintro ⟨key, hkey⟩
      obtain ⟨k, hk, -⟩ := hattempt.eq_ok_iff.mp hkey
      exact ⟨k, hk⟩
    · rintro ⟨k, hk⟩
      exact ⟨.secretKey k, hattempt.eq_ok_iff.mpr ⟨k, hk, rfl⟩⟩
  · intro i hrange
    obtain ⟨k, hk⟩ := SecretKey.exists_isKeyOf_iff.mpr hrange
    refine ⟨.secretKey k, hk.shows, ?_⟩
    intro outcome hattempt
    apply hattempt.eq_ok_iff.mpr
    exact ⟨k, hk, rfl⟩
  · intro v hv
    have hscalar : ¬ SecretKey.isScalar v = true := by simp [SecretKey.isScalar, hv]
    exact ⟨_, SecretKey.ofInteger_of_not_isScalar hscalar⟩

/-- The marked digits of ten in capital letters and its shortest text give the same key, the order
gives none, and a text is no integer. -/
theorem secret_attempts_agree_of_ten :
    (∃ key, ShowsSecret 10 key ∧ decodeSecretKey .secp256k1 (.text "a") = .ok key ∧
      (SecretKey.ofValue (.text ("0x" ++ String.ofList (List.replicate 63 '0') ++ "A"))).map
        .secretKey = .ok key) ∧
    (¬ ∃ key, (SecretKey.ofInteger (.int Curve.order)).map Value.secretKey = .ok key) ∧
    SecretKey.isScalar (.bool true) = true ∧
    ∃ f, SecretKey.ofInteger (.text "1") = .error f ∧
      f = .codec .keyConstruction
        { message := .text "Secret scalar must be in range [1, n) for secp256k1" } none := by
  obtain ⟨hscalar, haccepted, hkey, hnone, hfault⟩ := secret_attempts_agree
  refine ⟨?_, ?_, ?_, ?_⟩
  · obtain ⟨key, hshows, hall⟩ := hkey 10 (by decide)
    have hshort : SecretAttempt 10 (decodeSecretKey .secp256k1 (.text "a")) :=
      .decoded "a" ⟨by decide, Hex.forall_mem_of_all (by decide)⟩ (by decide)
    have hmarked : SecretAttempt 10 ((SecretKey.ofValue
        (.text ("0x" ++ String.ofList (List.replicate 63 '0') ++ "A"))).map .secretKey) :=
      .digits _ (List.replicate 63 '0' ++ ['A']) (Or.inr (by simp))
        ⟨by decide, Hex.forall_mem_of_all (by decide)⟩ (by decide) (by decide)
    exact ⟨key, hshows, hall _ hshort, hall _ hmarked⟩
  · rw [haccepted Curve.order _ (.integer (.int Curve.order) rfl)]
    decide
  · exact (hscalar 1 (.bool true) rfl).mpr (by decide)
  · obtain ⟨f, hf⟩ := hnone (.text "1") rfl
    exact ⟨f, hf, hfault _ f hf⟩

end KeyCodec
