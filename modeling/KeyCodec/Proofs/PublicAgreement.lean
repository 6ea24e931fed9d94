import KeyCodec.Proofs.BaseMultiple
import KeyCodec.Proofs.CodecFaults
import KeyCodec.Proofs.PaddedDigits

/-!
# All ways to a public key agree

Two numbers may be given to the constructors as a point, as the uncompressed form in bytes or in
digits, and to the decoder as a record.  The field is checked on integers in one place, and by the
reader of bytes in another.  Both accept exactly the points of the curve, so no way to give a
coordinate takes its remainder, and all of them build one and the same key.
-/

namespace KeyCodec

open Record

/-- The numbers lie in the field and satisfy the curve equation. -/
def Curve.IsPoint (x y : Int) : Prop :=
  (0 ≤ x ∧ x < prime) ∧ (0 ≤ y ∧ y < prime) ∧ y ^ 2 % prime = (x ^ 3 + 7) % prime

instance (x y : Int) : Decidable (Curve.IsPoint x y) :=
  inferInstanceAs (Decidable (_ ∧ _))

/-- What comes of asking for the public key of two numbers, in one of the ways to give them. -/
inductive PublicAttempt (x y : Int) : Except Fault Value → Prop
  | point (vx vy : Value) (hx : vx.integer? = some x) (hy : vy.integer? = some y) :
      PublicAttempt x y ((PublicKey.ofPoint (.point vx vy)).map .publicKey)
  | decoded (strict : Bool) (sx sy : String)
      (hrunX : Hex.IsRun sx.toList) (hx : (Hex.positional sx.toList : Int) = x)
      (hrunY : Hex.IsRun sy.toList) (hy : (Hex.positional sy.toList : Int) = y) :
      PublicAttempt x y (decodePublicKey .secp256k1 strict (recordOf sx sy)).outcome
  | bytes (xs ys : List UInt8) (hlengthX : xs.length = 32) (hx : (Bytes.toNat xs : Int) = x)
      (hlengthY : ys.length = 32) (hy : (Bytes.toNat ys : Int) = y) :
      PublicAttempt x y ((PublicKey.ofValue (.bytes (4 :: (xs ++ ys)))).map .publicKey)
  | digits (s : String) (xs ys : List Char)
      (hs : s.toList = ['0', '4'] ++ xs ++ ys ∨ s.toList = ['0', 'x', '0', '4'] ++ xs ++ ys)
      (hrunX : Hex.IsRun xs) (hlengthX : xs.length = 64) (hx : (Hex.positional xs : Int) = x)
      (hrunY : Hex.IsRun ys) (hlengthY : ys.length = 64) (hy : (Hex.positional ys : Int) = y) :
      PublicAttempt x y ((PublicKey.ofValue (.text s)).map .publicKey)

theorem Hex.IsRun.append {text more : List Char} (h : IsRun text) (hmore : IsRun more) :
    IsRun (text ++ more) :=
  ⟨List.append_ne_nil_of_left_ne_nil h.1 more,
    List.forall_mem_append.mpr ⟨h.2, hmore.2⟩⟩

theorem Bytes.ofHexPairs?_append {digits more : List Char} {bs : List UInt8}
    (h : ofHexPairs? digits = some bs) :
    ofHexPairs? (digits ++ more) = (ofHexPairs? more).map (bs ++ ·) := by
  fun_induction ofHexPairs? digits generalizing bs with
  | case1 =>
      cases h
      simp
  | case2 c => cases h
  | case3 high low rest ih =>
      obtain ⟨tail, htail, rfl⟩ := Option.map_eq_some_iff.mp h
      rw [List.cons_append, List.cons_append, ofHexPairs?, ih htail, Option.map_map]
      rfl

namespace PublicKey

def IsKeyAt (x y : Int) (k : PublicKey) : Prop :=
  (k.point.x.val : Int) = x ∧ (k.point.y.val : Int) = y

theorem isPoint (k : PublicKey) : Curve.IsPoint k.point.x.val k.point.y.val := by
  have hx := k.point.x.isLt
  have hy := k.point.y.isLt
  have hcurve := Curve.onCurve_iff.mp k.point.onCurve
  refine ⟨by omega, by omega, ?_⟩
  exact_mod_cast hcurve

/-- The points of the curve are the numbers that have a public key. -/
theorem exists_isKeyAt_iff {x y : Int} : (∃ k, IsKeyAt x y k) ↔ Curve.IsPoint x y := by
  constructor
  · rintro ⟨k, rfl, rfl⟩
    exact k.isPoint
  · rintro ⟨⟨hx, hxlt⟩, ⟨hy, hylt⟩, hcurve⟩
    obtain ⟨m, rfl⟩ := Int.eq_ofNat_of_zero_le hx
    obtain ⟨n, rfl⟩ := Int.eq_ofNat_of_zero_le hy
    refine ⟨⟨⟨m, by omega⟩, ⟨n, by omega⟩, Curve.onCurve_iff.mpr ?_⟩, rfl, rfl⟩
    exact_mod_cast hcurve

/-! ### The ways one by one -/

theorem ofPoint_eq_ok_iff_isKeyAt {vx vy : Value} {x y : Int} (hx : vx.integer? = some x)
    (hy : vy.integer? = some y) {k : PublicKey} :
    ofPoint (.point vx vy) = .ok k ↔ IsKeyAt x y k := by
  rw [ofPoint_point_eq_ok_iff, hx, hy, Option.some.injEq, Option.some.injEq, IsKeyAt,
    eq_comm, eq_comm (a := y)]

theorem ofValue_bytes_eq_ok_iff_isKeyAt {xs ys : List UInt8} (hxs : xs.length = 32)
    (hys : ys.length = 32) {k : PublicKey} :
    ofValue (.bytes (header :: (xs ++ ys))) = .ok k ↔
      IsKeyAt (Bytes.toNat xs) (Bytes.toNat ys) k := by
  rw [ofValue_bytes_eq_ok_iff hxs hys, IsKeyAt, Int.natCast_inj, Int.natCast_inj,
    eq_comm, eq_comm (a := Bytes.toNat ys)]

theorem isRun_header : Hex.IsRun ['0', '4'] :=
  ⟨by decide, Hex.forall_mem_of_all (by decide)⟩

theorem ofValue_text_of_pairs {s : String} (hrun : Hex.IsRun (dropHexMark s.toList))
    {bs : List UInt8} (hpairs : Bytes.ofHexPairs? (dropHexMark s.toList) = some bs) :
    ofValue (.text s) = ofValue (.bytes bs) := by
  simp [ofValue, validate, spelledBytes, keyTextBytes, Hex.isHex_iff.mpr hrun, hpairs]

theorem ofValue_text_eq_ok_iff_isKeyAt {s : String} {xs ys : List Char}
    (hs : dropHexMark s.toList = ['0', '4'] ++ xs ++ ys) (hrunX : Hex.IsRun xs)
    (hrunY : Hex.IsRun ys) (hxs : xs.length = 64) (hys : ys.length = 64) {k : PublicKey} :
    ofValue (.text s) = .ok k ↔ IsKeyAt (Hex.positional xs) (Hex.positional ys) k := by
  obtain ⟨bsX, hbsX, hcountX⟩ := exists_pairs (show xs.length % 2 = 0 by omega)
  obtain ⟨bsY, hbsY, hcountY⟩ := exists_pairs (show ys.length % 2 = 0 by omega)
  have hrun : Hex.IsRun (dropHexMark s.toList) := by
    rw [hs]
    exact (isRun_header.append hrunX).append hrunY
  have hpairs : Bytes.ofHexPairs? (dropHexMark s.toList) = some (header :: (bsX ++ bsY)) := by
    have hhead : Bytes.ofHexPairs? ['0', '4'] = some [header] := by decide
    rw [hs, List.append_assoc, Bytes.ofHexPairs?_append hhead, Bytes.ofHexPairs?_append hbsX, hbsY]
    rfl
  rw [ofValue_text_of_pairs hrun hpairs, ← Bytes.toNat_of_ofHexPairs? hbsX hrunX.2,
    ← Bytes.toNat_of_ofHexPairs? hbsY hrunY.2]
  exact ofValue_bytes_eq_ok_iff_isKeyAt (by omega) (by omega)

theorem decodePublicKey_recordOf_eq_ok_iff {strict : Bool} {sx sy : String}
    (hrunX : Hex.IsRun sx.toList) (hrunY : Hex.IsRun sy.toList) {key : Value} :
    (decodePublicKey .secp256k1 strict (recordOf sx sy)).outcome = .ok key ↔
      (ofPoint (.point (.int (Hex.positional sx.toList))
        (.int (Hex.positional sy.toList)))).map .publicKey = .ok key := by
  have hmeaning :=
    meaning?_recordOf_of_isHex strict (Hex.isHex_iff.mpr hrunX) (Hex.isHex_iff.mpr hrunY)
  rw [Hex.value_eq_positional hrunX.2, Hex.value_eq_positional hrunY.2] at hmeaning
  rw [decodePublicKey_of_meaning hmeaning, accept_eq_ok_iff]
  rfl

end PublicKey

/-- However the numbers are given, what is built is the key that has them as coordinates.  The
digits of the header start with a zero, but no mark: the next is a four. -/
theorem PublicAttempt.eq_ok_iff {x y : Int} {outcome : Except Fault Value}
    (h : PublicAttempt x y outcome) {key : Value} :
    outcome = .ok key ↔ ∃ k, PublicKey.IsKeyAt x y k ∧ key = .publicKey k := by
  cases h with
  | point vx vy hx hy =>
      exact Outcome.map_eq_ok_iff_of_iff fun k => PublicKey.ofPoint_eq_ok_iff_isKeyAt hx hy
  | decoded strict sx sy hrunX hx hrunY hy =>
      subst hx hy
      rw [PublicKey.decodePublicKey_recordOf_eq_ok_iff hrunX hrunY]
      exact Outcome.map_eq_ok_iff_of_iff fun k =>
        PublicKey.ofPoint_eq_ok_iff_isKeyAt rfl rfl
  | bytes xs ys hlengthX hx hlengthY hy =>
      subst hx hy
      exact Outcome.map_eq_ok_iff_of_iff fun k =>
        PublicKey.ofValue_bytes_eq_ok_iff_isKeyAt hlengthX hlengthY
  | digits s xs ys hs hrunX hlengthX hx hrunY hlengthY hy =>
      subst hx hy
      have hdropped : dropHexMark s.toList = ['0', '4'] ++ xs ++ ys := by
        rcases hs with hs | hs
        · rw [hs]
          rfl
        · rw [hs]
          rfl
      exact Outcome.map_eq_ok_iff_of_iff fun k =>
        PublicKey.ofValue_text_eq_ok_iff_isKeyAt hdropped hrunX hrunY hlengthX hlengthY

/-! ### What the key shows -/

/-- What the public key of two numbers shows: the numbers, their 32 bytes behind the header, and the
130 digits of these, which are the encoder's texts filled up with zeros. -/
structure ShowsPublic (x y : Int) (key : Value) : Prop where
  equal : key.same key = true
  point : key.shownPoint = .ok (.point (.int x) (.int y))
  form : ∃ xs ys, key.uncompressed = .ok (.bytes (4 :: (xs ++ ys))) ∧
    xs.length = 32 ∧ (Bytes.toNat xs : Int) = x ∧ ys.length = 32 ∧ (Bytes.toNat ys : Int) = y
  hex : ∃ sx sy digits, encodePublicKey .secp256k1 key = .ok (recordOf sx sy) ∧
    key.uncompressedHex = .ok (.text (String.ofList digits)) ∧ digits.length = 130 ∧
    digits = ['0', '4'] ++ Hex.padLeft 64 sx.toList ++ Hex.padLeft 64 sy.toList

theorem PublicKey.hex_eq_padLeft (k : PublicKey) :
    k.hex = ['0', '4'] ++ Hex.padLeft 64 (Hex.ofNat k.point.x.val) ++
      Hex.padLeft 64 (Hex.ofNat k.point.y.val) := by
  have hdigits : ∀ c : Curve.Coordinate,
      Bytes.toHex (Bytes.ofNat 32 c.val) = Hex.padLeft 64 (Hex.ofNat c.val) :=
    fun c => Bytes.toHex_ofNat (by decide) (Nat.lt_trans c.isLt Curve.prime_lt_width)
  have hheader : Bytes.hexPair header = ['0', '4'] := by decide
  rw [hex, bytes, layout, Bytes.toHex_cons, Bytes.toHex_append, hheader, hdigits, hdigits,
    List.append_assoc]

theorem PublicKey.encode_eq (k : PublicKey) :
    encodePublicKey .secp256k1 (.publicKey k) =
      .ok (recordOf (String.ofList (Hex.ofNat k.point.x.val))
        (String.ofList (Hex.ofNat k.point.y.val))) :=
  encodePublicKey_of_toPoint rfl rfl

theorem PublicKey.shows (k : PublicKey) :
    ShowsPublic k.point.x.val k.point.y.val (.publicKey k) where
  equal := by simp [Value.same]
  point := rfl
  form := by
    refine ⟨Bytes.ofNat 32 k.point.x.val, Bytes.ofNat 32 k.point.y.val, rfl,
      Bytes.length_ofNat _ _, ?_, Bytes.length_ofNat _ _, ?_⟩
    · rw [Curve.Coordinate.toNat_bytes]
    · rw [Curve.Coordinate.toNat_bytes]
  hex := by
    refine ⟨_, _, k.hex, k.encode_eq, rfl, ?_, ?_⟩
    · rw [hex, Bytes.length_toHex, bytes, length_layout, width]
    · rw [String.toList_ofList, String.toList_ofList, hex_eq_padLeft]

/-! ### What is rejected -/

def firstOutside (x y : Int) : Value :=
  if 0 ≤ x ∧ x < Curve.prime then
    if 0 ≤ y ∧ y < Curve.prime then .null else .text "y"
  else .text "x"

namespace PublicKey

theorem isCoordinate_iff_of_integer {v : Value} {i : Int} (hv : v.integer? = some i) :
    isCoordinate v = true ↔ 0 ≤ i ∧ i < Curve.prime := by
  simp [isCoordinate, hv]

theorem ofPoint_eq_error {vx vy : Value} {x y : Int} (hx : vx.integer? = some x)
    (hy : vy.integer? = some y) {f : Fault} (h : ofPoint (.point vx vy) = .error f) :
    ∃ message cause, f = .codec .keyConstruction
      { message := .text message, data := .point vx vy, field := firstOutside x y } cause := by
  have hpair : unpackPair (.point vx vy) = .ok (vx, vy) := rfl
  have hxIn := isCoordinate_iff_of_integer hx
  have hyIn := isCoordinate_iff_of_integer hy
  rw [ofPoint, hpair, Outcome.bind_ok] at h
  obtain ⟨r, hr, rfl⟩ := unfit_of_ofCoordinates h
  cases hr with
  | abscissa hxOut =>
      rw [firstOutside, if_neg (by rw [← hxIn, hxOut]; exact Bool.false_ne_true)]
      exact ⟨_, _, rfl⟩
  | ordinate hxTrue hyOut =>
      rw [firstOutside, if_pos (hxIn.mp hxTrue),
        if_neg (by rw [← hyIn, hyOut]; exact Bool.false_ne_true)]
      exact ⟨_, _, rfl⟩
  | curve hxTrue hyTrue =>
      rw [firstOutside, if_pos (hxIn.mp hxTrue), if_pos (hyIn.mp hyTrue)]
      exact ⟨_, _, rfl⟩

end PublicKey

/-! ### All ways -/

/-- All ways to give two numbers to the constructors and the decoder of public keys agree.  They
accept the points of the curve and nothing else, and build one key, which shows its point.  Rejected
integers are handed back with the name of the first that lies outside the field.  Every public key
is that of a point, and every secret key has a public one. -/
theorem public_attempts_agree :
    (∀ (x y : Int) (outcome : Except Fault Value), PublicAttempt x y outcome →
      ((∃ key, outcome = .ok key) ↔ Curve.IsPoint x y)) ∧
    (∀ x y : Int, Curve.IsPoint x y → ∃ key, ShowsPublic x y key ∧
      ∀ outcome, PublicAttempt x y outcome → outcome = .ok key) ∧
    (∀ (x y : Int) (vx vy : Value), vx.integer? = some x → vy.integer? = some y →
      ∀ f, PublicKey.ofPoint (.point vx vy) = .error f →
        ∃ message cause, f = .codec .keyConstruction
          { message := .text message, data := .point vx vy, field := firstOutside x y } cause) ∧
    (∀ k : PublicKey, ∃ x y, Curve.IsPoint x y ∧ ShowsPublic x y (.publicKey k)) ∧
    (∀ k : SecretKey, ∃ key x y, (Value.secretKey k).publicPartner = .ok key ∧
      Curve.IsPoint x y ∧ ShowsPublic x y key) := by
  refine ⟨?_, ?_, fun x y vx vy hx hy f => PublicKey.ofPoint_eq_error hx hy, ?_, ?_⟩
  · intro x y outcome hattempt
    rw [← PublicKey.exists_isKeyAt_iff]
    constructor
    · rintro ⟨key, hkey⟩
      obtain ⟨k, hk, -⟩ := hattempt.eq_ok_iff.mp hkey
      exact ⟨k, hk⟩
    · rintro ⟨k, hk⟩
      exact ⟨.publicKey k, hattempt.eq_ok_iff.mpr ⟨k, hk, rfl⟩⟩
  · intro x y hpoint
    obtain ⟨k, hk⟩ := PublicKey.exists_isKeyAt_iff.mpr hpoint
    obtain ⟨rfl, rfl⟩ := id hk
    refine ⟨.publicKey k, k.shows, ?_⟩
    intro outcome hattempt
    apply hattempt.eq_ok_iff.mpr
    exact ⟨k, hk, rfl⟩
  · intro k
    exact ⟨_, _, k.isPoint, k.shows⟩
  · intro k
    obtain ⟨l, hl⟩ := k.exists_publicKey
    refine ⟨.publicKey l, _, _, ?_, l.isPoint, l.shows⟩
    rw [Value.publicPartner, hl, Outcome.map_ok]

/-- The marked form of the base point in capital letters and its record with a zero in front give
the same key; a coordinate that is too large by the prime gives none, and is named. -/
theorem public_attempts_agree_of_base :
    (∃ key, ShowsPublic Curve.baseX.val Curve.baseY.val key ∧
      (PublicKey.ofValue (.text (String.ofList (['0', 'x', '0', '4'] ++
        "79BE667EF9DCBBAC55A06295CE870B07029BFCDB2DCE28D959F2815B16F81798".toList ++
        "483ADA7726A3C4655DA4FBFC0E1108A8FD17B448A68554199C47D08FFB10D4B8".toList)))).map
          .publicKey = .ok key ∧
      (decodePublicKey .secp256k1 true (recordOf
        "079be667ef9dcbbac55a06295ce870b07029bfcdb2dce28d959f2815b16f81798"
        "483ada7726a3c4655da4fbfc0e1108a8fd17b448a68554199c47d08ffb10d4b8")).outcome =
          .ok key) ∧
    (¬ ∃ key, (PublicKey.ofPoint (.point (.int (Curve.baseX.val + Curve.prime))
      (.int Curve.baseY.val))).map Value.publicKey = .ok key) ∧
    ∀ f, PublicKey.ofPoint (.point (.int 1) (.int (-1))) = .error f →
      ∃ message cause, f = .codec .keyConstruction
        { message := .text message, data := .point (.int 1) (.int (-1)), field := .text "y" }
        cause := by
  obtain ⟨haccepted, hkey, hfault, -, -⟩ := public_attempts_agree
  have hrun : ∀ {digits : List Char}, Hex.isHex digits = true → Hex.IsRun digits :=
    Hex.isHex_iff.mp
  have hvalue : ∀ {digits : List Char} {n : Nat}, Hex.isHex digits = true →
      Hex.value digits = n → (Hex.positional digits : Int) = n := by
    intro digits n hdigits hn
    rw [← Hex.value_eq_positional (hrun hdigits).2, hn]
  refine ⟨?_, ?_, fun f => hfault 1 (-1) (.int 1) (.int (-1)) rfl rfl f⟩
  · obtain ⟨key, hshows, hall⟩ := hkey Curve.baseX.val Curve.baseY.val (by decide)
    refine ⟨key, hshows, hall _ ?_, hall _ ?_⟩
    · exact .digits _ _ _ (Or.inr String.toList_ofList)
        (hrun (by decide)) (by decide) (hvalue (by decide) (by decide))
        (hrun (by decide)) (by decide) (hvalue (by decide) (by decide))
    · exact .decoded _ _ _ (hrun (by decide)) (hvalue (by decide) (by decide))
        (hrun (by decide)) (hvalue (by decide) (by decide))
  · rw [haccepted (Curve.baseX.val + Curve.prime) Curve.baseY.val _ (.point _ _ rfl rfl)]
    decide

end KeyCodec
