import KeyCodec.Core
import KeyCodec.Proofs.FixedWidth
import KeyCodec.Proofs.Outcome

/-!
# Keys from their forms

What the key constructors accept, as equivalences: bytes are a secret key exactly when there are 32
of them and they spell its scalar, an integer is one exactly when it is the scalar, and a pair is a
public key exactly when it holds the coordinates.  Numbers in range fit into 32 bytes, so nothing is
lost on the way through bytes.
-/

namespace KeyCodec

namespace Curve

theorem order_lt_width : order < 256 ^ 32 := by decide

theorem prime_lt_width : prime < 256 ^ 32 := by decide

theorem Scalar.ofNat?_eq_some_iff {n : Nat} {k : Scalar} :
    Scalar.ofNat? n = some k ↔ n = k.val := by
  unfold Scalar.ofNat?
  split
  · next h =>
    simp only [Option.some.injEq]
    constructor
    · rintro rfl
      rfl
    · rintro rfl
      rfl
  · next h =>
    simp only [reduceCtorEq, false_iff]
    rintro rfl
    exact h ⟨k.pos, k.lt⟩

theorem Coordinate.ofNat?_eq_some_iff {n : Nat} {c : Coordinate} :
    Coordinate.ofNat? n = some c ↔ n = c.val := by
  unfold Coordinate.ofNat?
  split
  · next h => simp [Fin.ext_iff]
  · next h =>
    simp only [reduceCtorEq, false_iff]
    rintro rfl
    exact h c.isLt

theorem Affine.ofCoordinates?_eq_some_iff {x y : Coordinate} {p : Affine} :
    Affine.ofCoordinates? x y = some p ↔ x = p.x ∧ y = p.y := by
  unfold Affine.ofCoordinates?
  split
  · next h =>
    simp only [Option.some.injEq]
    constructor
    · rintro rfl
      exact ⟨rfl, rfl⟩
    · rintro ⟨rfl, rfl⟩
      rfl
  · next h =>
    simp only [reduceCtorEq, false_iff]
    rintro ⟨rfl, rfl⟩
    exact h p.onCurve

theorem Affine.ofNat?_eq_some_iff {x y : Nat} {p : Affine} :
    Affine.ofNat? x y = some p ↔ x = p.x.val ∧ y = p.y.val := by
  simp only [Affine.ofNat?, Option.bind_eq_bind, Option.bind_eq_some_iff,
    Coordinate.ofNat?_eq_some_iff, Affine.ofCoordinates?_eq_some_iff]
  constructor
  · rintro ⟨cx, rfl, cy, rfl, rfl, rfl⟩
    exact ⟨rfl, rfl⟩
  · rintro ⟨rfl, rfl⟩
    exact ⟨p.x, rfl, p.y, rfl, rfl, rfl⟩

theorem Coordinate.toNat_bytes (c : Coordinate) : Bytes.toNat (Bytes.ofNat 32 c.val) = c.val :=
  Bytes.toNat_ofNat_of_lt (Nat.lt_trans c.isLt prime_lt_width)

end Curve

namespace SecretKey

theorem number_eq_val (k : SecretKey) : k.number = k.scalar.val :=
  Bytes.toNat_ofNat_of_lt (Nat.lt_trans k.scalar.lt Curve.order_lt_width)

theorem scalarOf_eq_ok_iff {bs : List UInt8} {k : Curve.Scalar} :
    scalarOf bs = .ok k ↔ Bytes.toNat bs = k.val := by
  have hpos := k.pos
  simp only [scalarOf]
  split
  · next hzero =>
    simp only [reduceCtorEq, false_iff]
    omega
  · rw [← Curve.Scalar.ofNat?_eq_some_iff]
    cases Curve.Scalar.ofNat? (Bytes.toNat bs) <;> simp

theorem check_bytes_eq_ok_iff {bs : List UInt8} {holder : Value} {k : Curve.Scalar} :
    check (.bytes bs) = .ok (holder, k) ↔
      bs.length = width ∧ holder = .bytes bs ∧ Bytes.toNat bs = k.val := by
  have hoctets : Value.octets (.bytes bs) = .ok bs := rfl
  by_cases hlength : bs.length = width
  · simp only [check, spelledBytes, checkLength, Value.length?, hlength, if_true, hoctets,
      Outcome.bind_ok, Outcome.bind_eq_ok_iff, Outcome.mapError_eq_ok_iff, scalarOf_eq_ok_iff]
    constructor
    · rintro ⟨l, hl, heq⟩
      cases heq
      exact ⟨trivial, rfl, hl⟩
    · rintro ⟨_, rfl, hk⟩
      exact ⟨k, hk, rfl⟩
  · simp [check, spelledBytes, checkLength, Value.length?, hlength]

/-- Bytes are a secret key when there are 32 of them and they spell its scalar. -/
theorem ofValue_bytes_eq_ok_iff {bs : List UInt8} {k : SecretKey} :
    ofValue (.bytes bs) = .ok k ↔
      bs.length = width ∧ Bytes.toNat bs = k.scalar.val ∧ k.isSealed = true := by
  simp only [ofValue, Outcome.bind_eq_ok_iff, Prod.exists, check_bytes_eq_ok_iff]
  constructor
  · rintro ⟨holder, l, ⟨hlength, rfl, hl⟩, hk⟩
    cases hk
    exact ⟨hlength, hl, rfl⟩
  · obtain ⟨l, isSealed⟩ := k
    rintro ⟨hlength, hl, rfl⟩
    exact ⟨.bytes bs, l, ⟨hlength, rfl, hl⟩, rfl⟩

theorem isScalar_iff {v : Value} :
    isScalar v = true ↔ ∃ k : Curve.Scalar, v.integer? = some (k.val : Int) := by
  unfold isScalar
  cases hv : v.integer? with
  | none => simp
  | some i =>
      simp only [Bool.and_eq_true, decide_eq_true_eq, Option.some.injEq]
      constructor
      · rintro ⟨hpos, hlt⟩
        exact ⟨⟨i.toNat, by omega, by omega⟩, by simp; omega⟩
      · rintro ⟨k, rfl⟩
        have hpos := k.pos
        have hlt := k.lt
        omega

theorem intToBytes_scalar {v : Value} {k : Curve.Scalar} (hv : v.integer? = some (k.val : Int)) :
    v.intToBytes (.int width) = .ok (.bytes (Bytes.ofNat width k.val)) := by
  have hroom : Value.HasRoom Value.memoryBound width := ⟨by decide, by decide⟩
  have hfits : k.val < 256 ^ width := Nat.lt_trans k.lt Curve.order_lt_width
  exact Value.intToBytesWithin_of_lt hv rfl hroom rfl hfits

/-- An integer is a secret key when it is its scalar. -/
theorem ofInteger_eq_ok_iff {v : Value} {k : SecretKey} :
    ofInteger v = .ok k ↔ v.integer? = some (k.scalar.val : Int) ∧ k.isSealed = true := by
  by_cases hscalar : isScalar v = true
  · obtain ⟨l, hl⟩ := isScalar_iff.mp hscalar
    have hread : Bytes.toNat (Bytes.ofNat width l.val) = l.val :=
      Bytes.toNat_ofNat_of_lt (Nat.lt_trans l.lt Curve.order_lt_width)
    simp only [ofInteger, hscalar, if_true, intToBytes_scalar hl, Outcome.bind_ok,
      ofValue_bytes_eq_ok_iff, Bytes.length_ofNat, hread, hl, Option.some.injEq, Int.natCast_inj,
      true_and]
  · have hnone : v.integer? ≠ some (k.scalar.val : Int) :=
      fun h => hscalar (isScalar_iff.mpr ⟨k.scalar, h⟩)
    simp [ofInteger, hscalar, hnone]

end SecretKey

namespace PublicKey

@[simp] theorem length_layout (x y : Curve.Coordinate) : (layout x y).length = width := by
  simp [layout, width]

/-- Bytes of the right layout are the key whose coordinates they spell. -/
theorem ofBytes?_eq_some_iff {xs ys : List UInt8} (hxs : xs.length = 32) (hys : ys.length = 32)
    {k : PublicKey} :
    ofBytes? (header :: (xs ++ ys)) = some k ↔
      Bytes.toNat xs = k.point.x.val ∧ Bytes.toNat ys = k.point.y.val := by
  have hlength : (header :: (xs ++ ys)).length = width := by
    rw [List.length_cons, List.length_append, hxs, hys, width]
  have htake : (xs ++ ys).take 32 = xs := List.take_left' hxs
  have hdrop : (xs ++ ys).drop 32 = ys := List.drop_left' hxs
  simp only [ofBytes?, hlength, List.head?_cons, and_self, if_true, List.drop_one, List.tail_cons,
    htake, hdrop, Option.map_eq_some_iff, Curve.Affine.ofNat?_eq_some_iff]
  constructor
  · rintro ⟨p, hp, rfl⟩
    exact hp
  · intro hk
    exact ⟨k.point, hk, rfl⟩

theorem validate_bytes {bs : List UInt8} (h : (header :: bs).length = width) :
    validate (.bytes (header :: bs)) = .ok (.bytes (header :: bs)) := by
  have hlength : checkLength .publicKey width (.bytes (header :: bs)) = .ok () := by
    rw [checkLength, Value.length?, h]
    exact if_pos rfl
  have hfirst : firstItem (.bytes (header :: bs)) = .ok (.int header.toNat) := rfl
  have hheader : (Value.int header.toNat).same (.int header.toNat) = true := by decide
  simp [validate, spelledBytes, hlength, hfirst, hheader]

theorem ofValue_bytes_eq_ok_iff {xs ys : List UInt8} (hxs : xs.length = 32) (hys : ys.length = 32)
    {k : PublicKey} :
    ofValue (.bytes (header :: (xs ++ ys))) = .ok k ↔
      Bytes.toNat xs = k.point.x.val ∧ Bytes.toNat ys = k.point.y.val := by
  have hlength : (header :: (xs ++ ys)).length = width := by
    rw [List.length_cons, List.length_append, hxs, hys, width]
  rw [← ofBytes?_eq_some_iff hxs hys]
  simp only [ofValue, validate_bytes hlength, Outcome.bind_ok]
  cases ofBytes? (header :: (xs ++ ys)) <;> simp

theorem ofBytes?_layout_eq_some_iff {x y : Curve.Coordinate} {k : PublicKey} :
    ofBytes? (layout x y) = some k ↔ x = k.point.x ∧ y = k.point.y := by
  rw [layout, ofBytes?_eq_some_iff (Bytes.length_ofNat _ _) (Bytes.length_ofNat _ _),
    x.toNat_bytes, y.toNat_bytes, Fin.ext_iff, Fin.ext_iff]

/-- The uncompressed form of two coordinates is the public key that has them. -/
theorem ofValue_layout_eq_ok_iff {x y : Curve.Coordinate} {k : PublicKey} :
    ofValue (.bytes (layout x y)) = .ok k ↔ x = k.point.x ∧ y = k.point.y := by
  rw [layout, ofValue_bytes_eq_ok_iff (Bytes.length_ofNat _ _) (Bytes.length_ofNat _ _),
    x.toNat_bytes, y.toNat_bytes, Fin.ext_iff, Fin.ext_iff]

theorem ofValue_bytes (k : PublicKey) : ofValue (.bytes k.bytes) = .ok k :=
  ofValue_layout_eq_ok_iff.mpr ⟨rfl, rfl⟩

theorem coordinate_eq_ok_iff {axis : Axis} {point v : Value} {c : Curve.Coordinate} :
    coordinate axis point v = .ok c ↔ v.integer? = some (c.val : Int) := by
  unfold coordinate
  cases hv : v.integer? with
  | none => simp
  | some i =>
      by_cases hneg : i < 0
      · simp only [hneg, if_true, reduceCtorEq, Option.some.injEq, false_iff]
        omega
      · have hcast : i = c.val ↔ i.toNat = c.val := by omega
        simp only [hneg, if_false, Option.some.injEq, hcast]
        rw [← Curve.Coordinate.ofNat?_eq_some_iff]
        cases Curve.Coordinate.ofNat? i.toNat <;> simp

/-- Two values are a public key when they are its coordinates. -/
theorem ofCoordinates_eq_ok_iff {point x y : Value} {k : PublicKey} :
    ofCoordinates point x y = .ok k ↔
      x.integer? = some (k.point.x.val : Int) ∧ y.integer? = some (k.point.y.val : Int) := by
  simp only [ofCoordinates, Outcome.bind_eq_ok_iff, Outcome.mapError_eq_ok_iff,
    coordinate_eq_ok_iff]
  constructor
  · rintro ⟨cx, hx, cy, hy, hk⟩
    cases hp : ofBytes? (layout cx cy) with
    | none => simp [hp] at hk
    | some l =>
        simp only [hp, ofValue_bytes, Except.ok.injEq] at hk
        obtain ⟨rfl, rfl⟩ := ofBytes?_layout_eq_some_iff.mp hp
        rw [← hk]
        exact ⟨hx, hy⟩
  · rintro ⟨hx, hy⟩
    have hp : ofBytes? (layout k.point.x k.point.y) = some k :=
      ofBytes?_layout_eq_some_iff.mpr ⟨rfl, rfl⟩
    exact ⟨k.point.x, hx, k.point.y, hy, by simp [hp, ofValue_bytes]⟩

/-- A pair is a public key when its items are the coordinates of the key. -/
theorem ofPoint_point_eq_ok_iff {x y : Value} {k : PublicKey} :
    ofPoint (.point x y) = .ok k ↔
      x.integer? = some (k.point.x.val : Int) ∧ y.integer? = some (k.point.y.val : Int) := by
  have hpair : unpackPair (.point x y) = .ok (x, y) := rfl
  simp only [ofPoint, hpair, Outcome.bind_ok, ofCoordinates_eq_ok_iff]

theorem isCoordinate_iff {v : Value} :
    isCoordinate v = true ↔ ∃ c : Curve.Coordinate, v.integer? = some (c.val : Int) := by
  unfold isCoordinate
  cases hv : v.integer? with
  | none => simp
  | some i =>
      simp only [Bool.and_eq_true, decide_eq_true_eq, Option.some.injEq]
      constructor
      · rintro ⟨hpos, hlt⟩
        exact ⟨⟨i.toNat, by omega⟩, by simp; omega⟩
      · rintro ⟨c, rfl⟩
        have hlt := c.isLt
        omega

theorem coordinate_eq_error_iff {axis : Axis} {point v : Value} {r : Refusal} :
    coordinate axis point v = .error r ↔
      isCoordinate v = false ∧ r = .coordinate axis point := by
  rw [← Bool.not_eq_true, isCoordinate_iff]
  cases hread : coordinate axis point v with
  | ok c =>
      have hc : ∃ c : Curve.Coordinate, v.integer? = some (c.val : Int) :=
        ⟨c, coordinate_eq_ok_iff.mp hread⟩
      simp [hc]
  | error s =>
      have hc : ¬ ∃ c : Curve.Coordinate, v.integer? = some (c.val : Int) := by
        rintro ⟨c, hc⟩
        rw [coordinate_eq_ok_iff.mpr hc] at hread
        cases hread
      have hs : s = .coordinate axis point := by
        unfold coordinate at hread
        split at hread
        · split at hread
          · exact (Except.error.inj hread).symm
          · split at hread
            · cases hread
            · exact (Except.error.inj hread).symm
        · exact (Except.error.inj hread).symm
      rw [hs, Except.error.injEq, eq_comm (a := Refusal.coordinate axis point)]
      exact (and_iff_right hc).symm

/-- Why two values are no public key: the first that is no coordinate, or else the curve. -/
inductive Unfit (point x y : Value) : Refusal → Prop
  | abscissa (hx : isCoordinate x = false) : Unfit point x y (.coordinate .x point)
  | ordinate (hx : isCoordinate x = true) (hy : isCoordinate y = false) :
      Unfit point x y (.coordinate .y point)
  | curve (hx : isCoordinate x = true) (hy : isCoordinate y = true) :
      Unfit point x y (.offCurve point)

theorem unfit_of_ofCoordinates {point x y : Value} {f : Fault}
    (h : ofCoordinates point x y = .error f) : ∃ r, Unfit point x y r ∧ f = r.fault := by
  unfold ofCoordinates at h
  cases hx : coordinate .x point x with
  | error r =>
      obtain ⟨hxOut, rfl⟩ := coordinate_eq_error_iff.mp hx
      simp only [hx, Outcome.mapError_error, Outcome.bind_error, Except.error.injEq] at h
      exact ⟨_, .abscissa hxOut, h.symm⟩
  | ok cx =>
      have hxIn := isCoordinate_iff.mpr ⟨cx, coordinate_eq_ok_iff.mp hx⟩
      cases hy : coordinate .y point y with
      | error r =>
          obtain ⟨hyOut, rfl⟩ := coordinate_eq_error_iff.mp hy
          simp only [hx, hy, Outcome.mapError_ok, Outcome.mapError_error, Outcome.bind_ok,
            Outcome.bind_error, Except.error.injEq] at h
          exact ⟨_, .ordinate hxIn hyOut, h.symm⟩
      | ok cy =>
          have hyIn := isCoordinate_iff.mpr ⟨cy, coordinate_eq_ok_iff.mp hy⟩
          simp only [hx, hy, Outcome.mapError_ok, Outcome.bind_ok] at h
          split at h
          · rw [ofValue_bytes] at h
            cases h
          · exact ⟨_, .curve hxIn hyIn, (Except.error.inj h).symm⟩

end PublicKey

end KeyCodec
