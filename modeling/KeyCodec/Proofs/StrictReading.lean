import KeyCodec.Proofs.CurveEquation
import KeyCodec.Proofs.KeyForms
import KeyCodec.Proofs.PublicReading

/-!
# A missing coordinate is never accepted on the curve

A lenient reader takes zero for an axis that does not occur and leaves the rest to the core.  The
core of the curve refuses every point with a zero coordinate, since no point of the curve lies on an
axis.  So the reader that insists on both axes accepts the same records and reads the same keys.
-/

namespace KeyCodec

open Record

/-- A record that a strict reader finds in order is in order for a lenient one. -/
theorem meaning?_lenient {record point : Value} (h : meaning? true record = some point) :
    meaning? false record = some point := by
  obtain ⟨items, hitems, ⟨hfields, -⟩, hpoint⟩ := meaning?_eq_some_iff.mp h
  have horder : InOrder false items := ⟨hfields, fun hstrict => by cases hstrict⟩
  exact meaning?_eq_some_iff.mpr ⟨items, hitems, horder, hpoint⟩

/-- The core of the curve has keys only for points with two coordinates other than zero. -/
theorem last?_ne_zero_of_key {items : List Value} {key : Value}
    (h : Core.secp256k1.ofPoint (pointOf items) = .ok key) (axis : Axis) :
    (last? axis items).getD 0 ≠ 0 := by
  obtain ⟨k, hk, -⟩ := Outcome.map_eq_ok_iff.mp h
  obtain ⟨hx, hy⟩ := PublicKey.ofPoint_point_eq_ok_iff.mp hk
  simp only [Value.integer?, Option.some.injEq, Int.natCast_inj] at hx hy
  cases axis with
  | x =>
      rw [hx]
      exact k.point.onCurve.abscissa_ne_zero
  | y =>
      rw [hy]
      exact k.point.onCurve.ordinate_ne_zero

/-- A coordinate other than zero has been given. -/
theorem occurs_of_last?_ne_zero {axis : Axis} {items : List Value}
    (h : (last? axis items).getD 0 ≠ 0) : Occurs axis items := by
  rw [occurs_iff]
  cases hlast : last? axis items with
  | none => exact absurd (by rw [hlast]; rfl) h
  | some n => rfl

/-- When the core of the curve has a key for the point of a record, no axis is missing. -/
theorem meaning?_strict_of_key {record point key : Value}
    (h : meaning? false record = some point) (hkey : Core.secp256k1.ofPoint point = .ok key) :
    meaning? true record = some point := by
  obtain ⟨items, hitems, ⟨hfields, -⟩, rfl⟩ := meaning?_eq_some_iff.mp h
  have hoccurs : ∀ axis, Occurs axis items :=
    fun axis => occurs_of_last?_ne_zero (last?_ne_zero_of_key hkey axis)
  exact meaning?_eq_some_iff.mpr
    ⟨items, hitems, ⟨hfields, fun _ => ⟨hoccurs .x, hoccurs .y⟩⟩, rfl⟩

/-- On the curve, the lenient and the strict reader accept the same records and read the same keys;
no record is accepted in which a coordinate is missing or zero. -/
theorem lenient_accepts_iff_strict_accepts :
    (∀ record key : Value, (decodePublicKey .secp256k1 false record).outcome = .ok key ↔
      (decodePublicKey .secp256k1 true record).outcome = .ok key) ∧
    (∀ (strict : Bool) (record : Value) (items : List Value) (axis : Axis),
      items? record = some items → ¬ Occurs axis items ∨ last? axis items = some 0 →
      ∀ key, (decodePublicKey .secp256k1 strict record).outcome ≠ .ok key) := by
  constructor
  · intro record key
    simp only [decodePublicKey_eq_ok_iff]
    constructor
    · rintro ⟨point, hmeaning, hkey⟩
      exact ⟨point, meaning?_strict_of_key hmeaning hkey, hkey⟩
    · rintro ⟨point, hmeaning, hkey⟩
      exact ⟨point, meaning?_lenient hmeaning, hkey⟩
  · intro strict record items axis hitems hzero key haccepted
    obtain ⟨point, hmeaning, hkey⟩ := decodePublicKey_eq_ok_iff.mp haccepted
    obtain ⟨found, hfound, -, rfl⟩ := meaning?_eq_some_iff.mp hmeaning
    obtain rfl : items = found := Option.some.inj (hitems.symm.trans hfound.items?_eq)
    have hne := last?_ne_zero_of_key hkey axis
    rcases hzero with hmissing | hlast
    · exact hmissing (occurs_of_last?_ne_zero hne)
    · exact hne (by rw [hlast]; rfl)

/-- The base point is accepted without insisting on both axes as well, and a record that gives only
a `y` is not accepted. -/
theorem lenient_accepts_iff_strict_accepts_of_records :
    (decodePublicKey .secp256k1 false
        (recordOf (String.ofList (Hex.ofNat Curve.baseX.val))
          (String.ofList (Hex.ofNat Curve.baseY.val)))).outcome =
      .ok (.publicKey ⟨Curve.baseX, Curve.baseY, Curve.onCurve_base⟩) ∧
    ∀ key, (decodePublicKey .secp256k1 false
        (.list [.tuple [.text "y", .text "5"]])).outcome ≠ .ok key := by
  constructor
  · have hkey : PublicKey.ofPoint (.point (.int Curve.baseX.val) (.int Curve.baseY.val)) =
        .ok ⟨Curve.baseX, Curve.baseY, Curve.onCurve_base⟩ :=
      PublicKey.ofPoint_point_eq_ok_iff.mpr ⟨rfl, rfl⟩
    apply (lenient_accepts_iff_strict_accepts.1 _ _).mpr
    exact decodePublicKey_eq_ok_iff.mpr
      ⟨_, meaning?_recordOf true _ _, Outcome.map_eq_ok_iff.mpr ⟨_, hkey, rfl⟩⟩
  · exact lenient_accepts_iff_strict_accepts.2 false _ _ .x rfl (Or.inl (by decide))

end KeyCodec
