import KeyCodec.Proofs.CurveEquation
import KeyCodec.Proofs.KeyForms
import KeyCodec.Proofs.OrderPrime
import Mathlib.AlgebraicGeometry.EllipticCurve.Affine.Point
import Mathlib.GroupTheory.OrderOfElement
import Mathlib.Tactic.LinearCombination

/-!
# Multiples of the base point lie on the curve

A point with a denominator stands for an element of the group of the curve.  Doubling it and adding
the base point keep to the group, so the multiple by `k` stands for `k` times the base point.  The
group order is prime and annihilates the base point, so no scalar leads to the neutral element, and
what is left after the division are the coordinates of a point.  So every secret key has a public
key.
-/

namespace KeyCodec
namespace Curve

open WeierstrassCurve.Affine

/-! ### Coordinates as elements of the field -/

namespace Coordinate

def toField (c : Coordinate) : ZMod prime := (c.val : ZMod prime)

theorem toField_injective : Function.Injective toField := by
  intro a b h
  have hmod := (ZMod.natCast_eq_natCast_iff' _ _ _).mp h
  rw [Nat.mod_eq_of_lt a.isLt, Nat.mod_eq_of_lt b.isLt] at hmod
  exact Fin.ext hmod

@[simp] theorem toField_add (a b : Coordinate) : (a + b).toField = a.toField + b.toField := by
  simp only [toField, Fin.val_add, ZMod.natCast_mod, Nat.cast_add]

@[simp] theorem toField_mul (a b : Coordinate) : (a * b).toField = a.toField * b.toField := by
  simp only [toField, Fin.val_mul, ZMod.natCast_mod, Nat.cast_mul]

@[simp] theorem toField_sub (a b : Coordinate) : (a - b).toField = a.toField - b.toField := by
  simp only [toField, Fin.sub_def, ZMod.natCast_mod, Nat.cast_add,
    Nat.cast_sub b.isLt.le, ZMod.natCast_self]
  ring

@[simp] theorem toField_zero : (0 : Coordinate).toField = 0 := Nat.cast_zero

@[simp] theorem toField_one : (1 : Coordinate).toField = 1 := by
  have h : (1 : Coordinate).val = 1 := by decide
  rw [toField, h, Nat.cast_one]

@[simp] theorem toField_ofNat (n : Nat) [n.AtLeastTwo] :
    (no_index (OfNat.ofNat n : Coordinate)).toField = (OfNat.ofNat n : ZMod prime) := by
  have h : (OfNat.ofNat n : Coordinate).val = n % prime := rfl
  rw [toField, h, ZMod.natCast_mod]
  rfl

theorem toField_eq_zero_iff {c : Coordinate} : c.toField = 0 ↔ c = 0 := by
  rw [← toField_zero, toField_injective.eq_iff]

end Coordinate

/-- The curve equation of the program is that of the field. -/
theorem onCurve_iff_equation {x y : Coordinate} :
    OnCurve x y ↔ y.toField ^ 2 = x.toField ^ 3 + 7 := by
  rw [OnCurve, ← Coordinate.toField_injective.eq_iff, pow_two, pow_three']
  simp only [Coordinate.toField_add, Coordinate.toField_mul, Coordinate.toField_ofNat]

/-! ### The group of the curve -/

def curve : WeierstrassCurve.Affine (ZMod prime) := ⟨0, 0, 0, 0, 7⟩

theorem equation_iff {x y : ZMod prime} : curve.Equation x y ↔ y ^ 2 = x ^ 3 + 7 := by
  simp [WeierstrassCurve.Affine.equation_iff, curve]

theorem negY_eq (x y : ZMod prime) : curve.negY x y = -y := by
  simp [negY, curve]

theorem addX_eq (x₁ x₂ s : ZMod prime) : curve.addX x₁ x₂ s = s ^ 2 - x₁ - x₂ := by
  simp [addX, curve]

theorem addY_eq (x₁ x₂ y₁ s : ZMod prime) :
    curve.addY x₁ x₂ y₁ s = s * (x₁ - (s ^ 2 - x₁ - x₂)) - y₁ := by
  rw [addY, negY_eq, negAddY, addX_eq]
  ring

theorem two_ne_zero_field : (2 : ZMod prime) ≠ 0 := by
  have h : ¬ prime ∣ 2 := by decide
  rwa [← ZMod.natCast_eq_zero_iff, Nat.cast_ofNat] at h

/-- No point of the curve has the ordinate zero, so none is its own opposite. -/
theorem ne_zero_of_equation {x y : ZMod prime} (h : curve.Equation x y) : y ≠ 0 := by
  rintro rfl
  rw [equation_iff] at h
  exact cube_ne_neg_seven x (eq_neg_of_add_eq_zero_left (by simpa using h.symm))

theorem ne_negY_of_equation {x y : ZMod prime} (h : curve.Equation x y) :
    y ≠ curve.negY x y := by
  rw [negY_eq]
  intro heq
  have hdouble : 2 * y = 0 := by linear_combination heq
  exact ne_zero_of_equation h ((mul_eq_zero.mp hdouble).resolve_left two_ne_zero_field)

theorem nonsingular_of_equation {x y : ZMod prime} (h : curve.Equation x y) :
    curve.Nonsingular x y :=
  (WeierstrassCurve.Affine.nonsingular_iff x y).mpr ⟨h, Or.inr (ne_negY_of_equation h)⟩

theorem nonsingular_base : curve.Nonsingular baseX.toField baseY.toField :=
  nonsingular_of_equation (equation_iff.mpr (onCurve_iff_equation.mp onCurve_base))

def base : curve.Point := .some _ _ nonsingular_base

theorem base_ne_zero : base ≠ 0 := Point.some_ne_zero nonsingular_base

theorem slope_tangent {x y : ZMod prime} (h : curve.Equation x y) :
    curve.slope x x y y * (2 * y) = 3 * x ^ 2 := by
  have hy : 2 * y ≠ 0 := mul_ne_zero two_ne_zero_field (ne_zero_of_equation h)
  have htwice : y - -y = 2 * y := by ring
  have hnum : 3 * x ^ 2 + 2 * curve.a₂ * x + curve.a₄ - curve.a₁ * y = 3 * x ^ 2 := by
    simp [curve]
  rw [slope_of_Y_ne rfl (ne_negY_of_equation h), negY_eq, htwice, hnum, div_mul_cancel₀ _ hy]

theorem slope_secant {x₁ x₂ : ZMod prime} (h : x₁ ≠ x₂) (y₁ y₂ : ZMod prime) :
    curve.slope x₁ x₂ y₁ y₂ * (x₁ - x₂) = y₁ - y₂ := by
  rw [slope_of_X_ne h, div_mul_cancel₀ _ (sub_ne_zero.mpr h)]

/-! ### Points with a denominator -/

namespace Weighted

/-- A point with a denominator stands for an element of the group. -/
inductive Represents (a : Weighted) : curve.Point → Prop
  | neutral (hz : a.z.toField = 0) : Represents a 0
  | affine {x y : ZMod prime} (h : curve.Nonsingular x y) (hz : a.z.toField ≠ 0)
      (hx : a.x.toField = x * a.z.toField ^ 2) (hy : a.y.toField = y * a.z.toField ^ 3) :
      Represents a (.some x y h)

theorem represents_base : Represents ⟨baseX, baseY, 1⟩ base := by
  refine .affine nonsingular_base ?_ ?_ ?_
  · simp
  · simp
  · simp

/-- Twice a point stands for twice the element.  The slope of the program is that of the tangent
times the denominator of the double. -/
theorem Represents.double {a : Weighted} {p : curve.Point} (h : a.Represents p) :
    a.double.Represents (p + p) := by
  cases h with
  | neutral hz =>
      rw [add_zero]
      exact .neutral (by simp [Weighted.double, hz])
  | @affine x y h hz hx hy =>
      have hdenominator : a.double.z.toField = 2 * y * a.z.toField ^ 4 := by
        simp only [Weighted.double, Coordinate.toField_mul, Coordinate.toField_ofNat, hy]
        ring
      have htangent : 3 * (a.x.toField * a.x.toField) =
          curve.slope x x y y * a.double.z.toField := by
        rw [hx, hdenominator]
        linear_combination (-a.z.toField ^ 4) * slope_tangent h.1
      rw [Point.add_self_of_Y_ne (ne_negY_of_equation h.1)]
      refine .affine _ ?_ ?_ ?_
      · rw [hdenominator]
        exact mul_ne_zero (mul_ne_zero two_ne_zero_field (ne_zero_of_equation h.1))
          (pow_ne_zero 4 hz)
      · rw [addX_eq]
        simp only [Weighted.double, Coordinate.toField_mul, Coordinate.toField_sub,
          Coordinate.toField_ofNat] at htangent ⊢
        rw [htangent, hx, hy]
        ring
      · rw [addY_eq]
        simp only [Weighted.double, Coordinate.toField_mul, Coordinate.toField_sub,
          Coordinate.toField_ofNat] at htangent ⊢
        rw [htangent, hx, hy]
        ring

/-- The base point is added along the secant, unless the abscissas agree.  The rise is the slope of
the secant times the denominator of the sum. -/
theorem represents_secant {a : Weighted} {x y : ZMod prime} (h : curve.Nonsingular x y)
    (hz : a.z.toField ≠ 0) (hx : a.x.toField = x * a.z.toField ^ 2)
    (hy : a.y.toField = y * a.z.toField ^ 3) (hne : x ≠ baseX.toField) {run rise : Coordinate}
    (hrun : run.toField = (baseX.toField - x) * a.z.toField ^ 2)
    (hrise : rise.toField = (baseY.toField - y) * a.z.toField ^ 3) :
    let s := a.x * (run * run)
    let x₃ := rise * rise - run * (run * run) - 2 * s
    Represents ⟨x₃, rise * (s - x₃) - a.y * (run * (run * run)), a.z * run⟩
      (.some x y h + base) := by
  intro s x₃
  have hnonzero : run.toField ≠ 0 := by
    rw [hrun]
    exact mul_ne_zero (sub_ne_zero.mpr (Ne.symm hne)) (pow_ne_zero 2 hz)
  have hline : rise.toField =
      curve.slope x baseX.toField y baseY.toField * (a.z.toField * run.toField) := by
    rw [hrise, hrun]
    linear_combination a.z.toField ^ 3 * slope_secant hne y baseY.toField
  rw [base, Point.add_of_X_ne hne]
  refine .affine _ ?_ ?_ ?_
  · rw [Coordinate.toField_mul]
    exact mul_ne_zero hz hnonzero
  · rw [addX_eq]
    simp only [s, x₃, Coordinate.toField_sub, Coordinate.toField_mul, Coordinate.toField_ofNat,
      hx, hline]
    linear_combination (-run.toField ^ 2) * hrun
  · rw [addY_eq]
    simp only [s, x₃, Coordinate.toField_sub, Coordinate.toField_mul, Coordinate.toField_ofNat,
      hx, hy, hline]
    linear_combination (curve.slope x baseX.toField y baseY.toField * a.z.toField *
      run.toField ^ 3) * hrun

/-- A point plus the base point stands for the sum.  With the abscissa of the base point, a point is
the base point or its opposite. -/
theorem Represents.addBase {a : Weighted} {p : curve.Point} (h : a.Represents p) :
    a.addBase.Represents (p + base) := by
  cases h with
  | neutral hz =>
      rw [zero_add, Weighted.addBase, if_pos (Coordinate.toField_eq_zero_iff.mp hz)]
      exact represents_base
  | @affine x y h hz hx hy =>
      have hself : a.Represents (.some x y h) := .affine h hz hx hy
      have hnonzero : a.z ≠ 0 := mt Coordinate.toField_eq_zero_iff.mpr hz
      have hrun : (baseX * (a.z * a.z) - a.x).toField =
          (baseX.toField - x) * a.z.toField ^ 2 := by
        simp only [Coordinate.toField_sub, Coordinate.toField_mul, hx]
        ring
      have hrise : (baseY * (a.z * (a.z * a.z)) - a.y).toField =
          (baseY.toField - y) * a.z.toField ^ 3 := by
        simp only [Coordinate.toField_sub, Coordinate.toField_mul, hy]
        ring
      have hrunZero : baseX * (a.z * a.z) - a.x = 0 ↔ x = baseX.toField := by
        rw [← Coordinate.toField_eq_zero_iff, hrun, mul_eq_zero, sub_eq_zero, eq_comm,
          or_iff_left (pow_ne_zero 2 hz)]
      have hriseZero : baseY * (a.z * (a.z * a.z)) - a.y = 0 ↔ y = baseY.toField := by
        rw [← Coordinate.toField_eq_zero_iff, hrise, mul_eq_zero, sub_eq_zero, eq_comm,
          or_iff_left (pow_ne_zero 3 hz)]
      simp only [Weighted.addBase, if_neg hnonzero, hrunZero, hriseZero]
      split
      · next hxBase =>
        split
        · next hyBase =>
          have hbase : base = .some x y h := by
            subst hxBase hyBase
            rfl
          rw [hbase]
          exact hself.double
        · next hyBase =>
          have hopposite := (Y_eq_of_X_eq h.1 nonsingular_base.1 hxBase).resolve_left hyBase
          rw [base, Point.add_of_Y_eq hxBase hopposite]
          exact .neutral Coordinate.toField_zero
      · next hxBase => exact represents_secant h hz hx hy hxBase hrun hrise

/-- The multiple by `k` stands for `k` times the base point.  The induction is on the recursion: a
multiple is made from the multiple by half the number. -/
theorem represents_multiple (k : Nat) : (multiple k).Represents (k • base) := by
  fun_induction multiple k with
  | case1 =>
      rw [zero_nsmul]
      exact .neutral Coordinate.toField_zero
  | case2 k hk twice heven ih =>
      have hsum : k / 2 + k / 2 = k := by omega
      rw [← hsum, add_nsmul]
      exact ih.double
  | case3 k hk twice hodd ih =>
      have hsum : k / 2 + k / 2 + 1 = k := by omega
      rw [← hsum, succ_nsmul, add_nsmul]
      exact ih.double.addBase

end Weighted

/-! ### The division at the end -/

theorem toField_power (a : Coordinate) (e : Nat) : (power a e).toField = a.toField ^ e := by
  fun_induction power a e with
  | case1 a => simp
  | case2 a e he half heven ih =>
      have hsum : e / 2 + e / 2 = e := by omega
      rw [ih, Coordinate.toField_mul, mul_pow, ← pow_add, hsum]
  | case3 a e he half hodd ih =>
      have hsum : e / 2 + e / 2 + 1 = e := by omega
      rw [Coordinate.toField_mul, ih, Coordinate.toField_mul, mul_pow, ← pow_add, ← pow_succ',
        hsum]

theorem toField_inverse {a : Coordinate} (h : a.toField ≠ 0) :
    (inverse a).toField = a.toField⁻¹ := by
  rw [inverse, toField_power]
  apply eq_inv_of_mul_eq_one_left
  rw [← pow_succ]
  exact ZMod.pow_card_sub_one_eq_one h

/-- What is left after the division are the coordinates of a point. -/
theorem Weighted.Represents.onCurve_coordinates {a : Weighted} {p : curve.Point}
    (h : a.Represents p) (hp : p ≠ 0) : OnCurve a.coordinates.1 a.coordinates.2 := by
  cases h with
  | neutral => exact absurd rfl hp
  | @affine x y h hz hx hy =>
      have hinverse := toField_inverse hz
      have hxDivided : a.coordinates.1.toField = x := by
        simp only [Weighted.coordinates, Coordinate.toField_mul, hinverse, hx]
        field_simp
      have hyDivided : a.coordinates.2.toField = y := by
        simp only [Weighted.coordinates, Coordinate.toField_mul, hinverse, hy]
        field_simp
      rw [onCurve_iff_equation, hxDivided, hyDivided]
      exact equation_iff.mp h.1

/-! ### The order of the base point -/

theorem order_nsmul_base : order • base = 0 := by
  have hneutral : (Weighted.multiple order).z = 0 := by decide +kernel
  have hmultiple := Weighted.represents_multiple order
  generalize order • base = p at hmultiple
  cases hmultiple with
  | neutral => rfl
  | affine h hz => exact absurd (Coordinate.toField_eq_zero_iff.mpr hneutral) hz

/-- The order annihilates the base point and is prime, so nothing smaller does. -/
theorem addOrderOf_base : addOrderOf base = order :=
  addOrderOf_eq_prime order_nsmul_base base_ne_zero

theorem Scalar.nsmul_base_ne_zero (k : Scalar) : k.val • base ≠ 0 := by
  apply nsmul_ne_zero_of_lt_addOrderOf k.pos.ne'
  rw [addOrderOf_base]
  exact k.lt

theorem Scalar.onCurve_baseMultiple (k : Scalar) :
    OnCurve k.baseMultiple.1 k.baseMultiple.2 :=
  (Weighted.represents_multiple k.val).onCurve_coordinates k.nsmul_base_ne_zero

end Curve

/-- Every secret key has a public key. -/
theorem SecretKey.exists_publicKey (k : SecretKey) : ∃ l, k.publicKey = .ok l :=
  ⟨⟨⟨_, _, k.scalar.onCurve_baseMultiple⟩⟩,
    PublicKey.ofValue_layout_eq_ok_iff.mpr ⟨rfl, rfl⟩⟩

end KeyCodec
