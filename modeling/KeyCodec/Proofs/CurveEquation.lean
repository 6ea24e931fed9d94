import KeyCodec.Proofs.FieldPrime
import Mathlib.FieldTheory.Finite.Basic

/-!
# No point of the curve lies on an axis

With a zero abscissa the curve equation makes 7 a square, with a zero ordinate it makes -7 a cube.
Neither is the case in the field: a `d`-th power raised to `(p - 1) / d` is one, and these two
numbers fail that test.
-/

namespace KeyCodec
namespace Primality

/-- Euler's criterion in one direction: a number that fails the test for `d`-th powers is none. -/
theorem pow_ne_of_pow_ne_one {p : ℕ} [Fact p.Prime] {d : ℕ} {a : ZMod p} (hd : d ∣ p - 1)
    (hpos : d ≠ 0) (ha : a ≠ 0) (h : a ^ ((p - 1) / d) ≠ 1) (b : ZMod p) : b ^ d ≠ a := by
  rintro rfl
  have hb : b ≠ 0 := fun hzero => ha (by rw [hzero, zero_pow hpos])
  apply h
  rw [← pow_mul, Nat.mul_div_cancel' hd]
  exact ZMod.pow_card_sub_one_eq_one hb

theorem seven_pow_ne_one :
    (7 : ZMod 115792089237316195423570985008687907853269984665640564039457584007908834671663) ^
      ((115792089237316195423570985008687907853269984665640564039457584007908834671663 - 1) / 2)
        ≠ 1 := by
  norm_num
  reduce_mod_char
  decide

theorem neg_seven_pow_ne_one :
    (-7 : ZMod 115792089237316195423570985008687907853269984665640564039457584007908834671663) ^
      ((115792089237316195423570985008687907853269984665640564039457584007908834671663 - 1) / 3)
        ≠ 1 := by
  norm_num
  reduce_mod_char
  decide

end Primality

namespace Curve

theorem seven_ne_zero : (7 : ZMod prime) ≠ 0 := by
  have h : ¬ prime ∣ 7 := by decide
  rwa [← ZMod.natCast_eq_zero_iff, Nat.cast_ofNat] at h

theorem sq_ne_seven (y : ZMod prime) : y ^ 2 ≠ 7 :=
  Primality.pow_ne_of_pow_ne_one (p := prime) (by decide) (by decide) seven_ne_zero
    Primality.seven_pow_ne_one y

theorem cube_ne_neg_seven (x : ZMod prime) : x ^ 3 ≠ -7 :=
  Primality.pow_ne_of_pow_ne_one (p := prime) (by decide) (by decide)
    (neg_ne_zero.mpr seven_ne_zero) Primality.neg_seven_pow_ne_one x

/-- The curve equation on the numbers that the coordinates are. -/
theorem onCurve_iff {x y : Coordinate} :
    OnCurve x y ↔ y.val ^ 2 % prime = (x.val ^ 3 + 7) % prime := by
  have hseven : (7 : Coordinate).val = 7 := by decide
  rw [OnCurve, Fin.ext_iff, Fin.val_add, Fin.val_mul, Fin.val_mul, Fin.val_mul, hseven]
  simp [pow_succ, Nat.add_mod, Nat.mul_mod]

/-- The curve equation in the field. -/
theorem OnCurve.equation {x y : Coordinate} (h : OnCurve x y) :
    (y.val : ZMod prime) ^ 2 = (x.val : ZMod prime) ^ 3 + 7 := by
  have hmod := (ZMod.natCast_eq_natCast_iff' _ _ _).mpr (onCurve_iff.mp h)
  simpa using hmod

/-- Seven is no square, so no point of the curve has the abscissa zero. -/
theorem OnCurve.abscissa_ne_zero {x y : Coordinate} (h : OnCurve x y) : x.val ≠ 0 := by
  intro hzero
  have heq := h.equation
  rw [hzero] at heq
  exact sq_ne_seven y.val (by simpa using heq)

/-- The opposite of seven is no cube, so no point of the curve has the ordinate zero. -/
theorem OnCurve.ordinate_ne_zero {x y : Coordinate} (h : OnCurve x y) : y.val ≠ 0 := by
  intro hzero
  have heq := h.equation
  rw [hzero] at heq
  exact cube_ne_neg_seven x.val (eq_neg_of_add_eq_zero_left (by simpa using heq.symm))

end Curve
end KeyCodec
