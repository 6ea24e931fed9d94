import KeyCodec.Curve.Basic
import Mathlib.NumberTheory.LucasPrimality
import Mathlib.Tactic.NormNum.Prime
import Mathlib.Tactic.ReduceModChar

/-!
# The field prime is prime

Lucas's test needs the prime factors of `p - 1`, and the large ones among them are certified by the
same test, down to factors that trial division settles.  Each step is named by the number of binary
digits of the prime that it certifies.
-/

namespace KeyCodec
namespace Primality

/-- Lucas's test over the prime factors of `p - 1`, each with its exponent. -/
theorem prime_of_factors {p : ℕ} (a : ZMod p) (factors : List (ℕ × ℕ))
    (hprod : (factors.map fun f => f.1 ^ f.2).prod = p - 1)
    (hprime : ∀ f ∈ factors, f.1.Prime) (hone : a ^ (p - 1) = 1)
    (hne : ∀ f ∈ factors, a ^ ((p - 1) / f.1) ≠ 1) : p.Prime := by
  apply lucas_primality p a hone
  intro q hq hdvd
  rw [← hprod] at hdvd
  obtain ⟨power, hpower, hdvd⟩ := (Prime.dvd_prod_iff hq.prime).mp hdvd
  obtain ⟨f, hf, rfl⟩ := List.mem_map.mp hpower
  have heq : q = f.1 :=
    (Nat.prime_dvd_prime_iff_eq hq (hprime f hf)).mp (hq.dvd_of_dvd_pow hdvd)
  rw [heq]
  exact hne f hf

theorem prime_of_58_bits : Nat.Prime 173378833005251801 := by
  apply prime_of_factors 6 [(2, 3), (5, 2), (2621, 1), (24809, 1), (13331831, 1)]
  · norm_num
  · norm_num
  · norm_num
    reduce_mod_char
  · norm_num
    reduce_mod_char
    decide

theorem prime_of_75_bits : Nat.Prime 22149492674086928081353 := by
  apply prime_of_factors 5 [(2, 3), (3, 1), (5323, 1), (173378833005251801, 1)]
  · norm_num
  · simp only [List.forall_mem_cons]
    exact ⟨by norm_num, by norm_num, by norm_num, prime_of_58_bits, by simp⟩
  · norm_num
    reduce_mod_char
  · norm_num
    reduce_mod_char
    decide

theorem prime_of_77_bits : Nat.Prime 132896956044521568488119 := by
  apply prime_of_factors 6 [(2, 1), (3, 1), (22149492674086928081353, 1)]
  · norm_num
  · simp only [List.forall_mem_cons]
    exact ⟨by norm_num, by norm_num, prime_of_75_bits, by simp⟩
  · norm_num
    reduce_mod_char
  · norm_num
    reduce_mod_char
    decide

theorem prime_of_128_bits : Nat.Prime 255515944373312847190720520512484175977 := by
  apply prime_of_factors 3 [(2, 3), (7, 2), (11, 1), (1627, 1), (2657, 1), (4423, 1),
    (41201, 1), (96557, 1), (7240687, 1), (107590001, 1)]
  · norm_num
  · norm_num
  · norm_num
    reduce_mod_char
  · norm_num
    reduce_mod_char
    decide

theorem prime_of_237_bits :
    Nat.Prime 205115282021455665897114700593932402728804164701536103180137503955397371 := by
  apply prime_of_factors 10 [(2, 1), (3, 1), (5, 1), (29, 2), (31, 1), (7723, 1),
    (132896956044521568488119, 1), (255515944373312847190720520512484175977, 1)]
  · norm_num
  · simp only [List.forall_mem_cons]
    exact ⟨by norm_num, by norm_num, by norm_num, by norm_num, by norm_num, by norm_num,
      prime_of_77_bits, prime_of_128_bits, by simp⟩
  · norm_num
    reduce_mod_char
  · norm_num
    reduce_mod_char
    decide

theorem prime_of_256_bits :
    Nat.Prime 115792089237316195423570985008687907853269984665640564039457584007908834671663 := by
  apply prime_of_factors 3 [(2, 1), (3, 1), (7, 1), (13441, 1),
    (205115282021455665897114700593932402728804164701536103180137503955397371, 1)]
  · norm_num
  · simp only [List.forall_mem_cons]
    exact ⟨by norm_num, by norm_num, by norm_num, by norm_num, prime_of_237_bits, by simp⟩
  · norm_num
    reduce_mod_char
  · norm_num
    reduce_mod_char
    decide

end Primality

namespace Curve

theorem prime_prime : prime.Prime := Primality.prime_of_256_bits

instance : Fact prime.Prime := ⟨prime_prime⟩

end Curve
end KeyCodec
