import KeyCodec.Proofs.FieldPrime

/-!
# The order of the base point is prime

The test that certifies the field prime certifies the order as well.  Three large primes divide
`n - 1`; the largest of them has a chain of factors of its own.
-/

namespace KeyCodec
namespace Primality

theorem prime_of_30_bits : Nat.Prime 545358713 := by
  apply prime_of_factors 5 [(2, 3), (41, 1), (59, 1), (28181, 1)]
  · norm_num
  · norm_num
  · norm_num
    reduce_mod_char
  · norm_num
    reduce_mod_char
    decide

theorem prime_of_39_bits : Nat.Prime 297159362677 := by
  apply prime_of_factors 2 [(2, 2), (3, 2), (11, 1), (461, 1), (1627771, 1)]
  · norm_num
  · norm_num
  · norm_num
    reduce_mod_char
  · norm_num
    reduce_mod_char
    decide

theorem prime_of_57_bits : Nat.Prime 107361793816595537 := by
  apply prime_of_factors 3 [(2, 4), (16699, 1), (85831, 1), (4681609, 1)]
  · norm_num
  · norm_num
  · norm_num
    reduce_mod_char
  · norm_num
    reduce_mod_char
    decide

theorem prime_of_68_bits : Nat.Prime 174723607534414371449 := by
  apply prime_of_factors 3 [(2, 3), (17, 1), (59, 1), (4051, 1), (120233, 1), (44706919, 1)]
  · norm_num
  · norm_num
  · norm_num
    reduce_mod_char
  · norm_num
    reduce_mod_char
    decide

theorem prime_of_95_bits : Nat.Prime 29047611873442575647497758179 := by
  apply prime_of_factors 2 [(2, 1), (293, 1), (305873, 1), (545358713, 1), (297159362677, 1)]
  · norm_num
  · simp only [List.forall_mem_cons]
    exact ⟨by norm_num, by norm_num, by norm_num, prime_of_30_bits, prime_of_39_bits, by simp⟩
  · norm_num
    reduce_mod_char
  · norm_num
    reduce_mod_char
    decide

theorem prime_of_109_bits : Nat.Prime 341948486974166000522343609283189 := by
  apply prime_of_factors 2 [(2, 2), (3, 3), (109, 1), (29047611873442575647497758179, 1)]
  · norm_num
  · simp only [List.forall_mem_cons]
    exact ⟨by norm_num, by norm_num, by norm_num, prime_of_95_bits, by simp⟩
  · norm_num
    reduce_mod_char
  · norm_num
    reduce_mod_char
    decide

theorem prime_of_order :
    Nat.Prime 115792089237316195423570985008687907852837564279074904382605163141518161494337 := by
  apply prime_of_factors 7 [(2, 6), (3, 1), (149, 1), (631, 1), (107361793816595537, 1),
    (174723607534414371449, 1), (341948486974166000522343609283189, 1)]
  · norm_num
  · simp only [List.forall_mem_cons]
    exact ⟨by norm_num, by norm_num, by norm_num, by norm_num, prime_of_57_bits,
      prime_of_68_bits, prime_of_109_bits, by simp⟩
  · norm_num
    reduce_mod_char
  · norm_num
    reduce_mod_char
    decide

end Primality

namespace Curve

theorem order_prime : order.Prime := Primality.prime_of_order

instance : Fact order.Prime := ⟨order_prime⟩

end Curve
end KeyCodec
