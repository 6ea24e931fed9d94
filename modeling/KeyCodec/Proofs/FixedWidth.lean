import KeyCodec.Proofs.Outcome
import KeyCodec.Value.Octets
import Mathlib.Algebra.Ring.Int.Defs
import Mathlib.Algebra.Ring.Nat
import Mathlib.Data.List.Induction

/-!
# Reading back fixed-width bytes

A number written at a width is read as its remainder at that width, so it is read as itself exactly
when it fits.  Bytes are written back from their number at their own width.  An integer is given
bytes of a width when it fits, unless there is no room for the width, which is found out first.
-/

namespace KeyCodec
namespace Bytes

def toNatFrom (start : Nat) (bytes : List UInt8) : Nat :=
  bytes.foldl (fun total b => 256 * total + b.toNat) start

@[simp] theorem toNatFrom_nil (start : Nat) : toNatFrom start [] = start := rfl

@[simp] theorem toNatFrom_cons (start : Nat) (b : UInt8) (bytes : List UInt8) :
    toNatFrom start (b :: bytes) = toNatFrom (256 * start + b.toNat) bytes := rfl

theorem toNat_eq_toNatFrom (bytes : List UInt8) : toNat bytes = toNatFrom 0 bytes := rfl

theorem toNatFrom_ofNatOnto (width n : Nat) (tail : List UInt8) :
    toNatFrom 0 (ofNatOnto width n tail) = toNatFrom (n % 256 ^ width) tail := by
  induction width generalizing n tail with
  | zero => simp [ofNatOnto, Nat.mod_one]
  | succ width ih =>
      have hlow : (UInt8.ofNat (n % 256)).toNat = n % 256 := by simp
      have hsplit : 256 * (n / 256 % 256 ^ width) + n % 256 = n % 256 ^ (width + 1) := by
        rw [Nat.pow_succ', Nat.mod_mul, Nat.add_comm]
      rw [ofNatOnto, ih, toNatFrom_cons, hlow, hsplit]

/-- A number written at a width is read as its remainder at that width. -/
theorem toNat_ofNat (width n : Nat) : toNat (ofNat width n) = n % 256 ^ width := by
  rw [toNat_eq_toNatFrom, ofNat, toNatFrom_ofNatOnto, toNatFrom_nil]

theorem toNat_ofNat_of_lt {width n : Nat} (h : n < 256 ^ width) :
    toNat (ofNat width n) = n := by
  rw [toNat_ofNat, Nat.mod_eq_of_lt h]

theorem length_ofNatOnto (width n : Nat) (tail : List UInt8) :
    (ofNatOnto width n tail).length = width + tail.length := by
  induction width generalizing n tail with
  | zero => simp [ofNatOnto]
  | succ width ih =>
      rw [ofNatOnto, ih, List.length_cons]
      omega

@[simp] theorem length_ofNat (width n : Nat) : (ofNat width n).length = width := by
  simp [ofNat, length_ofNatOnto]

theorem ofNat?_of_lt {width n : Nat} (h : n < 256 ^ width) :
    ofNat? width n = some (ofNat width n) := by
  simp [ofNat?, h]

theorem ofNat?_of_le {width n : Nat} (h : 256 ^ width ≤ n) : ofNat? width n = none := by
  simp [ofNat?, h]

/-! ### Writing back what has been read -/

theorem toNat_concat (bytes : List UInt8) (b : UInt8) :
    toNat (bytes ++ [b]) = 256 * toNat bytes + b.toNat := by
  simp [toNat]

/-- Bytes are written again for their number.  The last byte is the one that the writer puts down
first, so bytes come off the end. -/
theorem ofNatOnto_toNat (bytes tail : List UInt8) :
    ofNatOnto bytes.length (toNat bytes) tail = bytes ++ tail := by
  induction bytes using List.reverseRecOn generalizing tail with
  | nil => rfl
  | append_singleton bytes b ih =>
      have hlt := b.toNat_lt
      have hfront : (256 * toNat bytes + b.toNat) / 256 = toNat bytes := by omega
      have hlast : (256 * toNat bytes + b.toNat) % 256 = b.toNat := by omega
      rw [List.length_append, List.length_singleton, toNat_concat, ofNatOnto, hfront, hlast,
        UInt8.ofNat_toNat, ih, List.append_assoc, List.singleton_append]

/-- Bytes are what is written for their number at their own width. -/
theorem ofNat_toNat (bytes : List UInt8) : ofNat bytes.length (toNat bytes) = bytes := by
  rw [ofNat, ofNatOnto_toNat, List.append_nil]

theorem toNat_lt (bytes : List UInt8) : toNat bytes < 256 ^ bytes.length := by
  have hmod : toNat bytes = toNat bytes % 256 ^ bytes.length := by
    rw [← toNat_ofNat, ofNat_toNat]
  rw [hmod]
  exact Nat.mod_lt _ (Nat.pow_pos (by decide))

end Bytes

def Fault.IsOverflow (f : Fault) : Prop :=
  ∃ arguments, f = .standard .overflow arguments

namespace Value

/-- Bytes may be that long, and there is memory for them. -/
def HasRoom (memory width : Nat) : Prop :=
  (width : Int) ≤ longestBytes ∧ width ≤ memory

/-! ### Widths without room -/

/-- A width that bytes can have is only held against the memory. -/
theorem checkWidth_of_le_longest {width : Nat} (h : (width : Int) ≤ longestBytes) (memory : Nat) :
    checkWidth memory width =
      if memory < width then .error (.standard .memory []) else .ok width := by
  have hword : ¬ (lengthBound ≤ (width : Int) ∨ (width : Int) < -lengthBound) := by
    simp only [longestBytes, lengthBound] at h ⊢
    omega
  have hsign : ¬ (width : Int) < 0 := by omega
  simp only [checkWidth, if_neg hword, if_neg hsign, if_neg (Int.not_lt.mpr h), Int.ofNat_lt,
    Int.toNat_natCast]

theorem checkWidth_of_hasRoom {memory width : Nat} (h : HasRoom memory width) :
    checkWidth memory width = .ok width := by
  rw [checkWidth_of_le_longest h.1, if_neg (Nat.not_lt.mpr h.2)]

theorem checkWidth_of_memory_lt {memory width : Nat} (hlongest : (width : Int) ≤ longestBytes)
    (h : memory < width) : checkWidth memory width = .error (.standard .memory []) := by
  rw [checkWidth_of_le_longest hlongest, if_pos h]

theorem checkWidth_of_longest_lt {width : Nat} (h : longestBytes < width) (memory : Nat) :
    ∃ f, checkWidth memory width = .error f ∧ f.IsOverflow := by
  have hsign : ¬ (width : Int) < 0 := by omega
  rw [checkWidth, if_neg hsign, if_pos h]
  split
  · exact ⟨_, rfl, _, rfl⟩
  · exact ⟨_, rfl, _, rfl⟩

/-! ### Bytes of integers -/

section Integers

variable {v w : Value} {i : Int} {memory width : Nat} (hv : v.integer? = some i)
  (hw : w.integer? = some (width : Int))

include hv hw

theorem intToBytesWithin_of_no_room {f : Fault} (h : checkWidth memory width = .error f) :
    intToBytesWithin memory v w = .error f := by
  simp [intToBytesWithin, hv, hw, h]

theorem intToBytesWithin_of_lt {n : Nat} (hroom : HasRoom memory width) (hn : i = n)
    (h : n < 256 ^ width) : intToBytesWithin memory v w = .ok (.bytes (Bytes.ofNat width n)) := by
  subst hn
  have hsign : ¬ (n : Int) < 0 := by omega
  simp [intToBytesWithin, hv, hw, checkWidth_of_hasRoom hroom, hsign, Bytes.ofNat?_of_lt h]

/-- Where there is room for the width, an integer that is negative or does not fit overflows. -/
theorem intToBytesWithin_of_unfit (hroom : HasRoom memory width)
    (h : ¬ (0 ≤ i ∧ i < 256 ^ width)) :
    ∃ f, intToBytesWithin memory v w = .error f ∧ f.IsOverflow := by
  by_cases hsign : i < 0
  · have hnegative : intToBytesWithin memory v w =
        .error (.ofMessage .overflow "can't convert negative int to unsigned") := by
      simp [intToBytesWithin, hv, hw, checkWidth_of_hasRoom hroom, hsign]
    exact ⟨_, hnegative, _, rfl⟩
  · obtain ⟨n, rfl⟩ := Int.eq_ofNat_of_zero_le (Int.not_lt.mp hsign)
    have hle : 256 ^ width ≤ n := by
      by_contra hlt
      exact h ⟨Int.natCast_nonneg n, by exact_mod_cast Nat.not_le.mp hlt⟩
    have hlarge : intToBytesWithin memory v w =
        .error (.ofMessage .overflow "int too big to convert") := by
      simp [intToBytesWithin, hv, hw, checkWidth_of_hasRoom hroom, hsign, Bytes.ofNat?_of_le hle]
    exact ⟨_, hlarge, _, rfl⟩

end Integers

end Value
end KeyCodec
