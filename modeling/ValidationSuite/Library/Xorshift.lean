import Mathlib.Algebra.Group.Basic
import Mathlib.Data.BitVec
import Mathlib.Data.UInt
import Mathlib.Logic.Function.Basic

/-!
# Xor-shifts

A word that is xored with itself shifted can be recovered: both the word and the shift respect xor,
so only a word that is equal to its own shift could be lost, and only zero is.
-/

namespace Xorshift

open Function

variable {w : ℕ}

/-- What respects xor and has no fixed point but zero loses nothing when it is xored with its
argument. -/
lemma injective_xor {f : BitVec w → BitVec w} (hf : ∀ x y, f (x ^^^ y) = f x ^^^ f y)
    (hfix : ∀ x, f x = x → x = 0) : Injective fun x => x ^^^ f x := by
  intro x y hxy
  have hxy : x ^^^ f x = y ^^^ f y := hxy
  have hsum : f (x ^^^ y) = x ^^^ y := by
    calc
      f (x ^^^ y) = f x ^^^ f y := hf x y
      _ = x ^^^ (x ^^^ f x) ^^^ f y := by rw [← BitVec.xor_assoc, BitVec.xor_self, BitVec.zero_xor]
      _ = x ^^^ (y ^^^ f y) ^^^ f y := by rw [hxy]
      _ = x ^^^ y := by rw [BitVec.xor_assoc, BitVec.xor_assoc, BitVec.xor_self, BitVec.xor_zero]
  exact BitVec.xor_eq_zero_iff.mp (hfix _ hsum)

lemma eq_zero_of_shiftRight {k : ℕ} (hk : 0 < k) {x : BitVec w} (h : x >>> k = x) : x = 0 := by
  have hnat : x.toNat / 2 ^ k = x.toNat := by
    rw [← Nat.shiftRight_eq_div_pow, ← BitVec.toNat_ushiftRight, h]
  have htwo : 1 < 2 ^ k := Nat.one_lt_two_pow hk.ne'
  rcases Nat.eq_zero_or_pos x.toNat with hzero | hpos
  · exact BitVec.eq_of_toNat_eq (hzero.trans BitVec.toNat_zero.symm)
  · exact absurd hnat (Nat.div_lt_self hpos htwo).ne

lemma eq_zero_of_shiftLeft {k : ℕ} (hk : 0 < k) {x : BitVec w} (h : x <<< k = x) : x = 0 := by
  have hbit : ∀ i, x.getLsbD i = false := by
    intro i
    induction i using Nat.strong_induction_on with
    | _ i ih =>
      rw [← h, BitVec.getLsbD_shiftLeft]
      by_cases hi : i < k
      · simp [hi]
      · -- the bit comes from a lower place
        rw [ih (i - k) (by omega), Bool.and_false]
  exact BitVec.eq_of_getLsbD_eq fun i _ => (hbit i).trans BitVec.getLsbD_zero.symm

lemma injective_xor_shiftRight {k : ℕ} (hk : 0 < k) :
    Injective fun x : BitVec w => x ^^^ x >>> k :=
  injective_xor (fun x y => BitVec.ushiftRight_xor_distrib x y k) fun _ => eq_zero_of_shiftRight hk

lemma injective_xor_shiftLeft {k : ℕ} (hk : 0 < k) :
    Injective fun x : BitVec w => x ^^^ x <<< k :=
  injective_xor (fun x y => BitVec.shiftLeft_xor_distrib x y k) fun _ => eq_zero_of_shiftLeft hk

/-! ### Machine words -/

/-- The width of the word is taken off a shift before it is made. -/
lemma injective_xor_shiftRight_uint64 {k : UInt64} (hk : 0 < (k.toBitVec % 64).toNat) :
    Injective fun x : UInt64 => x ^^^ x >>> k := by
  intro x y hxy
  apply UInt64.toBitVec_inj.mp
  apply injective_xor_shiftRight hk
  have hbits := congrArg UInt64.toBitVec hxy
  simpa only [UInt64.toBitVec_xor, UInt64.toBitVec_shiftRight, BitVec.ushiftRight_eq'] using hbits

lemma injective_xor_shiftLeft_uint64 {k : UInt64} (hk : 0 < (k.toBitVec % 64).toNat) :
    Injective fun x : UInt64 => x ^^^ x <<< k := by
  intro x y hxy
  apply UInt64.toBitVec_inj.mp
  apply injective_xor_shiftLeft hk
  have hbits := congrArg UInt64.toBitVec hxy
  simpa only [UInt64.toBitVec_xor, UInt64.toBitVec_shiftLeft, BitVec.shiftLeft_eq'] using hbits

end Xorshift
