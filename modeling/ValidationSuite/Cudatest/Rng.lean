import Mathlib.Data.Finite.Prod
import Mathlib.Data.UInt
import Mathlib.Dynamics.PeriodicPts.Lemmas
import ValidationSuite.Library.Xorshift

/-!
# The generator of the test data

`Rng` of `cudatest/src/reference.cpp`, which all random test data come from: three xor-shifts of a
64-bit state, and a multiplication of what they give.
-/

namespace Cudatest

open Function

/-- A generator is its state `s_`. -/
structure Rng where
  s : UInt64
  deriving DecidableEq

namespace Rng

/-- The constructor. -/
def make (seed : UInt64) : Rng := ⟨if seed ≠ 0 then seed else 0x9E3779B97F4A7C15⟩

/-- The value that `next` returns, and the generator that it leaves. -/
def next (r : Rng) : UInt64 × Rng :=
  let s := r.s
  let s := s ^^^ s >>> 12
  let s := s ^^^ s <<< 25
  let s := s ^^^ s >>> 27
  (s * 0x2545F4914F6CDD1D, ⟨s⟩)

/-- A number below `n`, unless `n` is zero: then nothing is drawn. -/
def below (n : UInt32) (r : Rng) : UInt32 × Rng :=
  if n = 0 then (0, r) else (((r.next.1 >>> 32) % n.toUInt64).toUInt32, r.next.2)

/-- `static_cast<uint8_t>(r.next() >> 56)`. -/
def byte (r : Rng) : UInt8 × Rng := ((r.next.1 >>> 56).toUInt8, r.next.2)

/-- The loop that fills a vector of `n` elements. -/
def fill {α : Type*} (draw : Rng → α × Rng) : ℕ → Rng → List α × Rng
  | 0, r => ([], r)
  | n + 1, r =>
    let (x, r) := draw r
    let (xs, r) := fill draw n r
    (x :: xs, r)

end Rng

def randomU32 (n : ℕ) (seed : UInt64) (maxExclusive : UInt32) : List UInt32 :=
  (Rng.fill (Rng.below maxExclusive) n (Rng.make seed)).1

def randomBytes (n : ℕ) (seed : UInt64) : List UInt8 :=
  (Rng.fill Rng.byte n (Rng.make seed)).1

namespace Rng

/-- The generator that `next` leaves. -/
def advance (r : Rng) : Rng := r.next.2

/-- The generator after `n` calls of `next`. -/
def after (n : ℕ) (r : Rng) : Rng := advance^[n] r

/-- `next` returns its new state times an odd number. -/
def output (s : UInt64) : UInt64 := s * 0x2545F4914F6CDD1D

lemma next_fst (r : Rng) : r.next.1 = output r.advance.s := rfl

lemma output_injective : Injective output := by
  intro s t h
  have hinverse : (0x2545F4914F6CDD1D * 0x59071D96D81ECD35 : UInt64) = 1 := by decide
  have hmul : output s * 0x59071D96D81ECD35 = output t * 0x59071D96D81ECD35 := by rw [h]
  simpa only [output, UInt64.mul_assoc, hinverse, UInt64.mul_one] using hmul

lemma advance_injective : Injective advance := by
  intro r r' h
  have hs : r.advance.s = r'.advance.s := congrArg s h
  have hthird := Xorshift.injective_xor_shiftRight_uint64 (k := 27) (by decide) hs
  have hsecond := Xorshift.injective_xor_shiftLeft_uint64 (k := 25) (by decide) hthird
  have hfirst := Xorshift.injective_xor_shiftRight_uint64 (k := 12) (by decide) hsecond
  exact congrArg mk hfirst

instance : Finite Rng :=
  Finite.of_injective (fun r => r.s.toBitVec.toFin) fun _ _ h =>
    congrArg mk (UInt64.toBitVec_inj.mp (BitVec.toFin_inj.mp h))

/-- Zero is the only state that leads to zero. -/
lemma advance_ne_zero {r : Rng} (h : r.s ≠ 0) : r.advance.s ≠ 0 := by
  intro hzero
  have hfixed : r.advance = advance ⟨0⟩ := congrArg mk hzero
  exact h (congrArg s (advance_injective hfixed))

lemma after_succ (n : ℕ) (r : Rng) : r.after (n + 1) = (r.after n).advance :=
  iterate_succ_apply' advance n r

lemma after_ne_zero (seed : UInt64) (n : ℕ) : ((make seed).after n).s ≠ 0 := by
  induction n with
  | zero =>
    change (if seed ≠ 0 then seed else 0x9E3779B97F4A7C15) ≠ 0
    split_ifs with hseed
    · exact hseed
    · decide
  | succ n ih =>
    rw [after_succ]
    exact advance_ne_zero ih

/-- The states go round from the first on. -/
lemma after_periodic (r : Rng) : ∃ k > 0, ∀ n, r.after (n + k) = r.after n := by
  obtain ⟨k, hk, hperiod⟩ := advance_injective.mem_periodicPts r
  refine ⟨k, hk, ?_⟩
  intro n
  rw [after, iterate_add_apply, hperiod.eq, after]

end Rng

/-- The generator never gets stuck: its state is never zero, no two states have the same successor,
so the states go round from any seed on, and what it returns is never zero and different for
different states. -/
theorem rng_never_degenerates :
    (∀ (seed : UInt64) (n : ℕ), ((Rng.make seed).after n).s ≠ 0) ∧
    Injective (fun r : Rng => r.next.2) ∧
    (∀ seed : UInt64, ∃ k > 0, ∀ n, (Rng.make seed).after (n + k) = (Rng.make seed).after n) ∧
    (∃ output : UInt64 → UInt64, Injective output ∧ ∀ r : Rng, r.next.1 = output r.next.2.s) ∧
    ∀ (seed : UInt64) (n : ℕ), ((Rng.make seed).after n).next.1 ≠ 0 := by
  refine ⟨Rng.after_ne_zero, Rng.advance_injective, fun seed => (Rng.make seed).after_periodic,
    ⟨Rng.output, Rng.output_injective, Rng.next_fst⟩, ?_⟩
  intro seed n hzero
  have hstate : ((Rng.make seed).after n).advance.s = 0 :=
    Rng.output_injective (hzero.trans (show 0 = Rng.output 0 by decide))
  rw [← Rng.after_succ] at hstate
  exact Rng.after_ne_zero seed (n + 1) hstate

/-! ### Test data -/

namespace Rng

variable {α : Type*} {draw : Rng → α × Rng}

lemma length_fill (n : ℕ) (r : Rng) : (fill draw n r).1.length = n := by
  induction n generalizing r with
  | zero => rfl
  | succ n ih => exact congrArg (· + 1) (ih (draw r).2)

/-- What holds of all that is drawn holds of all elements. -/
lemma forall_mem_fill {p : α → Prop} (h : ∀ r, p (draw r).1) (n : ℕ) (r : Rng) :
    ∀ x ∈ (fill draw n r).1, p x := by
  induction n generalizing r with
  | zero => exact List.forall_mem_nil p
  | succ n ih => exact List.forall_mem_cons.mpr ⟨h r, ih (draw r).2⟩

/-- If every element takes one call of `next`, the `i`th one is drawn after `i` calls. -/
lemma getElem?_fill (h : ∀ r, (draw r).2 = r.advance) {n i : ℕ} (hi : i < n) (r : Rng) :
    (fill draw n r).1[i]? = some (draw (r.after i)).1 := by
  induction n generalizing i r with
  | zero => exact absurd hi (Nat.not_lt_zero i)
  | succ n ih =>
    cases i with
    | zero => rfl
    | succ i =>
      calc
        (fill draw (n + 1) r).1[i + 1]? = (fill draw n (draw r).2).1[i]? := rfl
        _ = some (draw ((draw r).2.after i)).1 := ih (Nat.lt_of_succ_lt_succ hi) (draw r).2
        _ = some (draw (r.after (i + 1))).1 := by rw [h r, after, after, iterate_succ_apply]

lemma byte_snd (r : Rng) : r.byte.2 = r.advance := rfl

lemma below_lt {n : UInt32} (hn : n ≠ 0) (r : Rng) : (below n r).1 < n := by
  have hpos : 0 < n.toNat := Nat.pos_of_ne_zero fun h => hn (UInt32.toNat_inj.mp h)
  have hlt : (r.next.1 >>> 32).toNat % n.toNat < n.toNat := Nat.mod_lt _ hpos
  rw [below, if_neg hn, UInt32.lt_iff_toNat_lt, UInt64.toNat_toUInt32, UInt64.toNat_mod,
    UInt32.toNat_toUInt64]
  exact lt_of_le_of_lt (Nat.mod_le _ _) hlt

end Rng

/-- All numbers are below the limit, if there is one. -/
theorem mem_randomU32 (n : ℕ) (seed : UInt64) {maxExclusive : UInt32} (h : maxExclusive ≠ 0) :
    (randomU32 n seed maxExclusive).length = n ∧ ∀ x ∈ randomU32 n seed maxExclusive,
      x < maxExclusive :=
  ⟨Rng.length_fill n _, Rng.forall_mem_fill (fun r => Rng.below_lt h r) n _⟩

/-- The bytes are the upper ends of the values that `next` returns. -/
theorem getElem?_randomBytes {n i : ℕ} (seed : UInt64) (hi : i < n) :
    (randomBytes n seed)[i]? = some (((Rng.make seed).after i).next.1 >>> 56).toUInt8 :=
  Rng.getElem?_fill Rng.byte_snd hi (Rng.make seed)

example : randomBytes 4 42 = [86, 200, 202, 241] := by decide

end Cudatest
