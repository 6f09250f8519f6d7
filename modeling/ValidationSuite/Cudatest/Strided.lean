import ValidationSuite.Cudatest.GemmProperties

/-!
# Grid-stride loops

`blocks_for` of `cudatest/src/kernels.cu`, the launchers that use it, and the loop of their kernels:
a thread starts at its place in the grid and goes on by the number of threads. As long as that
number fits between the array and the last `int`, the threads share the array out between them;
beyond, some index wraps.
-/

namespace Cudatest

open Simt

/-! ### Launches -/

inductive Error where
  | invalidValue
  | invalidConfiguration
  /-- of a call to the runtime -/
  | runtime (code : ℕ)
  deriving DecidableEq

/-- What comes of a launcher: an error, nothing to do, or so many blocks. -/
inductive Strided where
  | error (e : Error)
  | success
  | grid (blocks : ℕ)
  deriving DecidableEq

def kMaxThreadsPerBlock : ℤ := 1024

def isPow2 (v : ℤ) : Bool := 0 < v && (v.toNat &&& (v - 1).toNat) = 0

def blocksFor (n block : ℤ) : ℤ := max 1 (min ((int32 (int32 (n + block) - 1)).tdiv block) 65535)

/-- What the driver makes of the sizes of a grid. -/
def configure (grid block : ℤ) : Strided :=
  if block < 1 ∨ kMaxThreadsPerBlock < block then .error .invalidConfiguration
  else .grid grid.toNat

/-- `null`: is one of the arrays a null pointer? -/
def launchVectorAdd (null : Bool) (n block : ℤ) : Strided :=
  if n < 0 ∨ 0 < n ∧ null then .error .invalidValue
  else if n = 0 then .success
  else configure (if 0 < block then blocksFor n block else 1) block

/-- `memset`: the error with which `cudaMemsetAsync` fails, if it does. -/
def launchReduceSum (inNull outNull : Bool) (memset : Option Error) (n block : ℤ) : Strided :=
  if n < 0 ∨ outNull ∨ 0 < n ∧ inNull then .error .invalidValue
  else if ¬ isPow2 block ∨ block < 32 ∨ kMaxThreadsPerBlock < block then .error .invalidValue
  else match memset with
    | some e => .error e
    | none => if n = 0 then .success else configure (blocksFor n block) block

def launchHistogram256 (inNull binsNull : Bool) (memset : Option Error) (n block : ℤ) : Strided :=
  if n < 0 ∨ binsNull ∨ 0 < n ∧ inNull then .error .invalidValue
  else if block < 1 ∨ kMaxThreadsPerBlock < block then .error .invalidValue
  else match memset with
    | some e => .error e
    | none => if n = 0 then .success else configure (blocksFor n block) block

/-! ### The loop -/

/-- The number of values an `int` has: a loop over one that goes on longer goes on forever. -/
def intCount : ℕ := 2 ^ 32

section Loop

variable {Op : Type} {Res : Op → Type} {α : Type}

/-- `for (; i < n; i += stride)`, at most so many times. -/
def stridedFrom (n : ℤ) (stride : ℕ) (body : ℤ → α → Prog Op Res α) :
    ℕ → ℤ → α → Prog Op Res α
  | 0, _, a => pure a
  | fuel + 1, i, a =>
    if i < n then do
      let a ← body i a
      stridedFrom n stride body fuel (int32 (i + stride)) a
    else pure a

/-- `for (int i = start; i < n; i += stride)`. -/
def strided (n : ℤ) (start stride : ℕ) (body : ℤ → α → Prog Op Res α) (a : α) : Prog Op Res α :=
  stridedFrom n stride body intCount (int32 start) a

end Loop

/-- The index after `k` steps. -/
def index (start stride : ℕ) : ℕ → ℤ
  | 0 => int32 start
  | k + 1 => int32 (index start stride k + stride)

/-- The loop comes to its `k`th step: the condition has been true so far. -/
def Visits (n : ℤ) (start stride k : ℕ) : Prop := ∀ j ≤ k, index start stride j < n

/-! ### What the loop is for -/

/-- The value of an `int`. -/
def Fits (v : ℤ) : Prop := -2 ^ 31 ≤ v ∧ v < 2 ^ 31

/-- Where the thread of a block starts. -/
def start {grid block : ℕ} (t : Fin grid × Fin block) : ℕ := t.1 * block + t.2

/-- The threads of the grid share the indices below `n` out between them, and the number of blocks
is computed without overflow. -/
structure SharesOut (n : ℤ) (grid block : ℕ) : Prop where
  sum_fits : Fits (n + block)
  blocks_fits : Fits (n + block - 1)
  ends : ∀ t : Fin grid × Fin block, ∃ k, n ≤ index (start t) (grid * block) k
  within : ∀ (t : Fin grid × Fin block) (k : ℕ), Visits n (start t) (grid * block) k →
    0 ≤ index (start t) (grid * block) k ∧ index (start t) (grid * block) k < n
  once : ∀ i, 0 ≤ i → i < n → ∃! v : (Fin grid × Fin block) × ℕ,
    Visits n (start v.1) (grid * block) v.2 ∧ index (start v.1) (grid * block) v.2 = i

/-! ### Steps without overflow -/

/-- The number of steps of the loop. -/
def steps (n start stride : ℕ) : ℕ := (n - start + stride - 1) / stride

section Steps

variable {n start stride : ℕ}

lemma lt_steps {k : ℕ} (hstride : 0 < stride) :
    k < steps n start stride ↔ start + k * stride < n := by
  rw [steps, Nat.lt_div_iff_mul_lt hstride]
  omega

lemma steps_le (hstride : 0 < stride) : steps n start stride ≤ n := by
  by_contra hlt
  have hsteps := (lt_steps hstride).mp (Nat.lt_of_not_le hlt)
  have hmul := Nat.le_mul_of_pos_right n hstride
  omega

lemma index_eq {k : ℕ} (h : start + k * stride < 2 ^ 31) :
    index start stride k = start + k * stride := by
  induction k with
  | zero =>
    rw [index, int32_eq (by omega) (by omega)]
    simp
  | succ k ih =>
    rw [Nat.succ_mul, ← Nat.add_assoc] at h
    rw [index, ih (by omega), int32_eq (by positivity) (by exact_mod_cast h)]
    push_cast
    rw [add_mul, one_mul, add_assoc]

variable (hint : n + stride ≤ 2 ^ 31) (hstart : start < stride)
include hint hstart

/-- The index after the last step does not wrap either. -/
lemma add_lt_of_le_steps {k : ℕ} (hk : k ≤ steps n start stride) :
    start + k * stride < 2 ^ 31 := by
  cases k with
  | zero => omega
  | succ k =>
    have hlt := (lt_steps (by omega)).mp (Nat.lt_of_succ_le hk)
    rw [Nat.succ_mul]
    omega

lemma visits_iff {k : ℕ} : Visits n start stride k ↔ k < steps n start stride := by
  have hpos : 0 < stride := by omega
  constructor
  · intro h
    by_contra hle
    have hlast := h _ (Nat.le_of_not_lt hle)
    rw [index_eq (add_lt_of_le_steps hint hstart le_rfl)] at hlast
    exact lt_irrefl _ ((lt_steps hpos).mpr (by exact_mod_cast hlast))
  · intro h j hj
    have hlt := hj.trans_lt h
    rw [index_eq (add_lt_of_le_steps hint hstart hlt.le)]
    exact_mod_cast (lt_steps hpos).mp hlt

lemma index_of_visits {k : ℕ} (h : Visits n start stride k) :
    index start stride k = start + k * stride :=
  index_eq (add_lt_of_le_steps hint hstart ((visits_iff hint hstart).mp h).le)

/-- A loop whose index does not wrap makes its steps one after another. -/
lemma strided_eq_loop {Op α : Type} {Res : Op → Type} (body : ℤ → α → Prog Op Res α) (a : α) :
    strided n start stride body a =
      loop (fun k => body (start + k * stride)) 0 (steps n start stride) a := by
  have hpos : 0 < stride := by omega
  have hfrom : ∀ (fuel k : ℕ) (a : α), steps n start stride < k + fuel →
      k ≤ steps n start stride →
      stridedFrom n stride body fuel (index start stride k) a =
        loop (fun k => body (start + k * stride)) k (steps n start stride - k) a := by
    intro fuel
    induction fuel with
    | zero =>
      intro k a hfuel hk
      omega
    | succ fuel ih =>
      intro k a hfuel hk
      have hindex := index_eq (add_lt_of_le_steps hint hstart hk)
      obtain hlt | rfl := hk.lt_or_eq
      · have hsucc : steps n start stride - k = steps n start stride - (k + 1) + 1 := by omega
        rw [stridedFrom, hindex, if_pos (by exact_mod_cast (lt_steps hpos).mp hlt), hsucc, loop]
        congr 1
        funext a
        rw [← ih (k + 1) a (by omega) hlt, index, hindex]
      · have hge : ¬ index start stride (steps n start stride) < n := by
          rw [hindex]
          exact fun hlt => lt_irrefl _ ((lt_steps hpos).mpr (by exact_mod_cast hlt))
        rw [stridedFrom, if_neg hge, Nat.sub_self]
        rfl
  have hsteps : steps n start stride < intCount := by
    have hle : steps n start stride ≤ n := steps_le hpos
    rw [intCount]
    omega
  exact hfrom intCount 0 a (by omega) (Nat.zero_le _)

end Steps

/-! ### The places of the threads -/

section Places

variable {grid block : ℕ}

lemma start_lt (t : Fin grid × Fin block) : start t < grid * block :=
  calc start t < t.1 * block + block := Nat.add_lt_add_left t.2.isLt _
    _ = (t.1 + 1) * block := (Nat.succ_mul _ _).symm
    _ ≤ grid * block := Nat.mul_le_mul_right _ t.1.isLt

lemma start_inj {t t' : Fin grid × Fin block} (h : start t = start t') : t = t' := by
  have hpos : 0 < block := t.2.pos
  have hdiv : ∀ t : Fin grid × Fin block, start t / block = t.1 := fun t => by
    rw [start, Nat.add_comm, Nat.add_mul_div_right _ _ hpos, Nat.div_eq_of_lt t.2.isLt, zero_add]
  have hmod : ∀ t : Fin grid × Fin block, start t % block = t.2 := fun t => by
    rw [start, Nat.add_comm, Nat.add_mul_mod_self_right, Nat.mod_eq_of_lt t.2.isLt]
  refine Prod.ext (Fin.ext ?_) (Fin.ext ?_)
  · rw [← hdiv t, h, hdiv]
  · rw [← hmod t, h, hmod]

/-- Every number is below the number of threads, or that many steps further. -/
lemma exists_place (hpos : 0 < grid * block) (i : ℕ) :
    ∃ (t : Fin grid × Fin block) (k : ℕ), start t + k * (grid * block) = i := by
  have hblock : 0 < block := Nat.pos_of_mul_pos_left hpos
  have hlt : i % (grid * block) < grid * block := Nat.mod_lt _ hpos
  refine ⟨(⟨i % (grid * block) / block, Nat.div_lt_of_lt_mul (by rwa [Nat.mul_comm block])⟩,
    ⟨i % (grid * block) % block, Nat.mod_lt _ hblock⟩), i / (grid * block), ?_⟩
  rw [start, Nat.div_add_mod', Nat.mod_add_div']

lemma place_inj {t t' : Fin grid × Fin block} {k k' : ℕ}
    (h : start t + k * (grid * block) = start t' + k' * (grid * block)) : t = t' ∧ k = k' := by
  have hmod : ∀ (t : Fin grid × Fin block) (k : ℕ),
      (start t + k * (grid * block)) % (grid * block) = start t := fun t k => by
    rw [Nat.add_mul_mod_self_right, Nat.mod_eq_of_lt (start_lt t)]
  have hstart : t = t' := start_inj (by rw [← hmod t k, h, hmod])
  subst hstart
  have hpos : 0 < grid * block := (Nat.zero_le _).trans_lt (start_lt t)
  exact ⟨rfl, Nat.eq_of_mul_eq_mul_right hpos (Nat.add_left_cancel h)⟩

/-- What the threads sum up in steps is the sum of the whole array. -/
lemma sum_places {A : Type} [AddCommMonoid A] (hpos : 0 < grid * block) (n : ℕ) (f : ℕ → A) :
    ∑ t : Fin grid × Fin block, ∑ k ∈ Finset.range (steps n (start t) (grid * block)),
      f (start t + k * (grid * block)) = ∑ i ∈ Finset.range n, f i := by
  rw [Finset.sum_sigma']
  refine Finset.sum_bij (fun v _ => start v.1 + v.2 * (grid * block)) ?_ ?_ ?_ fun _ _ => rfl
  · rintro ⟨t, k⟩ hv
    simpa [lt_steps hpos] using hv
  · rintro ⟨t, k⟩ - ⟨t', k'⟩ - heq
    obtain ⟨rfl, rfl⟩ := place_inj heq
    rfl
  · intro i hi
    obtain ⟨t, k, rfl⟩ := exists_place hpos i
    exact ⟨⟨t, k⟩, by simpa [lt_steps hpos] using hi, rfl⟩

end Places

/-! ### When the threads share the array out -/

lemma sharesOut_of_le {n block grid : ℕ} (hblock : 0 < block) (hgrid : 0 < grid)
    (hsum : n + block < 2 ^ 31) (hint : n + grid * block ≤ 2 ^ 31) : SharesOut n grid block := by
  have hpos : 0 < grid * block := Nat.mul_pos hgrid hblock
  have hindex : ∀ {t : Fin grid × Fin block} {k : ℕ},
      Visits n (start t) (grid * block) k →
        index (start t) (grid * block) k = ↑(start t + k * (grid * block)) := fun {t} k h => by
    rw [index_of_visits hint (start_lt t) h]
    push_cast
    rfl
  refine ⟨⟨by omega, by exact_mod_cast hsum⟩, ⟨by omega, by omega⟩, fun t => ?_, fun t k h => ?_,
    fun i hi hin => ?_⟩
  · have hnot : ¬ Visits n (start t) (grid * block) (steps n (start t) (grid * block)) := fun h =>
      lt_irrefl _ ((visits_iff hint (start_lt t)).mp h)
    simp only [Visits, not_forall, not_lt] at hnot
    obtain ⟨k, -, hk⟩ := hnot
    exact ⟨k, hk⟩
  · refine ⟨?_, h k le_rfl⟩
    rw [hindex h]
    exact Int.natCast_nonneg _
  · obtain ⟨i, rfl⟩ := Int.eq_ofNat_of_zero_le hi
    obtain ⟨t, k, rfl⟩ := exists_place hpos i
    have hvisits : Visits n (start t) (grid * block) k :=
      (visits_iff hint (start_lt t)).mpr ((lt_steps hpos).mpr (by exact_mod_cast hin))
    refine ⟨(t, k), ⟨hvisits, hindex hvisits⟩, ?_⟩
    rintro ⟨t', k'⟩ ⟨hvisits', heq⟩
    have heq := (hindex hvisits').symm.trans heq
    obtain ⟨rfl, rfl⟩ := place_inj (Int.ofNat_inj.mp heq)
    rfl

lemma blocksFor_toNat {n block : ℕ} (hblock : 0 < block) (hsum : n + block < 2 ^ 31) :
    (blocksFor n block).toNat = max 1 (min ((n + block - 1) / block) 65535) := by
  have hint : int32 (int32 ((n : ℤ) + block) - 1) = ((n + block - 1 : ℕ) : ℤ) := by
    rw [int32_eq (n := (n : ℤ) + block) (by omega) (by omega), int32_eq (by omega) (by omega)]
    omega
  rw [blocksFor, hint, ← Int.ofNat_tdiv]
  omega

/-- The thread that comes to the last index goes on below zero where the number of threads does not
fit above it. -/
lemma not_sharesOut {n grid block : ℕ} (hn : 0 < n) (hnint : n < 2 ^ 31)
    (hpos : 0 < grid * block) (hthreads : grid * block ≤ 2 ^ 31)
    (hwrap : 2 ^ 31 < n + grid * block) : ¬ SharesOut n grid block := by
  intro h
  obtain ⟨t, k, hk⟩ := exists_place hpos (n - 1)
  have hindex : ∀ j ≤ k, index (start t) (grid * block) j = start t + j * (grid * block) :=
    fun j hj => by
      have hmul := Nat.mul_le_mul_right (grid * block) hj
      exact index_eq (by omega)
  have hnext : index (start t) (grid * block) (k + 1) < 0 := by
    rw [index, hindex k le_rfl]
    have hcast : (start t + k * (grid * block) : ℤ) = n - 1 := by
      have hcast := congrArg ((↑) : ℕ → ℤ) hk
      push_cast at hcast
      omega
    rw [hcast, int32, Int.bmod_def]
    omega
  have hvisits : Visits n (start t) (grid * block) (k + 1) := by
    intro j hj
    obtain hle | rfl := Nat.le_succ_iff.mp hj
    · have hmul := Nat.mul_le_mul_right (grid * block) hle
      rw [hindex j hle]
      exact_mod_cast (by omega : start t + j * (grid * block) < n)
    · exact hnext.trans_le (Int.natCast_nonneg n)
  have hwithin := (h.within t (k + 1) hvisits).1
  omega

lemma configure_eq {grid block : ℤ} (hblock : 0 < block) (hmax : block ≤ 1024) :
    configure grid block = .grid grid.toNat := by
  rw [configure, kMaxThreadsPerBlock, if_neg (by omega)]

/-- The loops of the three launchers share the array out between the threads if and only if as many
more indices as the largest grid has threads fit into an `int` above the last one. -/
theorem launch_sharesOut_iff {n block : ℕ} (hn : 0 < n) (hnint : n < 2 ^ 31) (hblock : 0 < block)
    (hmax : block ≤ 1024) :
    ∃ grid, launchVectorAdd false n block = .grid grid ∧
      launchHistogram256 false false none n block = .grid grid ∧
      (launchReduceSum false false none n block = .grid grid ↔ isPow2 block ∧ 32 ≤ block) ∧
      (SharesOut n grid block ↔ n + 65535 * block ≤ 2 ^ 31) := by
  have hconfigure : configure (blocksFor n block) block = .grid (blocksFor n block).toNat :=
    configure_eq (by omega) (by omega)
  have hn0 : (n : ℤ) ≠ 0 := by omega
  refine ⟨(blocksFor n block).toNat, ?_, ?_, ?_, ?_⟩
  · rw [launchVectorAdd, if_neg (by simp), if_neg hn0, if_pos (by omega), hconfigure]
  · rw [launchHistogram256, if_neg (by simp), kMaxThreadsPerBlock, if_neg (by omega)]
    simp only [hn0, if_false, hconfigure]
  · rw [launchReduceSum, if_neg (by simp), kMaxThreadsPerBlock]
    by_cases hpow : isPow2 block ∧ 32 ≤ block
    · have hneg : ¬ (¬ isPow2 block ∨ (block : ℤ) < 32 ∨ (1024 : ℤ) < block) := by
        rintro (hnot | hlt | hlt)
        · exact hnot hpow.1
        · omega
        · omega
      rw [if_neg hneg]
      simp [hn.ne', hconfigure, hpow]
    · have hbad : ¬ isPow2 block ∨ (block : ℤ) < 32 ∨ (1024 : ℤ) < block := by
        by_cases hp : isPow2 block
        · have hlt : ¬ 32 ≤ block := fun hle => hpow ⟨hp, hle⟩
          exact .inr (.inl (by omega))
        · exact .inl hp
      rw [if_pos hbad]
      simp [hpow]
  · by_cases hsum : n + block < 2 ^ 31
    · rw [blocksFor_toNat hblock hsum]
      by_cases hle : n + 65535 * block ≤ 2 ^ 31
      · simp only [hle, iff_true]
        refine sharesOut_of_le hblock (by omega) hsum ?_
        have hmul : max 1 (min ((n + block - 1) / block) 65535) * block ≤ 65535 * block :=
          Nat.mul_le_mul_right _ (by omega)
        omega
      · simp only [hle, iff_false]
        have hmany : 65535 ≤ (n + block - 1) / block := by
          rw [Nat.le_div_iff_mul_le hblock]
          omega
        have hgrid : max 1 (min ((n + block - 1) / block) 65535) = 65535 := by omega
        rw [hgrid]
        exact not_sharesOut hn hnint (by omega) (by omega) (by omega)
    · constructor
      · intro h
        have hfits := h.sum_fits.2
        omega
      · omega

/-- An array whose last index the first step beyond takes below zero. -/
theorem not_sharesOut_large :
    ∃ grid, launchVectorAdd false 2140000000 256 = .grid grid ∧
      ¬ SharesOut 2140000000 grid 256 := by
  refine ⟨65535, by decide +kernel, ?_⟩
  exact not_sharesOut (n := 2140000000) (by norm_num) (by norm_num) (by norm_num) (by norm_num)
    (by norm_num)

theorem launch_sharesOut_iff_large :
    ∃ grid, launchVectorAdd false 2000000000 256 = .grid grid ∧
      launchHistogram256 false false none 2000000000 256 = .grid grid ∧
      (launchReduceSum false false none 2000000000 256 = .grid grid ↔
        isPow2 256 ∧ 32 ≤ 256) ∧
      (SharesOut 2000000000 grid 256 ↔ 2000000000 + 65535 * 256 ≤ 2 ^ 31) :=
  @launch_sharesOut_iff 2000000000 256 (by norm_num) (by norm_num) (by norm_num)
    (by norm_num)

end Cudatest
