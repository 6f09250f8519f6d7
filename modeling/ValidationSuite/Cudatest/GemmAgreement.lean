import ValidationSuite.Cudatest.GemmProperties

/-!
# The kernels and the reference agree

The naive kernel has a single round, in which every thread stores its element of the product. So
the results of the two kernels, and of the reference, are the same matrix.
-/

namespace Cudatest

open Simt Transition

section Grid

variable {R : Type} [Semiring R] {x y : ℕ} {M N K : ℤ}

/-! ### The naive kernel -/

variable (M N K)

def naiveLog (t : Thread x y) : List (Op R x y) :=
  (List.range' 0 K.toNat).flatMap fun (k : ℕ) =>
    [.load (.A (flat (row t) K k)), .load (.B (flat k N (col t)))]

def naiveSum (m : Memory R x y) (t : Thread x y) : R :=
  ∑ k ∈ Finset.range K.toNat, m (.A (flat (row t) K k)) * m (.B (flat k N (col t)))

/-- The stores of the only round. -/
def naiveWrites (t : Thread x y) (e : ℕ) : Set (Loc x y) :=
  {l | e = 0 ∧ row t < M ∧ col t < N ∧ l = .C (flat (row t) N (col t))}

def naiveView (m : Memory R x y) (e : ℕ) : Memory R x y
  | .C i => if e = 0 then m (.C i) else product N K m i
  | .A i => m (.A i)
  | .B i => m (.B i)
  | .As b r c => m (.As b r c)
  | .Bs b r c => m (.Bs b r c)

def naivePlan (m : Memory R x y) :
    Plan (Thread x y) (Block x y) (Op R x y) Access.Res (fun _ : Loc x y => R) where
  prog t _ := gemmNaiveKernel M N K t
  view _ e := naiveView N K m e
  writes := naiveWrites M N
  foot := foot M N

variable {M N K} (m : Memory R x y) (t : Thread x y)

lemma solo_naive :
    (gemmNaiveKernel M N K t).solo Access.exec m =
      if row t < M ∧ col t < N then
        ⟨naiveLog N K t ++ [.store (.C (flat (row t) N (col t))) (naiveSum N K m t)],
          Function.update m (.C (flat (row t) N (col t))) (naiveSum N K m t), .inl ()⟩
      else ⟨[], m, .inl ()⟩ := by
  have hstep : ∀ k acc, (naiveStep N K t k acc).solo Access.exec m =
      ⟨[.load (.A (flat (row t) K k)), .load (.B (flat k N (col t)))], m,
        .inl (acc + m (.A (flat (row t) K k)) * m (.B (flat k N (col t))))⟩ := fun k acc => rfl
  by_cases hin : row t < M ∧ col t < N
  · have hout : ¬ (M ≤ row t ∨ N ≤ col t) := by omega
    rw [gemmNaiveKernel, if_neg hout, if_pos hin, Prog.solo_bind, Prog.solo_loop Access.exec
      (f := fun k acc => acc + m (.A (flat (row t) K k)) * m (.B (flat k N (col t)))) hstep,
      foldl_add_eq_sum, zero_add, Round.andThen_inl, storeR, solo_store, Round.after_mk,
      naiveLog, naiveSum]
  · have hout : M ≤ row t ∨ N ≤ col t := by omega
    rw [gemmNaiveKernel, if_pos hout, if_neg hin]
    rfl

@[simp] lemma naivePlan_prog (e : ℕ) :
    (naivePlan M N K m).prog t e = gemmNaiveKernel M N K t := by
  simp only [naivePlan]

lemma A_mem_naive_reads (b : Block x y) (n : ℤ) :
    .A n ∈ (naivePlan M N K m).reads Prod.fst b 0 :=
  ⟨trivial, fun t _ => by simp [naivePlan, naiveWrites]⟩

lemma B_mem_naive_reads (b : Block x y) (n : ℤ) :
    .B n ∈ (naivePlan M N K m).reads Prod.fst b 0 :=
  ⟨trivial, fun t _ => by simp [naivePlan, naiveWrites]⟩

lemma naiveView_zero (l : Loc x y) : naiveView N K m 0 l = m l := by
  cases l <;> rfl

lemma naiveView_succ (e : ℕ) (i : ℤ) :
    naiveView N K m (e + 1) (.C i : Loc x y) = product N K m i := by
  rw [naiveView, if_neg (Nat.succ_ne_zero e)]

lemma naive_round :
    (naivePlan M N K m).round Access.exec Prod.fst t 0 =
      if row t < M ∧ col t < N then
        ⟨naiveLog N K t ++ [.store (.C (flat (row t) N (col t))) (naiveSum N K m t)],
          Function.update m (.C (flat (row t) N (col t))) (naiveSum N K m t), .inl ()⟩
      else ⟨[], m, .inl ()⟩ := by
  have hview : (naivePlan M N K m).view t.1 0 = m := funext (naiveView_zero m)
  rw [Plan.round, naivePlan_prog, hview, solo_naive]

section Naive

lemma confined_naive {o : Op R x y}
    (ho : o ∈ ((naivePlan M N K m).round Access.exec Prod.fst t 0).log) :
    Confined Access.exec ((naivePlan M N K m).reads Prod.fst t.1 0) (naiveWrites M N t 0) o := by
  rw [naive_round] at ho
  split_ifs at ho with hin
  · rcases List.mem_append.mp ho with ho | ho
    · obtain ⟨k, -, ho⟩ := List.mem_flatMap.mp ho
      simp only [List.mem_cons, List.not_mem_nil, or_false] at ho
      rcases ho with rfl | rfl
      · exact confined_load (.inl (A_mem_naive_reads m t.1 _))
      · exact confined_load (.inl (B_mem_naive_reads m t.1 _))
    · rw [List.mem_singleton.mp ho]
      exact confined_store _ ⟨rfl, hin.1, hin.2, rfl⟩
  · exact absurd ho List.not_mem_nil

/-- What nobody writes stays as it is. -/
lemma naiveView_kept {b : Block x y} {l : Loc x y}
    (hl : l ∈ (naivePlan M N K m).reads Prod.fst b 0) :
    naiveView N K m 1 l = naiveView N K m 0 l := by
  obtain ⟨hfoot, hquiet⟩ := hl
  cases l with
  | C i =>
    obtain ⟨t, hb, hr, hc, hi⟩ := hfoot
    exact absurd ⟨rfl, hr, hc, congrArg Loc.C hi⟩ (hquiet t hb)
  | A i => rfl
  | B i => rfl
  | As b' r c => rfl
  | Bs b' r c => rfl

variable (h : Admissible M N K) (hcov : Covers M N x y)
include h hcov

theorem naivePlan_sound :
    (naivePlan M N K m).Sound Access.exec Prod.fst 0 m (gemmNaiveKernel M N K) where
  prog_zero t := naivePlan_prog m t 0
  view_zero b l _ := naiveView_zero m l
  next t e he := absurd he (Nat.not_lt_zero e)
  last t := by
    rw [naive_round]
    split_ifs
    · rfl
    · rfl
  confined t e he o ho := by
    obtain rfl := Nat.le_zero.mp he
    exact confined_naive m t ho
  written t e he l hl := by
    obtain ⟨rfl, hr, hc, rfl⟩ := hl
    simp only [naive_round, hr, hc, and_self, if_true, Function.update_self]
    rw [naiveSum, ← product_flat m h (row_nonneg hcov h.M_le t) hr (col_nonneg hcov h.N_le t) hc]
    exact naiveView_succ m 0 _
  kept b e he l hl := by
    obtain rfl := Nat.le_zero.mp he
    exact naiveView_kept m hl
  within t e l hl := by
    obtain ⟨-, hr, hc, rfl⟩ := hl
    exact ⟨t, rfl, hr, hc, rfl⟩
  alone t t' e _ hne l hl hl' := by
    obtain ⟨-, hr, hc, rfl⟩ := hl
    obtain ⟨-, hr', hc', heq⟩ := hl'
    exact hne (eq_of_flat_eq h hcov hr hc hr' hc' (Loc.C.inj heq))
  apart t e b hb l hl hfoot := by
    obtain ⟨-, hr, hc, rfl⟩ := hl
    obtain ⟨u, rfl, hr', hc', heq⟩ := hfoot
    exact hb (congrArg Prod.fst (eq_of_flat_eq h hcov hr hc hr' hc' heq))

end Naive

/-! ### Accesses -/

/-- The thread of the element at `r` and `c`. -/
lemma exists_thread_at (hcov : Covers M N x y) {r c : ℤ} (hr : 0 ≤ r) (hrM : r < M) (hc : 0 ≤ c)
    (hcN : c < N) :
    ∃ t : Thread x y, (t.1.2 * 16 + t.2.2 : ℤ) = r ∧ (t.1.1 * 16 + t.2.1 : ℤ) = c := by
  obtain ⟨hry, hcx⟩ := hcov.covers r c hr hrM hc hcN
  have hlt (n : ℤ) : (n % 16).toNat < kTile := by
    change _ < 16
    omega
  refine ⟨((⟨(c / 16).toNat, by omega⟩, ⟨(r / 16).toNat, by omega⟩),
    ⟨(c % 16).toNat, hlt c⟩, ⟨(r % 16).toNat, hlt r⟩), ?_, ?_⟩
  · simp only
    omega
  · simp only
    omega

lemma exists_thread (hcov : Covers M N x y) (hM : M ≤ 2 ^ 31 - 64) (hN : N ≤ 2 ^ 31 - 64) {r c : ℤ}
    (hr : 0 ≤ r) (hrM : r < M) (hc : 0 ≤ c) (hcN : c < N) :
    ∃ t : Thread x y, row t = r ∧ col t = c := by
  obtain ⟨t, hrow, hcol⟩ := exists_thread_at (x := x) (y := y) hcov hr hrM hc hcN
  exact ⟨t, (row_eq hcov hM t).trans hrow, (col_eq hcov hN t).trans hcol⟩

variable (M N K)

/-- A place of the product. -/
def InProduct (i : ℤ) : Prop := ∃ r c, 0 ≤ r ∧ r < M ∧ 0 ≤ c ∧ c < N ∧ i = r * N + c

/-- The thread reads the matrices and uses the tiles of its block. -/
def ReadsInBounds (b : Block x y) : Op R x y → Prop
  | .load (.A i) => 0 ≤ i ∧ i < M * K
  | .load (.B i) => 0 ≤ i ∧ i < K * N
  | .load (.As b' r c) | .load (.Bs b' r c) | .store (.As b' r c) _ | .store (.Bs b' r c) _ =>
    b' = b ∧ r < kTile ∧ c < kTile
  | .load (.C _) | .store (.A _) _ | .store (.B _) _ | .store (.C _) _ => False

/-- Apart from this, it writes the product. -/
def InBounds (b : Block x y) (o : Op R x y) : Prop :=
  ReadsInBounds M N K b o ∨ ∃ i v, o = .store (.C i) v ∧ InProduct M N i

/-- Is it a store to `l`? -/
def storesTo (l : Loc x y) : Op R x y → Bool
  | .load _ => false
  | .store l' _ => l' = l

/-- The runs of the kernel: every access is in bounds; as long as a thread has not come to its end
a step can be taken, and not for ever; and when all have come to their end, each element of the
product has been stored once, and the result is `D`. -/
structure Computes (kernel : Thread x y → Kernel R x y Unit) (m : Memory R x y) (D : ℤ → R) :
    Prop where
  inBounds : ∀ s, (runKernel kernel m).Reachable s → ∀ t, ∀ o ∈ s.log t, InBounds M N K t.1 o
  progress : ∀ s, (runKernel kernel m).Reachable s → (∃ t, s.progs t ≠ .pure ()) →
    ∃ l s', (runKernel kernel m).step s l s'
  bounded : ∃ n, ∀ s₀ ls s, (runKernel kernel m).init s₀ → (runKernel kernel m).Path s₀ ls s →
    ls.length ≤ n
  once : ∀ s, (runKernel kernel m).Reachable s → (∀ t, s.progs t = .pure ()) → ∀ i,
    InProduct M N i → ∑ t, (s.log t).countP (storesTo (.C i)) = 1
  result : ∀ s, (runKernel kernel m).Reachable s → (∀ t, s.progs t = .pure ()) → ∀ i,
    s.mem (.C i) = D i

/-- The product in its places, and nothing new elsewhere. -/
def gemm (m : Memory R x y) (i : ℤ) : R :=
  if 0 ≤ i ∧ i < M * N then product N K m i else m (.C i)

variable {M N K} {m : Memory R x y} {n : ℕ} {kernel : Thread x y → Kernel R x y Unit}
  {P : Plan (Thread x y) (Block x y) (Op R x y) Access.Res (fun _ : Loc x y => R)}

omit [Semiring R] in
lemma storesTo_of_reads {b : Block x y} {o : Op R x y} (ho : ReadsInBounds M N K b o) (i : ℤ) :
    storesTo (.C i) o = false := by
  cases o with
  | load l => rfl
  | store l v =>
    cases l with
    | C j => exact ho.elim
    | A j => simp [storesTo]
    | B j => simp [storesTo]
    | As b' r c => simp [storesTo]
    | Bs b' r c => simp [storesTo]

variable (h : Admissible M N K) (hcov : Covers M N x y)
include h

omit [Semiring R] in
lemma inProduct_iff {i : ℤ} : InProduct M N i ↔ 0 ≤ i ∧ i < M * N := by
  constructor
  · rintro ⟨r, c, hr, hrM, hc, hcN, rfl⟩
    exact flat_bounds hr hrM hc hcN
  · rintro ⟨hi, hlt⟩
    have hN : 0 < N := by
      refine lt_of_le_of_ne h.N_nonneg fun heq => ?_
      rw [← heq, mul_zero] at hlt
      omega
    refine ⟨i / N, i % N, Int.ediv_nonneg hi hN.le, Int.ediv_lt_of_lt_mul hN hlt,
      Int.emod_nonneg i hN.ne', Int.emod_lt_of_pos i hN, (Int.ediv_mul_add_emod i N).symm⟩

include hcov

omit [Semiring R] in
lemma inProduct_flat {t : Thread x y} (hr : row t < M) (hc : col t < N) :
    InProduct M N (flat (row t) N (col t)) := by
  have hr0 := row_nonneg hcov h.M_le t
  have hc0 := col_nonneg hcov h.N_le t
  exact ⟨row t, col t, hr0, hr, hc0, hc, flat_eq hr0 hr hc0 hc h.MN_le⟩

omit [Semiring R] in
lemma exists_thread_of_inProduct {i : ℤ} (hi : InProduct M N i) :
    ∃ t : Thread x y, row t < M ∧ col t < N ∧ i = flat (row t) N (col t) := by
  obtain ⟨r, c, hr, hrM, hc, hcN, rfl⟩ := hi
  obtain ⟨t, rfl, rfl⟩ := exists_thread hcov h.M_le h.N_le hr hrM hc hcN
  exact ⟨t, hrM, hcN, (flat_eq hr hrM hc hcN h.MN_le).symm⟩

omit [Semiring R] in
/-- Of all threads, only the one of the place stores there, and once. -/
lemma countP_storesTo {t u : Thread x y} {log ops : List (Op R x y)} {v : R}
    (hlog : log =
      ops ++ (if row u < M ∧ col u < N then [.store (.C (flat (row u) N (col u))) v] else []))
    (hops : ∀ o ∈ ops, ReadsInBounds M N K u.1 o) (hr : row t < M) (hc : col t < N) :
    log.countP (storesTo (.C (flat (row t) N (col t)))) = if u = t then 1 else 0 := by
  have hzero : ops.countP (storesTo (.C (flat (row t) N (col t)))) = 0 :=
    List.countP_eq_zero.mpr fun o ho => by simp [storesTo_of_reads (hops o ho)]
  rw [hlog, List.countP_append, hzero, zero_add]
  by_cases hu : u = t
  · simp [hu, hr, hc, storesTo]
  · rw [if_neg hu]
    split_ifs with hin
    · have hne : flat (row u) N (col u) ≠ flat (row t) N (col t) := fun heq =>
        hu (eq_of_flat_eq h hcov hin.1 hin.2 hr hc heq)
      simp [storesTo, hne]
    · rfl

/-- What a plan has to say for the kernel to compute the product. -/
lemma Computes.of_plan (hP : P.Sound Access.exec Prod.fst n m kernel) (hfoot : P.foot = foot M N)
    (hview : ∀ b i, P.view b (n + 1) (.C i) = product N K m i)
    (hlog : ∀ t, ∃ ops v, P.before Access.exec Prod.fst t (n + 1) =
        ops ++ (if row t < M ∧ col t < N then [.store (.C (flat (row t) N (col t))) v] else []) ∧
      ∀ o ∈ ops, ReadsInBounds M N K t.1 o) :
    Computes M N K kernel m (gemm M N K m) where
  inBounds s hs t o ho := by
    obtain ⟨ops, v, hbefore, hops⟩ := hlog t
    have hmem := (hP.log_prefix hs t).subset ho
    rw [hbefore, List.mem_append, List.mem_ite_nil_right, List.mem_singleton] at hmem
    obtain hmem | ⟨⟨hr, hc⟩, rfl⟩ := hmem
    · exact .inl (hops o hmem)
    · exact .inr ⟨_, v, rfl, inProduct_flat h hcov hr hc⟩
  progress s hs hundone := hP.progress hs hundone
  bounded := hP.bounded
  once s hs hdone i hi := by
    obtain ⟨t, hr, hc, hit⟩ := exists_thread_of_inProduct (x := x) (y := y) h hcov hi
    have hcount (u : Thread x y) :
        (s.log u).countP (storesTo (.C i)) = if u = t then 1 else 0 := by
      obtain ⟨ops, v, hbefore, hops⟩ := hlog u
      rw [(hP.of_done hs hdone).1 u, hit]
      exact countP_storesTo h hcov hbefore hops hr hc
    rw [Finset.sum_congr rfl fun u _ => hcount u, Finset.sum_ite_eq' Finset.univ t fun _ => 1,
      if_pos (Finset.mem_univ t)]
  result s hs hdone i := by
    obtain ⟨-, hmem, houtside⟩ := hP.of_done hs hdone
    by_cases hi : InProduct M N i
    · obtain ⟨t, hr, hc, heq⟩ := exists_thread_of_inProduct (x := x) (y := y) h hcov hi
      rw [gemm, if_pos ((inProduct_iff h).mp hi), hmem t _ ?_, hview]
      rw [hfoot]
      exact ⟨t, rfl, hr, hc, heq⟩
    · rw [gemm, if_neg (mt (inProduct_iff h).mpr hi)]
      refine houtside _ fun b hb => hi ?_
      rw [hfoot] at hb
      obtain ⟨t, -, hr, hc, heq⟩ := hb
      rw [heq]
      exact inProduct_flat h hcov hr hc

/-! ### The two kernels -/

omit [Semiring R] in
lemma load_A_inBounds {t : Thread x y} {k : ℤ} (hr : row t < M) (hk0 : 0 ≤ k) (hk : k < K) :
    ReadsInBounds (R := R) M N K t.1 (.load (.A (flat (row t) K k))) := by
  have hr0 := row_nonneg hcov h.M_le t
  rw [flat_eq hr0 hr hk0 hk h.MK_le]
  exact flat_bounds hr0 hr hk0 hk

omit [Semiring R] in
lemma load_B_inBounds {t : Thread x y} {k : ℤ} (hk0 : 0 ≤ k) (hk : k < K) (hc : col t < N) :
    ReadsInBounds (R := R) M N K t.1 (.load (.B (flat k N (col t)))) := by
  have hc0 := col_nonneg hcov h.N_le t
  rw [flat_eq hk0 hk hc0 hc h.KN_le]
  exact flat_bounds hk0 hk hc0 hc

theorem computes_naive (m : Memory R x y) :
    Computes M N K (gemmNaiveKernel M N K) m (gemm M N K m) := by
  refine .of_plan h hcov (naivePlan_sound m h hcov) rfl (fun b i => naiveView_succ m 0 i)
    fun t => ?_
  refine ⟨if row t < M ∧ col t < N then naiveLog N K t else [], naiveSum N K m t, ?_, ?_⟩
  · rw [Plan.before, Plan.before, naive_round, List.nil_append]
    split_ifs
    · rfl
    · rfl
  · intro o ho
    obtain ⟨⟨hr, hc⟩, ho⟩ := List.mem_ite_nil_right.mp ho
    obtain ⟨k, hk, ho⟩ := List.mem_flatMap.mp ho
    have hlt : (k : ℤ) < K := by
      simp only [List.mem_range'_1] at hk
      omega
    simp only [List.mem_cons, List.not_mem_nil, or_false] at ho
    rcases ho with rfl | rfl
    · exact load_A_inBounds h hcov hr (Int.natCast_nonneg k) hlt
    · exact load_B_inBounds h hcov (Int.natCast_nonneg k) hlt hc

theorem computes_tiled (m : Memory R x y) :
    Computes M N K (gemmTiledKernel M N K) m (gemm M N K m) := by
  refine .of_plan h hcov (plan_sound m h hcov) rfl (fun b i => if_pos (Nat.lt_succ_self _))
    fun t => ?_
  refine ⟨(plan M N K m).before Access.exec Prod.fst t (rounds K),
    partialSum M N K m t (tiles K * kTile), ?_, ?_⟩
  · rw [Plan.before, round_last]
  · intro o ho
    obtain ⟨e, he, ho⟩ := (Plan.mem_before _ _ _).mp ho
    obtain ⟨i, hi, rfl⟩ | ⟨i, hi, rfl⟩ | rfl := round_cases he.le
    · rw [round_load m t hi (tile_bound h hi)] at ho
      simp only [loadLog, List.mem_append, List.mem_singleton, List.mem_ite_nil_right] at ho
      rcases ho with ((⟨⟨hr, hk⟩, rfl⟩ | rfl) | ⟨⟨hk, hc⟩, rfl⟩) | rfl
      · exact load_A_inBounds h hcov hr (by positivity) hk
      · exact ⟨rfl, t.2.2.isLt, t.2.1.isLt⟩
      · exact load_B_inBounds h hcov (by positivity) hk hc
      · exact ⟨rfl, t.2.2.isLt, t.2.1.isLt⟩
    · rw [round_use m t (row_eq hcov h.M_le t) (col_eq hcov h.N_le t) hi] at ho
      obtain ⟨k, hk, ho⟩ := List.mem_flatMap.mp ho
      have hlt : k < kTile := by
        simpa using hk
      simp only [List.mem_cons, List.not_mem_nil, or_false] at ho
      rcases ho with rfl | rfl
      · exact ⟨rfl, t.2.2.isLt, hlt⟩
      · exact ⟨rfl, hlt, t.2.1.isLt⟩
    · exact absurd he (lt_irrefl _)

end Grid

/-! ### The reference -/

section Reference

variable {R α : Type}

@[simp] lemma forLt_succ (n : ℕ) (body : ℕ → α → α) (a : α) :
    forLt (n + 1 : ℕ) body a = body n (forLt n body a) := by
  simp [forLt, List.range_succ]

/-- A loop depends on its body at the indices it runs through. -/
lemma forLt_congr {n : ℤ} {body body' : ℕ → α → α} (h : ∀ i : ℕ, i < n → body i = body' i) (a : α) :
    forLt n body a = forLt n body' a := by
  refine List.foldl_ext _ _ _ fun a i hi => congrFun (h i ?_) a
  have hlt := List.mem_range.mp hi
  omega

/-- A loop that sets one place after another. -/
lemma forLt_update (f : ℤ → R) (base : ℤ) (n : ℕ) (C : ℤ → R) (p : ℤ) :
    forLt n (fun j C => Function.update C (base + j) (f (base + j))) C p =
      if base ≤ p ∧ p < base + n then f p else C p := by
  induction n with
  | zero =>
    rw [if_neg (by omega)]
    rfl
  | succ n ih =>
    rw [forLt_succ]
    by_cases hp : p = base + n
    · subst hp
      rw [Function.update_self, if_pos (by omega)]
    · rw [Function.update_of_ne hp, ih]
      exact if_congr (by omega) rfl rfl

/-- A loop that does so row by row. -/
lemma forLt_forLt_update (f : ℤ → R) (width n : ℕ) (C : ℤ → R) (p : ℤ) :
    forLt n (fun i (C : ℤ → R) => forLt width
      (fun j C => Function.update C ((i * width : ℤ) + j) (f (i * width + j))) C) C p =
      if 0 ≤ p ∧ p < n * width then f p else C p := by
  induction n with
  | zero =>
    rw [if_neg (by omega)]
    rfl
  | succ n ih =>
    have hsplit : ((n + 1 : ℕ) : ℤ) * width = n * width + width := by
      rw [Nat.cast_succ, add_mul, one_mul]
    have hnonneg : 0 ≤ (n : ℤ) * width := by positivity
    rw [forLt_succ, forLt_update, ih, hsplit]
    by_cases hp : (n * width : ℤ) ≤ p ∧ p < n * width + width
    · rw [if_pos hp, if_pos (by omega)]
    · rw [if_neg hp]
      exact if_congr (by omega) rfl rfl

variable [Semiring R] {x y : ℕ} {M N K : ℤ}

lemma forLt_add_eq_sum (f : ℕ → R) (n : ℤ) :
    forLt n (fun k acc => acc + f k) 0 = ∑ k ∈ Finset.range n.toNat, f k := by
  rw [forLt, List.range_eq_range', foldl_add_eq_sum, zero_add]

theorem cpuGemm_eq (h : Admissible M N K) (m : Memory R x y) :
    cpuGemm M N K (fun i => m (.A i)) (fun i => m (.B i)) (fun i => m (.C i)) =
      gemm M N K m := by
  have hentry : ∀ i : ℕ, i < M → ∀ j : ℕ, j < N → (fun C : ℤ → R =>
      Function.update C (flat i N j) (forLt K
        (fun k acc => acc + m (.A (flat i K k)) * m (.B (flat k N j))) 0)) =
      fun C => Function.update C (i * N + j) (product N K m (i * N + j)) := by
    intro i hi j hj
    have hi0 := Int.natCast_nonneg i
    have hj0 := Int.natCast_nonneg j
    rw [forLt_add_eq_sum, ← product_flat m h hi0 hi hj0 hj, flat_eq hi0 hi hj0 hj h.MN_le]
  funext p
  rw [cpuGemm, forLt_congr fun i hi => funext fun C => forLt_congr (hentry i hi) C]
  obtain ⟨width, rfl⟩ := Int.eq_ofNat_of_zero_le h.N_nonneg
  obtain ⟨height, rfl⟩ := Int.eq_ofNat_of_zero_le h.M_nonneg
  exact forLt_forLt_update _ width height _ p

end Reference

/-! ### All three -/

section Agreement

variable {R : Type} [Semiring R]

/-- Global memory with these matrices, and shared memory with anything in it. -/
def memory {x y : ℕ} (A B C : ℤ → R) (As Bs : Block x y → ℕ → ℕ → R) : Memory R x y
  | .A i => A i
  | .B i => B i
  | .C i => C i
  | .As b r c => As b r c
  | .Bs b r c => Bs b r c

/-- The runs of the two kernels on the grids they are launched with compute what the reference
does, and so the same matrix. -/
structure Agree (M N K : ℤ) (A B C : ℤ → R) : Prop where
  tiled : ∀ As Bs : Block (launchGemmTiled false M N K).x (launchGemmTiled false M N K).y →
      ℕ → ℕ → R,
    Computes M N K (gemmTiledKernel M N K) (memory A B C As Bs) (cpuGemm M N K A B C)
  naive : ∀ As Bs : Block (launchGemmNaive false M N K).x (launchGemmNaive false M N K).y →
      ℕ → ℕ → R,
    Computes M N K (gemmNaiveKernel M N K) (memory A B C As Bs) (cpuGemm M N K A B C)
  same : ∀ (As Bs : Block (launchGemmTiled false M N K).x (launchGemmTiled false M N K).y →
      ℕ → ℕ → R)
    (As' Bs' : Block (launchGemmNaive false M N K).x (launchGemmNaive false M N K).y → ℕ → ℕ → R)
    (s s'), (runKernel (gemmTiledKernel M N K) (memory A B C As Bs)).Reachable s →
      (∀ t, s.progs t = .pure ()) →
      (runKernel (gemmNaiveKernel M N K) (memory A B C As' Bs')).Reachable s' →
      (∀ t, s'.progs t = .pure ()) → ∀ i, s.mem (.C i) = s'.mem (.C i)

theorem gemm_agree {M N K : ℤ} (h : Admissible M N K) (A B C : ℤ → R) : Agree M N K A B C := by
  have htiled (As Bs : Block (launchGemmTiled false M N K).x (launchGemmTiled false M N K).y →
      ℕ → ℕ → R) :
      Computes M N K (gemmTiledKernel M N K) (memory A B C As Bs) (cpuGemm M N K A B C) := by
    have hcomputes := computes_tiled h h.covers (memory A B C As Bs)
    rwa [← cpuGemm_eq h] at hcomputes
  have hnaive (As Bs : Block (launchGemmNaive false M N K).x (launchGemmNaive false M N K).y →
      ℕ → ℕ → R) :
      Computes M N K (gemmNaiveKernel M N K) (memory A B C As Bs) (cpuGemm M N K A B C) := by
    have hcomputes := computes_naive h h.covers (memory A B C As Bs)
    rwa [← cpuGemm_eq h] at hcomputes
  refine ⟨htiled, hnaive, fun As Bs As' Bs' s s' hs hdone hs' hdone' i => ?_⟩
  rw [(htiled As Bs).result s hs hdone i, (hnaive As' Bs').result s' hs' hdone' i]

/-- Sizes that are no multiples of the tile. -/
theorem gemm_agree_ragged :
    Agree 17 33 19 (fun i : ℤ => i) (fun i => 3 - i) (fun _ => 7) :=
  gemm_agree ⟨by decide, by decide, by decide, by decide, by decide, by decide, by decide,
    by decide, by decide, by decide⟩ _ _ _

end Agreement

end Cudatest
