import Mathlib.Algebra.BigOperators.Ring.Finset
import Mathlib.Algebra.BigOperators.Intervals
import Mathlib.Tactic.Linarith
import ValidationSuite.Cudatest.Gemm

/-!
# The tiled product is the product

Round by round, the threads of a block first load a tile of each matrix, one element each, and then
read these tiles; after the last one each stores its element of the product. Nobody writes what
another thread reads or writes in the same round.
-/

namespace Cudatest

open Simt

/-- The sizes the kernels are good for. -/
structure Admissible (M N K : ℤ) : Prop where
  M_nonneg : 0 ≤ M
  N_nonneg : 0 ≤ N
  K_nonneg : 0 ≤ K
  M_le : M ≤ 2 ^ 31 - 64
  N_le : N ≤ 2 ^ 31 - 64
  K_le : K ≤ 2 ^ 31 - 64
  MK_le : M * K ≤ 2 ^ 31 - 1
  KN_le : K * N ≤ 2 ^ 31 - 1
  MN_le : M * N ≤ 2 ^ 31 - 1
  /-- the bound of CUDA on `gridDim.y` -/
  grid : (M + 15) / 16 ≤ 65535

/-! ### Indices -/

lemma kTile_cast : ((kTile : ℕ) : ℤ) = 16 := rfl

lemma int32_eq {n : ℤ} (h : 0 ≤ n) (hlt : n < 2 ^ 31) : int32 n = n := by
  rw [int32, Int.bmod_eq_of_le]
  · omega
  · omega

/-- The product need not be an `int` by itself. -/
lemma flat_eq_int32 (r width c : ℤ) : flat r width c = int32 (r * width + c) := by
  rw [flat, int32, int32, int32, Int.bmod_add_bmod]

lemma flat_eq_of_le {r height width c : ℤ} (hr : 0 ≤ r) (hrh : r < height) (hc : 0 ≤ c)
    (hcw : c < width) (hsize : height * width ≤ 2 ^ 31) : flat r width c = r * width + c := by
  have hrow : r * width + width ≤ height * width := by nlinarith
  have hnonneg : 0 ≤ r * width := by nlinarith
  rw [flat_eq_int32, int32_eq (by omega) (by omega)]

lemma flat_eq {r height width c : ℤ} (hr : 0 ≤ r) (hrh : r < height) (hc : 0 ≤ c)
    (hcw : c < width) (hsize : height * width ≤ 2 ^ 31 - 1) : flat r width c = r * width + c :=
  flat_eq_of_le hr hrh hc hcw (by omega)

/-- The place of an element in a matrix is within the matrix. -/
lemma flat_bounds {r height width c : ℤ} (hr : 0 ≤ r) (hrh : r < height) (hc : 0 ≤ c)
    (hcw : c < width) : 0 ≤ r * width + c ∧ r * width + c < height * width := by
  constructor <;> nlinarith

/-- Different elements have different places. -/
lemma flat_inj {r r' width c c' : ℤ} (hc : 0 ≤ c) (hcw : c < width) (hc' : 0 ≤ c')
    (hcw' : c' < width) (h : r * width + c = r' * width + c') : r = r' ∧ c = c' := by
  have hr : r = r' := by nlinarith
  subst hr
  exact ⟨rfl, by linarith⟩

lemma flat_ediv {r width c : ℤ} (hc : 0 ≤ c) (hcw : c < width) : (r * width + c) / width = r := by
  have hpos : 0 < width := by omega
  rw [Int.add_comm, Int.add_mul_ediv_right _ _ hpos.ne', Int.ediv_eq_zero_of_lt hc hcw, zero_add]

lemma flat_emod {r width c : ℤ} (hc : 0 ≤ c) (hcw : c < width) : (r * width + c) % width = c := by
  rw [Int.add_comm, Int.add_mul_emod_self_right, Int.emod_eq_of_lt hc hcw]

lemma tiles_eq_of_le {n : ℤ} (h : 0 ≤ n) (hle : n ≤ 2 ^ 31 - 16) :
    (tiles n : ℤ) = (n + 15) / 16 := by
  have hsum : n + 16 - 1 = n + 15 := by omega
  rw [tiles, kTile_cast, hsum, int32_eq (by omega) (by omega),
    Int.tdiv_eq_ediv_of_nonneg (by omega)]
  exact Int.toNat_of_nonneg (by omega)

lemma tiles_eq {n : ℤ} (h : 0 ≤ n) (hle : n ≤ 2 ^ 31 - 64) : (tiles n : ℤ) = (n + 15) / 16 :=
  tiles_eq_of_le h (by omega)

/-- `n` rows or columns that a tile more leaves an `int` take as many tiles as meant. -/
lemma gridDim_eq {n : ℤ} {tile : ℕ} (h : 0 < n) (htile : 0 < tile) (hsum : n + tile ≤ 2 ^ 31) :
    (gridDim n tile : ℤ) = (n + tile - 1) / tile := by
  have hle : (n + tile - 1) / tile ≤ n + tile - 1 := Int.ediv_le_self _ (by omega)
  have hnonneg : 0 ≤ (n + tile - 1) / tile := Int.ediv_nonneg (by omega) (by omega)
  rw [gridDim, int32_eq (by omega) (by omega), Int.tdiv_eq_ediv_of_nonneg (by omega),
    Int.emod_eq_of_lt hnonneg (by omega)]
  exact Int.toNat_of_nonneg hnonneg

/-- The grid has a thread for every element of the product, and few others. -/
structure Covers (M N : ℤ) (x y : ℕ) : Prop where
  x_le : (x : ℤ) * 16 ≤ N + 15
  y_le : (y : ℤ) * 16 ≤ M + 15
  covers : ∀ r c, 0 ≤ r → r < M → 0 ≤ c → c < N → r < (y : ℤ) * 16 ∧ c < (x : ℤ) * 16

lemma Admissible.covers {M N K : ℤ} (h : Admissible M N K) :
    Covers M N (launchGemm false M N K).x (launchGemm false M N K).y := by
  obtain ⟨hM, hN, hK, hM', hN', -, -, -, -, hgrid⟩ := h
  have hargs : badGemmArgs false M N K = false := by simp [badGemmArgs, hM, hN, hK]
  rw [launchGemm, hargs, if_neg Bool.false_ne_true]
  split_ifs with hzero
  · refine ⟨by simp [Launch.x]; omega, by simp [Launch.y]; omega, fun r c hr hrM hc hcN => ?_⟩
    omega
  · have hdimM : (gridDim M kTile : ℤ) = (M + 16 - 1) / 16 :=
      gridDim_eq (by omega) (by decide) (by rw [kTile_cast]; omega)
    have hdimN : (gridDim N kTile : ℤ) = (N + 16 - 1) / 16 :=
      gridDim_eq (by omega) (by decide) (by rw [kTile_cast]; omega)
    rw [launchGrid, if_neg (by omega)]
    simp only [Launch.x, Launch.y]
    exact ⟨by omega, by omega, fun r c hr hrM hc hcN => ⟨by omega, by omega⟩⟩

section Grid

variable {R : Type} [Semiring R] {x y : ℕ} {M N K : ℤ}

lemma thread_lt (t : Thread x y) : (t.2.1 : ℕ) < 16 ∧ (t.2.2 : ℕ) < 16 :=
  ⟨t.2.1.isLt, t.2.2.isLt⟩

lemma row_eq_of_le (hcov : Covers M N x y) (hM : M ≤ 2 ^ 31 - 16) (t : Thread x y) :
    row t = t.1.2 * 16 + t.2.2 := by
  have hy := hcov.y_le
  have hblock := t.1.2.isLt
  have hthread := (thread_lt t).2
  rw [row, kTile_cast]
  exact int32_eq (by omega) (by omega)

lemma col_eq_of_le (hcov : Covers M N x y) (hN : N ≤ 2 ^ 31 - 16) (t : Thread x y) :
    col t = t.1.1 * 16 + t.2.1 := by
  have hx := hcov.x_le
  have hblock := t.1.1.isLt
  have hthread := (thread_lt t).1
  rw [col, kTile_cast]
  exact int32_eq (by omega) (by omega)

lemma row_eq (hcov : Covers M N x y) (hM : M ≤ 2 ^ 31 - 64) (t : Thread x y) :
    row t = t.1.2 * 16 + t.2.2 :=
  row_eq_of_le hcov (by omega) t

lemma col_eq (hcov : Covers M N x y) (hN : N ≤ 2 ^ 31 - 64) (t : Thread x y) :
    col t = t.1.1 * 16 + t.2.1 :=
  col_eq_of_le hcov (by omega) t

lemma row_nonneg (hcov : Covers M N x y) (hM : M ≤ 2 ^ 31 - 64) (t : Thread x y) : 0 ≤ row t := by
  rw [row_eq hcov hM]
  positivity

lemma col_nonneg (hcov : Covers M N x y) (hN : N ≤ 2 ^ 31 - 64) (t : Thread x y) : 0 ≤ col t := by
  rw [col_eq hcov hN]
  positivity

/-! ### What a thread does in a round -/

variable (M N K)

/-- An element of `A`, or zero outside the matrix; likewise for `B`. -/
def elemA (m : Memory R x y) (r k : ℤ) : R := if r < M ∧ k < K then m (.A (flat r K k)) else 0

def elemB (m : Memory R x y) (k c : ℤ) : R := if k < K ∧ c < N then m (.B (flat k N c)) else 0

/-- The sum of a thread over the first `n` columns of `A` and rows of `B`. -/
def partialSum (m : Memory R x y) (t : Thread x y) (n : ℕ) : R :=
  ∑ k ∈ Finset.range n, elemA M K m (row t) k * elemB N K m k (col t)

lemma solo_loadOrZero (inside : Prop) [Decidable inside] (l : Loc x y) (m : Memory R x y) :
    (loadOrZero inside l).solo Access.exec m =
      ⟨if inside then [.load l] else [], m, .inl (if inside then m l else 0)⟩ := by
  rw [loadOrZero]
  split_ifs
  · rfl
  · rfl

/-- The accesses of a thread that loads its elements of the tiles. -/
def loadLog (m : Memory R x y) (t : Thread x y) (i : ℕ) : List (Op R x y) :=
  (if row t < M ∧ (i * 16 + t.2.1 : ℤ) < K then [.load (.A (flat (row t) K (i * 16 + t.2.1)))]
    else []) ++
  [.store (.As t.1 t.2.2 t.2.1) (elemA M K m (row t) (i * 16 + t.2.1))] ++
  (if (i * 16 + t.2.2 : ℤ) < K ∧ col t < N then [.load (.B (flat (i * 16 + t.2.2) N (col t)))]
    else []) ++
  [.store (.Bs t.1 t.2.2 t.2.1) (elemB N K m (i * 16 + t.2.2) (col t))]

lemma solo_loadTiles (t : Thread x y) {i : ℕ} (hi : (i : ℤ) * 16 + 15 < 2 ^ 31)
    (m : Memory R x y) :
    (loadTiles M N K t i).solo Access.exec m =
      ⟨loadLog M N K m t i,
        Function.update (Function.update m (.As t.1 t.2.2 t.2.1)
          (elemA M K m (row t) (i * 16 + t.2.1))) (.Bs t.1 t.2.2 t.2.1)
          (elemB N K m (i * 16 + t.2.2) (col t)), .inl ()⟩ := by
  have hlt := thread_lt t
  have hmul : int32 (i * kTile) = i * 16 := by
    rw [kTile_cast, int32_eq (by omega) (by omega)]
  have hak : int32 (int32 (i * kTile) + t.2.1) = i * 16 + t.2.1 := by
    rw [hmul, int32_eq (by omega) (by omega)]
  have hbk : int32 (int32 (i * kTile) + t.2.2) = i * 16 + t.2.2 := by
    rw [hmul, int32_eq (by omega) (by omega)]
  have hB (v : R) (n : ℤ) : Function.update m (.As t.1 t.2.2 t.2.1) v (.B n) = m (.B n) := by
    simp
  simp only [loadTiles, hak, hbk, Prog.solo_bind, solo_loadOrZero, Round.andThen_inl, storeR,
    solo_store, Round.after_mk, hB]
  simp only [loadLog, elemA, elemB, List.append_assoc]

/-- The accesses of a thread that reads the tiles. -/
def useLog (t : Thread x y) : List (Op R x y) :=
  (List.range' 0 kTile).flatMap fun k => [.load (.As t.1 t.2.2 k), .load (.Bs t.1 k t.2.1)]

/-- What a thread adds to its sum in a round. -/
def tileSum (m : Memory R x y) (t : Thread x y) : R :=
  ∑ k ∈ Finset.range kTile, m (.As t.1 t.2.2 k) * m (.Bs t.1 k t.2.1)

lemma foldl_add_eq_sum (f : ℕ → R) (n : ℕ) (a : R) :
    (List.range' 0 n).foldl (fun a k => a + f k) a = a + ∑ k ∈ Finset.range n, f k := by
  induction n with
  | zero => simp
  | succ n ih =>
    rw [List.range'_concat, List.foldl_append, ih, Finset.sum_range_succ]
    simp [add_assoc]

lemma solo_useTiles (t : Thread x y) (acc : R) (m : Memory R x y) :
    (useTiles t acc).solo Access.exec m =
      ⟨useLog t, m, .inr (pure (acc + tileSum m t))⟩ := by
  have hstep : ∀ k acc, (tileStep t k acc).solo Access.exec m =
      ⟨[.load (.As t.1 t.2.2 k), .load (.Bs t.1 k t.2.1)], m,
        .inl (acc + m (.As t.1 t.2.2 k) * m (.Bs t.1 k t.2.1))⟩ := fun k acc => rfl
  rw [useTiles, Prog.solo_bind,
    Prog.solo_loop Access.exec (f := fun k acc => acc + m (.As t.1 t.2.2 k) * m (.Bs t.1 k t.2.1))
      hstep, foldl_add_eq_sum]
  simp [syncthreads, useLog, tileSum]

omit [Semiring R] in
lemma solo_storeResult (t : Thread x y) (acc : R) (m : Memory R x y) :
    (storeResult M N t acc).solo Access.exec m =
      ⟨if row t < M ∧ col t < N then [.store (.C (flat (row t) N (col t))) acc] else [],
        if row t < M ∧ col t < N then Function.update m (.C (flat (row t) N (col t))) acc else m,
        .inl ()⟩ := by
  rw [storeResult]
  split_ifs
  · rfl
  · rfl

/-! ### The plan of the rounds -/

/-- Two rounds for each tile: one to load it, one to use it. The last round stores the results. -/
def rounds : ℕ := 2 * tiles K

/-- What the tiles of a block hold after they have been loaded for the `i`th time. -/
def tileA (m : Memory R x y) (b : Block x y) (i r c : ℕ) : R :=
  elemA M K m (b.2 * 16 + r) (i * 16 + c)

def tileB (m : Memory R x y) (b : Block x y) (i r c : ℕ) : R :=
  elemB N K m (i * 16 + r) (b.1 * 16 + c)

/-- The element of the product at the place `i`. -/
def product (m : Memory R x y) (i : ℤ) : R :=
  ∑ k ∈ Finset.range K.toNat, m (.A (i / N * K + k)) * m (.B (k * N + i % N))

/-- The threads store their results in the last round, and their elements of the tiles in every
other one before. -/
def writes (t : Thread x y) (e : ℕ) : Set (Loc x y) :=
  {l | e < rounds K ∧ e % 2 = 0 ∧ (l = .As t.1 t.2.2 t.2.1 ∨ l = .Bs t.1 t.2.2 t.2.1) ∨
    e = rounds K ∧ row t < M ∧ col t < N ∧ l = .C (flat (row t) N (col t))}

/-- The matrices that are read, the results of the block, and its tiles. -/
def foot (b : Block x y) : Set (Loc x y) :=
  {l | match l with
    | .A _ | .B _ => True
    | .C i => ∃ t : Thread x y, t.1 = b ∧ row t < M ∧ col t < N ∧ i = flat (row t) N (col t)
    | .As b' r c | .Bs b' r c => b' = b ∧ r < kTile ∧ c < kTile}

/-- The memory of a block when its round `e` begins: its tiles hold what has been loaded last, and
the results are there after the last round. -/
def view (m : Memory R x y) (b : Block x y) (e : ℕ) : Memory R x y
  | .A i => m (.A i)
  | .B i => m (.B i)
  | .C i => if rounds K < e then product N K m i else m (.C i)
  | .As b' r c =>
    if b' = b ∧ 1 ≤ min e (rounds K) then tileA M K m b ((min e (rounds K) - 1) / 2) r c
    else m (.As b' r c)
  | .Bs b' r c =>
    if b' = b ∧ 1 ≤ min e (rounds K) then tileB N K m b ((min e (rounds K) - 1) / 2) r c
    else m (.Bs b' r c)

def plan (m : Memory R x y) :
    Plan (Thread x y) (Block x y) (Op R x y) Access.Res (fun _ : Loc x y => R) where
  prog t e :=
    let i := e / 2
    let acc := partialSum M N K m t (i * kTile)
    if e % 2 = 0 then loop (tile M N K t) i (tiles K - i) acc >>= storeResult M N t
    else useTiles t acc >>= loop (tile M N K t) (i + 1) (tiles K - (i + 1)) >>= storeResult M N t
  view := view M N K m
  writes := writes M N K
  foot := foot M N

variable {M N K} (m : Memory R x y) (t : Thread x y)

lemma prog_even (i : ℕ) :
    (plan M N K m).prog t (2 * i) =
      loop (tile M N K t) i (tiles K - i) (partialSum M N K m t (i * kTile)) >>=
        storeResult M N t := by
  have hmod : 2 * i % 2 = 0 := Nat.mul_mod_right 2 i
  have hdiv : 2 * i / 2 = i := Nat.mul_div_cancel_left i (by norm_num)
  simp only [plan, hmod, hdiv, if_true]

lemma prog_odd (i : ℕ) :
    (plan M N K m).prog t (2 * i + 1) =
      useTiles t (partialSum M N K m t (i * kTile)) >>=
        loop (tile M N K t) (i + 1) (tiles K - (i + 1)) >>= storeResult M N t := by
  have hmod : (2 * i + 1) % 2 = 1 := by omega
  have hdiv : (2 * i + 1) / 2 = i := by omega
  simp only [plan, hmod, hdiv, Nat.one_ne_zero, if_false]

/-- The round in which the `i`th tiles are loaded. -/
lemma round_load {i : ℕ} (hi : i < tiles K) (hbound : (i : ℤ) * 16 + 15 < 2 ^ 31) :
    (plan M N K m).round Access.exec Prod.fst t (2 * i) =
      ⟨loadLog M N K m t i,
        Function.update (Function.update (view M N K m t.1 (2 * i)) (.As t.1 t.2.2 t.2.1)
          (elemA M K m (row t) (i * 16 + t.2.1))) (.Bs t.1 t.2.2 t.2.1)
          (elemB N K m (i * 16 + t.2.2) (col t)),
        .inr ((plan M N K m).prog t (2 * i + 1))⟩ := by
  have hsucc : tiles K - i = tiles K - (i + 1) + 1 := by omega
  rw [Plan.round, prog_even, prog_odd, hsucc, loop]
  simp only [Prog.solo_bind, tile, solo_loadTiles M N K t hbound, Round.andThen_inl, syncthreads,
    Prog.solo_sync, Round.andThen_inr, Round.after_mk, List.append_nil]
  rfl

/-- The sum over one more tile. -/
lemma partialSum_succ (i : ℕ) :
    partialSum M N K m t ((i + 1) * kTile) = partialSum M N K m t (i * kTile) +
      ∑ k ∈ Finset.range kTile,
        elemA M K m (row t) (i * 16 + k) * elemB N K m (i * 16 + k) (col t) := by
  rw [partialSum, Nat.succ_mul, Finset.sum_range_add, partialSum]
  simp only [Nat.cast_add, Nat.cast_mul, kTile_cast]

lemma rounds_eq : rounds K = 2 * tiles K := rfl

/-- The `i`th tiles are in place from the end of the round that loads them to the end of the one
that uses them. -/
lemma tile_index {i e : ℕ} (hi : i < tiles K) (he : e = 2 * i + 1 ∨ e = 2 * i + 2) :
    1 ≤ min e (rounds K) ∧ (min e (rounds K) - 1) / 2 = i := by
  rw [rounds_eq]
  omega

lemma view_As (b : Block x y) {i e : ℕ} (hi : i < tiles K) (he : e = 2 * i + 1 ∨ e = 2 * i + 2)
    (r c : ℕ) : view M N K m b e (.As b r c) = tileA M K m b i r c := by
  obtain ⟨hle, htile⟩ := tile_index hi he
  rw [view, if_pos ⟨rfl, hle⟩, htile]

lemma view_Bs (b : Block x y) {i e : ℕ} (hi : i < tiles K) (he : e = 2 * i + 1 ∨ e = 2 * i + 2)
    (r c : ℕ) : view M N K m b e (.Bs b r c) = tileB N K m b i r c := by
  obtain ⟨hle, htile⟩ := tile_index hi he
  rw [view, if_pos ⟨rfl, hle⟩, htile]

lemma tileSum_view (hrow : row t = t.1.2 * 16 + t.2.2) (hcol : col t = t.1.1 * 16 + t.2.1) {i : ℕ}
    (hi : i < tiles K) :
    tileSum (view M N K m t.1 (2 * i + 1)) t =
      ∑ k ∈ Finset.range kTile,
        elemA M K m (row t) (i * 16 + k) * elemB N K m (i * 16 + k) (col t) := by
  refine Finset.sum_congr rfl fun k _ => ?_
  rw [view_As m t.1 hi (.inl rfl), view_Bs m t.1 hi (.inl rfl), tileA, tileB, hrow, hcol]

/-- The round in which the `i`th tiles are used. -/
lemma round_use (hrow : row t = t.1.2 * 16 + t.2.2) (hcol : col t = t.1.1 * 16 + t.2.1) {i : ℕ}
    (hi : i < tiles K) :
    (plan M N K m).round Access.exec Prod.fst t (2 * i + 1) =
      ⟨useLog t, view M N K m t.1 (2 * i + 1), .inr ((plan M N K m).prog t (2 * (i + 1)))⟩ := by
  rw [Plan.round, prog_odd, prog_even, partialSum_succ, ← tileSum_view m t hrow hcol hi]
  simp only [Prog.solo_bind, solo_useTiles, Round.andThen_inr]
  rfl

/-- The last round. -/
lemma round_last :
    (plan M N K m).round Access.exec Prod.fst t (rounds K) =
      ⟨if row t < M ∧ col t < N then
          [.store (.C (flat (row t) N (col t))) (partialSum M N K m t (tiles K * kTile))] else [],
        if row t < M ∧ col t < N then
          Function.update (view M N K m t.1 (rounds K)) (.C (flat (row t) N (col t)))
            (partialSum M N K m t (tiles K * kTile))
        else view M N K m t.1 (rounds K),
        .inl ()⟩ := by
  rw [Plan.round, rounds_eq, prog_even, Nat.sub_self, loop]
  simp only [Prog.solo_bind, Prog.solo_pure, Round.andThen_inl, Round.after_mk, solo_storeResult]
  rfl

/-! ### The plan is sound -/

lemma round_cases {e : ℕ} (he : e ≤ rounds K) :
    (∃ i < tiles K, e = 2 * i) ∨ (∃ i < tiles K, e = 2 * i + 1) ∨ e = rounds K := by
  rw [rounds_eq] at he ⊢
  obtain ⟨i, rfl | rfl⟩ := Nat.even_or_odd' e
  · by_cases hi : i < tiles K
    · exact .inl ⟨i, hi, rfl⟩
    · exact .inr (.inr (by omega))
  · exact .inr (.inl ⟨i, by omega, rfl⟩)

lemma writes_load {i : ℕ} (hi : i < tiles K) :
    writes M N K t (2 * i) = {.As t.1 t.2.2 t.2.1, .Bs t.1 t.2.2 t.2.1} := by
  ext l
  have hne : 2 * i ≠ 2 * tiles K := by omega
  simp [writes, rounds_eq, hi, hne]

lemma As_mem_writes {i : ℕ} (hi : i < tiles K) (b : Block x y) {r c : ℕ} (hr : r < kTile)
    (hc : c < kTile) : .As b r c ∈ writes M N K (b, ⟨c, hc⟩, ⟨r, hr⟩) (2 * i) := by
  rw [writes_load _ hi]
  exact .inl rfl

lemma Bs_mem_writes {i : ℕ} (hi : i < tiles K) (b : Block x y) {r c : ℕ} (hr : r < kTile)
    (hc : c < kTile) : .Bs b r c ∈ writes M N K (b, ⟨c, hc⟩, ⟨r, hr⟩) (2 * i) := by
  rw [writes_load _ hi]
  exact .inr rfl

lemma writes_use (i : ℕ) : writes M N K t (2 * i + 1) = ∅ := by
  ext l
  have hne : 2 * i + 1 ≠ 2 * tiles K := by omega
  have hodd : (2 * i + 1) % 2 = 1 := by omega
  simp [writes, rounds_eq, hne, hodd]

lemma writes_last :
    writes M N K t (rounds K) =
      {l | row t < M ∧ col t < N ∧ l = .C (flat (row t) N (col t))} := by
  ext l
  simp [writes]

lemma A_mem_reads (b : Block x y) (e : ℕ) (n : ℤ) :
    .A n ∈ (plan M N K m).reads Prod.fst b e :=
  ⟨trivial, fun t _ => by simp [plan, writes]⟩

lemma B_mem_reads (b : Block x y) (e : ℕ) (n : ℤ) :
    .B n ∈ (plan M N K m).reads Prod.fst b e :=
  ⟨trivial, fun t _ => by simp [plan, writes]⟩

lemma As_mem_reads (b : Block x y) (i : ℕ) {r c : ℕ} (hr : r < kTile) (hc : c < kTile) :
    .As b r c ∈ (plan M N K m).reads Prod.fst b (2 * i + 1) :=
  ⟨⟨rfl, hr, hc⟩, fun t _ => by simp [plan, writes_use t i]⟩

lemma Bs_mem_reads (b : Block x y) (i : ℕ) {r c : ℕ} (hr : r < kTile) (hc : c < kTile) :
    .Bs b r c ∈ (plan M N K m).reads Prod.fst b (2 * i + 1) :=
  ⟨⟨rfl, hr, hc⟩, fun t _ => by simp [plan, writes_use t i]⟩

lemma view_zero (b : Block x y) (l : Loc x y) : view M N K m b 0 l = m l := by
  cases l with
  | A i => rfl
  | B i => rfl
  | C i => simp [view]
  | As b' r c => simp [view]
  | Bs b' r c => simp [view]

/-- What nobody writes in a round stays as it is. -/
lemma view_succ {b : Block x y} {e : ℕ} (he : e ≤ rounds K) {l : Loc x y}
    (hl : l ∈ (plan M N K m).reads Prod.fst b e) :
    view M N K m b (e + 1) l = view M N K m b e l := by
  obtain ⟨hfoot, hquiet⟩ := hl
  have hlast : min (rounds K + 1) (rounds K) = min (rounds K) (rounds K) := by omega
  cases l with
  | A i => rfl
  | B i => rfl
  | C i =>
    obtain ⟨t, rfl, hr, hc, hi⟩ := hfoot
    obtain rfl | hlt := he.eq_or_lt
    · exact absurd (.inr ⟨rfl, hr, hc, congrArg Loc.C hi⟩) (hquiet t rfl)
    · rw [view, view, if_neg (Nat.not_lt.mpr hlt), if_neg (Nat.not_lt.mpr he)]
  | As b' r c =>
    obtain ⟨rfl, hr, hc⟩ := hfoot
    obtain ⟨i, hi, rfl⟩ | ⟨i, hi, rfl⟩ | rfl := round_cases he
    · exact absurd (As_mem_writes hi b' hr hc) (hquiet _ rfl)
    · rw [view_As m b' hi (.inr rfl), view_As m b' hi (.inl rfl)]
    · simp only [view, hlast]
  | Bs b' r c =>
    obtain ⟨rfl, hr, hc⟩ := hfoot
    obtain ⟨i, hi, rfl⟩ | ⟨i, hi, rfl⟩ | rfl := round_cases he
    · exact absurd (Bs_mem_writes hi b' hr hc) (hquiet _ rfl)
    · rw [view_Bs m b' hi (.inr rfl), view_Bs m b' hi (.inl rfl)]
    · simp only [view, hlast]

/-- The accesses of the round that loads the tiles: elements of the matrices, and the places of the
thread in the tiles. -/
lemma confined_loadLog {i : ℕ} (hi : i < tiles K) {o : Op R x y} (ho : o ∈ loadLog M N K m t i) :
    Confined Access.exec ((plan M N K m).reads Prod.fst t.1 (2 * i))
      (writes M N K t (2 * i)) o := by
  rw [writes_load t hi]
  simp only [loadLog, List.mem_append, List.mem_singleton, List.mem_ite_nil_right] at ho
  rcases ho with ((⟨-, rfl⟩ | rfl) | ⟨-, rfl⟩) | rfl
  · exact confined_load (.inl (A_mem_reads m t.1 _ _))
  · exact confined_store _ (.inl rfl)
  · exact confined_load (.inl (B_mem_reads m t.1 _ _))
  · exact confined_store _ (.inr rfl)

lemma confined_useLog (i : ℕ) {o : Op R x y} (ho : o ∈ useLog t) :
    Confined Access.exec ((plan M N K m).reads Prod.fst t.1 (2 * i + 1))
      (writes M N K t (2 * i + 1)) o := by
  obtain ⟨k, hk, ho⟩ := List.mem_flatMap.mp ho
  have hlt : k < kTile := by
    simpa using hk
  simp only [List.mem_cons, List.not_mem_nil, or_false] at ho
  rcases ho with rfl | rfl
  · exact confined_load (.inl (As_mem_reads m t.1 i t.2.2.isLt hlt))
  · exact confined_load (.inl (Bs_mem_reads m t.1 i hlt t.2.1.isLt))

section Sound

variable (h : Admissible M N K) (hcov : Covers M N x y)
include h

omit [Semiring R] in
lemma tile_bound {i : ℕ} (hi : i < tiles K) : (i : ℤ) * 16 + 15 < 2 ^ 31 := by
  have htiles := tiles_eq h.K_nonneg h.K_le
  have hK := h.K_le
  omega

omit [Semiring R] in
lemma tiles_le : K.toNat ≤ tiles K * kTile := by
  have htiles := tiles_eq h.K_nonneg h.K_le
  change K.toNat ≤ tiles K * 16
  omega

/-- The element of the product at `r` and `c`. -/
lemma product_flat {r c : ℤ} (hr0 : 0 ≤ r) (hr : r < M) (hc0 : 0 ≤ c) (hc : c < N) :
    product N K m (flat r N c) =
      ∑ k ∈ Finset.range K.toNat, m (.A (flat r K k)) * m (.B (flat k N c)) := by
  rw [flat_eq hr0 hr hc0 hc h.MN_le, product, flat_ediv hc0 hc, flat_emod hc0 hc]
  refine Finset.sum_congr rfl fun k hk => ?_
  have hlt : (k : ℤ) < K := by
    have hmem := Finset.mem_range.mp hk
    omega
  rw [flat_eq hr0 hr (Int.natCast_nonneg k) hlt h.MK_le,
    flat_eq (Int.natCast_nonneg k) hlt hc0 hc h.KN_le]

/-- What a thread stores in the last round. The tiles are zero outside the matrices. -/
lemma partialSum_tiles (hcov : Covers M N x y) (hr : row t < M) (hc : col t < N) :
    partialSum M N K m t (tiles K * kTile) = product N K m (flat (row t) N (col t)) := by
  rw [product_flat m h (row_nonneg hcov h.M_le t) hr (col_nonneg hcov h.N_le t) hc, partialSum]
  refine (Finset.sum_subset_zero_on_sdiff (Finset.range_mono (tiles_le h)) (fun k hk => ?_)
    fun k hk => ?_).symm
  · have hge : ¬ (k : ℤ) < K := by
      simp only [Finset.mem_sdiff, Finset.mem_range] at hk
      omega
    simp [elemA, hge]
  · have hlt : (k : ℤ) < K := by
      have hmem := Finset.mem_range.mp hk
      omega
    rw [elemA, if_pos ⟨hr, hlt⟩, elemB, if_pos ⟨hlt, hc⟩]

include hcov

omit [Semiring R] in
/-- Two threads that store the same result are one. -/
lemma eq_of_flat_eq {t t' : Thread x y} (hr : row t < M) (hc : col t < N) (hr' : row t' < M)
    (hc' : col t' < N) (heq : flat (row t) N (col t) = flat (row t') N (col t')) : t = t' := by
  have hrow := row_eq hcov h.M_le t
  have hcol := col_eq hcov h.N_le t
  have hrow' := row_eq hcov h.M_le t'
  have hcol' := col_eq hcov h.N_le t'
  rw [flat_eq (by omega) hr (by omega) hc h.MN_le,
    flat_eq (by omega) hr' (by omega) hc' h.MN_le] at heq
  obtain ⟨hrr, hcc⟩ := flat_inj (by omega) hc (by omega) hc' heq
  have hlt := thread_lt t
  have hlt' := thread_lt t'
  refine Prod.ext (Prod.ext ?_ ?_) (Prod.ext ?_ ?_) <;> apply Fin.ext <;> omega

/-- What a thread writes in a round is there for the next one. -/
lemma view_written {e : ℕ} (he : e ≤ rounds K) {l : Loc x y} (hl : l ∈ writes M N K t e) :
    view M N K m t.1 (e + 1) l = ((plan M N K m).round Access.exec Prod.fst t e).mem l := by
  obtain ⟨i, hi, rfl⟩ | ⟨i, hi, rfl⟩ | rfl := round_cases he
  · rw [writes_load t hi] at hl
    have hne : Loc.As t.1 (t.2.2 : ℕ) (t.2.1 : ℕ) ≠ Loc.Bs t.1 t.2.2 t.2.1 := by simp
    simp only [round_load m t hi (tile_bound h hi)]
    rw [row_eq hcov h.M_le t, col_eq hcov h.N_le t]
    rcases hl with rfl | rfl
    · rw [Function.update_of_ne hne, Function.update_self, view_As m t.1 hi (.inl rfl), tileA]
    · rw [Function.update_self, view_Bs m t.1 hi (.inl rfl), tileB]
  · rw [writes_use t i] at hl
    exact hl.elim
  · rw [writes_last] at hl
    obtain ⟨hr, hc, rfl⟩ := hl
    simp only [round_last]
    rw [if_pos ⟨hr, hc⟩, Function.update_self, partialSum_tiles m t h hcov hr hc, view,
      if_pos (Nat.lt_succ_self _)]

omit [Semiring R] in
/-- No two threads write the same place. -/
lemma eq_of_mem_writes {t t' : Thread x y} {e : ℕ} {l : Loc x y} (hl : l ∈ writes M N K t e)
    (hl' : l ∈ writes M N K t' e) : t = t' := by
  rcases hl with ⟨-, -, rfl | rfl⟩ | ⟨-, hr, hc, rfl⟩
  · rcases hl' with ⟨-, -, heq | heq⟩ | ⟨-, -, -, heq⟩
    · simp only [Loc.As.injEq, Fin.val_inj] at heq
      exact Prod.ext heq.1 (Prod.ext heq.2.2 heq.2.1)
    · nomatch heq
    · nomatch heq
  · rcases hl' with ⟨-, -, heq | heq⟩ | ⟨-, -, -, heq⟩
    · nomatch heq
    · simp only [Loc.Bs.injEq, Fin.val_inj] at heq
      exact Prod.ext heq.1 (Prod.ext heq.2.2 heq.2.1)
    · nomatch heq
  · rcases hl' with ⟨-, -, heq | heq⟩ | ⟨-, hr', hc', heq⟩
    · nomatch heq
    · nomatch heq
    · exact eq_of_flat_eq h hcov hr hc hr' hc' (Loc.C.inj heq)

theorem plan_sound :
    (plan M N K m).Sound Access.exec Prod.fst (rounds K) m (gemmTiledKernel M N K) where
  prog_zero t := by
    have hzero : partialSum M N K m t (0 * kTile) = 0 := by
      rw [zero_mul, partialSum, Finset.sum_range_zero]
    rw [← Nat.mul_zero 2, prog_even, hzero, Nat.sub_zero]
    rfl
  view_zero b l _ := view_zero m b l
  next t e he := by
    obtain ⟨i, hi, rfl⟩ | ⟨i, hi, rfl⟩ | rfl := round_cases he.le
    · rw [round_load m t hi (tile_bound h hi)]
    · rw [round_use m t (row_eq hcov h.M_le t) (col_eq hcov h.N_le t) hi]
      rfl
    · exact absurd he (lt_irrefl _)
  last t := by
    rw [round_last]
  confined t e he o ho := by
    obtain ⟨i, hi, rfl⟩ | ⟨i, hi, rfl⟩ | rfl := round_cases he
    · rw [round_load m t hi (tile_bound h hi)] at ho
      exact confined_loadLog m t hi ho
    · rw [round_use m t (row_eq hcov h.M_le t) (col_eq hcov h.N_le t) hi] at ho
      exact confined_useLog m t i ho
    · rw [round_last, List.mem_ite_nil_right, List.mem_singleton] at ho
      obtain ⟨⟨hr, hc⟩, rfl⟩ := ho
      exact confined_store _ (.inr ⟨rfl, hr, hc, rfl⟩)
  written t e he l hl := view_written m t h hcov he hl
  kept b e he l hl := view_succ m he hl
  within t e l hl := by
    obtain ⟨-, -, rfl | rfl⟩ | ⟨-, hr, hc, rfl⟩ := hl
    · exact ⟨rfl, t.2.2.isLt, t.2.1.isLt⟩
    · exact ⟨rfl, t.2.2.isLt, t.2.1.isLt⟩
    · exact ⟨t, rfl, hr, hc, rfl⟩
  alone t t' e _ hne l hl hl' := hne (eq_of_mem_writes h hcov hl hl')
  apart t e b hb l hl hfoot := by
    obtain ⟨-, -, rfl | rfl⟩ | ⟨-, hr, hc, rfl⟩ := hl
    · exact hb hfoot.1
    · exact hb hfoot.1
    · obtain ⟨u, rfl, hr', hc', heq⟩ := hfoot
      exact hb (congrArg Prod.fst (eq_of_flat_eq h hcov hr hc hr' hc' heq))

end Sound

end Grid

end Cudatest
