import ValidationSuite.Cudatest.TransposeProperties

/-!
# Offsets into the matrices

The launchers accept sizes whose products are no `int`. Where the last offset of each matrix is one,
every offset a thread computes is what it is meant to be, and every access of every run lies in its
matrix; beyond, the thread of the last element computes a wrong one.
-/

namespace Cudatest

open Simt Transition

/-! ### What the launchers accept -/

/-- The number of tiles of a size so large that the sum in it wraps is more than CUDA admits. -/
lemma gridDim_large {n : ℤ} {tile : ℕ} (htile : tile = 16 ∨ tile = 32) (hint : n < 2 ^ 31)
    (hwrap : 2 ^ 31 < n + tile) : 2 ^ 31 - 1 < gridDim n tile := by
  have hint32 : int32 (n + tile - 1) = -(2 ^ 32 - (n + tile - 1)) := by
    rw [int32, Int.bmod_def]
    omega
  rw [gridDim, hint32, Int.neg_tdiv, Int.tdiv_eq_ediv_of_nonneg (by omega)]
  rcases htile with rfl | rfl <;> omega

lemma launchGrid_eq_grid {x y x' y' : ℕ} (h : launchGrid x y = .grid x' y') :
    x = x' ∧ y = y' ∧ x ≤ 2 ^ 31 - 1 ∧ y ≤ 65535 := by
  rw [launchGrid] at h
  split_ifs at h with hbig
  obtain ⟨rfl, rfl⟩ := Launch.grid.inj h
  omega

/-- The grid of a GEMM launch that CUDA admits. -/
structure Grid (M N K : ℤ) (x y : ℕ) : Prop where
  M_pos : 0 < M
  N_pos : 0 < N
  K_nonneg : 0 ≤ K
  M_le : M ≤ 2 ^ 31 - 16
  N_le : N ≤ 2 ^ 31 - 16
  x_eq : (x : ℤ) = (N + 15) / 16
  y_eq : (y : ℤ) = (M + 15) / 16

lemma grid_of_launchGemm {null : Bool} {M N K : ℤ} {x y : ℕ} (hM : M < 2 ^ 31) (hN : N < 2 ^ 31)
    (h : launchGemm null M N K = .grid x y) : Grid M N K x y := by
  rw [launchGemm] at h
  split_ifs at h with hargs hzero
  have hsigns : 0 ≤ M ∧ 0 ≤ N ∧ 0 ≤ K := by
    simp [badGemmArgs] at hargs
    omega
  obtain ⟨rfl, rfl, hx, hy⟩ := launchGrid_eq_grid h
  have hM' : M ≤ 2 ^ 31 - 16 := by
    by_contra hlt
    have hlarge : 2 ^ 31 - 1 < gridDim M kTile :=
      gridDim_large (.inl rfl) hM (by rw [kTile_cast]; omega)
    omega
  have hN' : N ≤ 2 ^ 31 - 16 := by
    by_contra hlt
    have hlarge : 2 ^ 31 - 1 < gridDim N kTile :=
      gridDim_large (.inl rfl) hN (by rw [kTile_cast]; omega)
    omega
  have hdimN : (gridDim N kTile : ℤ) = (N + 16 - 1) / 16 :=
    gridDim_eq (by omega) (by decide) (by rw [kTile_cast]; omega)
  have hdimM : (gridDim M kTile : ℤ) = (M + 16 - 1) / 16 :=
    gridDim_eq (by omega) (by decide) (by rw [kTile_cast]; omega)
  exact ⟨by omega, by omega, hsigns.2.2, hM', hN', by omega, by omega⟩

namespace Transpose

lemma tiling_of_launchTranspose {null : Bool} {rows cols : ℤ} {x y : ℕ} (hrows : rows < 2 ^ 31)
    (hcols : cols < 2 ^ 31) (h : launchTranspose null rows cols = .grid x y) :
    Tiling rows cols x y := by
  rw [launchTranspose] at h
  split_ifs at h with hargs hzero
  obtain ⟨rfl, rfl, hx, hy⟩ := launchGrid_eq_grid h
  have hle : ∀ {n : ℤ}, n < 2 ^ 31 → gridDim n kTransTile ≤ 2 ^ 31 - 1 → n ≤ 2 ^ 31 - 32 := by
    intro n hn hdim
    by_contra hlt
    have hlarge : 2 ^ 31 - 1 < gridDim n kTransTile :=
      gridDim_large (.inr rfl) hn (by change 2 ^ 31 < n + 32; omega)
    omega
  exact tiling (by omega) (by omega) (hle hrows (by omega)) (hle hcols hx)

end Transpose

/-! ### What is meant -/

section Meant

variable (R : Type) [Semiring R] (M N K : ℤ) (x y : ℕ)

/-- The places of the threads of a GEMM grid, and their offsets into the three matrices, where they
have any. -/
structure OffsetsExact : Prop where
  x_eq : (x : ℤ) = (N + 15) / 16
  y_eq : (y : ℤ) = (M + 15) / 16
  row_eq : ∀ t : Thread x y, row t = t.1.2 * 16 + t.2.2
  col_eq : ∀ t : Thread x y, col t = t.1.1 * 16 + t.2.1
  A_eq : ∀ t : Thread x y, row t < M → ∀ k, 0 ≤ k → k < K → flat (row t) K k = row t * K + k
  B_eq : ∀ t : Thread x y, col t < N → ∀ k, 0 ≤ k → k < K → flat k N (col t) = k * N + col t
  C_eq : ∀ t : Thread x y, row t < M → col t < N →
    flat (row t) N (col t) = row t * N + col t

def AccessesInBounds (kernel : Thread x y → Kernel R x y Unit) : Prop :=
  ∀ (m : Memory R x y) (s), (runKernel kernel m).Reachable s →
    ∀ t, ∀ o ∈ s.log t, InBounds M N K t.1 o

structure NaiveExact : Prop extends OffsetsExact M N K x y where
  inBounds : AccessesInBounds R M N K x y (gemmNaiveKernel M N K)

/-- Here the number of tiles and the places in them are computed too. -/
structure TiledExact : Prop extends OffsetsExact M N K x y where
  tiles_eq : (tiles K : ℤ) = (K + 15) / 16
  tile_eq : ∀ i < tiles K, ∀ c : Fin kTile, int32 (int32 (i * kTile) + c) = i * 16 + c
  inBounds : AccessesInBounds R M N K x y (gemmTiledKernel M N K)

end Meant

namespace Transpose

variable (E : Type) (rows cols : ℤ) (x y : ℕ)

structure TransposeExact : Prop where
  x_eq : (x : ℤ) = (cols + 31) / 32
  y_eq : (y : ℤ) = (rows + 31) / 32
  inCol_eq : ∀ t : Thread x y, inCol t = t.1.1 * 32 + t.2.1
  inRow_eq : ∀ t : Thread x y, ∀ p < 4, inRow t (p * 8) = t.1.2 * 32 + (t.2.2 + p * 8 : ℕ)
  outCol_eq : ∀ t : Thread x y, outCol t = t.1.2 * 32 + t.2.1
  outRow_eq : ∀ t : Thread x y, ∀ p < 4, outRow t (p * 8) = t.1.1 * 32 + (t.2.2 + p * 8 : ℕ)
  in_eq : ∀ t : Thread x y, ∀ p < 4, inCol t < cols → inRow t (p * 8) < rows →
    flat (inRow t (p * 8)) cols (inCol t) = inRow t (p * 8) * cols + inCol t
  out_eq : ∀ t : Thread x y, ∀ p < 4, outCol t < rows → outRow t (p * 8) < cols →
    flat (outRow t (p * 8)) rows (outCol t) = outRow t (p * 8) * rows + outCol t
  inBounds : ∀ (m : Memory E x y) (s), (run rows cols m).Reachable s →
    ∀ t, ∀ o ∈ s.log t, InBounds rows cols t.1 o

end Transpose

/-! ### The last offsets -/

lemma flat_lt (r width c : ℤ) : flat r width c < 2 ^ 31 := by
  rw [flat, int32]
  have hlt := Int.bmod_lt (x := int32 (r * width) + c) (m := 2 ^ 32) (by norm_num)
  omega

/-- If the offset of the last element is right, all of them are below `2 ^ 31`. -/
lemma size_le_of_last {height width : ℤ}
    (h : flat (height - 1) width (width - 1) = (height - 1) * width + (width - 1)) :
    height * width ≤ 2 ^ 31 := by
  have hlt := flat_lt (height - 1) width (width - 1)
  have hsize : (height - 1) * width + (width - 1) = height * width - 1 := by
    rw [sub_mul, one_mul]
    omega
  omega

section Gemm

variable {R : Type} [Semiring R] {M N K : ℤ} {x y : ℕ}

lemma Grid.covers (h : Grid M N K x y) : Covers M N x y := by
  have hx := h.x_eq
  have hy := h.y_eq
  exact ⟨by omega, by omega, fun r c hr hrM hc hcN => ⟨by omega, by omega⟩⟩

/-- The products of the sizes. -/
structure Small (M N K : ℤ) : Prop where
  MK_le : M * K ≤ 2 ^ 31
  KN_le : K * N ≤ 2 ^ 31
  MN_le : M * N ≤ 2 ^ 31

variable (h : Grid M N K x y)
include h

lemma row_bounds (t : Thread x y) : 0 ≤ row t ∧ 0 ≤ col t := by
  rw [row_eq_of_le h.covers h.M_le, col_eq_of_le h.covers h.N_le]
  omega

lemma offsetsExact_of_small (hsmall : Small M N K) : OffsetsExact M N K x y where
  x_eq := h.x_eq
  y_eq := h.y_eq
  row_eq := row_eq_of_le h.covers h.M_le
  col_eq := col_eq_of_le h.covers h.N_le
  A_eq t hrow _ hk hkK := flat_eq_of_le (row_bounds h t).1 hrow hk hkK hsmall.MK_le
  B_eq t hcol _ hk hkK := flat_eq_of_le hk hkK (row_bounds h t).2 hcol hsmall.KN_le
  C_eq t hrow hcol := flat_eq_of_le (row_bounds h t).1 hrow (row_bounds h t).2 hcol hsmall.MN_le

lemma small_of_offsetsExact (hexact : OffsetsExact M N K x y) : Small M N K := by
  have hM := h.M_pos
  have hN := h.N_pos
  have hK := h.K_nonneg
  -- the thread of the last element
  obtain ⟨t, ht, ht'⟩ := exists_thread_at (x := x) (y := y) h.covers (r := M - 1) (c := N - 1)
    (by omega) (by omega) (by omega) (by omega)
  have hrow : row t = M - 1 := (hexact.row_eq t).trans ht
  have hcol : col t = N - 1 := (hexact.col_eq t).trans ht'
  have hrowM : row t < M := by
    rw [hrow]
    omega
  have hcolN : col t < N := by
    rw [hcol]
    omega
  have hA := hexact.A_eq t hrowM (K - 1)
  have hB := hexact.B_eq t hcolN (K - 1)
  have hC := hexact.C_eq t hrowM hcolN
  rw [hrow] at hA hC
  rw [hcol] at hB hC
  refine ⟨?_, ?_, size_le_of_last hC⟩
  · obtain rfl | hpos := hK.eq_or_lt
    · simp
    · exact size_le_of_last (hA (by omega) (by omega))
  · obtain rfl | hpos := hK.eq_or_lt
    · simp
    · exact size_le_of_last (hB (by omega) (by omega))

/-! ### The accesses of the two kernels -/

omit [Semiring R] in
lemma load_A_all (hexact : OffsetsExact M N K x y) {t : Thread x y} (hrow : row t < M) {k : ℤ}
    (hk : 0 ≤ k) (hkK : k < K) :
    InBounds (R := R) M N K t.1 (.load (.A (flat (row t) K k))) := by
  rw [hexact.A_eq t hrow k hk hkK]
  exact .inl (flat_bounds (row_bounds h t).1 hrow hk hkK)

omit [Semiring R] in
lemma load_B_all (hexact : OffsetsExact M N K x y) {t : Thread x y} (hcol : col t < N) {k : ℤ}
    (hk : 0 ≤ k) (hkK : k < K) :
    InBounds (R := R) M N K t.1 (.load (.B (flat k N (col t)))) := by
  rw [hexact.B_eq t hcol k hk hkK]
  exact .inl (flat_bounds hk hkK (row_bounds h t).2 hcol)

omit [Semiring R] in
lemma store_C_all (hexact : OffsetsExact M N K x y) {t : Thread x y} (hrow : row t < M)
    (hcol : col t < N) (v : R) :
    InBounds M N K t.1 (.store (.C (flat (row t) N (col t))) v) :=
  .inr ⟨_, v, rfl, row t, col t, (row_bounds h t).1, hrow, (row_bounds h t).2, hcol,
    hexact.C_eq t hrow hcol⟩

lemma all_naive (hexact : OffsetsExact M N K x y) (t : Thread x y) :
    (gemmNaiveKernel M N K t : Kernel R x y Unit).All (InBounds M N K t.1) := by
  rw [gemmNaiveKernel]
  by_cases hout : M ≤ row t ∨ N ≤ col t
  · rw [if_pos hout]
    exact .pure ()
  · rw [if_neg hout]
    push Not at hout
    refine (Prog.all_loop (fun k _ hk acc => ?_) _).bind fun acc => ?_
    · have hkK : (k : ℤ) < K := by omega
      refine .op (load_A_all h hexact hout.1 (by omega) hkK) fun a => ?_
      exact .op (load_B_all h hexact hout.2 (by omega) hkK) fun b => .pure _
    · exact .op (store_C_all h hexact hout.1 hout.2 acc) .pure

omit h in
lemma all_loadOrZero {inside : Prop} [Decidable inside] {l : Loc x y} {b : Block x y}
    (hl : inside → InBounds (R := R) M N K b (.load l)) :
    (loadOrZero inside l : Kernel R x y R).All (InBounds M N K b) := by
  rw [loadOrZero]
  split_ifs with hin
  · exact .op (hl hin) .pure
  · exact .pure 0

lemma all_loadTiles (hexact : OffsetsExact M N K x y) {i : ℕ}
    (htile : ∀ c : Fin kTile, int32 (int32 (i * kTile) + c) = i * 16 + c) (t : Thread x y) :
    (loadTiles M N K t i : Kernel R x y Unit).All (InBounds M N K t.1) := by
  rw [loadTiles]
  simp only [htile]
  refine Prog.All.bind ?_ fun a => Prog.All.bind ?_ fun _ => Prog.All.bind ?_ fun b => ?_
  · exact all_loadOrZero fun hin => load_A_all h hexact hin.1 (by omega) hin.2
  · exact .op (.inl ⟨rfl, t.2.2.isLt, t.2.1.isLt⟩) .pure
  · exact all_loadOrZero fun hin => load_B_all h hexact hin.2 (by omega) hin.1
  · exact .op (.inl ⟨rfl, t.2.2.isLt, t.2.1.isLt⟩) .pure

omit h in
lemma all_useTiles (t : Thread x y) (acc : R) :
    (useTiles t acc : Kernel R x y R).All (InBounds M N K t.1) := by
  refine (Prog.all_loop (fun k _ hk acc => ?_) _).bind fun acc =>
    all_syncthreads.bind fun _ => .pure acc
  have hlt : k < kTile := by omega
  exact .op (.inl ⟨rfl, t.2.2.isLt, hlt⟩) fun a =>
    .op (.inl ⟨rfl, hlt, t.2.1.isLt⟩) fun b => .pure _

lemma all_tiled (hexact : OffsetsExact M N K x y)
    (htile : ∀ i < tiles K, ∀ c : Fin kTile, int32 (int32 (i * kTile) + c) = i * 16 + c)
    (t : Thread x y) :
    (gemmTiledKernel M N K t : Kernel R x y Unit).All (InBounds M N K t.1) := by
  refine (Prog.all_loop (fun i _ hi acc => ?_) _).bind fun acc => ?_
  · exact (all_loadTiles h hexact (htile i (by omega)) t).bind fun _ =>
      all_syncthreads.bind fun _ => all_useTiles t acc
  · rw [storeResult]
    split_ifs with hin
    · exact .op (store_C_all h hexact hin.1 hin.2 acc) .pure
    · exact .pure ()

omit h in
/-- The number of tiles is right if the sum in it does not wrap, and only then. -/
lemma tiles_eq_iff (hK : 0 ≤ K) (hint : K < 2 ^ 31) :
    (tiles K : ℤ) = (K + 15) / 16 ↔ K ≤ 2 ^ 31 - 16 := by
  refine ⟨fun heq => ?_, tiles_eq_of_le hK⟩
  by_contra hlt
  have hint32 : int32 (K + kTile - 1) = -(2 ^ 32 - (K + 16 - 1)) := by
    rw [kTile_cast, int32, Int.bmod_def]
    omega
  rw [tiles, hint32, Int.neg_tdiv, kTile_cast, Int.tdiv_eq_ediv_of_nonneg (by omega)] at heq
  omega

theorem naiveExact_iff : NaiveExact R M N K x y ↔ Small M N K := by
  constructor
  · exact fun hexact => small_of_offsetsExact h hexact.toOffsetsExact
  · intro hsmall
    have hexact := offsetsExact_of_small h hsmall
    exact ⟨hexact, fun m s hs => all_of_reachable _ _ (all_naive h hexact) hs⟩

theorem tiledExact_iff (hint : K < 2 ^ 31) :
    TiledExact R M N K x y ↔ Small M N K ∧ K ≤ 2 ^ 31 - 16 := by
  constructor
  · exact fun hexact => ⟨small_of_offsetsExact h hexact.toOffsetsExact,
      (tiles_eq_iff h.K_nonneg hint).mp hexact.tiles_eq⟩
  · rintro ⟨hsmall, hK⟩
    have hexact := offsetsExact_of_small h hsmall
    have htiles := (tiles_eq_iff h.K_nonneg hint).mpr hK
    have htile : ∀ i < tiles K, ∀ c : Fin kTile,
        int32 (int32 (i * kTile) + c) = i * 16 + c := by
      intro i hi c
      have hc : (c : ℕ) < 16 := c.isLt
      rw [kTile_cast, int32_eq (n := i * 16) (by omega) (by omega), int32_eq (by omega) (by omega)]
    exact ⟨hexact, htiles, htile,
      fun m s hs => all_of_reachable _ _ (all_tiled h hexact htile) hs⟩

end Gemm

namespace Transpose

variable {E : Type} {rows cols : ℤ} {x y : ℕ}

theorem transposeExact_iff (h : Tiling rows cols x y) :
    TransposeExact E rows cols x y ↔ rows * cols ≤ 2 ^ 31 := by
  constructor
  · intro hexact
    have hrows := h.rows_pos
    have hcols := h.cols_pos
    -- the thread that loads the last element
    obtain ⟨b, i, hi, j, hj, -, hr, hc⟩ := exists_place h (r := rows - 1) (c := cols - 1) (by omega)
      (by omega) (by omega) (by omega)
    obtain ⟨t, rfl, p, hp, rfl, rfl⟩ := exists_load_thread b hi hj
    have hrow : inRow t (p * 8) = rows - 1 := (hexact.inRow_eq t p hp).trans hr.symm
    have hcol : inCol t = cols - 1 := (hexact.inCol_eq t).trans hc.symm
    have hlast := hexact.in_eq t p hp
    rw [hrow, hcol] at hlast
    exact size_le_of_last (hlast (by omega) (by omega))
  · intro hsize
    have hshape : Shape rows cols x y := ⟨h, hsize⟩
    have hsize' : cols * rows ≤ 2 ^ 31 := by rwa [mul_comm]
    exact
      { x_eq := h.x_eq
        y_eq := h.y_eq
        inCol_eq := inCol_eq h
        inRow_eq := fun t p hp => inRow_eq h t (by omega)
        outCol_eq := outCol_eq h
        outRow_eq := fun t p hp => outRow_eq h t (by omega)
        in_eq := fun t p hp hcol hrow => by
          refine flat_eq_of_le ?_ hrow ?_ hcol hsize
          · rw [inRow_eq h t (by omega)]
            omega
          · rw [inCol_eq h t]
            omega
        out_eq := fun t p hp hcol hrow => by
          refine flat_eq_of_le ?_ hrow ?_ hcol hsize'
          · rw [outRow_eq h t (by omega)]
            omega
          · rw [outCol_eq h t]
            omega
        inBounds := fun m s hs t o ho => inBounds_of_reachable t hshape hs ho }

end Transpose

/-! ### The three launches -/

section Launches

variable {R E : Type} [Semiring R] {x y : ℕ}

/-- On a grid that CUDA admits, the offsets of the kernels are what they are meant to be if and only
if the sizes of the matrices are no more than the number of natural `int`s; the tiled product also
needs the width of a tile above `K`. -/
theorem offsets_exact_iff :
    (∀ (null : Bool) {M N K : ℤ}, M < 2 ^ 31 → N < 2 ^ 31 → K < 2 ^ 31 →
      launchGemmNaive null M N K = .grid x y →
        (NaiveExact R M N K x y ↔ M * K ≤ 2 ^ 31 ∧ K * N ≤ 2 ^ 31 ∧ M * N ≤ 2 ^ 31)) ∧
    (∀ (null : Bool) {M N K : ℤ}, M < 2 ^ 31 → N < 2 ^ 31 → K < 2 ^ 31 →
      launchGemmTiled null M N K = .grid x y →
        (TiledExact R M N K x y ↔
          (M * K ≤ 2 ^ 31 ∧ K * N ≤ 2 ^ 31 ∧ M * N ≤ 2 ^ 31) ∧ K ≤ 2 ^ 31 - 16)) ∧
    ∀ (null : Bool) {rows cols : ℤ}, rows < 2 ^ 31 → cols < 2 ^ 31 →
      Transpose.launchTranspose null rows cols = .grid x y →
        (Transpose.TransposeExact E rows cols x y ↔ rows * cols ≤ 2 ^ 31) := by
  have hsmall : ∀ {M N K : ℤ},
      Small M N K ↔ M * K ≤ 2 ^ 31 ∧ K * N ≤ 2 ^ 31 ∧ M * N ≤ 2 ^ 31 :=
    ⟨fun h => ⟨h.MK_le, h.KN_le, h.MN_le⟩, fun ⟨hMK, hKN, hMN⟩ => ⟨hMK, hKN, hMN⟩⟩
  refine ⟨?_, ?_, ?_⟩
  · intro null M N K hM hN hK h
    rw [← hsmall]
    exact naiveExact_iff (grid_of_launchGemm hM hN h)
  · intro null M N K hM hN hK h
    rw [← hsmall]
    exact tiledExact_iff (grid_of_launchGemm hM hN h) hK
  · intro null rows cols hrows hcols h
    exact Transpose.transposeExact_iff (Transpose.tiling_of_launchTranspose hrows hcols h)

theorem offsets_exact_iff_large :
    NaiveExact ℤ 32768 65536 32768 4096 2048 ∧ ¬ TiledExact ℤ 1 1 (2 ^ 31 - 1) 1 1 ∧
      Transpose.TransposeExact ℚ 32768 65536 2048 1024 := by
  obtain ⟨hnaive, -, -⟩ := offsets_exact_iff (R := ℤ) (E := ℚ) (x := 4096) (y := 2048)
  obtain ⟨-, htiled, -⟩ := offsets_exact_iff (R := ℤ) (E := ℚ) (x := 1) (y := 1)
  obtain ⟨-, -, htranspose⟩ := offsets_exact_iff (R := ℤ) (E := ℚ) (x := 2048) (y := 1024)
  refine ⟨?_, ?_, ?_⟩
  · refine (hnaive false (by norm_num) (by norm_num) (by norm_num)
      (by decide +kernel)).mpr ?_
    norm_num
  · rw [htiled false (by norm_num) (by norm_num) (by norm_num) (by decide +kernel)]
    norm_num
  · refine (htranspose false (by norm_num) (by norm_num) (by decide +kernel)).mpr ?_
    norm_num

/-- A matrix of `2 ^ 32` elements is launched all the same. -/
theorem not_transposeExact_large :
    Transpose.launchTranspose false 65536 65536 = .grid 2048 2048 ∧
      ¬ Transpose.TransposeExact ℚ 65536 65536 2048 2048 := by
  have hlaunch : Transpose.launchTranspose false 65536 65536 = .grid 2048 2048 := by
    decide +kernel
  refine ⟨hlaunch, fun hexact => ?_⟩
  have hsize := (Transpose.transposeExact_iff (Transpose.tiling_of_launchTranspose (by norm_num)
    (by norm_num) hlaunch)).mp hexact
  norm_num at hsize

end Launches

end Cudatest
