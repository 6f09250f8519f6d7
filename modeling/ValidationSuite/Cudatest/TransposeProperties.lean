import ValidationSuite.Cudatest.GemmAgreement
import ValidationSuite.Cudatest.Transpose

/-!
# The transpose kernel transposes

In a first round the threads of a block load their tile, in a second one they store it; the guards
of the two rounds are about the same elements. Nobody touches what another thread writes in the same
round.
-/

namespace Cudatest.Transpose

open Simt Transition

/-- A grid of tiles that covers a matrix. -/
structure Tiling (rows cols : ℤ) (x y : ℕ) : Prop where
  rows_pos : 0 < rows
  cols_pos : 0 < cols
  rows_le : rows ≤ 2 ^ 31 - 32
  cols_le : cols ≤ 2 ^ 31 - 32
  x_eq : (x : ℤ) = (cols + 31) / 32
  y_eq : (y : ℤ) = (rows + 31) / 32

/-- The offsets into the matrix are `int`s. -/
structure Shape (rows cols : ℤ) (x y : ℕ) : Prop extends Tiling rows cols x y where
  size_le : rows * cols ≤ 2 ^ 31

section Threads

variable {rows cols : ℤ} {x y : ℕ}

lemma thread_lt (t : Thread x y) : (t.2.1 : ℕ) < 32 ∧ (t.2.2 : ℕ) < 8 :=
  ⟨t.2.1.isLt, t.2.2.isLt⟩

lemma place_eq {b c : ℕ} (h : (b : ℤ) * 32 + c < 2 ^ 31) : place b c = b * 32 + c := by
  have hcast : ((kTransTile : ℕ) : ℤ) = 32 := rfl
  rw [place, hcast]
  exact int32_eq (by omega) h

variable (h : Tiling rows cols x y) (t : Thread x y)
include h

lemma block_bounds : (t.1.1 : ℤ) * 32 + 31 < 2 ^ 31 ∧ (t.1.2 : ℤ) * 32 + 31 < 2 ^ 31 := by
  have hrows := h.rows_le
  have hcols := h.cols_le
  have hx := h.x_eq
  have hy := h.y_eq
  have hbx := t.1.1.isLt
  have hby := t.1.2.isLt
  omega

lemma inCol_eq : inCol t = t.1.1 * 32 + t.2.1 := by
  have hblock := block_bounds h t
  have hlt := thread_lt t
  exact place_eq (by omega)

lemma outCol_eq : outCol t = t.1.2 * 32 + t.2.1 := by
  have hblock := block_bounds h t
  have hlt := thread_lt t
  exact place_eq (by omega)

lemma inRow_eq {j : ℕ} (hj : j ≤ 24) : inRow t j = t.1.2 * 32 + (t.2.2 + j : ℕ) := by
  have hblock := block_bounds h t
  have hlt := thread_lt t
  rw [inRow, place_eq (by omega), int32_eq (by omega) (by omega)]
  push_cast
  rw [add_assoc]

lemma outRow_eq {j : ℕ} (hj : j ≤ 24) : outRow t j = t.1.1 * 32 + (t.2.2 + j : ℕ) := by
  have hblock := block_bounds h t
  have hlt := thread_lt t
  rw [outRow, place_eq (by omega), int32_eq (by omega) (by omega)]
  push_cast
  rw [add_assoc]

end Threads

/-! ### What a thread does in a round -/

section Rounds

variable {E : Type} {x y : ℕ} (rows cols : ℤ)

/-- What the two passes at `j` access, in a memory `m`. -/
def loadLog (m : Memory E x y) (t : Thread x y) (j : ℕ) : List (Op E x y) :=
  if inCol t < cols ∧ inRow t j < rows then
    [.load (.input (flat (inRow t j) cols (inCol t))),
      .store (.tile t.1 (t.2.2 + j) t.2.1) (m (.input (flat (inRow t j) cols (inCol t))))]
  else []

def storeLog (m : Memory E x y) (t : Thread x y) (j : ℕ) : List (Op E x y) :=
  if outCol t < rows ∧ outRow t j < cols then
    [.load (.tile t.1 t.2.1 (t.2.2 + j)),
      .store (.output (flat (outRow t j) rows (outCol t))) (m (.tile t.1 t.2.1 (t.2.2 + j)))]
  else []

/-- What a loop of four passes accesses. -/
def passesLog (log : ℕ → List (Op E x y)) : List (Op E x y) :=
  (List.range' 0 4).flatMap fun p => log (p * kTransRows)

lemma mem_passesLog {log : ℕ → List (Op E x y)} {o : Op E x y} :
    o ∈ passesLog log ↔ ∃ p < 4, o ∈ log (p * 8) := by
  simp [passesLog]

lemma solo_passes {pass : ℕ → Kernel E x y Unit} {log : ℕ → List (Op E x y)}
    {Q : Memory E x y → Prop}
    (h : ∀ j m, Q m → ∃ m', Q m' ∧ (pass j).solo Access.exec m = ⟨log j, m', .inl ()⟩)
    {m : Memory E x y} (hm : Q m) :
    ∃ m', (passes pass).solo Access.exec m = ⟨passesLog log, m', .inl ()⟩ := by
  obtain ⟨m', -, hloop⟩ := Prog.solo_loop_unit Access.exec
    (fun p m hm => h (p * kTransRows) m hm) 0 4 hm
  exact ⟨m', hloop⟩

lemma solo_loadPasses (t : Thread x y) (m : Memory E x y) :
    ∃ m', (passes (loadPass rows cols t)).solo Access.exec m =
      ⟨passesLog (loadLog rows cols m t), m', .inl ()⟩ := by
  refine solo_passes (Q := fun m' => ∀ i, m' (.input i) = m (.input i)) (fun j m' hm => ?_)
    fun _ => rfl
  rw [loadPass, loadLog]
  split_ifs
  · refine ⟨Function.update m' (.tile t.1 (t.2.2 + j) t.2.1)
      (m (.input (flat (inRow t j) cols (inCol t)))), fun i => by simp [hm i], ?_⟩
    rw [← hm]
    rfl
  · exact ⟨m', hm, rfl⟩

lemma solo_storePasses (t : Thread x y) (m : Memory E x y) :
    ∃ m', (passes (storePass rows cols t)).solo Access.exec m =
      ⟨passesLog (storeLog rows cols m t), m', .inl ()⟩ := by
  refine solo_passes (Q := fun m' => ∀ b r c, m' (.tile b r c) = m (.tile b r c))
    (fun j m' hm => ?_) fun _ _ _ => rfl
  rw [storePass, storeLog]
  split_ifs
  · refine ⟨Function.update m' (.output (flat (outRow t j) rows (outCol t)))
      (m (.tile t.1 t.2.1 (t.2.2 + j))), fun b r c => by simp [hm b r c], ?_⟩
    rw [← hm]
    rfl
  · exact ⟨m', hm, rfl⟩

/-! ### The plan of the rounds -/

/-- The places, in the input and in the output, of what belongs in the tile of the block at `r` and
`c`. -/
def inPlace (b : Block x y) (r c : ℕ) : ℤ := (b.2 * 32 + r) * cols + (b.1 * 32 + c)

def outPlace (b : Block x y) (r c : ℕ) : ℤ := (b.1 * 32 + c) * rows + (b.2 * 32 + r)

/-- Is it inside the matrix? -/
def Inside (b : Block x y) (r c : ℕ) : Prop :=
  (b.2 * 32 + r : ℤ) < rows ∧ (b.1 * 32 + c : ℤ) < cols

instance (b : Block x y) (r c : ℕ) : Decidable (Inside rows cols b r c) :=
  inferInstanceAs (Decidable (_ ∧ _))

/-- The element of the transposed matrix at the place `i`. -/
def transposed (m : Memory E x y) (i : ℤ) : E := m (.input (i % rows * cols + i / rows))

/-- In the first round a thread stores its elements in the tile, in the second one its elements of
the output. -/
def writes (t : Thread x y) (e : ℕ) : Set (Loc x y) :=
  {l | e = 0 ∧ (∃ p < 4, Inside rows cols t.1 (t.2.2 + p * 8) t.2.1 ∧
      l = .tile t.1 (t.2.2 + p * 8) t.2.1) ∨
    e = 1 ∧ ∃ p < 4, Inside rows cols t.1 t.2.1 (t.2.2 + p * 8) ∧
      l = .output (outPlace rows t.1 t.2.1 (t.2.2 + p * 8))}

/-- The input, the output of the block, and its tile. -/
def foot (b : Block x y) : Set (Loc x y) :=
  {l | match l with
    | .input _ => True
    | .output i => ∃ r < 32, ∃ c < 32, Inside rows cols b r c ∧ i = outPlace rows b r c
    | .tile b' r c => b' = b ∧ r < 32 ∧ c < 32}

def view (m : Memory E x y) (b : Block x y) (e : ℕ) : Memory E x y
  | .input i => m (.input i)
  | .output i => if 2 ≤ e then transposed rows cols m i else m (.output i)
  | .tile b' r c =>
    if b' = b ∧ 1 ≤ e ∧ Inside rows cols b r c then m (.input (inPlace cols b r c))
    else m (.tile b' r c)

def plan (m : Memory E x y) :
    Plan (Thread x y) (Block x y) (Op E x y) Access.Res (fun _ : Loc x y => E) where
  prog t e := if e = 0 then transposeKernel rows cols t else passes (storePass rows cols t)
  view := view rows cols m
  writes := writes rows cols
  foot := foot rows cols

variable (m : Memory E x y) (t : Thread x y)

lemma solo_transposeKernel :
    ∃ m', (transposeKernel rows cols t).solo Access.exec m =
      ⟨passesLog (loadLog rows cols m t), m', .inr (passes (storePass rows cols t))⟩ := by
  obtain ⟨m', hload⟩ := solo_loadPasses rows cols t m
  refine ⟨m', ?_⟩
  rw [transposeKernel, Prog.solo_bind, hload, Round.andThen_inl, syncthreads]
  rw [Prog.sync_bind, Prog.pure_bind, Prog.solo_sync, Round.after_mk, List.append_nil]

lemma round_zero :
    ∃ m', (plan rows cols m).round Access.exec Prod.fst t 0 =
      ⟨passesLog (loadLog rows cols m t), m', .inr ((plan rows cols m).prog t 1)⟩ := by
  have hview : (plan rows cols m).view t.1 0 = m := by
    funext l
    cases l <;> simp [plan, view]
  have hprog : (plan rows cols m).prog t 0 = transposeKernel rows cols t := by
    simp [plan]
  have hnext : (plan rows cols m).prog t 1 = passes (storePass rows cols t) := by
    simp [plan]
  rw [Plan.round, hview, hprog, hnext]
  exact solo_transposeKernel rows cols m t

lemma round_one :
    ∃ m', (plan rows cols m).round Access.exec Prod.fst t 1 =
      ⟨passesLog (storeLog rows cols (view rows cols m t.1 1) t), m', .inl ()⟩ := by
  simp only [Plan.round, plan, Nat.one_ne_zero, if_false]
  exact solo_storePasses rows cols t _

/-! ### Places and threads -/

variable {rows cols}

section Places

/-- The threads that load and store the place of the tile at `r` and `c`. -/
lemma exists_load_thread (b : Block x y) {r c : ℕ} (hr : r < 32) (hc : c < 32) :
    ∃ t : Thread x y, t.1 = b ∧ ∃ p < 4, r = t.2.2 + p * 8 ∧ c = t.2.1 :=
  ⟨(b, (⟨c, hc⟩, ⟨r % 8, Nat.mod_lt _ (by decide)⟩)), rfl, r / 8, by omega,
    (Nat.mod_add_div' r 8).symm, rfl⟩

lemma exists_store_thread (b : Block x y) {r c : ℕ} (hr : r < 32) (hc : c < 32) :
    ∃ t : Thread x y, t.1 = b ∧ ∃ p < 4, r = t.2.1 ∧ c = t.2.2 + p * 8 :=
  ⟨(b, (⟨r, hr⟩, ⟨c % 8, Nat.mod_lt _ (by decide)⟩)), rfl, c / 8, by omega, rfl,
    (Nat.mod_add_div' c 8).symm⟩

lemma thread_ext {t t' : Thread x y} (hb : t.1 = t'.1) (hx : (t.2.1 : ℕ) = t'.2.1)
    (hy : (t.2.2 : ℕ) = t'.2.2) : t = t' :=
  Prod.ext hb (Prod.ext (Fin.ext hx) (Fin.ext hy))

/-- Different places of the tiles are different places of the output. -/
lemma outPlace_inj {b b' : Block x y} {r c r' c' : ℕ} (hr : r < 32) (hc : c < 32) (hr' : r' < 32)
    (hc' : c' < 32) (hin : Inside rows cols b r c) (hin' : Inside rows cols b' r' c')
    (heq : outPlace rows b r c = outPlace rows b' r' c') : b = b' ∧ r = r' ∧ c = c' := by
  obtain ⟨hcol, hrow⟩ := flat_inj (by positivity) hin.1 (by positivity) hin'.1 heq
  refine ⟨Prod.ext (Fin.ext ?_) (Fin.ext ?_), ?_, ?_⟩ <;> omega

lemma transposed_outPlace {b : Block x y} {r c : ℕ} (hin : Inside rows cols b r c) :
    transposed rows cols m (outPlace rows b r c) = m (.input (inPlace cols b r c)) := by
  have hrow : (0 : ℤ) ≤ b.2 * 32 + r := by positivity
  rw [transposed, outPlace, flat_ediv hrow hin.1, flat_emod hrow hin.1, inPlace]

end Places

section Logs

variable (h : Shape rows cols x y)
include h

lemma loadLog_eq {p : ℕ} (hp : p < 4) :
    loadLog rows cols m t (p * 8) =
      if Inside rows cols t.1 (t.2.2 + p * 8) t.2.1 then
        [.load (.input (inPlace cols t.1 (t.2.2 + p * 8) t.2.1)),
          .store (.tile t.1 (t.2.2 + p * 8) t.2.1)
            (m (.input (inPlace cols t.1 (t.2.2 + p * 8) t.2.1)))]
      else [] := by
  have hcol := inCol_eq h.toTiling t
  have hrow := inRow_eq h.toTiling t (j := p * 8) (by omega)
  rw [loadLog, hcol, hrow]
  by_cases hin : Inside rows cols t.1 (t.2.2 + p * 8) t.2.1
  · have hflat := flat_eq_of_le (by omega) hin.1 (by omega) hin.2 h.size_le
    rw [if_pos ⟨hin.2, hin.1⟩, if_pos hin, hflat]
    rfl
  · rw [if_neg fun hin' => hin ⟨hin'.2, hin'.1⟩, if_neg hin]

lemma storeLog_eq {p : ℕ} (hp : p < 4) :
    storeLog rows cols m t (p * 8) =
      if Inside rows cols t.1 t.2.1 (t.2.2 + p * 8) then
        [.load (.tile t.1 t.2.1 (t.2.2 + p * 8)),
          .store (.output (outPlace rows t.1 t.2.1 (t.2.2 + p * 8)))
            (m (.tile t.1 t.2.1 (t.2.2 + p * 8)))]
      else [] := by
  have hcol := outCol_eq h.toTiling t
  have hrow := outRow_eq h.toTiling t (j := p * 8) (by omega)
  have hsize : cols * rows ≤ 2 ^ 31 := by
    rw [mul_comm]
    exact h.size_le
  rw [storeLog, hcol, hrow]
  by_cases hin : Inside rows cols t.1 t.2.1 (t.2.2 + p * 8)
  · have hflat := flat_eq_of_le (by omega) hin.2 (by omega) hin.1 hsize
    rw [if_pos ⟨hin.1, hin.2⟩, if_pos hin, hflat]
    rfl
  · rw [if_neg fun hin' => hin ⟨hin'.1, hin'.2⟩, if_neg hin]

lemma mem_loadLog {o : Op E x y} :
    o ∈ passesLog (loadLog rows cols m t) ↔
      ∃ p < 4, Inside rows cols t.1 (t.2.2 + p * 8) t.2.1 ∧
        (o = .load (.input (inPlace cols t.1 (t.2.2 + p * 8) t.2.1)) ∨
          o = .store (.tile t.1 (t.2.2 + p * 8) t.2.1)
            (m (.input (inPlace cols t.1 (t.2.2 + p * 8) t.2.1)))) := by
  rw [mem_passesLog]
  refine exists_congr fun p => and_congr_right fun hp => ?_
  rw [loadLog_eq m t h hp, List.mem_ite_nil_right, List.mem_pair]

lemma mem_storeLog {o : Op E x y} :
    o ∈ passesLog (storeLog rows cols m t) ↔
      ∃ p < 4, Inside rows cols t.1 t.2.1 (t.2.2 + p * 8) ∧
        (o = .load (.tile t.1 t.2.1 (t.2.2 + p * 8)) ∨
          o = .store (.output (outPlace rows t.1 t.2.1 (t.2.2 + p * 8)))
            (m (.tile t.1 t.2.1 (t.2.2 + p * 8)))) := by
  rw [mem_passesLog]
  refine exists_congr fun p => and_congr_right fun hp => ?_
  rw [storeLog_eq m t h hp, List.mem_ite_nil_right, List.mem_pair]

end Logs

/-! ### The plan is sound -/

section Sound

lemma view_tile {b : Block x y} {e r c : ℕ} (he : 1 ≤ e) (hin : Inside rows cols b r c) :
    view rows cols m b e (.tile b r c) = m (.input (inPlace cols b r c)) := by
  rw [view, if_pos ⟨rfl, he, hin⟩]

lemma input_mem_reads (b : Block x y) (e : ℕ) (i : ℤ) :
    .input i ∈ (plan rows cols m).reads Prod.fst b e :=
  ⟨trivial, fun t _ => by simp [plan, writes]⟩

lemma tile_mem_reads (b : Block x y) {r c : ℕ} (hr : r < 32) (hc : c < 32) :
    .tile b r c ∈ (plan rows cols m).reads Prod.fst b 1 :=
  ⟨⟨rfl, hr, hc⟩, fun t _ => by simp [plan, writes]⟩

/-- No two threads write the same place. -/
lemma eq_of_mem_writes {t t' : Thread x y} {e : ℕ} {l : Loc x y} (hl : l ∈ writes rows cols t e)
    (hl' : l ∈ writes rows cols t' e) : t = t' := by
  have hlt := thread_lt t
  have hlt' := thread_lt t'
  obtain ⟨rfl, p, hp, hin, rfl⟩ | ⟨rfl, p, hp, hin, rfl⟩ := hl
  · obtain ⟨-, p', hp', hin', heq⟩ | ⟨hzero, -⟩ := hl'
    · obtain ⟨hb, hr, hc⟩ := Loc.tile.inj heq
      exact thread_ext hb hc (by omega)
    · omega
  · obtain ⟨hone, -⟩ | ⟨-, p', hp', hin', heq⟩ := hl'
    · omega
    · obtain ⟨hb, hr, hc⟩ := outPlace_inj (by omega) (by omega) (by omega) (by omega) hin hin'
        (Loc.output.inj heq)
      exact thread_ext hb hr (by omega)

/-- What nobody writes in a round stays as it is. -/
lemma view_succ {b : Block x y} {e : ℕ} (he : e ≤ 1) {l : Loc x y}
    (hl : l ∈ (plan rows cols m).reads Prod.fst b e) :
    view rows cols m b (e + 1) l = view rows cols m b e l := by
  obtain ⟨hfoot, hquiet⟩ := hl
  cases l with
  | input i => rfl
  | output i =>
    obtain rfl | rfl := Nat.le_one_iff_eq_zero_or_eq_one.mp he
    · simp [view]
    · obtain ⟨r, hr, c, hc, hin, rfl⟩ := hfoot
      obtain ⟨t, rfl, p, hp, rfl, rfl⟩ := exists_store_thread b hr hc
      exact absurd (.inr ⟨rfl, p, hp, hin, rfl⟩) (hquiet t rfl)
  | tile b' r c =>
    obtain ⟨rfl, hr, hc⟩ := hfoot
    obtain rfl | rfl := Nat.le_one_iff_eq_zero_or_eq_one.mp he
    · by_cases hin : Inside rows cols b' r c
      · obtain ⟨t, rfl, p, hp, rfl, rfl⟩ := exists_load_thread b' hr hc
        exact absurd (.inl ⟨rfl, p, hp, hin, rfl⟩) (hquiet t rfl)
      · simp [view, hin]
    · simp [view]

variable (h : Shape rows cols x y)
include h

lemma confined_round {e : ℕ} (he : e ≤ 1) {o : Op E x y}
    (ho : o ∈ ((plan rows cols m).round Access.exec Prod.fst t e).log) :
    Confined Access.exec ((plan rows cols m).reads Prod.fst t.1 e) (writes rows cols t e) o := by
  have hlt := thread_lt t
  obtain rfl | rfl := Nat.le_one_iff_eq_zero_or_eq_one.mp he
  · obtain ⟨m', hround⟩ := round_zero rows cols m t
    rw [hround, mem_loadLog m t h] at ho
    obtain ⟨p, hp, hin, rfl | rfl⟩ := ho
    · exact confined_load (.inl (input_mem_reads m _ _ _))
    · exact confined_store _ (.inl ⟨rfl, p, hp, hin, rfl⟩)
  · obtain ⟨m', hround⟩ := round_one rows cols m t
    rw [hround, mem_storeLog _ t h] at ho
    obtain ⟨p, hp, hin, rfl | rfl⟩ := ho
    · exact confined_load (.inl (tile_mem_reads m _ (by omega) (by omega)))
    · exact confined_store _ (.inr ⟨rfl, p, hp, hin, rfl⟩)

/-- What a thread writes in a round is there for the next one. -/
lemma view_written {e : ℕ} {l : Loc x y} (hl : l ∈ writes rows cols t e) :
    view rows cols m t.1 (e + 1) l =
      ((plan rows cols m).round Access.exec Prod.fst t e).mem l := by
  have hlt := thread_lt t
  obtain ⟨rfl, p, hp, hin, rfl⟩ | ⟨rfl, p, hp, hin, rfl⟩ := hl
  · obtain ⟨m', hround⟩ := round_zero rows cols m t
    rw [view_tile m le_rfl hin]
    symm
    refine Plan.mem_round_of_store (V := fun _ => E) Prod.fst (P := plan rows cols m) ?_
      fun w hw => ?_
    · rw [hround, mem_loadLog m t h]
      exact ⟨p, hp, hin, .inr rfl⟩
    · rw [hround, mem_loadLog m t h] at hw
      obtain ⟨p', hp', hin', heq | heq⟩ := hw
      · nomatch heq
      · obtain ⟨hloc, hw⟩ := Access.store.inj heq
        obtain ⟨-, hr, -⟩ := Loc.tile.inj hloc
        rw [← hr] at hw
        exact eq_of_heq hw
  · obtain ⟨m', hround⟩ := round_one rows cols m t
    rw [view, if_pos le_rfl, transposed_outPlace m hin]
    symm
    refine Plan.mem_round_of_store (V := fun _ => E) Prod.fst (P := plan rows cols m) ?_
      fun w hw => ?_
    · rw [hround, mem_storeLog _ t h]
      exact ⟨p, hp, hin, .inr (by rw [view_tile m le_rfl hin])⟩
    · rw [hround, mem_storeLog _ t h] at hw
      obtain ⟨p', hp', hin', heq | heq⟩ := hw
      · nomatch heq
      · obtain ⟨hloc, hw⟩ := Access.store.inj heq
        obtain ⟨-, -, hc⟩ := outPlace_inj (by omega) (by omega) (by omega) (by omega) hin hin'
          (Loc.output.inj hloc)
        rw [view_tile m le_rfl hin', ← hc] at hw
        exact eq_of_heq hw

theorem plan_sound :
    (plan rows cols m).Sound Access.exec Prod.fst 1 m (transposeKernel rows cols) where
  prog_zero t := by
    simp [plan]
  view_zero b l _ := by
    cases l <;> simp [plan, view]
  next t e he := by
    obtain rfl := Nat.lt_one_iff.mp he
    obtain ⟨m', hround⟩ := round_zero rows cols m t
    rw [hround]
  last t := by
    obtain ⟨m', hround⟩ := round_one rows cols m t
    rw [hround]
  confined t e he o ho := confined_round m t h he ho
  written t e he l hl := view_written m t h hl
  kept b e he l hl := view_succ m he hl
  within t e l hl := by
    have hlt := thread_lt t
    obtain ⟨-, p, hp, hin, rfl⟩ | ⟨-, p, hp, hin, rfl⟩ := hl
    · exact ⟨rfl, by omega, by omega⟩
    · exact ⟨_, by omega, _, by omega, hin, rfl⟩
  alone t t' e _ hne l hl hl' := hne (eq_of_mem_writes hl hl')
  apart t e b hb l hl hfoot := by
    have hlt := thread_lt t
    obtain ⟨-, p, hp, hin, rfl⟩ | ⟨-, p, hp, hin, rfl⟩ := hl
    · exact hb hfoot.1
    · obtain ⟨r, hr, c, hc, hin', heq⟩ := hfoot
      exact hb (outPlace_inj (by omega) (by omega) hr hc hin hin' heq).1

end Sound

/-! ### What the kernel computes -/

variable (rows cols)

/-- The runs of the kernel: every access is in bounds; no place of a tile is read before a thread of
its block has stored it; as long as a thread has not come to its end a step can be taken, and not
for ever; what is stored in the output is its element of the input; and when all have come to their
end, each has been stored once, and the output is `D`. -/
structure Transposes (m : Memory E x y) (D : ℤ → E) : Prop where
  inBounds : ∀ s, (run rows cols m).Reachable s → ∀ t, ∀ o ∈ s.log t, InBounds rows cols t.1 o
  written : ∀ s, (run rows cols m).Reachable s → ∀ t b r c k,
    s.progs t = .op (.load (.tile b r c)) k → ∃ u, u.1 = b ∧ ∃ v, .store (.tile b r c) v ∈ s.log u
  progress : ∀ s, (run rows cols m).Reachable s → (∃ t, s.progs t ≠ .pure ()) →
    ∃ l s', (run rows cols m).step s l s'
  bounded : ∃ n, ∀ s₀ ls s, (run rows cols m).init s₀ → (run rows cols m).Path s₀ ls s →
    ls.length ≤ n
  stored : ∀ s, (run rows cols m).Reachable s → ∀ t, ∀ r c v, 0 ≤ r → r < rows → 0 ≤ c → c < cols →
    .store (.output (c * rows + r)) v ∈ s.log t → v = m (.input (r * cols + c))
  once : ∀ s, (run rows cols m).Reachable s → (∀ t, s.progs t = .pure ()) → ∀ r c, 0 ≤ r →
    r < rows → 0 ≤ c → c < cols →
    ∑ t, (s.log t).countP (Access.storesTo (.output (c * rows + r))) = 1
  result : ∀ s, (run rows cols m).Reachable s → (∀ t, s.progs t = .pure ()) → ∀ i,
    s.mem (.output i) = D i

variable {rows cols}

/-- The accesses of a thread in either round. -/
lemma round_cases {e : ℕ} (he : e ≤ 1) {o : Op E x y}
    (ho : o ∈ ((plan rows cols m).round Access.exec Prod.fst t e).log) :
    e = 0 ∧ o ∈ passesLog (loadLog rows cols m t) ∨
      e = 1 ∧ o ∈ passesLog (storeLog rows cols (view rows cols m t.1 1) t) := by
  obtain rfl | rfl := Nat.le_one_iff_eq_zero_or_eq_one.mp he
  · obtain ⟨m', hround⟩ := round_zero rows cols m t
    rw [hround] at ho
    exact .inl ⟨rfl, ho⟩
  · obtain ⟨m', hround⟩ := round_one rows cols m t
    rw [hround] at ho
    exact .inr ⟨rfl, ho⟩

lemma inPlace_bounds {b : Block x y} {r c : ℕ} (hin : Inside rows cols b r c) :
    0 ≤ inPlace cols b r c ∧ inPlace cols b r c < rows * cols :=
  flat_bounds (by omega) hin.1 (by omega) hin.2

lemma outPlace_bounds {b : Block x y} {r c : ℕ} (hin : Inside rows cols b r c) :
    0 ≤ outPlace rows b r c ∧ outPlace rows b r c < rows * cols := by
  rw [mul_comm rows cols]
  exact flat_bounds (by omega) hin.2 (by omega) hin.1

/-- Every element has its place in a tile. -/
lemma exists_place (h : Tiling rows cols x y) {r c : ℤ} (hr0 : 0 ≤ r) (hr : r < rows)
    (hc0 : 0 ≤ c) (hc : c < cols) :
    ∃ (b : Block x y), ∃ i < 32, ∃ j < 32, Inside rows cols b i j ∧
      r = b.2 * 32 + (i : ℕ) ∧ c = b.1 * 32 + (j : ℕ) := by
  have hx := h.x_eq
  have hy := h.y_eq
  refine ⟨(⟨(c / 32).toNat, by omega⟩, ⟨(r / 32).toNat, by omega⟩), (r % 32).toNat, by omega,
    (c % 32).toNat, by omega, ⟨?_, ?_⟩, ?_, ?_⟩ <;> simp only <;> omega

variable (h : Shape rows cols x y)
include h

variable {m} {s : State (Thread x y) (Block x y) (Op E x y) Access.Res (Memory E x y)}

lemma log_cases (hs : (run rows cols m).Reachable s) {o : Op E x y} (ho : o ∈ s.log t) :
    o ∈ passesLog (loadLog rows cols m t) ∨
      0 < s.passed t.1 ∧ o ∈ passesLog (storeLog rows cols (view rows cols m t.1 1) t) := by
  have hP := plan_sound m h
  obtain ⟨e, he, ho⟩ := hP.mem_round_of_mem_log hs ho
  obtain ⟨-, hlog⟩ | ⟨rfl, hlog⟩ := round_cases m t (he.trans ((hP.follows hs).passed _)) ho
  · exact .inl hlog
  · exact .inr ⟨he, hlog⟩

lemma inBounds_of_reachable (hs : (run rows cols m).Reachable s) {o : Op E x y}
    (ho : o ∈ s.log t) : InBounds rows cols t.1 o := by
  have hlt := thread_lt t
  obtain hlog | ⟨-, hlog⟩ := log_cases t h hs ho
  · obtain ⟨p, hp, hin, rfl | rfl⟩ := (mem_loadLog m t h).mp hlog
    · exact inPlace_bounds hin
    · change t.1 = t.1 ∧ t.2.2 + p * 8 < 32 ∧ (t.2.1 : ℕ) < 33
      exact ⟨rfl, by omega, by omega⟩
  · obtain ⟨p, hp, hin, rfl | rfl⟩ := (mem_storeLog _ t h).mp hlog
    · change t.1 = t.1 ∧ (t.2.1 : ℕ) < 32 ∧ t.2.2 + p * 8 < 33
      exact ⟨rfl, by omega, by omega⟩
    · exact outPlace_bounds hin

/-- A place of the tile that has been read has been stored by a thread of the block. -/
lemma exists_store_of_load (hs : (run rows cols m).Reachable s) {b : Block x y} {r c : ℕ}
    (ho : .load (.tile b r c) ∈ s.log t) :
    ∃ u, u.1 = b ∧ ∃ v, .store (.tile b r c) v ∈ s.log u := by
  have hlt := thread_lt t
  obtain hlog | ⟨hpassed, hlog⟩ := log_cases t h hs ho
  · obtain ⟨p, hp, hin, heq | heq⟩ := (mem_loadLog m t h).mp hlog
    · nomatch heq
    · nomatch heq
  · obtain ⟨p, hp, hin, heq | heq⟩ := (mem_storeLog _ t h).mp hlog
    · obtain ⟨rfl, rfl, rfl⟩ := Loc.tile.inj (Access.load.inj heq)
      obtain ⟨u, hu, q, hq, hr, hc⟩ := exists_load_thread t.1 (r := t.2.1) (c := t.2.2 + p * 8)
        (by omega) (by omega)
      obtain ⟨m', hround⟩ := round_zero rows cols m u
      refine ⟨u, hu, m (.input (inPlace cols t.1 t.2.1 (t.2.2 + p * 8))),
        (plan_sound m h).mem_log_of_passed hs (e := 0) (by rwa [hu]) ?_⟩
      rw [hround, mem_loadLog m u h, hr, hc, ← hu]
      rw [hr, hc, ← hu] at hin
      exact ⟨q, hq, hin, .inr rfl⟩
    · nomatch heq

lemma stored_of_reachable (hs : (run rows cols m).Reachable s) {r c : ℤ} {v : E} (hr0 : 0 ≤ r)
    (hr : r < rows) (hc0 : 0 ≤ c) (hc : c < cols)
    (ho : .store (.output (c * rows + r)) v ∈ s.log t) : v = m (.input (r * cols + c)) := by
  obtain hlog | ⟨-, hlog⟩ := log_cases t h hs ho
  · obtain ⟨p, hp, hin, heq | heq⟩ := (mem_loadLog m t h).mp hlog
    · nomatch heq
    · nomatch heq
  · obtain ⟨p, hp, hin, heq | heq⟩ := (mem_storeLog _ t h).mp hlog
    · nomatch heq
    · obtain ⟨hloc, hv⟩ := Access.store.inj heq
      obtain ⟨rfl, rfl⟩ := flat_inj hr0 hr (by omega) hin.1 (Loc.output.inj hloc)
      rw [eq_of_heq hv, view_tile m le_rfl hin, inPlace]

/-- Of all passes of all threads, one stores a place of the output. -/
lemma countP_before {b : Block x y} {r c : ℕ} (hr : r < 32) (hc : c < 32)
    (hin : Inside rows cols b r c) {t₀ : Thread x y} (hb : t₀.1 = b) {p : ℕ} (hp : p < 4)
    (hr₀ : r = t₀.2.1) (hc₀ : c = t₀.2.2 + p * 8) (t : Thread x y) :
    ((plan rows cols m).before Access.exec Prod.fst t 2).countP
      (Access.storesTo (.output (outPlace rows b r c))) = if t = t₀ then 1 else 0 := by
  have hlt := thread_lt t
  have hlt₀ := thread_lt t₀
  obtain ⟨m₀, hzero⟩ := round_zero rows cols m t
  obtain ⟨m₁, hone⟩ := round_one rows cols m t
  have hload : (passesLog (loadLog rows cols m t)).countP
      (Access.storesTo (.output (outPlace rows b r c))) = 0 := by
    refine List.countP_eq_zero.mpr fun o ho => ?_
    obtain ⟨q, hq, -, rfl | rfl⟩ := (mem_loadLog m t h).mp ho
    · simp [Access.storesTo]
    · simp [Access.storesTo]
  have hpass : ∀ q < 4, (storeLog rows cols (view rows cols m t.1 1) t (q * 8)).countP
      (Access.storesTo (.output (outPlace rows b r c))) = if t = t₀ ∧ q = p then 1 else 0 := by
    intro q hq
    rw [storeLog_eq _ t h hq]
    by_cases heq : t = t₀ ∧ q = p
    · obtain ⟨rfl, rfl⟩ := heq
      subst hb hr₀ hc₀
      simp [hin, Access.storesTo]
    · rw [if_neg heq]
      split_ifs with hin'
      · have hne : outPlace rows t.1 t.2.1 (t.2.2 + q * 8) ≠ outPlace rows b r c := by
          intro hplace
          obtain ⟨hb', hr', hc'⟩ := outPlace_inj (by omega) (by omega) hr hc hin' hin hplace
          exact heq ⟨thread_ext (hb'.trans hb.symm) (by omega) (by omega), by omega⟩
        simp [Access.storesTo, hne]
      · rfl
  have hstore : (passesLog (storeLog rows cols (view rows cols m t.1 1) t)).countP
      (Access.storesTo (.output (outPlace rows b r c))) =
      ((List.range' 0 4).map fun q => if t = t₀ ∧ q = p then 1 else 0).sum := by
    rw [passesLog, List.countP_flatMap]
    refine congrArg List.sum (List.map_congr_left fun q hq => hpass q ?_)
    simpa using hq
  rw [Plan.before, Plan.before, Plan.before, List.nil_append, hzero, hone, List.countP_append,
    hload, hstore, zero_add]
  by_cases ht : t = t₀
  · have hp : p = 0 ∨ p = 1 ∨ p = 2 ∨ p = 3 := by omega
    rcases hp with rfl | rfl | rfl | rfl <;> simp [ht, List.range']
  · simp [ht]

lemma once_of_done (hs : (run rows cols m).Reachable s) (hdone : ∀ t, s.progs t = .pure ())
    {r c : ℤ} (hr0 : 0 ≤ r) (hr : r < rows) (hc0 : 0 ≤ c) (hc : c < cols) :
    ∑ t, (s.log t).countP (Access.storesTo (.output (c * rows + r))) = 1 := by
  obtain ⟨b, i, hi, j, hj, hin, rfl, rfl⟩ := exists_place h.toTiling hr0 hr hc0 hc
  obtain ⟨t₀, hb, p, hp, hr₀, hc₀⟩ := exists_store_thread b hi hj
  have hcount : ∀ t, (s.log t).countP
      (Access.storesTo (.output (outPlace rows b i j))) = if t = t₀ then 1 else 0 := fun t => by
    rw [((plan_sound m h).of_done hs hdone).1 t]
    exact countP_before h hi hj hin hb hp hr₀ hc₀ t
  rw [← outPlace, Finset.sum_congr rfl fun t _ => hcount t,
    Finset.sum_ite_eq' Finset.univ t₀ fun _ => 1, if_pos (Finset.mem_univ t₀)]

/-- The transposed matrix in its place, and nothing new elsewhere. -/
def transpose (rows cols : ℤ) (input output : ℤ → E) (i : ℤ) : E :=
  if 0 ≤ i ∧ i < rows * cols then input (i % rows * cols + i / rows) else output i

lemma result_of_done (hs : (run rows cols m).Reachable s) (hdone : ∀ t, s.progs t = .pure ())
    (i : ℤ) : s.mem (.output i) =
      transpose rows cols (fun i => m (.input i)) (fun i => m (.output i)) i := by
  obtain ⟨-, hmem, houtside⟩ := (plan_sound m h).of_done hs hdone
  by_cases hi : 0 ≤ i ∧ i < rows * cols
  · rw [transpose, if_pos hi]
    have hr0 : 0 ≤ i % rows := Int.emod_nonneg i h.rows_pos.ne'
    have hr : i % rows < rows := Int.emod_lt_of_pos i h.rows_pos
    have hc0 : 0 ≤ i / rows := Int.ediv_nonneg hi.1 h.rows_pos.le
    have hc : i / rows < cols :=
      Int.ediv_lt_of_lt_mul h.rows_pos (by rw [mul_comm]; exact hi.2)
    obtain ⟨b, j, hj, k, hk, hin, hrow, hcol⟩ := exists_place h.toTiling hr0 hr hc0 hc
    have hplace : i = outPlace rows b j k := by
      rw [outPlace, ← hrow, ← hcol, Int.ediv_mul_add_emod]
    obtain ⟨t, rfl, -⟩ := exists_store_thread b hj hk
    rw [hmem t (.output i) ⟨j, hj, k, hk, hin, hplace⟩]
    rfl
  · rw [transpose, if_neg hi]
    refine houtside _ fun b hb => ?_
    obtain ⟨r, hr, c, hc, hin, rfl⟩ := hb
    exact hi (outPlace_bounds hin)

theorem transposes (m : Memory E x y) :
    Transposes rows cols m
      (transpose rows cols (fun i => m (.input i)) fun i => m (.output i)) where
  inBounds s hs t o ho := inBounds_of_reachable t h hs ho
  written s hs t b r c k ht := by
    have hstep : (run rows cols m).step s (.op t) (s.perform Access.exec t _ k) := .op ht
    obtain ⟨u, hu, v, hv⟩ := exists_store_of_load t h (hs.step hstep) (b := b) (r := r) (c := c)
      (by simp [State.perform])
    refine ⟨u, hu, v, ?_⟩
    by_cases hut : u = t
    · subst hut
      simpa [State.perform] using hv
    · simpa [State.perform, hut] using hv
  progress s hs hundone := (plan_sound m h).progress hs hundone
  bounded := (plan_sound m h).bounded
  stored s hs t r c v hr0 hr hc0 hc ho := stored_of_reachable t h hs hr0 hr hc0 hc ho
  once s hs hdone r c hr0 hr hc0 hc := once_of_done h hs hdone hr0 hr hc0 hc
  result s hs hdone i := result_of_done h hs hdone i

end Rounds

/-! ### The reference -/

section Reference

variable {E : Type} {rows cols : ℤ}

/-- A loop whose steps set some places, each to what belongs there. -/
lemma forLt_set {n : ℤ} {body : ℕ → (ℤ → E) → ℤ → E} {f : ℤ → E} {P : ℕ → ℤ → Prop}
    (h : ∀ j : ℕ, j < n → ∀ C i, (P j i → body j C i = f i) ∧ (¬ P j i → body j C i = C i))
    (C : ℤ → E) (i : ℤ) :
    ((∃ j : ℕ, j < n ∧ P j i) → forLt n body C i = f i) ∧
      ((¬ ∃ j : ℕ, j < n ∧ P j i) → forLt n body C i = C i) := by
  obtain hn | hn := lt_or_ge n 0
  · have hzero : forLt n body C = C := by
      rw [forLt, Int.toNat_of_nonpos hn.le]
      rfl
    rw [hzero]
    refine ⟨?_, fun _ => rfl⟩
    rintro ⟨j, hj, -⟩
    omega
  · obtain ⟨n, rfl⟩ := Int.eq_ofNat_of_zero_le hn
    induction n with
    | zero =>
      refine ⟨?_, fun _ => rfl⟩
      rintro ⟨j, hj, -⟩
      omega
    | succ n ih =>
      obtain ⟨hset, hkeep⟩ := ih (fun j hj => h j (by omega)) (Int.natCast_nonneg n)
      obtain ⟨hbody, hskip⟩ := h n (by omega) (forLt n body C) i
      rw [forLt_succ]
      by_cases hlast : P n i
      · exact ⟨fun _ => hbody hlast, fun hnone => absurd ⟨n, by omega, hlast⟩ hnone⟩
      · rw [hskip hlast]
        constructor
        · rintro ⟨j, hj, hP⟩
          refine hset ⟨j, lt_of_le_of_ne (by omega) ?_, hP⟩
          rintro heq
          obtain rfl := Int.ofNat_inj.mp heq
          exact hlast hP
        · intro hnone
          apply hkeep
          rintro ⟨j, hj, hP⟩
          exact hnone ⟨j, by omega, hP⟩

theorem cpuTranspose_eq (hrows : 0 < rows) (hsize : rows * cols ≤ 2 ^ 31) (input output : ℤ → E) :
    cpuTranspose rows cols input output = transpose rows cols input output := by
  have hentry : ∀ r : ℕ, r < rows → ∀ c : ℕ, c < cols → ∀ (C : ℤ → E) (i : ℤ),
      (c * rows + r = i → Function.update C (flat c rows r) (input (flat r cols c)) i =
        input (i % rows * cols + i / rows)) ∧
      (¬ c * rows + r = i →
        Function.update C (flat c rows r) (input (flat r cols c)) i = C i) := by
    intro r hr c hc C i
    rw [flat_eq_of_le (by omega) hc (by omega) hr (by rwa [mul_comm]),
      flat_eq_of_le (by omega) hr (by omega) hc hsize]
    constructor
    · rintro rfl
      rw [Function.update_self, flat_emod (by omega) hr, flat_ediv (by omega) hr]
    · intro hne
      rw [Function.update_of_ne (Ne.symm hne)]
  funext i
  obtain ⟨hset, hkeep⟩ := forLt_set (P := fun (r : ℕ) i => ∃ c : ℕ, c < cols ∧ c * rows + r = i)
    (fun r hr C i => forLt_set (P := fun (c : ℕ) i => c * rows + r = i) (hentry r hr) C i)
    output i
  rw [cpuTranspose, transpose]
  split_ifs with hi
  · have hr0 : 0 ≤ i % rows := Int.emod_nonneg i hrows.ne'
    have hc0 : 0 ≤ i / rows := Int.ediv_nonneg hi.1 hrows.le
    refine hset ⟨(i % rows).toNat, ?_, (i / rows).toNat, ?_, ?_⟩
    · rw [Int.toNat_of_nonneg hr0]
      exact Int.emod_lt_of_pos i hrows
    · rw [Int.toNat_of_nonneg hc0]
      exact Int.ediv_lt_of_lt_mul hrows (by rw [mul_comm]; exact hi.2)
    · rw [Int.toNat_of_nonneg hr0, Int.toNat_of_nonneg hc0, Int.ediv_mul_add_emod]
  · refine hkeep ?_
    rintro ⟨r, hr, c, hc, rfl⟩
    rw [mul_comm rows cols] at hi
    exact hi (flat_bounds (by omega) hc (by omega) hr)

/-- Transposing twice gives the matrix back. -/
lemma transpose_transpose (hcols : 0 < cols) (input output output' : ℤ → E) (i : ℤ) :
    transpose cols rows (transpose rows cols input output) output' i =
      if 0 ≤ i ∧ i < rows * cols then input i else output' i := by
  rw [transpose, mul_comm cols rows]
  split_ifs with hi
  · have hc0 : 0 ≤ i % cols := Int.emod_nonneg i hcols.ne'
    have hc : i % cols < cols := Int.emod_lt_of_pos i hcols
    have hr0 : 0 ≤ i / cols := Int.ediv_nonneg hi.1 hcols.le
    have hr : i / cols < rows := Int.ediv_lt_of_lt_mul hcols hi.2
    have hplace := flat_bounds hc0 hc hr0 hr
    rw [mul_comm cols rows] at hplace
    rw [transpose, if_pos hplace, flat_emod hr0 hr, flat_ediv hr0 hr, Int.ediv_mul_add_emod]
  · rfl

end Reference

/-! ### The launch -/

section Launch

variable {E : Type} {rows cols : ℤ}

/-- Global memory with these matrices, and shared memory with anything in it. -/
def memory {x y : ℕ} (input output : ℤ → E) (tile : Block x y → ℕ → ℕ → E) : Memory E x y
  | .input i => input i
  | .output i => output i
  | .tile b r c => tile b r c

lemma gridDim_tile {n : ℤ} (h : 0 < n) (hle : n ≤ 2 ^ 31 - 32) :
    (gridDim n kTransTile : ℤ) = (n + 31) / 32 := by
  have hdim : (gridDim n kTransTile : ℤ) = (n + 32 - 1) / 32 :=
    gridDim_eq h (by decide) (by change n + 32 ≤ 2 ^ 31; omega)
  omega

lemma tiling (hrows : 0 < rows) (hcols : 0 < cols) (hrows' : rows ≤ 2 ^ 31 - 32)
    (hcols' : cols ≤ 2 ^ 31 - 32) :
    Tiling rows cols (gridDim cols kTransTile) (gridDim rows kTransTile) where
  rows_pos := hrows
  cols_pos := hcols
  rows_le := hrows'
  cols_le := hcols'
  x_eq := gridDim_tile hcols hcols'
  y_eq := gridDim_tile hrows hrows'

/-- The runs of the kernel on the grid it is launched with compute what the reference does, and
those on the grid of the result give the matrix back. -/
theorem transpose_correct (hrows : 1 ≤ rows) (hcols : 1 ≤ cols) (hrows' : rows ≤ 2 ^ 31 - 64)
    (hcols' : cols ≤ 2 ^ 31 - 64) (hsize : rows * cols ≤ 2 ^ 31 - 1)
    (hgrid : gridDim rows kTransTile ≤ 65535) (input output : ℤ → E) :
    launchTranspose false rows cols =
        .grid (gridDim cols kTransTile) (gridDim rows kTransTile) ∧
      (∀ tile : Block (gridDim cols kTransTile) (gridDim rows kTransTile) → ℕ → ℕ → E,
        Transposes rows cols (memory input output tile) (cpuTranspose rows cols input output)) ∧
      ∀ (output' : ℤ → E)
        (tile : Block (gridDim rows kTransTile) (gridDim cols kTransTile) → ℕ → ℕ → E),
        Transposes cols rows (memory (cpuTranspose rows cols input output) output' tile)
          fun i => if 0 ≤ i ∧ i < rows * cols then input i else output' i := by
  have hshape : Shape rows cols (gridDim cols kTransTile) (gridDim rows kTransTile) :=
    ⟨tiling (by omega) (by omega) (by omega) (by omega), by omega⟩
  have hshape' : Shape cols rows (gridDim rows kTransTile) (gridDim cols kTransTile) :=
    ⟨tiling (by omega) (by omega) (by omega) (by omega), by rw [mul_comm]; omega⟩
  have hx := hshape.x_eq
  refine ⟨?_, fun tile => ?_, fun output' tile => ?_⟩
  · rw [launchTranspose, if_neg (by simp; omega), if_neg (by omega), launchGrid, if_neg (by omega)]
  · have htransposes := transposes hshape (memory input output tile)
    rwa [cpuTranspose_eq (by omega) hshape.size_le]
  · have htransposes :=
      transposes hshape' (memory (cpuTranspose rows cols input output) output' tile)
    rw [cpuTranspose_eq (by omega) hshape.size_le] at htransposes ⊢
    have hback := funext (@transpose_transpose E rows cols (by omega) input output output')
    rwa [← hback]

/-- Sizes that are no multiples of the tile. -/
theorem transpose_correct_ragged :
    launchTranspose false 33 100 = .grid (gridDim 100 kTransTile) (gridDim 33 kTransTile) ∧
      (∀ tile : Block (gridDim 100 kTransTile) (gridDim 33 kTransTile) → ℕ → ℕ → ℤ,
        Transposes 33 100 (memory (fun i => i) (fun _ => 7) tile)
          (cpuTranspose 33 100 (fun i => i) fun _ => 7)) ∧
      ∀ (output' : ℤ → ℤ)
        (tile : Block (gridDim 33 kTransTile) (gridDim 100 kTransTile) → ℕ → ℕ → ℤ),
        Transposes 100 33 (memory (cpuTranspose 33 100 (fun i => i) fun _ => 7) output' tile)
          fun i => if 0 ≤ i ∧ i < 33 * 100 then i else output' i :=
  transpose_correct (by decide) (by decide) (by decide) (by decide) (by decide) (by decide) _ _

end Launch

end Cudatest.Transpose
