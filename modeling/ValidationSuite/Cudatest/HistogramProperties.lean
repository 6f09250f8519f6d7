import ValidationSuite.Cudatest.GemmAgreement
import ValidationSuite.Cudatest.Histogram

/-!
# The histogram kernel counts

In the first round the threads of a block clear its counters, in the second one they count, in the
third one they add the counters to the bins. What the threads add to a counter or a bin is kept
apart, and is never more than there are bytes.
-/

namespace Cudatest.Histogram

open Simt Transition

section Plans

variable {grid block : ℕ} (n : ℕ) (m : Memory grid)

/-- One for the bytes that belong in the bin. -/
def occurs (k i : ℤ) : ℕ := if ((m (.input k)).toNat : ℤ) = i then 1 else 0

/-- How often a thread comes across the byte. -/
def threadCount (t : Thread grid block) (i : ℤ) : ℕ :=
  ∑ k ∈ Finset.range (steps n (start t) (grid * block)),
    occurs m (start t + k * (grid * block : ℕ)) i

def blockCount (block : ℕ) (b : Fin grid) (i : ℤ) : ℕ :=
  ∑ t : Thread grid block, if t.1 = b then threadCount n m t i else 0

/-- The counters that the thread clears and adds to the bins. -/
def Mine (t : Thread grid block) (i : ℤ) : Prop := 0 ≤ i ∧ i < 256 ∧ i % block = t.2

instance (t : Thread grid block) (i : ℤ) : Decidable (Mine t i) :=
  inferInstanceAs (Decidable (_ ∧ _))

/-! ### The plan of the rounds -/

/-- A thread clears its counters, then adds to any counter of its block, then to its bins. -/
def writes (t : Thread grid block) (e : ℕ) : Set (Loc grid × Option (Thread grid block)) :=
  {c | e = 0 ∧ (∃ i, Mine t i ∧ c.1 = .locals t.1 i) ∨
    e = 1 ∧ (∃ i, 0 ≤ i ∧ i < 256 ∧ c = (.locals t.1 i, some t)) ∨
    e = 2 ∧ ∃ i, Mine t i ∧ c = (.bins i, some t)}

/-- The array, the counters of the block, and what its threads add to the bins. -/
def foot (b : Fin grid) : Set (Loc grid × Option (Thread grid block)) :=
  {c | match c with
    | (.input _, _) => True
    | (.locals b' i, _) => b' = b ∧ 0 ≤ i ∧ i < 256
    | (.bins i, some t) => t.1 = b ∧ 0 ≤ i ∧ i < 256
    | (.bins _, none) => False}

def view (e : ℕ) : Split (Thread grid block) (Loc grid)
  | (.input i, none) => (m (.input i)).toNat
  | (.input _, some _) => 0
  | (.locals b i, none) => if e = 0 then (m (.locals b i)).toNat else 0
  | (.locals b i, some t) => if 2 ≤ e ∧ t.1 = b then threadCount n m t i else 0
  | (.bins _, none) => 0
  | (.bins i, some t) =>
    if 3 ≤ e ∧ Mine t i then (UInt32.ofNat (blockCount n m block t.1 i)).toNat else 0

/-- What is left to do after the second barrier, and after the first. -/
def flushPhase (t : Thread grid block) : Kernel grid block Unit :=
  strided 256 t.2 block (fun i _ => flush t i) ()

def countPhase (t : Thread grid block) : Kernel grid block Unit := do
  strided n (start t) (grid * block) (fun i _ => count t i) ()
  syncthreads
  flushPhase t

def rest (t : Thread grid block) : ℕ → Kernel grid block Unit
  | 0 => histogram256Kernel n t
  | 1 => countPhase n t
  | _ + 2 => flushPhase t

def plan : Plan (Thread grid block) (Fin grid) (Op grid block) Atomic.Res
    (fun _ : Loc grid × Option (Thread grid block) => ℕ) where
  prog := rest n
  view _ := view n m
  writes := writes
  foot := foot

/-- What a thread does in each round. -/
inductive Does (t : Thread grid block) : ℕ → Op grid block → Prop
  | clear {i : ℤ} (hi : Mine t i) : Does t 0 (.store (.locals t.1 i) (0 : UInt32))
  | input {k : ℕ} (hk : k < steps n (start t) (grid * block)) :
    Does t 1 (.load (.input (start t + k * (grid * block : ℕ))))
  | count {k : ℕ} (hk : k < steps n (start t) (grid * block)) :
    Does t 1
      (.add t (.locals t.1 (m (.input (start t + k * (grid * block : ℕ)))).toNat) (1 : UInt32))
  | load {i : ℤ} (hi : Mine t i) : Does t 2 (.load (.locals t.1 i))
  | flush {i : ℤ} (hi : Mine t i) :
    Does t 2 (.add t (.bins i) (UInt32.ofNat (blockCount n m block t.1 i)))

/-- How many of the bytes belong in the bin. -/
def occurrences (i : ℤ) : ℕ := ∑ k ∈ Finset.range n, occurs m k i

end Plans

section Rounds

variable {grid block n : ℕ} (m : Memory grid) (t : Thread grid block)

/-! ### The logs of the rounds -/

def clearLog : List (Op grid block) :=
  (List.range' 0 (steps 256 t.2 block)).flatMap fun (k : ℕ) =>
    [.store (.locals t.1 (t.2 + k * block)) (0 : UInt32)]

def countLog (n : ℕ) : List (Op grid block) :=
  (List.range' 0 (steps n (start t) (grid * block))).flatMap fun (k : ℕ) =>
    [.load (.input (start t + k * (grid * block : ℕ))),
      .add t (.locals t.1 (m (.input (start t + k * (grid * block : ℕ)))).toNat) (1 : UInt32)]

/-- What a thread does that finds `v` in a counter. -/
def flushOps (i : ℤ) (v : UInt32) : List (Op grid block) :=
  .load (.locals t.1 i) :: if v ≠ 0 then [.load (.locals t.1 i), .add t (.bins i) v] else []

def flushLog (n : ℕ) : List (Op grid block) :=
  (List.range' 0 (steps 256 t.2 block)).flatMap fun (k : ℕ) =>
    flushOps t (t.2 + k * block) (UInt32.ofNat (blockCount n m block t.1 (t.2 + k * block)))

lemma solo_clear (b : Fin grid) (i : ℤ) (g : Split (Thread grid block) (Loc grid)) :
    ∃ g', True ∧ (clear b i : Kernel grid block Unit).solo Split.exec g =
      ⟨[.store (.locals b i) (0 : UInt32)], g', .inl ()⟩ := ⟨_, ⟨⟩, rfl⟩

lemma solo_count {i : ℤ} {g : Split (Thread grid block) (Loc grid)}
    (hg : ∀ j, g.join (V := Value) (.input j) = m (.input j)) :
    ∃ g' : Split (Thread grid block) (Loc grid),
      (∀ j, g'.join (V := Value) (.input j) = m (.input j)) ∧ (count t i).solo Split.exec g =
        ⟨[.load (.input i), .add t (.locals t.1 (m (.input i)).toNat) (1 : UInt32)], g',
          .inl ()⟩ := by
  refine ⟨(Split.exec (.add t (.locals t.1 (m (.input i)).toNat) (1 : UInt32) : Op grid block) g).2,
    fun j => ?_, ?_⟩
  · refine (Split.join_exec_of_ne (fun v => ?_) (fun u v => ?_) g).trans (hg j)
    · simp
    · simp
  · rw [← hg i]
    rfl

lemma solo_flush {i : ℤ} {v : ℤ → UInt32} {g : Split (Thread grid block) (Loc grid)}
    (hg : ∀ j, g.join (V := Value) (.locals t.1 j) = v j) :
    ∃ g' : Split (Thread grid block) (Loc grid),
      (∀ j, g'.join (V := Value) (.locals t.1 j) = v j) ∧ (flush t i).solo Split.exec g =
        ⟨flushOps t i (v i), g', .inl ()⟩ := by
  have hload : (loadLocal t.1 i : Kernel grid block UInt32).solo Split.exec g =
      ⟨[.load (.locals t.1 i)], g, .inl (v i)⟩ := by
    rw [← hg i]
    exact Split.solo_fetch _ g
  rw [flush, Prog.solo_bind, hload, Round.andThen_inl, flushOps]
  by_cases hv : v i = 0
  · exact ⟨g, hg, by simp [hv]⟩
  · refine ⟨(Split.exec (.add t (.bins i) (v i) : Op grid block) g).2, fun j => ?_, ?_⟩
    · refine (Split.join_exec_of_ne (fun v => ?_) (fun u v => ?_) g).trans (hg j)
      · simp
      · simp
    · rw [if_pos hv, if_pos hv, Prog.solo_bind, hload]
      rfl

/-! ### The rounds -/

lemma join_view_input (e : ℕ) (i : ℤ) :
    (view n m e : Split (Thread grid block) (Loc grid)).join (V := Value) (.input i) =
      m (.input i) := by
  rw [Split.join_of_no_adds fun t => rfl]
  exact UInt8.ofNat_toNat

lemma join_view_locals (b : Fin grid) (i : ℤ) :
    (view n m 2 : Split (Thread grid block) (Loc grid)).join (V := Value) (.locals b i) =
      UInt32.ofNat (blockCount n m block b i) := by
  have hsome : ∀ t, (view n m 2 : Split (Thread grid block) (Loc grid)) (.locals b i, some t) =
      if t.1 = b then threadCount n m t i else 0 := fun t => if_congr (by simp) rfl rfl
  rw [Split.join, Finset.sum_congr rfl fun t _ => hsome t, ← blockCount]
  exact congrArg UInt32.ofNat (Nat.zero_add _)

/-- The loops over the counters. -/
lemma strided_eq_loop_block (hmax : block ≤ 1024) (body : ℤ → Unit → Kernel grid block Unit) :
    strided 256 t.2 block body () =
      loop (fun k => body (t.2 + k * block)) 0 (steps 256 t.2 block) () :=
  strided_eq_loop (n := 256) (by omega) t.2.isLt body ()

lemma round_zero (hmax : block ≤ 1024) :
    ∃ g, (plan n m).round Split.exec Prod.fst t 0 = ⟨clearLog t, g, .inr (rest n t 1)⟩ := by
  obtain ⟨g, -, hloop⟩ := Prog.solo_loop_unit (Split.exec (V := Value))
    (fun (k : ℕ) g _ => solo_clear t.1 (t.2 + k * block) g) 0 (steps 256 t.2 block)
    (m := view n m 0) ⟨⟩
  refine ⟨g, ?_⟩
  rw [Plan.round]
  change (histogram256Kernel n t).solo Split.exec (view n m 0) = _
  rw [histogram256Kernel, strided_eq_loop_block t hmax, Prog.solo_bind, hloop, Round.andThen_inl,
    syncthreads, Prog.sync_bind, Prog.pure_bind, Prog.solo_sync, Round.after_mk, List.append_nil]
  rfl

lemma round_one (hint : n + grid * block ≤ 2 ^ 31) :
    ∃ g, (plan n m).round Split.exec Prod.fst t 1 = ⟨countLog m t n, g, .inr (rest n t 2)⟩ := by
  obtain ⟨g, -, hloop⟩ := Prog.solo_loop_unit (Split.exec (V := Value))
    (fun k g hg => solo_count m t (i := start t + k * (grid * block : ℕ)) hg) 0
    (steps n (start t) (grid * block)) (m := view n m 1) (join_view_input m 1)
  refine ⟨g, ?_⟩
  rw [Plan.round]
  change (countPhase n t).solo Split.exec (view n m 1) = _
  rw [countPhase, strided_eq_loop hint (start_lt t), Prog.solo_bind, hloop, Round.andThen_inl,
    syncthreads, Prog.sync_bind, Prog.pure_bind, Prog.solo_sync, Round.after_mk, List.append_nil]
  rfl

lemma round_two (hmax : block ≤ 1024) :
    ∃ g, (plan n m).round Split.exec Prod.fst t 2 = ⟨flushLog m t n, g, .inl ()⟩ := by
  obtain ⟨g, -, hloop⟩ := Prog.solo_loop_unit (Split.exec (V := Value))
    (fun k g hg => solo_flush t (i := t.2 + k * block) hg) 0 (steps 256 t.2 block) (m := view n m 2)
    (join_view_locals m t.1)
  refine ⟨g, ?_⟩
  have hprog : (plan n m).prog t 2 = flushPhase t := by simp only [plan, rest]
  rw [Plan.round, hprog, flushPhase, strided_eq_loop_block t hmax]
  exact hloop

/-- A thread comes across its counters. -/
lemma mine_iff {i : ℤ} :
    Mine t i ↔ ∃ k < steps 256 (t.2 : ℕ) block, i = ((t.2 + k * block : ℕ) : ℤ) := by
  have hpos : 0 < block := t.2.pos
  constructor
  · rintro ⟨h0, hlt, hmod⟩
    obtain ⟨i, rfl⟩ := Int.eq_ofNat_of_zero_le h0
    have hmod : i % block = t.2 := by exact_mod_cast hmod
    have hi : t.2 + i / block * block = i := by rw [← hmod, Nat.mod_add_div']
    refine ⟨i / block, ?_, by rw [hi]⟩
    rw [lt_steps hpos, hi]
    exact_mod_cast hlt
  · rintro ⟨k, hk, rfl⟩
    refine ⟨Int.natCast_nonneg _, by exact_mod_cast (lt_steps hpos).mp hk, ?_⟩
    rw [← Int.natCast_emod, Nat.add_mul_mod_self_right, Nat.mod_eq_of_lt t.2.isLt]

lemma mine_of_lt {k : ℕ} (hk : k < steps 256 (t.2 : ℕ) block) : Mine t (t.2 + k * block) :=
  (mine_iff t).mpr ⟨k, hk, by push_cast; rfl⟩

lemma does_of_mem_round (hmax : block ≤ 1024) (hint : n + grid * block ≤ 2 ^ 31) {e : ℕ}
    (he : e ≤ 2) {o : Op grid block}
    (ho : o ∈ ((plan n m).round Split.exec Prod.fst t e).log) : Does n m t e o := by
  obtain rfl | rfl | rfl : e = 0 ∨ e = 1 ∨ e = 2 := by omega
  · obtain ⟨g, hround⟩ := round_zero (n := n) m t hmax
    rw [hround, clearLog, List.mem_flatMap] at ho
    obtain ⟨k, hk, ho⟩ := ho
    rw [List.mem_singleton.mp ho]
    exact .clear (mine_of_lt t (by simpa using hk))
  · obtain ⟨g, hround⟩ := round_one m t hint
    rw [hround, countLog, List.mem_flatMap] at ho
    obtain ⟨k, hk, ho⟩ := ho
    have hlt : k < steps n (start t) (grid * block) := by simpa using hk
    obtain rfl | rfl := List.mem_pair.mp ho
    · exact .input hlt
    · exact .count hlt
  · obtain ⟨g, hround⟩ := round_two (n := n) m t hmax
    rw [hround, flushLog, List.mem_flatMap] at ho
    obtain ⟨k, hk, ho⟩ := ho
    have hmine := mine_of_lt t (k := k) (by simpa using hk)
    rw [flushOps, List.mem_cons, List.mem_ite_nil_right, List.mem_pair] at ho
    obtain rfl | ⟨-, rfl | rfl⟩ := ho
    · exact .load hmine
    · exact .load hmine
    · exact .flush hmine

/-- A thread clears its counters. -/
lemma clear_mem_round (hmax : block ≤ 1024) {i : ℤ} (hi : Mine t i) :
    .store (.locals t.1 i) (0 : UInt32) ∈ ((plan n m).round Split.exec Prod.fst t 0).log := by
  obtain ⟨g, hround⟩ := round_zero (n := n) m t hmax
  obtain ⟨k, hk, rfl⟩ := (mine_iff t).mp hi
  rw [hround, clearLog, List.mem_flatMap]
  refine ⟨k, by simpa using hk, ?_⟩
  push_cast
  exact List.mem_cons_self

/-! ### What a thread adds -/

lemma sum_map_flatMap {A : Type} (f : ℕ → List A) (g : A → ℕ) (k : ℕ) :
    (((List.range' 0 k).flatMap f).map g).sum = ∑ j ∈ Finset.range k, ((f j).map g).sum := by
  induction k with
  | zero => rfl
  | succ k ih => simp [List.range'_concat, ih, Finset.sum_range_succ]

/-- All that a thread adds it adds as itself. -/
lemma added_eq_addedTo {e : ℕ} {o : Op grid block} (h : Does n m t e o) (l : Loc grid) :
    Split.added (l, some t) o = Split.addedTo l o := by
  cases h with
  | clear hi => rfl
  | input hk => rfl
  | count hk => simp [Split.added, Split.addedTo, eq_comm]
  | load hi => rfl
  | flush hi => simp [Split.added, Split.addedTo, eq_comm]

lemma sum_countLog (b : Fin grid) (i : ℤ) :
    ((countLog m t n).map (Split.addedTo (.locals b i))).sum =
      if t.1 = b then threadCount n m t i else 0 := by
  have hstep : ∀ j : ℤ, (([.load (.input j),
      .add t (.locals t.1 (m (.input j)).toNat) (1 : UInt32)] : List (Op grid block)).map
        (Split.addedTo (.locals b i))).sum = if t.1 = b then occurs m j i else 0 := fun j => by
    by_cases hb : t.1 = b
    · subst hb
      simp [Split.addedTo, occurs, Word.toNat]
    · simp [Split.addedTo, hb]
  rw [countLog, sum_map_flatMap, Finset.sum_congr rfl fun k _ => hstep _, threadCount]
  split_ifs
  · rfl
  · exact Finset.sum_const_zero

lemma sum_flushLog (i : ℤ) :
    ((flushLog m t n).map (Split.addedTo (.bins i))).sum =
      if Mine t i then (UInt32.ofNat (blockCount n m block t.1 i)).toNat else 0 := by
  have hstep : ∀ (j : ℤ) (v : UInt32), ((flushOps t j v).map (Split.addedTo (.bins i))).sum =
      if j = i then v.toNat else 0 := fun j v => by
    by_cases hv : v = 0
    · simp [flushOps, Split.addedTo, hv]
    · simp [flushOps, Split.addedTo, hv, Word.toNat]
  rw [flushLog, sum_map_flatMap, Finset.sum_congr rfl fun k _ => hstep _ _]
  split_ifs with hi
  · obtain ⟨k, hk, rfl⟩ := (mine_iff t).mp hi
    rw [Finset.sum_eq_single_of_mem k (Finset.mem_range.mpr hk) fun j _ hj => ?_]
    · push_cast
      rw [if_pos rfl]
    · refine if_neg fun heq => hj ?_
      have heq : t.2 + j * block = t.2 + k * block := by exact_mod_cast heq
      exact Nat.eq_of_mul_eq_mul_right t.2.pos (Nat.add_left_cancel heq)
  · refine Finset.sum_eq_zero fun k hk => if_neg fun heq => hi ?_
    rw [← heq]
    exact mine_of_lt t (Finset.mem_range.mp hk)

/-! ### The plan is sound -/

lemma plan_view (b : Fin grid) (e : ℕ) (c : Loc grid × Option (Thread grid block)) :
    (plan n m).view b e c = view n m e c := by
  simp only [plan]

lemma view_locals_of_lt {b : Fin grid} {e : ℕ} (he : e < 2) (i : ℤ) :
    view n m e (.locals b i, some t) = 0 :=
  if_neg fun h => absurd h.1 (Nat.not_le.mpr he)

lemma view_bins_of_lt {e : ℕ} (he : e < 3) (i : ℤ) : view n m e (.bins i, some t) = 0 :=
  if_neg fun h => absurd h.1 (Nat.not_le.mpr he)

lemma view_bins_of_le {e : ℕ} (he : 3 ≤ e) (i : ℤ) :
    view n m e (.bins i, some t) =
      if Mine t i then (UInt32.ofNat (blockCount n m block t.1 i)).toNat else 0 :=
  if_congr (and_iff_right he) rfl rfl

lemma input_mem_reads (b : Fin grid) (e : ℕ) (i : ℤ) (c : Option (Thread grid block)) :
    (.input i, c) ∈ (plan n m).reads Prod.fst b e :=
  ⟨trivial, fun t _ => by simp [plan, writes]⟩

/-- Nobody touches the counters in the last round but to read them. -/
lemma locals_mem_reads (b : Fin grid) {i : ℤ} (h0 : 0 ≤ i) (hlt : i < 256)
    (c : Option (Thread grid block)) : (.locals b i, c) ∈ (plan n m).reads Prod.fst b 2 :=
  ⟨⟨rfl, h0, hlt⟩, fun t _ => by simp [plan, writes]⟩

lemma eq_of_mine {t t' : Thread grid block} {i : ℤ} (hb : t.1 = t'.1) (h : Mine t i)
    (h' : Mine t' i) : t = t' := by
  refine Prod.ext hb (Fin.ext ?_)
  exact_mod_cast h.2.2.symm.trans h'.2.2

lemma exists_mine (hpos : 0 < block) (b : Fin grid) {i : ℤ} (h0 : 0 ≤ i) (hlt : i < 256) :
    ∃ j : Fin block, Mine (b, j) i := by
  have hmod0 : 0 ≤ i % block := Int.emod_nonneg i (by omega)
  have hmod : i % block < block := Int.emod_lt_of_pos i (by omega)
  refine ⟨⟨(i % block).toNat, by omega⟩, h0, hlt, ?_⟩
  exact (Int.toNat_of_nonneg hmod0).symm

/-- No two threads of a block write the same cell. -/
lemma eq_of_mem_writes {t t' : Thread grid block} (hb : t.1 = t'.1) {e : ℕ}
    {c : Loc grid × Option (Thread grid block)} (hc : c ∈ writes t e) (hc' : c ∈ writes t' e) :
    t = t' := by
  obtain ⟨rfl, i, hi, heq⟩ | ⟨rfl, i, -, -, rfl⟩ | ⟨rfl, i, -, rfl⟩ := hc
  · obtain ⟨-, i', hi', heq'⟩ | ⟨hone, -⟩ | ⟨htwo, -⟩ := hc'
    · obtain ⟨-, rfl⟩ := Loc.locals.inj (heq.symm.trans heq')
      exact eq_of_mine hb hi hi'
    · omega
    · omega
  · obtain ⟨hzero, -⟩ | ⟨-, i', -, -, heq'⟩ | ⟨htwo, -⟩ := hc'
    · omega
    · exact Option.some.inj (Prod.mk.inj heq').2
    · omega
  · obtain ⟨hzero, -⟩ | ⟨hone, -⟩ | ⟨-, i', -, heq'⟩ := hc'
    · omega
    · omega
    · exact Option.some.inj (Prod.mk.inj heq').2

/-- What nobody writes in a round stays as it is. -/
lemma view_succ {b : Fin grid} (hpos : 0 < block) {e : ℕ} (he : e ≤ 2)
    {c : Loc grid × Option (Thread grid block)} (hc : c ∈ (plan n m).reads Prod.fst b e) :
    view n m (e + 1) c = view n m e c := by
  obtain ⟨hfoot, hquiet⟩ := hc
  obtain ⟨l, c⟩ := c
  cases l with
  | input i => cases c <;> rfl
  | bins i =>
    cases c with
    | none => rfl
    | some t =>
      refine if_congr ⟨fun ⟨hle, hi⟩ => ?_, fun ⟨hle, hi⟩ => ⟨by omega, hi⟩⟩ rfl rfl
      obtain rfl : e = 2 := by omega
      exact absurd (.inr (.inr ⟨rfl, i, hi, rfl⟩)) (hquiet t hfoot.1)
  | locals b' i =>
    obtain ⟨rfl, h0, hlt⟩ := hfoot
    obtain ⟨j, hj⟩ := exists_mine hpos b' h0 hlt
    have hne : e ≠ 0 := by
      rintro rfl
      exact hquiet (b', j) rfl (.inl ⟨rfl, i, hj, rfl⟩)
    cases c with
    | none => simp [view, hne]
    | some t =>
      refine if_congr ⟨fun ⟨hle, hb⟩ => ?_, fun ⟨hle, hb⟩ => ⟨by omega, hb⟩⟩ rfl rfl
      refine ⟨?_, hb⟩
      by_contra hlt'
      obtain rfl : e = 1 := by omega
      exact hquiet t hb (.inr (.inl ⟨rfl, i, h0, hlt, by rw [hb]⟩))

section Sound

variable (hmax : block ≤ 1024) (hint : n + grid * block ≤ 2 ^ 31)
include hmax hint

lemma confined_round {e : ℕ} (he : e ≤ 2) {o : Op grid block}
    (ho : o ∈ ((plan n m).round Split.exec Prod.fst t e).log) :
    Confined (V := fun _ : Loc grid × Option (Thread grid block) => ℕ) Split.exec
      ((plan n m).reads Prod.fst t.1 e) (writes t e) o := by
  cases does_of_mem_round m t hmax hint he ho with
  | clear hi => exact Split.confined_store _ fun c => .inl ⟨rfl, _, hi, rfl⟩
  | input hk => exact Split.confined_load fun c => .inl (input_mem_reads m t.1 1 _ c)
  | count hk =>
    refine Split.confined_add _ (.inr (.inl ⟨rfl, _, Int.natCast_nonneg _, ?_, rfl⟩))
    exact_mod_cast UInt8.toNat_lt _
  | load hi => exact Split.confined_load fun c => .inl (locals_mem_reads m t.1 hi.1 hi.2.1 c)
  | flush hi => exact Split.confined_add _ (.inr (.inr ⟨rfl, _, hi, rfl⟩))

/-- What a cell of the thread's own has got when the round ends. -/
lemma mem_round_some {e : ℕ} (he : e ≤ 2) {l : Loc grid} (hl : e = 0 → ∀ i, l ≠ .locals t.1 i) :
    ((plan n m).round Split.exec Prod.fst t e).mem (l, some t) = view n m e (l, some t) +
      (((plan n m).round Split.exec Prod.fst t e).log.map (Split.addedTo l)).sum := by
  have hno : ∀ v, .store l v ∉ ((plan n m).round Split.exec Prod.fst t e).log := fun v hv => by
    cases does_of_mem_round m t hmax hint he hv with
    | clear hi => exact hl rfl _ rfl
  rw [Plan.round_of_no_store hno, List.map_congr_left fun o ho =>
    added_eq_addedTo m t (does_of_mem_round m t hmax hint he ho) l]
  rfl

/-- What a thread writes in a round is there for the next one. -/
lemma view_written {e : ℕ} {c : Loc grid × Option (Thread grid block)} (hc : c ∈ writes t e) :
    view n m (e + 1) c = ((plan n m).round Split.exec Prod.fst t e).mem c := by
  obtain ⟨rfl, i, hi, heq⟩ | ⟨rfl, i, h0, hlt, rfl⟩ | ⟨rfl, i, hi, rfl⟩ := hc
  · obtain ⟨l, c⟩ := c
    obtain rfl : l = .locals t.1 i := heq
    have hview : view n m 1 (.locals t.1 i, c) =
        Split.stored (V := Value) (l := .locals t.1 i) (0 : UInt32) c := by
      cases c with
      | none => rfl
      | some u => exact view_locals_of_lt m u (by omega) i
    have honly : ∀ w, .store (.locals t.1 i) w ∈
        ((plan n m).round Split.exec Prod.fst t 0).log → w = (0 : UInt32) := fun w hw => by
      cases does_of_mem_round m t hmax hint (Nat.zero_le 2) hw with
      | clear => rfl
    have hnoAdd : ∀ u w, .add u (.locals t.1 i) w ∉
        ((plan n m).round Split.exec Prod.fst t 0).log := fun u w hw => by
      nomatch does_of_mem_round m t hmax hint (Nat.zero_le 2) hw
    rw [hview, Plan.round_of_store (clear_mem_round m t hmax hi) honly hnoAdd]
  · obtain ⟨g, hround⟩ := round_one m t hint
    rw [mem_round_some m t hmax hint (by omega) (by simp), hround, sum_countLog]
    simp [view]
  · obtain ⟨g, hround⟩ := round_two (n := n) m t hmax
    rw [mem_round_some m t hmax hint le_rfl (by simp), hround, sum_flushLog]
    simp [view]

theorem plan_sound (hpos : 0 < block) :
    (plan n m).Sound Split.exec Prod.fst 2 (Split.of (memset m))
      (histogram256Kernel n : Thread grid block → _) where
  prog_zero t := rfl
  view_zero b c hc := by
    obtain ⟨l, c⟩ := c
    cases l with
    | input i => cases c <;> rfl
    | locals b' i =>
      cases c with
      | none => rfl
      | some t => exact view_locals_of_lt (n := n) m t (b := b') (e := 0) (by omega) i
    | bins i =>
      cases c with
      | none => exact hc.elim
      | some t => exact view_bins_of_lt (n := n) m t (e := 0) (by omega) i
  next t e he := by
    obtain rfl | rfl : e = 0 ∨ e = 1 := by omega
    · obtain ⟨g, hround⟩ := round_zero (n := n) m t hmax
      rw [hround]
      rfl
    · obtain ⟨g, hround⟩ := round_one m t hint
      rw [hround]
      simp only [plan]
  last t := by
    obtain ⟨g, hround⟩ := round_two (n := n) m t hmax
    rw [hround]
  confined t e he o ho := confined_round m t hmax hint he ho
  written t e he c hc := view_written m t hmax hint hc
  kept b e he c hc := view_succ m hpos he hc
  within t e c hc := by
    obtain ⟨rfl, i, hi, heq⟩ | ⟨rfl, i, h0, hlt, rfl⟩ | ⟨rfl, i, hi, rfl⟩ := hc
    · obtain ⟨l, c⟩ := c
      obtain rfl : l = .locals t.1 i := heq
      exact ⟨rfl, hi.1, hi.2.1⟩
    · exact ⟨rfl, h0, hlt⟩
    · exact ⟨rfl, hi.1, hi.2.1⟩
  alone t t' e hb hne c hc hc' := hne (eq_of_mem_writes hb hc hc')
  apart t e b hb c hc hfoot := by
    obtain ⟨rfl, i, hi, heq⟩ | ⟨rfl, i, h0, hlt, rfl⟩ | ⟨rfl, i, hi, rfl⟩ := hc
    · obtain ⟨l, c⟩ := c
      obtain rfl : l = .locals t.1 i := heq
      exact hb hfoot.1
    · exact hb hfoot.1
    · exact hb hfoot.1

end Sound

/-! ### How much is added -/

lemma sum_mine (hpos : 0 < block) {i : ℤ} (h0 : 0 ≤ i) (hlt : i < 256) (f : Fin grid → ℕ) :
    ∑ t : Thread grid block, (if Mine t i then f t.1 else 0) = ∑ b, f b := by
  rw [Fintype.sum_prod_type]
  refine Finset.sum_congr rfl fun b _ => ?_
  obtain ⟨j, hj⟩ := exists_mine hpos b h0 hlt
  have hiff : ∀ j', Mine (b, j') i ↔ j' = j := fun j' => by
    constructor
    · intro hj'
      have heq : ((b, j') : Thread grid block) = (b, j) := eq_of_mine rfl hj' hj
      exact (Prod.mk.inj heq).2
    · rintro rfl
      exact hj
  simp [hiff]

lemma sum_blockCount (hpos : 0 < grid * block) (i : ℤ) :
    ∑ b, blockCount n m block b i = occurrences n m i := by
  have hthreads : ∑ b, blockCount n m block b i =
      ∑ t : Thread grid block, threadCount n m t i := by
    simp only [blockCount]
    rw [Finset.sum_comm]
    exact Finset.sum_congr rfl fun t _ => by simp
  rw [hthreads, occurrences, ← sum_places hpos n fun k => occurs m k i]
  refine Finset.sum_congr rfl fun t _ => Finset.sum_congr rfl fun k _ => ?_
  push_cast
  rfl

lemma occurrences_le (i : ℤ) : occurrences n m i ≤ n := by
  have hone : ∀ k ∈ Finset.range n, occurs m k i ≤ 1 := fun k _ => by
    rw [occurs]
    split_ifs
    · exact le_rfl
    · exact Nat.zero_le 1
  simpa [occurrences] using Finset.sum_le_card_nsmul _ _ _ hone

/-- Every byte belongs in one bin. -/
lemma sum_occurrences : ∑ i ∈ Finset.range 256, occurrences n m i = n := by
  have hone : ∀ k : ℤ, ∑ i ∈ Finset.range 256, occurs m k (i : ℕ) = 1 := fun k => by
    have hlt := UInt8.toNat_lt (m (.input k))
    simp [occurs, hlt]
  simp only [occurrences]
  rw [Finset.sum_comm, Finset.sum_congr rfl fun (k : ℕ) _ => hone k]
  simp

section Sums

variable (hmax : block ≤ 1024) (hint : n + grid * block ≤ 2 ^ 31)
include hmax hint

/-- What a thread adds to a counter in all. -/
lemma sum_before_locals (b : Fin grid) (i : ℤ) :
    (((plan n m).before Split.exec Prod.fst t 3).map (Split.addedTo (.locals b i))).sum =
      if t.1 = b then threadCount n m t i else 0 := by
  have hzero : ∀ e ≤ 2, e ≠ 1 → (((plan n m).round Split.exec Prod.fst t e).log.map
      (Split.addedTo (.locals b i))).sum = 0 := fun e he hne => by
    refine List.sum_eq_zero fun x hx => ?_
    obtain ⟨o, ho, rfl⟩ := List.mem_map.mp hx
    cases does_of_mem_round m t hmax hint he ho with
    | clear hi => rfl
    | input hk => rfl
    | count hk => exact absurd rfl hne
    | load hi => rfl
    | flush hi => simp [Split.addedTo]
  obtain ⟨g, hround⟩ := round_one m t hint
  have hone := sum_countLog m t (n := n) b i
  rw [Plan.before, Plan.before, Plan.before, Plan.before, List.nil_append, List.map_append,
    List.map_append, List.sum_append, List.sum_append, hzero 0 (by omega) (by omega),
    hzero 2 le_rfl (by omega), hround, hone, zero_add, add_zero]

/-- What a thread adds to a bin in all. -/
lemma sum_before_bins (i : ℤ) :
    (((plan n m).before Split.exec Prod.fst t 3).map (Split.addedTo (.bins i))).sum =
      if Mine t i then (UInt32.ofNat (blockCount n m block t.1 i)).toNat else 0 := by
  have hzero : ∀ e ≤ 2, e ≠ 2 → (((plan n m).round Split.exec Prod.fst t e).log.map
      (Split.addedTo (.bins i))).sum = 0 := fun e he hne => by
    refine List.sum_eq_zero fun x hx => ?_
    obtain ⟨o, ho, rfl⟩ := List.mem_map.mp hx
    cases does_of_mem_round m t hmax hint he ho with
    | clear hi => rfl
    | input hk => rfl
    | count hk => simp [Split.addedTo]
    | load hi => rfl
    | flush hi => exact absurd rfl hne
  obtain ⟨g, hround⟩ := round_two (n := n) m t hmax
  have htwo := sum_flushLog m t (n := n) i
  rw [Plan.before, Plan.before, Plan.before, Plan.before, List.nil_append, List.map_append,
    List.map_append, List.sum_append, List.sum_append, hzero 0 (by omega) (by omega),
    hzero 1 (by omega) (by omega), hround, htwo, zero_add, zero_add]

end Sums

/-! ### What comes of a run -/

section Runs

/-- No addition wraps, every run comes to an end, and whatever the order, the bins are `bins`, and
have as many entries as there are bytes. -/
structure Counts (block n : ℕ) (m : Memory grid) (bins : ℕ → UInt32) : Prop where
  noOverflow : ∀ s, (run n m).Reachable s → ∀ (t u : Thread grid block) l v k,
    s.progs t = .op (.add u l v) k → Word.toNat (s.mem l) + Word.toNat v < 2 ^ 32
  progress : ∀ s, (run n m).Reachable s → (∃ t : Thread grid block, s.progs t ≠ .pure ()) →
    ∃ l s', (run n m).step s l s'
  bounded : ∃ k, ∀ s₀ ls s, (run n m : LTS (State (Thread grid block) _ _ _ _) _).init s₀ →
    (run n m).Path s₀ ls s → ls.length ≤ k
  result : ∀ s, (run n m).Reachable s → (∀ t : Thread grid block, s.progs t = .pure ()) →
    ∀ i < 256, s.mem (.bins (i : ℕ)) = bins i
  total : ∀ s, (run n m).Reachable s → (∀ t : Thread grid block, s.progs t = .pure ()) →
    ∑ i ∈ Finset.range 256, (s.mem (.bins (i : ℕ))).toNat = n

variable (hmax : block ≤ 1024) (hint : n + grid * block ≤ 2 ^ 31) (hpos : 0 < block)
  {s : State (Thread grid block) (Fin grid) (Op grid block) Atomic.Res (Memory grid)}
include hmax hint hpos

/-- The bins begin with zero, and the counters when they are added to. -/
lemma none_eq_zero {g : State (Thread grid block) (Fin grid) (Op grid block) Atomic.Res
      (Split (Thread grid block) (Loc grid))}
    (hg : (splitGrid Prod.fst (memset m) (histogram256Kernel n)).Reachable g)
    {u : Thread grid block} {l : Loc grid} {v : Value l}
    (hdoes : Does n m t (g.passed t.1) (.add u l v)) :
    g.mem (l, none) = 0 := by
  have hf := (plan_sound (n := n) m hmax hint hpos).follows hg
  generalize hpassed : g.passed t.1 = e at hdoes
  cases hdoes with
  | @count k hk =>
    have hquiet := hf.quiet t.1
      (.locals t.1 (m (.input (start t + k * (grid * block : ℕ)))).toNat, none)
    rw [hpassed] at hquiet
    refine hquiet ⟨⟨rfl, Int.natCast_nonneg _, ?_⟩, fun u _ => by simp [plan, writes]⟩
    exact_mod_cast UInt8.toNat_lt _
  | @flush i hi =>
    rw [hf.outside (.bins i, none) fun b hb => hb]
    simp [Split.of, memset, hi.1, hi.2.1, Word.toNat]

lemma sum_cells_add_le {g : State (Thread grid block) (Fin grid) (Op grid block) Atomic.Res
      (Split (Thread grid block) (Loc grid))}
    (hg : (splitGrid Prod.fst (memset m) (histogram256Kernel n)).Reachable g)
    {u : Thread grid block} {l : Loc grid} {v : Value l} {k : Unit → Kernel grid block Unit}
    (ht : g.progs t = .op (.add u l v) k) (hdoes : Does n m t (g.passed t.1) (.add u l v)) :
    ∑ t, g.mem (l, some t) + Word.toNat v ≤ n := by
  have hgrid : 0 < grid * block := Nat.mul_pos t.1.pos hpos
  refine ((plan_sound (n := n) m hmax hint hpos).add_le hg ht).trans ?_
  generalize g.passed t.1 = e at hdoes
  cases hdoes with
  | @count k hk =>
    rw [Finset.sum_congr rfl fun t _ => sum_before_locals m t hmax hint _ _, ← blockCount]
    refine le_trans ?_ (occurrences_le m (m (.input (start t + k * (grid * block : ℕ)))).toNat)
    rw [← sum_blockCount m hgrid]
    exact Finset.single_le_sum (f := fun b => blockCount n m block b _)
      (fun b _ => Nat.zero_le _) (Finset.mem_univ t.1)
  | @flush i hi =>
    rw [Finset.sum_congr rfl fun t _ => sum_before_bins m t hmax hint i,
      sum_mine hpos hi.1 hi.2.1 fun b => (UInt32.ofNat (blockCount n m block b i)).toNat]
    refine le_trans ?_ (occurrences_le m i)
    rw [← sum_blockCount m hgrid]
    exact Finset.sum_le_sum fun b _ => Nat.mod_le _ _

omit hmax hint hpos in
lemma toNat_ofNat_le (l : Loc grid) (x : ℕ) : Word.toNat (Word.ofNat x : Value l) ≤ x := by
  cases l with
  | input i => exact Nat.mod_le _ _
  | bins i => exact Nat.mod_le _ _
  | locals b i => exact Nat.mod_le _ _

lemma noOverflow_of_reachable (hs : (run n m).Reachable s) {u : Thread grid block} {l : Loc grid}
    {v : Value l} {k : Unit → Kernel grid block Unit} (ht : s.progs t = .op (.add u l v) k) :
    Word.toNat (s.mem l) + Word.toNat v < 2 ^ 32 := by
  obtain ⟨g, hg, rfl⟩ := exists_split hs
  have hP := plan_sound (n := n) m hmax hint hpos
  have hdoes : Does n m t (g.passed t.1) (.add u l v) :=
    does_of_mem_round m t hmax hint ((hP.follows hg).passed t.1) (hP.mem_round_of_op hg ht)
  have hle := sum_cells_add_le m t hmax hint hpos hg ht hdoes
  have hnone := none_eq_zero m t hmax hint hpos hg hdoes
  have hmem := toNat_ofNat_le l (g.mem (l, none) + ∑ t, g.mem (l, some t))
  rw [hnone, zero_add] at hmem
  change Word.toNat (g.mem.join (V := Value) l) + Word.toNat v < 2 ^ 32
  rw [Split.join, hnone, zero_add]
  omega

/-- The bins, when all threads have come to their end. -/
lemma bins_of_done (hs : (run n m).Reachable s) (hdone : ∀ t, s.progs t = .pure ()) {i : ℕ}
    (hi : i < 256) (hgrid : 0 < grid) :
    s.mem (.bins i) = UInt32.ofNat (occurrences n m i) := by
  obtain ⟨g, hg, rfl⟩ := exists_split hs
  obtain ⟨-, hmem, houtside⟩ := (plan_sound (n := n) m hmax hint hpos).of_done hg hdone
  have hnone : g.mem (.bins i, none) = 0 := by
    rw [houtside (.bins i, none) fun b hb => hb]
    simp [Split.of, memset, hi, Word.toNat]
  have hsome : ∀ t : Thread grid block, g.mem (.bins i, some t) =
      if Mine t i then (UInt32.ofNat (blockCount n m block t.1 i)).toNat else 0 := fun t => by
    rw [hmem t (.bins i, some t) ⟨rfl, Int.natCast_nonneg i, by exact_mod_cast hi⟩, plan_view,
      view_bins_of_le m t le_rfl]
  have hsum : ∑ t, g.mem (.bins i, some t) =
      ∑ b, (UInt32.ofNat (blockCount n m block b i)).toNat := by
    rw [Finset.sum_congr rfl fun t _ => hsome t]
    exact sum_mine hpos (Int.natCast_nonneg i) (by exact_mod_cast hi)
      fun b => (UInt32.ofNat (blockCount n m block b i)).toNat
  have hofNat := Word.ofNat_add_sum (α := UInt32) 0 Finset.univ fun b => blockCount n m block b i
  change UInt32.ofNat (g.mem (.bins i, none) + ∑ t, g.mem (.bins i, some t)) = _
  rw [hnone, hsum, ← sum_blockCount m (Nat.mul_pos hgrid hpos)]
  rw [zero_add, zero_add] at hofNat
  rw [zero_add]
  exact hofNat

theorem histogram_counts (hgrid : 0 < grid) :
    Counts block n m fun i => UInt32.ofNat (occurrences n m i) where
  noOverflow s hs t u l v k ht := noOverflow_of_reachable m t hmax hint hpos hs ht
  progress s hs hundone := (plan_sound m hmax hint hpos).atomic_progress hs hundone
  bounded := (plan_sound m hmax hint hpos).atomic_bounded
  result s hs hdone i hi := bins_of_done m hmax hint hpos hs hdone hi hgrid
  total s hs hdone := by
    have hbins : ∀ i ∈ Finset.range 256, (s.mem (.bins (i : ℕ))).toNat = occurrences n m i :=
      fun i hi => by
        have hle := occurrences_le (n := n) m i
        rw [bins_of_done m hmax hint hpos hs hdone (Finset.mem_range.mp hi) hgrid]
        exact UInt32.toNat_ofNat_of_lt' (hle.trans_lt (show n < 2 ^ 32 by omega))
    rw [Finset.sum_congr rfl hbins, sum_occurrences]

end Runs

end Rounds

/-! ### The launch -/

lemma cpuHistogram256_eq (input : ℤ → UInt8) (n i : ℕ) :
    cpuHistogram256 input n i =
      UInt32.ofNat (∑ k ∈ Finset.range n, if ((input k).toNat : ℤ) = i then 1 else 0) := by
  rw [cpuHistogram256]
  induction n with
  | zero => rfl
  | succ n ih =>
    rw [forLt_succ, Finset.sum_range_succ, UInt32.ofNat_add, ← ih]
    by_cases hi : (input n).toNat = i
    · simp [hi]
    · have hcast : ((input n).toNat : ℤ) ≠ i := by exact_mod_cast hi
      simp [hcast, Ne.symm hi]

/-- The launch on an empty array clears the bins, and the runs of the kernel on the grid it is
launched with otherwise compute what the reference does. -/
theorem histogram256_correct {n block : ℕ} (hpos : 1 ≤ block) (hmax : block ≤ 1024)
    (hint : n + (blocksFor n block).toNat * block ≤ 2 ^ 31 - 1) :
    (n = 0 → (∀ inNull, launchHistogram256 inNull false none n block = .success) ∧
      ∀ (grid : ℕ) (m : Memory grid), ∀ i < 256,
        memset m (.bins (i : ℕ)) = cpuHistogram256 (fun i => m (.input i)) n i) ∧
    (0 < n → launchHistogram256 false false none n block = .grid (blocksFor n block).toNat ∧
      ∀ m : Memory (blocksFor n block).toNat,
        Counts block n m (cpuHistogram256 (fun i => m (.input i)) n)) := by
  have hone : 1 ≤ blocksFor n block := le_max_left _ _
  have hvalid : ¬ ((block : ℤ) < 1 ∨ kMaxThreadsPerBlock < block) := by
    rw [kMaxThreadsPerBlock]
    omega
  refine ⟨?_, fun hn => ⟨?_, fun m => ?_⟩⟩
  · rintro rfl
    refine ⟨fun inNull => ?_, fun grid m i hi => ?_⟩
    · rw [launchHistogram256, if_neg (by simp), if_neg hvalid]
      rfl
    · rw [cpuHistogram256_eq]
      simp [memset, hi]
  · rw [launchHistogram256, if_neg (by simp), if_neg hvalid]
    have hn0 : (n : ℤ) ≠ 0 := by omega
    simp only [hn0, if_false, configure_eq (show (0 : ℤ) < block by omega) (by omega)]
  · have hcounts := histogram_counts (n := n) m hmax (by omega) (by omega) (by omega)
    have hreference := funext fun i => cpuHistogram256_eq (fun i => m (.input i)) n i
    rwa [hreference]

/-- A block size that does not divide the number of bins. -/
theorem histogram256_correct_ragged :
    (1000 = 0 → (∀ inNull, launchHistogram256 inNull false none 1000 33 = .success) ∧
      ∀ (grid : ℕ) (m : Memory grid), ∀ i < 256,
        memset m (.bins (i : ℕ)) = cpuHistogram256 (fun i => m (.input i)) 1000 i) ∧
    (0 < 1000 → launchHistogram256 false false none 1000 33 = .grid (blocksFor 1000 33).toNat ∧
      ∀ m : Memory (blocksFor 1000 33).toNat,
        Counts 33 1000 m (cpuHistogram256 (fun i => m (.input i)) 1000)) :=
  @histogram256_correct 1000 33 (by decide) (by decide) (by decide)

end Cudatest.Histogram
