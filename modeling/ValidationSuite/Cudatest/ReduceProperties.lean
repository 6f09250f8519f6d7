import ValidationSuite.Cudatest.Reduce

/-!
# The reduction kernel sums up

In the first round the threads of a block store what they have summed up; in each further round half
of those that were left add what the other half has stored, which nobody changes in that round. After
the last one the first thread has the sum of the block, and what the blocks add to the result does
not depend on their order.
-/

namespace Cudatest.Reduce

open Simt Transition

/-! ### Sums by halves -/

/-- What there is at each place after so many halvings. -/
def treeSum (f : ℕ → ℕ) (size : ℕ) : ℕ → ℕ → ℕ
  | 0, i => f i
  | e + 1, i =>
    if i < size / 2 ^ (e + 1) then treeSum f size e i + treeSum f size e (i + size / 2 ^ (e + 1))
    else treeSum f size e i

lemma sum_treeSum (f : ℕ → ℕ) {p e : ℕ} (he : e ≤ p) :
    ∑ i ∈ Finset.range (2 ^ (p - e)), treeSum f (2 ^ p) e i = ∑ i ∈ Finset.range (2 ^ p), f i := by
  induction e with
  | zero => rfl
  | succ e ih =>
    have hhalf : 2 ^ p / 2 ^ (e + 1) = 2 ^ (p - (e + 1)) := Nat.pow_div he (by decide)
    have htwice : 2 ^ (p - e) = 2 ^ (p - (e + 1)) + 2 ^ (p - (e + 1)) := by
      rw [← Nat.two_mul, ← Nat.pow_succ']
      congr 1
      omega
    rw [← ih (by omega), htwice, Finset.sum_range_add, ← Finset.sum_add_distrib]
    refine Finset.sum_congr rfl fun i hi => ?_
    rw [treeSum, hhalf, if_pos (Finset.mem_range.mp hi), Nat.add_comm i]

/-- When one is left, it is the sum. -/
lemma treeSum_last (f : ℕ → ℕ) (p : ℕ) :
    treeSum f (2 ^ p) p 0 = ∑ i ∈ Finset.range (2 ^ p), f i := by
  rw [← sum_treeSum f le_rfl, Nat.sub_self, pow_zero, Finset.sum_range_one]

/-! ### The plan of the rounds -/

section Plans

variable {grid block : ℕ} (n p : ℕ) (m : Memory grid)

/-- What a thread sums up before the first barrier. -/
def threadSum (t : Thread grid block) : ℕ :=
  ∑ k ∈ Finset.range (steps n (start t) (grid * block)),
    (m (.input (start t + k * (grid * block : ℕ)))).toNat

/-- What the `i`th thread of a block sums up. -/
def nthSum (block : ℕ) (b : Fin grid) (i : ℕ) : ℕ :=
  if h : i < block then threadSum n m (b, (⟨i, h⟩ : Fin block)) else 0

/-- The partial sums of a block after so many halvings. -/
def partialSum (block : ℕ) (b : Fin grid) (e i : ℕ) : UInt64 :=
  UInt64.ofNat (treeSum (nthSum n m block b) block e i)

/-- In each round but the last, those threads that are left store a partial sum; in the last one the
first thread adds the last of them to the result. -/
def writes (t : Thread grid block) (e : ℕ) : Set (Loc grid × Option (Thread grid block)) :=
  {c | c.1 = .partials t.1 t.2 ∧ t.2 < block / 2 ^ e ∨
    c = (.out, some t) ∧ e = p + 1 ∧ (t.2 : ℕ) = 0}

/-- The array, the partial sums of the block, and what its threads add to the result. -/
def foot (b : Fin grid) : Set (Loc grid × Option (Thread grid block)) :=
  {c | match c with
    | (.input _, _) => True
    | (.partials b' i, _) => b' = b ∧ i < block
    | (.out, some t) => t.1 = b
    | (.out, none) => False}

def view (b : Fin grid) : ℕ → Split (Thread grid block) (Loc grid)
  | _, (.input i, none) => (m (.input i)).toNat
  | 0, (.partials b' i, none) => (m (.partials b' i)).toNat
  | e + 1, (.partials _ i, none) => (partialSum n m block b e i).toNat
  | e, (.out, some t) => if p + 1 < e ∧ (t.2 : ℕ) = 0 then (partialSum n m block b p 0).toNat else 0
  | _, _ => 0

/-- What is left to do when the block has passed so many barriers. -/
def rest (t : Thread grid block) : ℕ → Kernel grid block Unit
  | 0 => reduceSumKernel n t
  | e + 1 => do
    tree t (block / 2 ^ (e + 1))
    addResult t

def plan : Plan (Thread grid block) (Fin grid) (Op grid block) Atomic.Res
    (fun _ : Loc grid × Option (Thread grid block) => ℕ) where
  prog := rest n
  view := view n p m
  writes := writes p
  foot := foot

/-- What a thread does in each round. -/
inductive Does (t : Thread grid block) : ℕ → Op grid block → Prop
  | input {k : ℕ} (hk : k < steps n (start t) (grid * block)) :
    Does t 0 (.load (.input (start t + k * (grid * block : ℕ))))
  | other {e : ℕ} (he : e < p) (ht : t.2 < block / 2 ^ (e + 1)) :
    Does t (e + 1) (.load (.partials t.1 (t.2 + block / 2 ^ (e + 1))))
  | own {e : ℕ} (he : e < p) (ht : t.2 < block / 2 ^ (e + 1)) :
    Does t (e + 1) (.load (.partials t.1 t.2))
  | store {e : ℕ} (he : e ≤ p) (ht : t.2 < block / 2 ^ e) :
    Does t e (.store (.partials t.1 t.2) (partialSum n m block t.1 e t.2))
  | last (ht : (t.2 : ℕ) = 0) : Does t (p + 1) (.load (.partials t.1 0))
  | add (ht : (t.2 : ℕ) = 0) : Does t (p + 1) (.add t .out (partialSum n m block t.1 p 0))

end Plans

section Rounds

variable {grid block n p : ℕ} (m : Memory grid) (t : Thread grid block)

/-! ### What a thread does on its own -/

lemma solo_loadInput (i : ℤ) (g : Split (Thread grid block) (Loc grid)) :
    (loadInput i : Kernel grid block UInt32).solo Split.exec g =
      ⟨[.load (.input i)], g, .inl (g.join (V := Value) (.input i))⟩ :=
  Split.solo_fetch _ g

lemma solo_storePartial (b : Fin grid) (i : ℕ) (v : UInt64)
    (g : Split (Thread grid block) (Loc grid)) :
    ∃ g', (storePartial b i v : Kernel grid block Unit).solo Split.exec g =
      ⟨[.store (.partials b i) v], g', .inl ()⟩ := ⟨_, rfl⟩

lemma solo_halve (s : ℕ) (g : Split (Thread grid block) (Loc grid)) :
    ∃ g', (halve t s).solo Split.exec g =
      ⟨if t.2 < s then
        [.load (.partials t.1 (t.2 + s)), .load (.partials t.1 t.2),
          .store (.partials t.1 t.2)
            (g.join (V := Value) (.partials t.1 t.2) +
              g.join (V := Value) (.partials t.1 (t.2 + s)))]
      else [], g', .inl ()⟩ := by
  rw [halve]
  split_ifs
  · exact ⟨_, rfl⟩
  · exact ⟨g, rfl⟩

lemma solo_addResult (g : Split (Thread grid block) (Loc grid)) :
    ∃ g', (addResult t).solo Split.exec g =
      ⟨if (t.2 : ℕ) = 0 then
        [.load (.partials t.1 0), .add t .out (g.join (V := Value) (.partials t.1 0))]
      else [], g', .inl ()⟩ := by
  rw [addResult]
  split_ifs
  · exact ⟨_, rfl⟩
  · exact ⟨g, rfl⟩

lemma foldl_add_eq_ofNat (f : ℕ → UInt32) (k : ℕ) :
    (List.range' 0 k).foldl (fun (v : UInt64) j => v + (f j).toUInt64) 0 =
      UInt64.ofNat (∑ j ∈ Finset.range k, (f j).toNat) := by
  induction k with
  | zero => rfl
  | succ k ih =>
    rw [List.range'_concat, List.foldl_append, ih, Finset.sum_range_succ, UInt64.ofNat_add]
    simp

lemma tree_zero : (tree t 0 : Kernel grid block Unit) = pure () := by
  rw [tree, dif_neg (lt_irrefl 0)]

lemma tree_pos {s : ℕ} (h : 0 < s) :
    tree t s = (do halve t s; syncthreads; tree t (s / 2)) := by
  rw [tree, dif_pos h]

/-! ### The rounds -/

lemma join_view_input (b : Fin grid) (e : ℕ) (i : ℤ) :
    (view n p m b e : Split (Thread grid block) (Loc grid)).join (V := Value) (.input i) =
      m (.input i) := by
  have hnone : (view n p m b e : Split (Thread grid block) (Loc grid)) (.input i, none) =
      (m (.input i)).toNat := by cases e <;> rfl
  rw [Split.join_of_no_adds fun t => by cases e <;> rfl, hnone]
  exact UInt32.ofNat_toNat

lemma join_view_partials (b b' : Fin grid) (e i : ℕ) :
    (view n p m b (e + 1) : Split (Thread grid block) (Loc grid)).join (V := Value)
      (.partials b' i) = partialSum n m block b e i := by
  rw [Split.join_of_no_adds fun t => rfl]
  exact UInt64.ofNat_toNat

/-- In the first round a thread sums up what it comes across. -/
lemma round_zero (hint : n + grid * block ≤ 2 ^ 31) :
    ∃ g, (plan n p m).round Split.exec Prod.fst t 0 =
      ⟨((List.range' 0 (steps n (start t) (grid * block))).flatMap fun (k : ℕ) =>
          [.load (.input (start t + k * (grid * block : ℕ)))]) ++
        [.store (.partials t.1 t.2) (UInt64.ofNat (threadSum n m t))], g,
        .inr (rest n t 1)⟩ := by
  have hbody : ∀ (k : ℕ) (v : UInt64),
      ((addInput (start t + k * (grid * block : ℕ)) v : Kernel grid block UInt64).solo Split.exec
        (view n p m t.1 0)) =
      ⟨[.load (.input (start t + k * (grid * block : ℕ)))], view n p m t.1 0,
        .inl (v + (m (.input (start t + k * (grid * block : ℕ)))).toUInt64)⟩ := fun k v => by
    rw [addInput, Prog.solo_bind, solo_loadInput, Round.andThen_inl, join_view_input]
    rfl
  obtain ⟨g, hstore⟩ := solo_storePartial t.1 t.2 (UInt64.ofNat (threadSum n m t))
    (view n p m t.1 0)
  refine ⟨g, ?_⟩
  rw [Plan.round]
  change (reduceSumKernel n t).solo Split.exec (view n p m t.1 0) = _
  rw [reduceSumKernel, strided_eq_loop hint (start_lt t), Prog.solo_bind,
    Prog.solo_loop Split.exec (f := fun (k : ℕ) (v : UInt64) =>
      v + (m (.input (start t + k * (grid * block : ℕ)))).toUInt64) hbody, foldl_add_eq_ofNat,
    Round.andThen_inl, ← threadSum, Prog.solo_bind, hstore, Round.andThen_inl, syncthreads,
    Prog.sync_bind, Prog.pure_bind, Prog.solo_sync]
  simp [rest]

lemma half_pos (hblock : block = 2 ^ p) {e : ℕ} (he : e ≤ p) : 0 < block / 2 ^ e := by
  rw [hblock, Nat.pow_div he (by decide)]
  exact Nat.two_pow_pos _

lemma half_eq_zero (hblock : block = 2 ^ p) : block / 2 ^ (p + 1) = 0 := by
  rw [hblock]
  exact Nat.div_eq_of_lt (Nat.pow_lt_pow_right (by decide) (Nat.lt_succ_self p))

lemma half_add_half_le (block e : ℕ) :
    block / 2 ^ (e + 1) + block / 2 ^ (e + 1) ≤ block / 2 ^ e := by
  rw [pow_succ, ← Nat.div_div_eq_div_mul]
  omega

lemma partialSum_succ {b : Fin grid} {e i : ℕ} (hi : i < block / 2 ^ (e + 1)) :
    partialSum n m block b (e + 1) i =
      partialSum n m block b e i + partialSum n m block b e (i + block / 2 ^ (e + 1)) := by
  rw [partialSum, treeSum, if_pos hi, UInt64.ofNat_add, partialSum, partialSum]

lemma partialSum_succ_of_le {b : Fin grid} {e i : ℕ} (hi : block / 2 ^ (e + 1) ≤ i) :
    partialSum n m block b (e + 1) i = partialSum n m block b e i := by
  rw [partialSum, treeSum, if_neg (Nat.not_lt.mpr hi), partialSum]

/-- In a halving round half of the threads that are left add what the others have stored. -/
lemma round_halve (hblock : block = 2 ^ p) {e : ℕ} (he : e < p) :
    ∃ g, (plan n p m).round Split.exec Prod.fst t (e + 1) =
      ⟨if t.2 < block / 2 ^ (e + 1) then
        [.load (.partials t.1 (t.2 + block / 2 ^ (e + 1))), .load (.partials t.1 t.2),
          .store (.partials t.1 t.2) (partialSum n m block t.1 (e + 1) t.2)]
      else [], g, .inr (rest n t (e + 2))⟩ := by
  obtain ⟨g, hhalve⟩ := solo_halve t (block / 2 ^ (e + 1)) (view n p m t.1 (e + 1))
  refine ⟨g, ?_⟩
  rw [Plan.round]
  change (rest n t (e + 1)).solo Split.exec (view n p m t.1 (e + 1)) = _
  rw [rest, tree_pos t (half_pos hblock he), Prog.solo_bind, Prog.solo_bind, hhalve,
    Round.andThen_inl, syncthreads, Prog.sync_bind, Prog.pure_bind, Prog.solo_sync, Round.after_mk,
    Round.andThen_inr, List.append_nil, join_view_partials, join_view_partials,
    Nat.div_div_eq_div_mul, ← pow_succ]
  congr 1
  split_ifs with ht
  · rw [partialSum_succ m ht]
  · rfl

lemma round_last (hblock : block = 2 ^ p) :
    ∃ g, (plan n p m).round Split.exec Prod.fst t (p + 1) =
      ⟨if (t.2 : ℕ) = 0 then
        [.load (.partials t.1 0), .add t .out (partialSum n m block t.1 p 0)]
      else [], g, .inl ()⟩ := by
  obtain ⟨g, hadd⟩ := solo_addResult t (view n p m t.1 (p + 1))
  refine ⟨g, ?_⟩
  rw [Plan.round]
  change (rest n t (p + 1)).solo Split.exec (view n p m t.1 (p + 1)) = _
  rw [rest, half_eq_zero hblock, tree_zero, Prog.solo_bind, Prog.solo_pure, Round.andThen_inl, hadd,
    join_view_partials]
  rfl

lemma lt_half_zero : (t.2 : ℕ) < block / 2 ^ 0 := by
  rw [pow_zero, Nat.div_one]
  exact t.2.isLt

lemma partialSum_zero : partialSum n m block t.1 0 t.2 = UInt64.ofNat (threadSum n m t) := by
  rw [partialSum, treeSum, nthSum, dif_pos t.2.isLt]

lemma does_of_mem_round (hblock : block = 2 ^ p) (hint : n + grid * block ≤ 2 ^ 31) {e : ℕ}
    (he : e ≤ p + 1) {o : Op grid block}
    (ho : o ∈ ((plan n p m).round Split.exec Prod.fst t e).log) : Does n p m t e o := by
  cases e with
  | zero =>
    obtain ⟨g, hround⟩ := round_zero (p := p) m t hint
    rw [hround, List.mem_append, List.mem_flatMap, List.mem_singleton, ← partialSum_zero] at ho
    obtain ⟨k, hk, ho⟩ | rfl := ho
    · rw [List.mem_singleton.mp ho]
      exact .input (by simpa using hk)
    · exact .store (Nat.zero_le p) (lt_half_zero t)
  | succ e =>
    obtain hlt | rfl := Nat.lt_or_eq_of_le (Nat.le_of_succ_le_succ he)
    · obtain ⟨g, hround⟩ := round_halve (n := n) m t hblock hlt
      rw [hround, List.mem_ite_nil_right] at ho
      obtain ⟨ht, ho⟩ := ho
      simp only [List.mem_cons, List.not_mem_nil, or_false] at ho
      obtain rfl | rfl | rfl := ho
      · exact .other hlt ht
      · exact .own hlt ht
      · exact .store hlt ht
    · obtain ⟨g, hround⟩ := round_last (n := n) m t hblock
      rw [hround, List.mem_ite_nil_right, List.mem_pair] at ho
      obtain ⟨ht, rfl | rfl⟩ := ho
      · exact .last ht
      · exact .add ht

/-- A thread that is left stores its partial sum. -/
lemma store_mem_round (hblock : block = 2 ^ p) (hint : n + grid * block ≤ 2 ^ 31) {e : ℕ}
    (he : e ≤ p) (ht : t.2 < block / 2 ^ e) :
    .store (.partials t.1 t.2) (partialSum n m block t.1 e t.2) ∈
      ((plan n p m).round Split.exec Prod.fst t e).log := by
  cases e with
  | zero =>
    obtain ⟨g, hround⟩ := round_zero (p := p) m t hint
    rw [hround, partialSum_zero]
    exact List.mem_append_right _ List.mem_cons_self
  | succ e =>
    obtain ⟨g, hround⟩ := round_halve (n := n) m t hblock he
    rw [hround, if_pos ht]
    simp

/-! ### The plan is sound -/

lemma view_out (b : Fin grid) (e : ℕ) :
    view n p m b e (.out, some t) =
      if p + 1 < e ∧ (t.2 : ℕ) = 0 then (partialSum n m block b p 0).toNat else 0 := by
  cases e <;> rfl

lemma view_partials (b b' : Fin grid) (e i : ℕ) (c : Option (Thread grid block)) :
    view n p m b (e + 1) (.partials b' i, c) =
      Split.stored (V := Value) (l := .partials b' i) (partialSum n m block b e i) c := by
  cases c <;> rfl

lemma input_mem_reads (b : Fin grid) (e : ℕ) (i : ℤ) (c : Option (Thread grid block)) :
    (.input i, c) ∈ (plan n p m).reads Prod.fst b e :=
  ⟨trivial, fun t _ => by simp [plan, writes]⟩

/-- A partial sum that no thread is left to change. -/
lemma partials_mem_reads (b : Fin grid) {e i : ℕ} (hi : i < block) (hleft : block / 2 ^ e ≤ i)
    (c : Option (Thread grid block)) :
    (.partials b i, c) ∈ (plan n p m).reads Prod.fst b e := by
  refine ⟨⟨rfl, hi⟩, fun t _ hw => ?_⟩
  obtain ⟨heq, hlt⟩ | ⟨heq, -⟩ := hw
  · obtain ⟨-, rfl⟩ := Loc.partials.inj heq
    exact absurd hlt (Nat.not_lt.mpr hleft)
  · nomatch heq

/-- No two threads write the same cell. -/
lemma eq_of_mem_writes {t t' : Thread grid block} {e : ℕ}
    {c : Loc grid × Option (Thread grid block)} (hc : c ∈ writes p t e)
    (hc' : c ∈ writes p t' e) : t = t' := by
  obtain ⟨heq, -⟩ | ⟨rfl, -⟩ := hc
  · obtain ⟨heq', -⟩ | ⟨rfl, -⟩ := hc'
    · obtain ⟨hb, hi⟩ := Loc.partials.inj (heq.symm.trans heq')
      exact Prod.ext hb (Fin.ext hi)
    · nomatch heq
  · obtain ⟨heq', -⟩ | ⟨heq', -⟩ := hc'
    · nomatch heq'
    · simpa using heq'

/-- What nobody writes in a round stays as it is. -/
lemma view_succ {b : Fin grid} {e : ℕ} {c : Loc grid × Option (Thread grid block)}
    (hc : c ∈ (plan n p m).reads Prod.fst b e) : view n p m b (e + 1) c = view n p m b e c := by
  obtain ⟨hfoot, hquiet⟩ := hc
  obtain ⟨l, c⟩ := c
  cases l with
  | input i =>
    cases c <;> cases e <;> rfl
  | partials b' i =>
    obtain ⟨rfl, hi⟩ := hfoot
    have hleft : block / 2 ^ e ≤ i := by
      by_contra hlt
      exact hquiet (b', ⟨i, hi⟩) rfl (.inl ⟨rfl, Nat.lt_of_not_le hlt⟩)
    cases e with
    | zero => simp at hleft; omega
    | succ e => rw [view_partials, view_partials, partialSum_succ_of_le m hleft]
  | out =>
    cases c with
    | none => exact hfoot.elim
    | some t =>
      have hlast : ¬ (e = p + 1 ∧ (t.2 : ℕ) = 0) := fun hlast =>
        hquiet t hfoot (.inr ⟨rfl, hlast⟩)
      rw [view_out, view_out]
      exact if_congr (by omega) rfl rfl

section Sound

variable (hblock : block = 2 ^ p) (hint : n + grid * block ≤ 2 ^ 31)
include hblock hint

lemma confined_round {e : ℕ} (he : e ≤ p + 1) {o : Op grid block}
    (ho : o ∈ ((plan n p m).round Split.exec Prod.fst t e).log) :
    Confined (V := fun _ : Loc grid × Option (Thread grid block) => ℕ) Split.exec
      ((plan n p m).reads Prod.fst t.1 e) (writes p t e) o := by
  cases does_of_mem_round m t hblock hint he ho with
  | input hk => exact Split.confined_load fun c => .inl (input_mem_reads m t.1 0 _ c)
  | @other e he ht =>
    have hhalf := half_add_half_le block e
    have hle := Nat.div_le_self block (2 ^ e)
    exact Split.confined_load fun c => .inl (partials_mem_reads m t.1 (by omega) (by omega) c)
  | own he ht => exact Split.confined_load fun c => .inr (.inl ⟨rfl, ht⟩)
  | store he ht => exact Split.confined_store _ fun c => .inl ⟨rfl, ht⟩
  | last ht =>
    refine Split.confined_load fun c => .inl (partials_mem_reads m t.1 t.2.pos ?_ c)
    rw [half_eq_zero hblock]
  | add ht => exact Split.confined_add _ (.inr ⟨rfl, rfl, ht⟩)

/-- What a thread writes in a round is there for the next one. -/
lemma view_written {e : ℕ} (he : e ≤ p + 1) {c : Loc grid × Option (Thread grid block)}
    (hc : c ∈ writes p t e) :
    view n p m t.1 (e + 1) c = ((plan n p m).round Split.exec Prod.fst t e).mem c := by
  obtain ⟨l, c⟩ := c
  obtain ⟨heq, ht⟩ | ⟨heq, rfl, ht⟩ := hc
  · obtain rfl : l = .partials t.1 t.2 := heq
    have hle : e ≤ p := by
      refine Nat.le_of_lt_succ (lt_of_le_of_ne he ?_)
      rintro rfl
      rw [half_eq_zero hblock] at ht
      exact Nat.not_lt_zero _ ht
    rw [view_partials]
    symm
    refine Plan.round_of_store (store_mem_round m t hblock hint hle ht) (fun w hw => ?_)
      (fun u w hw => ?_) c
    · cases does_of_mem_round m t hblock hint he hw with
      | store => rfl
    · nomatch does_of_mem_round m t hblock hint he hw
  · obtain ⟨rfl, rfl⟩ := Prod.mk.inj heq
    have hno : ∀ w, .store .out w ∉ ((plan n p m).round Split.exec Prod.fst t (p + 1)).log :=
      fun w hw => nomatch does_of_mem_round m t hblock hint he hw
    rw [Plan.round_of_no_store hno]
    obtain ⟨g, hround⟩ := round_last (n := n) m t hblock
    rw [hround, if_pos ht, view_out, if_pos ⟨Nat.lt_succ_self _, ht⟩]
    change _ = view n p m t.1 (p + 1) (.out, some t) + _
    rw [view_out, if_neg fun h => lt_irrefl _ h.1]
    simp [Split.added, Word.toNat]

theorem plan_sound :
    (plan n p m).Sound Split.exec Prod.fst (p + 1) (Split.of (memset m))
      (reduceSumKernel n : Thread grid block → _) where
  prog_zero t := rfl
  view_zero b c hc := by
    obtain ⟨l, c⟩ := c
    cases l with
    | input i => cases c <;> rfl
    | partials b' i => cases c <;> rfl
    | out =>
      cases c with
      | none => exact hc.elim
      | some t => rfl
  next t e he := by
    cases e with
    | zero =>
      obtain ⟨g, hround⟩ := round_zero (p := p) m t hint
      rw [hround]
      rfl
    | succ e =>
      obtain ⟨g, hround⟩ := round_halve (n := n) m t hblock (Nat.lt_of_succ_lt_succ he)
      rw [hround]
      rfl
  last t := by
    obtain ⟨g, hround⟩ := round_last (n := n) m t hblock
    rw [hround]
  confined t e he o ho := confined_round m t hblock hint he ho
  written t e he c hc := view_written m t hblock hint he hc
  kept b e he c hc := view_succ m hc
  within t e c hc := by
    obtain ⟨l, c⟩ := c
    obtain ⟨heq, -⟩ | ⟨heq, -⟩ := hc
    · obtain rfl : l = .partials t.1 t.2 := heq
      exact ⟨rfl, t.2.isLt⟩
    · obtain ⟨rfl, rfl⟩ := Prod.mk.inj heq
      exact rfl
  alone t t' e hb hne c hc hc' := hne (eq_of_mem_writes hc hc')
  apart t e b hb c hc hfoot := by
    obtain ⟨l, c⟩ := c
    obtain ⟨heq, -⟩ | ⟨heq, -⟩ := hc
    · obtain rfl : l = .partials t.1 t.2 := heq
      exact hb hfoot.1
    · obtain ⟨rfl, rfl⟩ := Prod.mk.inj heq
      exact hb hfoot

end Sound

/-! ### The sum of the sums -/

/-- Sums may wrap before they are added up. -/
lemma ofNat_sum_toNat {ι : Type} (s : Finset ι) (f : ι → ℕ) :
    UInt64.ofNat (∑ i ∈ s, (UInt64.ofNat (f i)).toNat) = UInt64.ofNat (∑ i ∈ s, f i) := by
  have hsum := Word.ofNat_add_sum (α := UInt64) 0 s f
  rwa [zero_add, zero_add] at hsum

lemma partialSum_last (hblock : block = 2 ^ p) (b : Fin grid) :
    partialSum n m block b p 0 = UInt64.ofNat (∑ i : Fin block, threadSum n m (b, i)) := by
  have hnth : ∀ i : Fin block, threadSum n m (b, i) = nthSum n m block b i := fun i => by
    rw [nthSum, dif_pos i.isLt]
  rw [Finset.sum_congr rfl fun i _ => hnth i, Fin.sum_univ_eq_sum_range, partialSum, hblock,
    treeSum_last]

lemma sum_threadSum (hpos : 0 < grid * block) :
    ∑ b : Fin grid, ∑ i : Fin block, threadSum n m (b, i) =
      ∑ i ∈ Finset.range n, (m (.input i)).toNat := by
  rw [← Fintype.sum_prod_type', ← sum_places hpos n fun i => (m (.input i)).toNat]
  refine Finset.sum_congr rfl fun t _ => Finset.sum_congr rfl fun k _ => ?_
  push_cast
  rfl

/-! ### What comes of a run -/

section Runs

/-- In no round does a thread read a partial sum that another one writes; once it has passed all its
barriers, a block has the sum of what there was at its first one; every run comes to an end; and
whatever the order, the result is `sum`. -/
structure Reduces (block : ℕ) (n : ℤ) (m : Memory grid) (sum : UInt64) : Prop where
  apart : ∀ s s', (run n m).Reachable s → (run n m).Reachable s' →
    ∀ (t t' : Thread grid block) b i v k k', s.progs t = .op (.load (.partials b i)) k →
      s'.progs t' = .op (.store (.partials b i) v) k' → s.passed b = s'.passed b → t = t'
  total : ∀ s s' : State (Thread grid block) (Fin grid) (Op grid block) Atomic.Res (Memory grid),
    (run n m).Reachable s → (run n m).Reachable s' → ∀ b, s.passed b = 0 →
      (∀ i, ∃ k, s.progs (b, i) = .sync k) → s'.passed b = block.log2 + 1 →
      s'.mem (.partials b 0) = UInt64.ofNat (∑ i : Fin block, (s.mem (.partials b i)).toNat)
  barriers : ∀ s, (run n m).Reachable s → ∀ t : Thread grid block, s.progs t = .pure () →
    s.passed t.1 = block.log2 + 1
  progress : ∀ s, (run n m).Reachable s → (∃ t : Thread grid block, s.progs t ≠ .pure ()) →
    ∃ l s', (run n m).step s l s'
  bounded : ∃ k, ∀ s₀ ls s, (run n m : LTS (State (Thread grid block) _ _ _ _) _).init s₀ →
    (run n m).Path s₀ ls s → ls.length ≤ k
  result : ∀ s, (run n m).Reachable s → (∀ t : Thread grid block, s.progs t = .pure ()) →
    s.mem .out = sum

lemma of_does_load {e : ℕ} {b : Fin grid} {i : ℕ} (h : Does n p m t e (.load (.partials b i))) :
    b = t.1 ∧ (i = t.2 ∨ block / 2 ^ e ≤ i) := by
  generalize hl : Loc.partials b i = l at h
  cases h with
  | input hk => nomatch hl
  | other he ht =>
    obtain ⟨rfl, rfl⟩ := Loc.partials.inj hl
    exact ⟨rfl, .inr (Nat.le_add_left _ _)⟩
  | own he ht =>
    obtain ⟨rfl, rfl⟩ := Loc.partials.inj hl
    exact ⟨rfl, .inl rfl⟩
  | last ht =>
    obtain ⟨rfl, rfl⟩ := Loc.partials.inj hl
    exact ⟨rfl, .inl ht.symm⟩

lemma of_does_store {e : ℕ} {l : Loc grid} {v : Value l} (h : Does n p m t e (.store l v)) :
    l = .partials t.1 t.2 ∧ t.2 < block / 2 ^ e := by
  cases h with
  | store he ht => exact ⟨rfl, ht⟩

variable (hblock : block = 2 ^ p) (hint : n + grid * block ≤ 2 ^ 31)
  {s : State (Thread grid block) (Fin grid) (Op grid block) Atomic.Res (Memory grid)}
include hblock hint

lemma does_of_op (hs : (run n m).Reachable s) {o : Op grid block}
    {k : o.Res → Kernel grid block Unit} (ht : s.progs t = .op o k) :
    Does n p m t (s.passed t.1) o := by
  obtain ⟨g, hg, rfl⟩ := exists_split hs
  have hP := plan_sound m hblock hint
  have hpassed := (hP.follows hg).passed t.1
  exact does_of_mem_round m t hblock hint hpassed (hP.mem_round_of_op hg ht)

lemma apart_of_reachable
    {s' : State (Thread grid block) (Fin grid) (Op grid block) Atomic.Res (Memory grid)}
    (hs : (run n m).Reachable s) (hs' : (run n m).Reachable s') {t t' : Thread grid block}
    {b : Fin grid} {i : ℕ} {v : UInt64} {k k'} (ht : s.progs t = .op (.load (.partials b i)) k)
    (ht' : s'.progs t' = .op (.store (.partials b i) v) k') (hpassed : s.passed b = s'.passed b) :
    t = t' := by
  have hdoes := does_of_op m t hblock hint hs ht
  have hdoes' := does_of_op m t' hblock hint hs' ht'
  obtain ⟨rfl, hi⟩ := of_does_load m t hdoes
  obtain ⟨hl, hlt⟩ := of_does_store m t' hdoes'
  obtain ⟨hb, rfl⟩ := Loc.partials.inj hl
  rw [← hb, ← hpassed] at hlt
  obtain hi | hi := hi
  · exact Prod.ext hb (Fin.ext hi.symm)
  · exact absurd hlt (Nat.not_lt.mpr hi)

/-- What there is at the first barrier. -/
lemma partials_of_sync (hs : (run n m).Reachable s) {b : Fin grid} (hzero : s.passed b = 0)
    (hsync : ∀ i, ∃ k, s.progs (b, i) = .sync k) (i : Fin block) :
    s.mem (.partials b i) = UInt64.ofNat (threadSum n m (b, i)) := by
  obtain ⟨g, hg, rfl⟩ := exists_split hs
  have hP := plan_sound m hblock hint
  have hends : ∀ t : Thread grid block, t.1 = b →
      ∃ next, ∀ g', (g.progs t).solo Split.exec g' = ⟨[], g', next⟩ := by
    rintro t rfl
    obtain ⟨k, hk⟩ := hsync t.2
    exact ⟨.inr k, fun g' => by rw [show g.progs t = .sync k from hk, Prog.solo_sync]⟩
  have hcell : ∀ c, g.mem (.partials b i, c) = view n p m b 1 (.partials b i, c) := fun c => by
    have hmem := hP.mem_of_ends (hP.follows hg) hends (l := (.partials b i, c)) ⟨rfl, i.isLt⟩
    rwa [show g.passed b = 0 from hzero] at hmem
  change g.mem.join (V := Value) (.partials b i) = _
  rw [Split.join_congr hcell, join_view_partials, ← partialSum_zero m (b, i)]

/-- What there is after the last barrier. -/
lemma partials_of_passed (hs : (run n m).Reachable s) {b : Fin grid} (hlast : s.passed b = p + 1)
    (hpos : 0 < block) : s.mem (.partials b 0) = partialSum n m block b p 0 := by
  obtain ⟨g, hg, rfl⟩ := exists_split hs
  have hP := plan_sound m hblock hint
  have hcell : ∀ c, g.mem (.partials b 0, c) = view n p m b (p + 1) (.partials b 0, c) := by
    intro c
    have hquiet := (hP.follows hg).quiet b (.partials b 0, c)
    rw [show g.passed b = p + 1 from hlast] at hquiet
    exact hquiet (partials_mem_reads m b hpos (half_eq_zero hblock).le c)
  change g.mem.join (V := Value) (.partials b 0) = _
  rw [Split.join_congr hcell, join_view_partials]

lemma result_of_done (hgrid : 0 < grid) (hs : (run n m).Reachable s)
    (hdone : ∀ t, s.progs t = .pure ()) :
    s.mem .out = UInt64.ofNat (∑ i ∈ Finset.range n, (m (.input i)).toNat) := by
  obtain ⟨g, hg, rfl⟩ := exists_split hs
  have hpos : 0 < block := by
    rw [hblock]
    exact Nat.two_pow_pos p
  obtain ⟨-, hmem, houtside⟩ := (plan_sound m hblock hint).of_done hg hdone
  have hnone : g.mem (.out, none) = 0 := houtside (.out, none) fun b hb => hb
  have hsome : ∀ t, g.mem (.out, some t) =
      if (t.2 : ℕ) = 0 then (partialSum n m block t.1 p 0).toNat else 0 := fun t => by
    rw [hmem t (.out, some t) rfl]
    change view n p m t.1 (p + 2) (.out, some t) = _
    rw [view_out]
    exact if_congr (by omega) rfl rfl
  have hsum : ∑ t, g.mem (.out, some t) =
      ∑ b, (UInt64.ofNat (∑ i : Fin block, threadSum n m (b, i))).toNat := by
    rw [Finset.sum_congr rfl fun t _ => hsome t, Fintype.sum_prod_type]
    refine Finset.sum_congr rfl fun b _ => ?_
    rw [Fin.sum_univ_eq_sum_range fun i => if i = 0 then (partialSum n m block b p 0).toNat else 0]
    rw [Finset.sum_ite_eq', if_pos (Finset.mem_range.mpr hpos), partialSum_last m hblock]
  change UInt64.ofNat (g.mem (.out, none) + ∑ t, g.mem (.out, some t)) = _
  rw [hnone, hsum, zero_add, ofNat_sum_toNat, sum_threadSum m (Nat.mul_pos hgrid hpos)]

theorem reduces (hgrid : 0 < grid) :
    Reduces block n m (UInt64.ofNat (∑ i ∈ Finset.range n, (m (.input i)).toNat)) where
  apart s s' hs hs' t t' b i v k k' ht ht' := apart_of_reachable m hblock hint hs hs' ht ht'
  total s s' hs hs' b hzero hsync hlast := by
    rw [show block.log2 = p by rw [hblock, Nat.log2_two_pow]] at hlast
    have hpos : 0 < block := hblock ▸ Nat.two_pow_pos p
    have hstored := partials_of_sync m hblock hint hs hzero hsync
    rw [partials_of_passed m hblock hint hs' hlast hpos, partialSum_last m hblock,
      Finset.sum_congr rfl fun i _ => congrArg UInt64.toNat (hstored i), ofNat_sum_toNat]
  barriers s hs t ht := by
    obtain ⟨g, hg, rfl⟩ := exists_split hs
    have hP := plan_sound m hblock hint
    rw [show block.log2 = p by rw [hblock, Nat.log2_two_pow]]
    exact hP.passed_eq_of_done (hP.follows hg) ht
  progress s hs hundone := (plan_sound m hblock hint).atomic_progress hs hundone
  bounded := (plan_sound m hblock hint).atomic_bounded
  result s hs hdone := result_of_done m hblock hint hgrid hs hdone

end Runs

end Rounds

/-! ### The launch -/

lemma cpuReduceSum_eq (input : ℤ → UInt32) (n : ℕ) :
    cpuReduceSum input n = UInt64.ofNat (∑ i ∈ Finset.range n, (input i).toNat) := by
  rw [cpuReduceSum, forLt, Int.toNat_natCast, List.range_eq_range']
  exact foldl_add_eq_ofNat (fun i => input i) n

lemma exists_eq_two_pow {block : ℕ} (h : isPow2 block) : ∃ p, block = 2 ^ p := by
  simp only [isPow2, Bool.and_eq_true, decide_eq_true_eq] at h
  obtain ⟨hpos, hand⟩ := h
  have hone : ((block : ℤ) - 1).toNat = block - 1 := by omega
  rw [Int.toNat_natCast, hone] at hand
  exact (Nat.and_sub_one_eq_zero_iff_isPowerOfTwo (by omega)).mp hand

/-- The launch on an empty array clears the result, and the runs of the kernel on the grid it is
launched with otherwise compute what the reference does. -/
theorem reduceSum_correct {n block : ℕ} (hpow : isPow2 block) (hmin : 32 ≤ block)
    (hmax : block ≤ 1024) (hint : n + (blocksFor n block).toNat * block ≤ 2 ^ 31 - 1) :
    (n = 0 → (∀ inNull, launchReduceSum inNull false none n block = .success) ∧
      ∀ (grid : ℕ) (m : Memory grid), memset m .out = cpuReduceSum (fun i => m (.input i)) n) ∧
    (0 < n → launchReduceSum false false none n block = .grid (blocksFor n block).toNat ∧
      ∀ m : Memory (blocksFor n block).toNat,
        Reduces block n m (cpuReduceSum (fun i => m (.input i)) n)) := by
  obtain ⟨p, hp⟩ := exists_eq_two_pow hpow
  have hone : 1 ≤ blocksFor n block := le_max_left _ _
  have hvalid : ¬ (¬ isPow2 block ∨ (block : ℤ) < 32 ∨ kMaxThreadsPerBlock < block) := by
    rw [kMaxThreadsPerBlock]
    rintro (hnot | hlt | hlt)
    · exact hnot hpow
    · omega
    · omega
  refine ⟨?_, fun hn => ⟨?_, fun m => ?_⟩⟩
  · rintro rfl
    refine ⟨fun inNull => ?_, fun grid m => ?_⟩
    · rw [launchReduceSum, if_neg (by simp), if_neg hvalid]
      rfl
    · rw [cpuReduceSum_eq]
      rfl
  · rw [launchReduceSum, if_neg (by simp), if_neg hvalid]
    have hn0 : (n : ℤ) ≠ 0 := by omega
    simp only [hn0, if_false, configure_eq (show (0 : ℤ) < block by omega) (by omega)]
  · rw [cpuReduceSum_eq]
    exact reduces m hp (by omega) (by omega)

/-- A last block that the array does not fill. -/
theorem reduceSum_correct_ragged :
    (1000 = 0 → (∀ inNull, launchReduceSum inNull false none 1000 64 = .success) ∧
      ∀ (grid : ℕ) (m : Memory grid),
        memset m .out = cpuReduceSum (fun i => m (.input i)) 1000) ∧
    (0 < 1000 → launchReduceSum false false none 1000 64 = .grid (blocksFor 1000 64).toNat ∧
      ∀ m : Memory (blocksFor 1000 64).toNat,
        Reduces 64 1000 m (cpuReduceSum (fun i => m (.input i)) 1000)) :=
  @reduceSum_correct 1000 64 (by decide) (by decide) (by decide) (by decide)

end Cudatest.Reduce
