import ValidationSuite.Cudatest.GemmAgreement
import ValidationSuite.Cudatest.Strided
import ValidationSuite.Library.SimtApart

/-!
# The sum of two vectors

The kernel `vector_add_kernel` of `cudatest/src/kernels.cu` and its reference in
`cudatest/src/reference.cpp`. The arrays are places in one memory, so that they may be the same.
-/

namespace Cudatest.VectorAdd

open Simt Transition

variable {E : Type} [Add E] {grid block : ℕ}

/-- A block, with `threadIdx.x`. -/
abbrev Thread (grid block : ℕ) := Fin grid × Fin block

/-- The numbers in the memory of the device. A pointer is the place of the first element. -/
abbrev Memory (E : Type) := ℤ → E

abbrev Op (E : Type) := Access ℤ fun _ => E

abbrev Kernel (E α : Type) := Prog (Op E) Access.Res α

/-- `c[i] = a[i] + b[i]`. -/
def addAt (a b c i : ℤ) : Kernel E Unit := do
  let x ← load (a + i)
  let y ← load (b + i)
  store (c + i) (x + y)

def vectorAddKernel (a b c n : ℤ) (t : Thread grid block) : Kernel E Unit :=
  strided n (start t) (grid * block) (fun i _ => addAt a b c i) ()

def cpuVectorAdd (a b c : ℤ) (n : ℕ) (m : Memory E) : Memory E :=
  forLt n (fun i m => Function.update m (c + i) (m (a + i) + m (b + i))) m

/-- The runs of the kernel. -/
def run (grid block : ℕ) (a b c n : ℤ) (m : Memory E) :
    LTS (State (Thread grid block) (Fin grid) (Op E) Access.Res (Memory E))
      (Label (Thread grid block) (Fin grid)) :=
  Simt.grid Access.exec Prod.fst m (vectorAddKernel a b c n)

/-- An input is the output itself, or apart from it. -/
def Aligned (n a c : ℤ) : Prop :=
  ∀ i j, 0 ≤ i → i < n → 0 ≤ j → j < n → a + i = c + j → i = j

/-! ### One thread -/

section Solo

variable {a b c n : ℤ} {m : Memory E} {first stride : ℕ}

/-- The index at the step `k` of a thread. -/
def place (first stride k : ℕ) : ℤ := first + k * stride

variable (a b c m first stride) in
/-- What the step does if nobody changes what it looks at. -/
def log (k : ℕ) : List (Op E) :=
  [.load (a + place first stride k), .load (b + place first stride k),
    .store (c + place first stride k) (m (a + place first stride k) + m (b + place first stride k))]

lemma solo_addAt (i : ℤ) (m : Memory E) :
    (addAt a b c i).solo Access.exec m =
      ⟨[.load (a + i), .load (b + i), .store (c + i) (m (a + i) + m (b + i))],
        Function.update m (c + i) (m (a + i) + m (b + i)), .inl ()⟩ := rfl

/-- A thread finds its inputs as they were at the start, until it comes to them. The induction is on
the steps that are left. -/
lemma solo_addLoop {k count : ℕ} {m' : Memory E}
    (hfresh : ∀ j, k ≤ j → j < k + count →
      m' (a + place first stride j) = m (a + place first stride j) ∧
      m' (b + place first stride j) = m (b + place first stride j))
    (hinput : ∀ i j, k ≤ i → i < j → j < k + count →
      a + place first stride j ≠ c + place first stride i ∧
      b + place first stride j ≠ c + place first stride i) :
    ∃ m'', (loop (fun k _ => addAt a b c (first + k * stride)) k count ()).solo Access.exec m' =
      ⟨(List.range' k count).flatMap (log a b c m first stride), m'', .inl ()⟩ := by
  induction count generalizing k m' with
  | zero => exact ⟨m', rfl⟩
  | succ count ih =>
    obtain ⟨ha, hb⟩ := hfresh k le_rfl (by omega)
    have hstep : (addAt a b c (first + k * stride)).solo Access.exec m' =
        ⟨log a b c m first stride k,
          Function.update m' (c + place first stride k)
            (m (a + place first stride k) + m (b + place first stride k)), .inl ()⟩ := by
      rw [log, ← ha, ← hb]
      exact solo_addAt _ m'
    have hrest := @ih (k + 1) (Function.update m' (c + place first stride k)
      (m (a + place first stride k) + m (b + place first stride k))) ?_
      fun i j hi hij hj => hinput i j (by omega) hij (by omega)
    · obtain ⟨m'', hrest⟩ := hrest
      refine ⟨m'', ?_⟩
      rw [loop, Prog.solo_bind, hstep, Round.andThen_inl, hrest]
      rfl
    · intro j hj hlt
      obtain ⟨hja, hjb⟩ := hinput k j le_rfl hj (by omega)
      rw [Function.update_of_ne hja, Function.update_of_ne hjb]
      exact hfresh j (by omega) (by omega)

end Solo

/-! ### All threads -/

section Threads

variable {a b c : ℤ} {n : ℕ} {m : Memory E}

/-- The indices of a thread. -/
def Visited (n : ℕ) (t : Thread grid block) (i : ℤ) : Prop :=
  ∃ k < steps n (start t) (grid * block), i = place (start t) (grid * block) k

lemma visited_bounds {t : Thread grid block} {i : ℤ} (h : Visited n t i) : 0 ≤ i ∧ i < n := by
  obtain ⟨k, hk, rfl⟩ := h
  have hpos : 0 < grid * block := (Nat.zero_le _).trans_lt (start_lt t)
  have hlt := (lt_steps hpos).mp hk
  rw [place]
  exact ⟨by positivity, by exact_mod_cast hlt⟩

lemma place_eq (first stride k : ℕ) : place first stride k = (first + k * stride : ℕ) := by
  rw [place]
  push_cast
  rfl

/-- Every index has its thread, and no other one comes across it. -/
lemma exists_visited (hpos : 0 < grid * block) {i : ℤ} (hi : 0 ≤ i) (hlt : i < n) :
    ∃ t : Thread grid block, Visited n t i := by
  obtain ⟨i, rfl⟩ := Int.eq_ofNat_of_zero_le hi
  obtain ⟨t, k, rfl⟩ := exists_place hpos i
  exact ⟨t, k, (lt_steps hpos).mpr (by exact_mod_cast hlt), (place_eq _ _ _).symm⟩

lemma visited_inj {t t' : Thread grid block} {i : ℤ} (h : Visited n t i) (h' : Visited n t' i) :
    t = t' := by
  obtain ⟨k, -, rfl⟩ := h
  obtain ⟨k', -, heq⟩ := h'
  rw [place_eq, place_eq] at heq
  exact (place_inj (Int.ofNat_inj.mp heq)).1

variable (a b c n m) in
/-- What a thread does alone. -/
def ownLog (t : Thread grid block) : List (Op E) :=
  (List.range' 0 (steps n (start t) (grid * block))).flatMap
    (log a b c m (start t) (grid * block))

lemma mem_ownLog {t : Thread grid block} {o : Op E} :
    o ∈ ownLog a b c n m t ↔ ∃ i, Visited n t i ∧
      (o = .load (a + i) ∨ o = .load (b + i) ∨ o = .store (c + i) (m (a + i) + m (b + i))) := by
  simp only [ownLog, List.mem_flatMap, List.mem_range'_1, log, List.mem_cons, List.not_mem_nil,
    or_false]
  constructor
  · rintro ⟨k, ⟨-, hk⟩, ho⟩
    exact ⟨_, ⟨k, by omega, rfl⟩, ho⟩
  · rintro ⟨_, ⟨k, hk, rfl⟩, ho⟩
    exact ⟨k, ⟨Nat.zero_le k, by omega⟩, ho⟩

variable (hint : n + grid * block ≤ 2 ^ 31) (ha : Aligned n a c) (hb : Aligned n b c)
include hint ha hb

lemma solo_vectorAddKernel (t : Thread grid block) :
    ∃ m', (vectorAddKernel a b c n t).solo Access.exec m = ⟨ownLog a b c n m t, m', .inl ()⟩ := by
  have hpos : 0 < grid * block := (Nat.zero_le _).trans_lt (start_lt t)
  rw [vectorAddKernel, strided_eq_loop hint (start_lt t)]
  refine solo_addLoop (fun _ _ _ => ⟨rfl, rfl⟩) fun i j _ hij hj => ?_
  have hi : Visited n t (place (start t) (grid * block) i) := ⟨i, by omega, rfl⟩
  have hj : Visited n t (place (start t) (grid * block) j) := ⟨j, by omega, rfl⟩
  have hne : place (start t) (grid * block) j ≠ place (start t) (grid * block) i := by
    intro heq
    rw [place_eq, place_eq] at heq
    exact hij.ne' (place_inj (Int.ofNat_inj.mp heq)).2
  obtain ⟨hi0, hin⟩ := visited_bounds hi
  obtain ⟨hj0, hjn⟩ := visited_bounds hj
  exact ⟨fun heq => hne (ha _ _ hj0 hjn hi0 hin heq), fun heq => hne (hb _ _ hj0 hjn hi0 hin heq)⟩

/-- The threads keep out of each other's way. -/
lemma apart (m : Memory E) :
    Apart Access.exec m (vectorAddKernel a b c n)
      (fun t : Thread grid block => {l | ∃ i, Visited n t i ∧ (l = a + i ∨ l = b + i)})
      (fun t => {l | ∃ i, Visited n t i ∧ l = c + i}) where
  ends t := by
    obtain ⟨m', hsolo⟩ := solo_vectorAddKernel (m := m) hint ha hb t
    rw [hsolo]
  confined t o ho := by
    obtain ⟨m', hsolo⟩ := solo_vectorAddKernel (m := m) hint ha hb t
    rw [hsolo] at ho
    obtain ⟨i, hi, rfl | rfl | rfl⟩ := mem_ownLog.mp ho
    · exact confined_load (.inl ⟨i, hi, .inl rfl⟩)
    · exact confined_load (.inl ⟨i, hi, .inr rfl⟩)
    · exact confined_store _ ⟨i, hi, rfl⟩
  alone t t' hne l hl := by
    obtain ⟨i, hi, rfl⟩ := hl
    obtain ⟨hi0, hin⟩ := visited_bounds hi
    refine ⟨fun ⟨j, hj, heq⟩ => ?_, fun ⟨j, hj, heq⟩ => ?_⟩
    · obtain rfl : i = j := by omega
      exact hne (visited_inj hi hj)
    · obtain ⟨hj0, hjn⟩ := visited_bounds hj
      have hji : j = i := by
        rcases heq with heq | heq
        · exact ha j i hj0 hjn hi0 hin heq.symm
        · exact hb j i hj0 hjn hi0 hin heq.symm
      rw [hji] at hj
      exact hne (visited_inj hi hj)

lemma mem_of_done {m : Memory E}
    {s : State (Thread grid block) (Fin grid) (Op E) Access.Res (Memory E)}
    (hs : (run grid block a b c n m).Reachable s) (hdone : ∀ t, s.progs t = .pure ()) {i : ℤ}
    (hi : 0 ≤ i) (hlt : i < n) (hpos : 0 < grid * block) :
    s.mem (c + i) = m (a + i) + m (b + i) := by
  obtain ⟨t, ht⟩ : ∃ t : Thread grid block, Visited n t i := exists_visited hpos hi hlt
  obtain ⟨m', hsolo⟩ := solo_vectorAddKernel (m := m) hint ha hb t
  rw [(apart hint ha hb m).of_done hs hdone ⟨i, ht, rfl⟩, Prog.mem_solo, hsolo]
  refine foldl_exec_of_mem (mem_ownLog.mpr ⟨i, ht, .inr (.inr rfl)⟩) (fun w hw => ?_) m
  obtain ⟨j, -, heq | heq | heq⟩ := mem_ownLog.mp hw
  · cases heq
  · cases heq
  · obtain ⟨hplace, hvalue⟩ := Access.store.inj heq
    obtain rfl : i = j := by omega
    exact eq_of_heq hvalue

end Threads

/-! ### The reference -/

lemma cpuVectorAdd_apply {a b c : ℤ} {n : ℕ} (ha : Aligned n a c) (hb : Aligned n b c)
    (m : Memory E) (l : ℤ) :
    cpuVectorAdd a b c n m l =
      if c ≤ l ∧ l < c + n then m (a + (l - c)) + m (b + (l - c)) else m l := by
  -- so far the loop has set the first `k` elements
  have hloop : ∀ k ≤ n, ∀ l, cpuVectorAdd a b c k m l =
      if c ≤ l ∧ l < c + k then m (a + (l - c)) + m (b + (l - c)) else m l := by
    intro k
    induction k with
    | zero =>
      intro _ l
      rw [if_neg (by omega)]
      rfl
    | succ k ih =>
      intro hk l
      have hinput : ∀ x, Aligned n x c → cpuVectorAdd a b c k m (x + k) = m (x + k) := by
        intro x hx
        rw [ih (by omega), if_neg]
        rintro ⟨hle, hlt⟩
        have hsame := hx k (x + k - c) (by omega) (by omega) (by omega) (by omega) (by omega)
        omega
      have hstep : cpuVectorAdd a b c (k + 1) m = Function.update (cpuVectorAdd a b c k m) (c + k)
          (cpuVectorAdd a b c k m (a + k) + cpuVectorAdd a b c k m (b + k)) :=
        forLt_succ k _ m
      rw [hstep, hinput a ha, hinput b hb]
      by_cases hl : l = c + k
      · subst hl
        rw [Function.update_self, if_pos (by omega), add_sub_cancel_left]
      · rw [Function.update_of_ne hl, ih (by omega)]
        exact if_congr (by omega) rfl rfl
  exact hloop n le_rfl l

/-! ### What comes of a launch -/

/-- Where a launch is allowed to reach: the elements of the three arrays. -/
def InArrays (a b c n : ℤ) : Op E → Prop
  | .load l => ∃ i, 0 ≤ i ∧ i < n ∧ (l = a + i ∨ l = b + i)
  | .store l _ => ∃ i, 0 ≤ i ∧ i < n ∧ l = c + i

lemma pos_of_launchVectorAdd {null : Bool} {n block grid : ℕ}
    (h : launchVectorAdd null n block = .grid grid) : 0 < grid * block := by
  simp only [launchVectorAdd, configure] at h
  split_ifs at h with _ _ _ hblock
  · have hgrid := Strided.grid.inj h
    have hone : 1 ≤ blocksFor n block := le_max_left _ _
    exact Nat.mul_pos (by omega) (by omega)
  · omega

/-- For every launch whose indices fit in an `int`, on inputs that are the output itself or apart
from it, and whatever the addition is: no thread ever reaches beyond the arrays; what is not the
output stays as it is, at any time; every run comes to an end; and whatever the order, the memory is
then what the loop of the reference makes of it. -/
theorem vector_add_correct {null : Bool} {n block grid : ℕ}
    (hlaunch : launchVectorAdd null n block = .grid grid) (hint : n + grid * block ≤ 2 ^ 31)
    {a b c : ℤ} (ha : Aligned n a c) (hb : Aligned n b c) (m : Memory E) :
    (∀ s, (run grid block a b c n m).Reachable s →
      (∀ t, ∀ o ∈ s.log t, InArrays a b c n o) ∧
      (∀ l, ¬(c ≤ l ∧ l < c + n) → s.mem l = m l) ∧
      ((∃ t, s.progs t ≠ .pure ()) → ∃ l s', (run grid block a b c n m).step s l s') ∧
      ((∀ t, s.progs t = .pure ()) → s.mem = cpuVectorAdd a b c n m)) ∧
    ∃ k, ∀ s₀ ls s, (run grid block a b c n m).init s₀ →
      (run grid block a b c n m).Path s₀ ls s → ls.length ≤ k := by
  have hpos := pos_of_launchVectorAdd hlaunch
  have hapart := @apart E _ grid block a b c n hint ha hb m
  refine ⟨fun s hs => ?_, hapart.bounded⟩
  have hframe : ∀ l, ¬(c ≤ l ∧ l < c + n) → s.mem l = m l := by
    refine fun l hl => hapart.frame hs fun t ⟨i, hi, heq⟩ => hl ?_
    have hbounds := visited_bounds hi
    omega
  refine ⟨fun t o ho => ?_, hframe, fun hundone => hapart.progress hs hundone, fun hdone => ?_⟩
  · obtain ⟨m', hsolo⟩ := solo_vectorAddKernel (m := m) hint ha hb t
    have hown := (hapart.log_prefix hs t).subset ho
    rw [hsolo] at hown
    obtain ⟨i, hi, rfl | rfl | rfl⟩ := mem_ownLog.mp hown
    · exact ⟨i, (visited_bounds hi).1, (visited_bounds hi).2, .inl rfl⟩
    · exact ⟨i, (visited_bounds hi).1, (visited_bounds hi).2, .inr rfl⟩
    · exact ⟨i, (visited_bounds hi).1, (visited_bounds hi).2, rfl⟩
  · funext l
    rw [cpuVectorAdd_apply ha hb]
    split_ifs with hl
    · have hmem := mem_of_done hint ha hb hs hdone (show 0 ≤ l - c by omega) (by omega) hpos
      rwa [add_sub_cancel] at hmem
    · exact hframe l hl

/-- A vector that is added to itself in place. -/
theorem vector_add_correct_inPlace :
    launchVectorAdd false 1000 256 = .grid 4 ∧
      ∀ s, (run 4 256 0 0 0 1000 fun i => i.toNat :
          LTS (State (Thread 4 256) _ (Op ℕ) _ _) _).Reachable s →
        (∀ t, s.progs t = .pure ()) → s.mem = cpuVectorAdd 0 0 0 1000 fun i => i.toNat := by
  have haligned : Aligned 1000 0 0 := fun i j _ _ _ _ h => by omega
  have h := @vector_add_correct ℕ _ false 1000 256 4 (by decide) (by norm_num) 0 0 0 haligned
    haligned fun i => i.toNat
  exact ⟨by decide, fun s hs => (h.1 s hs).2.2.2⟩

end Cudatest.VectorAdd
