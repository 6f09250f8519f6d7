import ValidationSuite.Cudatest.Strided
import ValidationSuite.Library.Ptx
import ValidationSuite.Library.SimtApart

/-!
# The kernel in PTX

`cudatest/ptx/add_one.ptx`, instruction by instruction, on a grid with one dimension.
-/

namespace Cudatest.AddOne

open Simt Transition Ptx

def addOne : List Instr :=
  [.ldParamU64 1 0,        -- data_param
    .ldParamU32 1 1,       -- n_param
    .movU32 2 .ctaidX,
    .movU32 3 .ntidX,
    .movU32 4 .tidX,
    .madLoS32 5 2 3 4,
    .setpGeU32 1 5 1,
    .braIf 1 "DONE",
    .cvtaToGlobalU64 2 1,
    .mulWideU32 3 5 4,
    .addS64 4 2 3,
    .ldGlobalU32 6 4,
    .addS32 7 6 1,
    .stGlobalU32 4 7,
    .label "DONE",
    .ret]

variable {grid block : ℕ}

/-- A block, with `%tid.x`. -/
abbrev Thread (grid block : ℕ) := Fin grid × Fin block

abbrev Memory := UInt64 → UInt32

/-- The launch, as the thread sees it. -/
def launch (data : UInt64) (n : UInt32) (t : Thread grid block) : Ptx.Launch where
  param64 i := if i = 0 then data else 0
  param32 i := if i = 1 then n else 0
  special
    | .ctaidX => .ofNat t.1
    | .ntidX => .ofNat block
    | .tidX => .ofNat t.2

def addOneKernel (fuel : ℕ) (data : UInt64) (n : UInt32) (t : Thread grid block) :
    Ptx.Kernel Unit :=
  Ptx.run addOne (launch data n t) fuel 0 {}

/-- The register `%r5`. -/
def index (t : Thread grid block) : UInt32 := .ofNat t.1 * .ofNat block + .ofNat t.2

/-- The register `%rd4`. -/
def address (data : UInt64) (i : UInt32) : UInt64 := data + i.toUInt64 * 4

/-- The runs of the kernel. -/
def run (grid block fuel : ℕ) (data : UInt64) (n : UInt32) (m : Memory) :
    LTS (State (Thread grid block) (Fin grid) Ptx.Op Access.Res Memory)
      (Label (Thread grid block) (Fin grid)) :=
  Simt.grid Access.exec Prod.fst m (addOneKernel fuel data n)

/-! ### One thread -/

section Solo

variable (data : UInt64) (n : UInt32) (t : Thread grid block)

/-- The registers at the jump. -/
def registers : Registers :=
  ((((((({} : Registers).setRd 1 data).setR 1 n).setR 2 (.ofNat t.1)).setR 3 (.ofNat block)).setR 4
    (.ofNat t.2)).setR 5 (index t)).setP 1 (n ≤ index t)

/-- A thread with an index in the array increments its element, and the others do nothing. -/
lemma addOneKernel_eq {fuel : ℕ} (hfuel : 16 ≤ fuel) :
    addOneKernel fuel data n t =
      if index t < n then (do
        let v ← load (address data (index t))
        store (address data (index t)) (v + 1))
      else pure () := by
  obtain ⟨fuel, rfl⟩ := Nat.exists_eq_add_of_le' hfuel
  have hjump : addOneKernel (fuel + 16) data n t = Ptx.run addOne (launch data n t) (fuel + 8)
      (if decide (n ≤ index t) = true then 14 else 8) (registers data n t) := rfl
  rw [hjump]
  by_cases hlt : index t < n
  · rw [if_pos hlt, if_neg (by simpa using hlt)]
    rfl
  · rw [if_neg hlt, if_pos (by simpa using hlt)]
    rfl

end Solo

lemma address_inj {data : UInt64} {i j : UInt32} (h : address data i = address data j) : i = j := by
  have hmul : i.toUInt64 * 4 = j.toUInt64 * 4 := (UInt64.add_right_inj _).mp h
  have hi := i.toNat_lt
  have hj := j.toNat_lt
  have hnat := congrArg UInt64.toNat hmul
  simp only [UInt64.toNat_mul, UInt32.toNat_toUInt64, UInt64.reduceToNat] at hnat
  apply UInt32.toNat_inj.mp
  omega

lemma toNat_index (hfits : grid * block ≤ 2 ^ 32) (t : Thread grid block) :
    (index t).toNat = start t := by
  have hlt : start t < grid * block := start_lt t
  have hindex : index t = .ofNat (start t) := by
    rw [index, start, UInt32.ofNat_add, UInt32.ofNat_mul]
  rw [hindex, UInt32.toNat_ofNat', Nat.mod_eq_of_lt (by omega)]

lemma index_inj (hfits : grid * block ≤ 2 ^ 32) {t t' : Thread grid block}
    (h : index t = index t') : t = t' :=
  start_inj (by rw [← toNat_index hfits t, h, toNat_index hfits])

lemma exists_index (hfits : grid * block ≤ 2 ^ 32) {n i : UInt32} (hn : n.toNat ≤ grid * block)
    (hi : i < n) : ∃ t : Thread grid block, index t = i := by
  have hlt : i.toNat < n.toNat := UInt32.lt_iff_toNat_lt.mp hi
  obtain ⟨t, k, hk⟩ := exists_place (show 0 < grid * block by omega) i.toNat
  refine ⟨t, UInt32.toNat_inj.mp ?_⟩
  have hstep : k = 0 := by
    by_contra hne
    have hmul := Nat.le_mul_of_pos_left (grid * block) (Nat.pos_of_ne_zero hne)
    omega
  subst hstep
  rw [toNat_index hfits]
  omega

/-! ### All threads -/

section Threads

variable {fuel : ℕ} {data : UInt64} {n : UInt32} (hfuel : 16 ≤ fuel) (hfits : grid * block ≤ 2 ^ 32)
include hfuel

lemma solo_addOneKernel (t : Thread grid block) (m : Memory) :
    (addOneKernel fuel data n t).solo Access.exec m =
      if index t < n then
        ⟨[.load (address data (index t)),
            .store (address data (index t)) (m (address data (index t)) + 1)],
          Function.update m (address data (index t)) (m (address data (index t)) + 1), .inl ()⟩
      else ⟨[], m, .inl ()⟩ := by
  rw [addOneKernel_eq data n t hfuel]
  split_ifs
  · rfl
  · rfl

lemma mem_log {t : Thread grid block} {m : Memory} {o : Ptx.Op}
    (ho : o ∈ ((addOneKernel fuel data n t).solo Access.exec m).log) :
    index t < n ∧ (o = .load (address data (index t)) ∨
      o = .store (address data (index t)) (m (address data (index t)) + 1)) := by
  rw [solo_addOneKernel hfuel] at ho
  split_ifs at ho with hlt
  · exact ⟨hlt, by simpa using ho⟩
  · cases ho

include hfits

/-- Every thread has its own element. -/
lemma apart (m : Memory) :
    Apart Access.exec m (addOneKernel fuel data n) (fun _ => ∅)
      (fun t : Thread grid block => {l | index t < n ∧ l = address data (index t)}) where
  ends t := by
    rw [solo_addOneKernel hfuel]
    split_ifs
    · rfl
    · rfl
  confined t o ho := by
    obtain ⟨hlt, rfl | rfl⟩ := mem_log hfuel ho
    · exact confined_load (.inr ⟨hlt, rfl⟩)
    · exact confined_store _ ⟨hlt, rfl⟩
  alone t t' hne l hl := by
    obtain ⟨-, rfl⟩ := hl
    refine ⟨fun ⟨_, heq⟩ => hne ?_, Set.notMem_empty _⟩
    exact index_inj hfits (address_inj heq)

end Threads

/-! ### What comes of a launch -/

/-- The array, incremented. -/
def Incremented (data : UInt64) (n : UInt32) (m m' : Memory) : Prop :=
  (∀ i < n, m' (address data i) = m (address data i) + 1) ∧
    ∀ l, (∀ i < n, l ≠ address data i) → m' l = m l

/-- For a grid with a thread for every element, and no more than 2^32 threads in all: whatever the
order of their instructions, no thread ever reaches beyond the array, what is not in it stays as it
is, every run comes to an end, and then every element has been incremented exactly once. No thread
executes more than 16 instructions. -/
theorem add_one_correct {fuel : ℕ} (hfuel : 16 ≤ fuel) {n : UInt32}
    (hcover : n.toNat ≤ grid * block) (hfits : grid * block ≤ 2 ^ 32) (data : UInt64) (m : Memory) :
    (∀ s, (run grid block fuel data n m).Reachable s →
      (∀ t, ∀ o ∈ s.log t, ∃ i < n, o = .load (address data i) ∨
        o = .store (address data i) (m (address data i) + 1)) ∧
      (∀ l, (∀ i < n, l ≠ address data i) → s.mem l = m l) ∧
      ((∃ t, s.progs t ≠ .pure ()) → ∃ l s', (run grid block fuel data n m).step s l s') ∧
      ((∀ t, s.progs t = .pure ()) → Incremented data n m s.mem)) ∧
    ∃ k, ∀ s₀ ls s, (run grid block fuel data n m).init s₀ →
      (run grid block fuel data n m).Path s₀ ls s → ls.length ≤ k := by
  have hapart := @apart grid block fuel data n hfuel hfits m
  refine ⟨fun s hs => ?_, hapart.bounded⟩
  have hframe : ∀ l, (∀ i < n, l ≠ address data i) → s.mem l = m l := fun l hl =>
    hapart.frame hs fun t ⟨hlt, heq⟩ => hl (index t) hlt heq
  refine ⟨fun t o ho => ?_, hframe, fun hundone => hapart.progress hs hundone,
    fun hdone => ⟨fun i hi => ?_, hframe⟩⟩
  · obtain ⟨hlt, hop⟩ := mem_log hfuel ((hapart.log_prefix hs t).subset ho)
    exact ⟨index t, hlt, hop⟩
  · obtain ⟨t, rfl⟩ : ∃ t : Thread grid block, index t = i := exists_index hfits hcover hi
    rw [hapart.of_done hs hdone ⟨hi, rfl⟩, solo_addOneKernel hfuel, if_pos hi]
    exact Function.update_self _ _ _

/-- The launch of the test, where the last block has threads to spare. -/
theorem add_one_correct_ragged :
    999 < 3 * 256 + 256 ∧ ∀ s, (run 4 256 16 4096 1000 fun _ => 7).Reachable s →
      (∀ t, s.progs t = .pure ()) → Incremented 4096 1000 (fun _ => 7) s.mem := by
  have h := @add_one_correct 4 256 16 le_rfl 1000 (by decide) (by norm_num) 4096 fun _ => 7
  exact ⟨by norm_num, fun s hs => (h.1 s hs).2.2.2⟩

end Cudatest.AddOne
