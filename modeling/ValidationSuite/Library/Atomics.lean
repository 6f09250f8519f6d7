import Mathlib.Algebra.GroupWithZero.Nat
import Mathlib.Data.Finset.Option
import ValidationSuite.Library.Simt

/-!
# Atomic additions

Threads that load, store and add to places of a memory of machine words. Additions to one place
commute: where what each thread has added is kept apart, the threads have nothing to do with one
another, and the memory is the sum of it all. So the plans of threads with barriers serve for
threads that add to the same place as well.
-/

namespace Simt

open Transition

/-! ### Machine words -/

/-- Words that are added up to a power of two. -/
class Word (α : Type) where
  toNat : α → ℕ
  ofNat : ℕ → α
  ofNat_toNat : ∀ a, ofNat (toNat a) = a
  ofNat_add : ∀ m n, ofNat (toNat (ofNat m) + n) = ofNat (m + n)

instance : Word UInt8 where
  toNat := UInt8.toNat
  ofNat := UInt8.ofNat
  ofNat_toNat _ := UInt8.ofNat_toNat
  ofNat_add m n := by
    rw [UInt8.ofNat_add, UInt8.ofNat_toNat, UInt8.ofNat_add]

instance : Word UInt32 where
  toNat := UInt32.toNat
  ofNat := UInt32.ofNat
  ofNat_toNat _ := UInt32.ofNat_toNat
  ofNat_add m n := by
    rw [UInt32.ofNat_add, UInt32.ofNat_toNat, UInt32.ofNat_add]

instance : Word UInt64 where
  toNat := UInt64.toNat
  ofNat := UInt64.ofNat
  ofNat_toNat _ := UInt64.ofNat_toNat
  ofNat_add m n := by
    rw [UInt64.ofNat_add, UInt64.ofNat_toNat, UInt64.ofNat_add]

namespace Word

variable {α ι : Type} [Word α]

/-- Words may be taken before they are added up. -/
lemma ofNat_add_sum (n : ℕ) (s : Finset ι) (f : ι → ℕ) :
    ofNat (n + ∑ i ∈ s, toNat (ofNat (f i) : α)) = (ofNat (n + ∑ i ∈ s, f i) : α) := by
  induction s using Finset.cons_induction generalizing n with
  | empty => rfl
  | cons i s hi ih =>
    rw [Finset.sum_cons, Finset.sum_cons, ← Nat.add_assoc, ih, Nat.add_comm n, Nat.add_assoc,
      ofNat_add, Nat.add_left_comm]

end Word

/-! ### Operations -/

section Atomic

variable {T L : Type} {V : L → Type}

/-- The thread of an addition is a history: it has no effect. -/
inductive Atomic (T L : Type) (V : L → Type) where
  | load (l : L)
  | store (l : L) (v : V l)
  | add (t : T) (l : L) (v : V l)

namespace Atomic

/-- What an operation returns. -/
def Res : Atomic T L V → Type
  | .load l => V l
  | .store _ _ => Unit
  | .add _ _ _ => Unit

variable [DecidableEq T] [DecidableEq L] [∀ l, Word (V l)]

def exec : (o : Atomic T L V) → (∀ l, V l) → o.Res × ∀ l, V l
  | .load l, m => (m l, m)
  | .store l v, m => ((), Function.update m l v)
  | .add _ l v, m => ((), Function.update m l (Word.ofNat (Word.toNat (m l) + Word.toNat v)))

end Atomic

def fetch (l : L) : Prog (Atomic T L V) Atomic.Res (V l) := .op (.load l) .pure

def put (l : L) (v : V l) : Prog (Atomic T L V) Atomic.Res Unit := .op (.store l v) .pure

def atomicAdd (t : T) (l : L) (v : V l) : Prog (Atomic T L V) Atomic.Res Unit :=
  .op (.add t l v) .pure

/-- A memory with what each thread has added to a place kept apart from the rest. -/
abbrev Split (T L : Type) := L × Option T → ℕ

namespace Split

variable [DecidableEq T] [DecidableEq L] [∀ l, Word (V l)]

/-- The memory before anything is added. -/
def of (m : ∀ l, V l) : Split T L
  | (l, none) => Word.toNat (m l)
  | (_, some _) => 0

variable [Fintype T]

def join (g : Split T L) : ∀ l, V l := fun l => Word.ofNat (g (l, none) + ∑ t, g (l, some t))

/-- What an operation makes of one cell. -/
def cell : Atomic T L V → L × Option T → ℕ → ℕ
  | .load _, _, n => n
  | .store l v, (l', none), n => if l' = l then Word.toNat v else n
  | .store l _, (l', some _), n => if l' = l then 0 else n
  | .add t l v, c, n => if c = (l, some t) then n + Word.toNat v else n

def result : (o : Atomic T L V) → Split T L → o.Res
  | .load l, g => g.join l
  | .store _ _, _ => ()
  | .add _ _ _, _ => ()

def exec (o : Atomic T L V) (g : Split T L) : o.Res × Split T L :=
  (result o g, fun c => cell o c (g c))

omit [Fintype T] in
@[simp] lemma cell_load (l : L) (c : L × Option T) (n : ℕ) :
    cell (.load l : Atomic T L V) c n = n := rfl

@[simp] lemma exec_snd (o : Atomic T L V) (g : Split T L) (c : L × Option T) :
    (exec o g).2 c = cell o c (g c) := rfl

lemma solo_fetch (l : L) (g : Split T L) :
    (fetch l : Prog (Atomic T L V) Atomic.Res (V l)).solo exec g = ⟨[.load l], g, .inl (g.join l)⟩ :=
  rfl

omit [DecidableEq T] [DecidableEq L] in
lemma join_congr {g g' : Split T L} {l : L} (h : ∀ c, g (l, c) = g' (l, c)) :
    (g.join l : V l) = g'.join l := by
  rw [join, join, h none, Finset.sum_congr rfl fun t _ => h (some t)]

omit [DecidableEq T] [DecidableEq L] in
/-- A place nothing has been added to. -/
lemma join_of_no_adds {g : Split T L} {l : L} (h : ∀ t, g (l, some t) = 0) :
    (g.join l : V l) = Word.ofNat (g (l, none)) := by
  rw [join, Finset.sum_congr rfl fun t _ => h t, Finset.sum_const_zero, Nat.add_zero]

omit [DecidableEq T] [DecidableEq L] in
lemma join_of (m : ∀ l, V l) : (of m : Split T L).join = m := by
  funext l
  simp [join, of, Word.ofNat_toNat]

/-- Additions apart do the same as additions to the place itself. -/
lemma exec_join (o : Atomic T L V) (g : Split T L) :
    o.exec g.join = ((exec o g).1, (exec o g).2.join) := by
  cases o with
  | load l => rfl
  | store l v =>
    refine Prod.ext rfl (funext fun l' => ?_)
    by_cases hl : l' = l
    · subst hl
      simp [Atomic.exec, join, exec, cell, Word.ofNat_toNat]
    · simp [Atomic.exec, join, exec, cell, hl]
  | add t l v =>
    refine Prod.ext rfl (funext fun l' => ?_)
    by_cases hl : l' = l
    · subst hl
      have hcell : ∀ u, cell (.add t l' v) (l', some u) (g (l', some u)) =
          g (l', some u) + if u = t then Word.toNat v else 0 := fun u => by
        by_cases hu : u = t
        · simp [cell, hu]
        · simp [cell, hu]
      have hsum : ∑ u, (exec (.add t l' v) g).2 (l', some u) =
          ∑ u, g (l', some u) + Word.toNat v := by
        simp [exec, hcell, Finset.sum_add_distrib]
      simp only [Atomic.exec, join, Function.update_self, Word.ofNat_add, hsum, Nat.add_assoc]
      simp [exec, cell]
    · simp [Atomic.exec, join, exec, cell, hl]

/-- An operation leaves the places alone that it does not mention. -/
lemma join_exec_of_ne {o : Atomic T L V} {l : L} (hstore : ∀ v, o ≠ .store l v)
    (hadd : ∀ t v, o ≠ .add t l v) (g : Split T L) :
    ((exec o g).2.join l : V l) = g.join l := by
  have hexec : (exec o g).2.join = (o.exec g.join).2 := by rw [exec_join]
  rw [hexec]
  cases o with
  | load l' => rfl
  | store l' v =>
    have hne : l ≠ l' := by
      rintro rfl
      exact hstore v rfl
    simp [Atomic.exec, hne]
  | add t l' v =>
    have hne : l ≠ l' := by
      rintro rfl
      exact hadd t v rfl
    simp [Atomic.exec, hne]

/-! ### What a list of operations makes of a cell -/

section Cells

variable {log : List (Atomic T L V)}

lemma foldl_exec (g : Split T L) (c : L × Option T) :
    log.foldl (fun g o => (exec o g).2) g c = log.foldl (fun n o => cell o c n) (g c) := by
  induction log generalizing g with
  | nil => rfl
  | cons o log ih => exact ih _

omit [Fintype T]

/-- What an operation adds to a cell. -/
def added (c : L × Option T) : Atomic T L V → ℕ
  | .add t l v => if c = (l, some t) then Word.toNat v else 0
  | .load _ => 0
  | .store _ _ => 0

lemma added_eq_zero {o : Atomic T L V} {c : L × Option T} (h : ∀ t v, o ≠ .add t c.1 v) :
    added c o = 0 := by
  cases o with
  | load l => rfl
  | store l v => rfl
  | add t l v =>
    have hc : c ≠ (l, some t) := by
      rintro rfl
      exact h t v rfl
    rw [added, if_neg hc]

lemma cell_eq_add {o : Atomic T L V} {c : L × Option T} (h : ∀ v, o ≠ .store c.1 v) (n : ℕ) :
    cell o c n = n + added c o := by
  obtain ⟨l', t | t⟩ := c
  · cases o with
    | load l => rfl
    | store l v =>
      have hl : l' ≠ l := by
        rintro rfl
        exact h v rfl
      simp [cell, added, hl]
    | add t l v => simp [cell, added]
  · cases o with
    | load l => rfl
    | store l v =>
      have hl : l' ≠ l := by
        rintro rfl
        exact h v rfl
      simp [cell, added, hl]
    | add u l v => by_cases hc : (l', some t) = (l, some u) <;> simp [cell, added, hc]

/-- A cell that is not stored to is what has been added to it. -/
lemma foldl_cell_of_no_store {c : L × Option T} (h : ∀ v, .store c.1 v ∉ log) (n : ℕ) :
    log.foldl (fun n o => cell o c n) n = n + (log.map (added c)).sum := by
  induction log generalizing n with
  | nil => rfl
  | cons o log ih =>
    have ho : ∀ v, o ≠ .store c.1 v := fun v heq => h v (heq ▸ List.mem_cons_self)
    rw [List.foldl_cons, ih fun v hv => h v (List.mem_cons_of_mem o hv), cell_eq_add ho,
      List.map_cons, List.sum_cons, Nat.add_assoc]

/-- The cells of a place after a store. -/
def stored {l : L} (v : V l) : Option T → ℕ
  | none => Word.toNat v
  | some _ => 0

/-- A place that one value is stored to and nothing is added to has that value. -/
lemma foldl_cell_of_store {l : L} {v : V l} (h : .store l v ∈ log)
    (hv : ∀ w, .store l w ∈ log → w = v) (hadd : ∀ t w, .add t l w ∉ log) (c : Option T) (n : ℕ) :
    log.foldl (fun n o => cell o (l, c) n) n = stored v c := by
  induction log generalizing n with
  | nil => exact absurd h List.not_mem_nil
  | cons o log ih =>
    have hv' : ∀ w, .store l w ∈ log → w = v := fun w hw => hv w (List.mem_cons_of_mem o hw)
    have hadd' : ∀ t w, .add t l w ∉ log := fun t w hw => hadd t w (List.mem_cons_of_mem o hw)
    rw [List.foldl_cons]
    by_cases hlog : ∃ w, .store l w ∈ log
    · obtain ⟨w, hw⟩ := hlog
      obtain rfl := hv' w hw
      exact ih hw hv' hadd' _
    · push Not at hlog
      have hnone : (log.map (added (l, c))).sum = 0 := by
        refine List.sum_eq_zero fun n hn => ?_
        obtain ⟨o', ho', rfl⟩ := List.mem_map.mp hn
        exact added_eq_zero fun t w heq => hadd' t w (heq ▸ ho')
      rw [foldl_cell_of_no_store hlog, hnone]
      obtain rfl | h := List.mem_cons.mp h
      · cases c with
        | none => simp [cell, stored]
        | some t => simp [cell, stored]
      · exact absurd h (hlog v)

end Cells

/-! ### Cells that an operation depends on -/

omit [Fintype T] in
lemma cell_of_ne {o : Atomic T L V} {c : L × Option T} (hstore : ∀ v, o ≠ .store c.1 v)
    (hadd : ∀ t v, o = .add t c.1 v → c.2 ≠ some t) (n : ℕ) : cell o c n = n := by
  rw [cell_eq_add hstore]
  cases o with
  | load l => rfl
  | store l v => rfl
  | add t l v =>
    have hc : c ≠ (l, some t) := by
      rintro rfl
      exact hadd t v rfl rfl
    rw [added, if_neg hc]
    rfl

lemma confined_load {R W : Set (L × Option T)} {l : L} (h : ∀ c, (l, c) ∈ R ∪ W) :
    Confined (V := fun _ : L × Option T => ℕ) (exec (V := V)) R W (.load l) := by
  refine fun g g' hg => ⟨?_, fun c hc => hg c (.inr hc), fun c _ => rfl⟩
  exact join_congr fun c => hg _ (h c)

lemma confined_store {R W : Set (L × Option T)} {l : L} (v : V l) (h : ∀ c, (l, c) ∈ W) :
    Confined (V := fun _ : L × Option T => ℕ) exec R W (.store l v) := by
  refine fun g g' hg => ⟨rfl, fun c hc => congrArg (cell (.store l v) c) (hg c (.inr hc)),
    fun c hc => ?_⟩
  refine (exec_snd _ g c).trans (cell_of_ne (fun w heq => ?_) (fun t w heq => ?_) _)
  · obtain ⟨rfl, -⟩ := Atomic.store.inj heq
    exact hc (h c.2)
  · nomatch heq

lemma confined_add {R W : Set (L × Option T)} {t : T} {l : L} (v : V l) (h : (l, some t) ∈ W) :
    Confined (V := fun _ : L × Option T => ℕ) exec R W (.add t l v) := by
  refine fun g g' hg => ⟨rfl, fun c hc => congrArg (cell (.add t l v) c) (hg c (.inr hc)),
    fun c hc => ?_⟩
  refine (exec_snd _ g c).trans (cell_of_ne (fun w heq => ?_) (fun u w heq hu => ?_) _)
  · nomatch heq
  · obtain ⟨rfl, rfl, -⟩ := Atomic.add.inj heq
    exact hc (by rwa [← hu] at h)

/-! ### Sums of cells -/

/-- What an operation adds to a place. -/
def addedTo (l : L) : Atomic T L V → ℕ
  | .add _ l' v => if l' = l then Word.toNat v else 0
  | .load _ => 0
  | .store _ _ => 0

lemma sum_cell_le (o : Atomic T L V) (l : L) (n : T → ℕ) :
    ∑ t, cell o (l, some t) (n t) ≤ ∑ t, n t + addedTo l o := by
  cases o with
  | load l' => simp [addedTo]
  | store l' v =>
    refine (Finset.sum_le_sum fun t _ => ?_).trans (Nat.le_add_right _ _)
    simp only [cell]
    split_ifs
    · exact Nat.zero_le _
    · exact le_rfl
  | add u l' v =>
    have hcell : ∀ t, cell (.add u l' v) (l, some t) (n t) ≤
        n t + if t = u then addedTo l (.add u l' v) else 0 := fun t => by
      simp only [cell, addedTo, Prod.mk.injEq, Option.some.injEq]
      by_cases hl : l = l'
      · by_cases ht : t = u
        · simp [hl, ht]
        · simp [hl, ht]
      · simp [hl]
    refine (Finset.sum_le_sum fun t _ => hcell t).trans_eq ?_
    rw [Finset.sum_add_distrib, Finset.sum_ite_eq', if_pos (Finset.mem_univ u)]

end Split

end Atomic

/-! ### Grids -/

section Grid

variable {T B L : Type} {V : L → Type} [∀ l, Word (V l)] [Fintype T]

/-- The state of the memory itself. -/
def State.join (s : State T B (Atomic T L V) Atomic.Res (Split T L)) :
    State T B (Atomic T L V) Atomic.Res (∀ l, V l) :=
  { mem := s.mem.join, progs := s.progs, log := s.log, passed := s.passed }

variable [DecidableEq T] [DecidableEq B] [DecidableEq L] (block : T → B) (m : ∀ l, V l)
  (progs : T → Prog (Atomic T L V) Atomic.Res Unit)

/-- The runs on a memory of words. -/
def atomicGrid : LTS (State T B (Atomic T L V) Atomic.Res (∀ l, V l)) (Label T B) :=
  grid Atomic.exec block m progs

/-- The runs with the additions kept apart. -/
def splitGrid : LTS (State T B (Atomic T L V) Atomic.Res (Split T L)) (Label T B) :=
  grid (V := fun _ : L × Option T => ℕ) Split.exec block (Split.of m) progs

variable {block m progs}

omit [DecidableEq B] in
lemma perform_join (g : State T B (Atomic T L V) Atomic.Res (Split T L)) (t : T)
    (o : Atomic T L V) (k : o.Res → Prog (Atomic T L V) Atomic.Res Unit) :
    g.join.perform Atomic.exec t o k =
      (g.perform (V := fun _ : L × Option T => ℕ) Split.exec t o k).join := by
  simp only [State.perform, State.join, Split.exec_join]

lemma step_join {g : State T B (Atomic T L V) Atomic.Res (Split T L)} {l : Label T B}
    {s' : State T B (Atomic T L V) Atomic.Res (∀ l, V l)}
    (h : (atomicGrid block m progs).step g.join l s') :
    ∃ g', (splitGrid block m progs).step g l g' ∧ g'.join = s' := by
  cases h with
  | op ht => exact ⟨_, .op ht, (perform_join g _ _ _).symm⟩
  | sync hblock hsync => exact ⟨_, .sync hblock hsync, rfl⟩

lemma join_step {g g' : State T B (Atomic T L V) Atomic.Res (Split T L)} {l : Label T B}
    (h : (splitGrid block m progs).step g l g') :
    (atomicGrid block m progs).step g.join l g'.join := by
  cases h with
  | op ht =>
    rw [← perform_join]
    exact .op ht
  | sync hblock hsync => exact .sync hblock hsync

lemma path_split {s : State T B (Atomic T L V) Atomic.Res (∀ l, V l)} {ls : List (Label T B)}
    {g : State T B (Atomic T L V) Atomic.Res (Split T L)}
    (h : (atomicGrid block m progs).Path g.join ls s) :
    ∃ g', (splitGrid block m progs).Path g ls g' ∧ g'.join = s := by
  generalize hg : g.join = s₀ at h
  induction h generalizing g with
  | nil s => exact ⟨g, .nil g, hg⟩
  | cons hs _ ih =>
    subst hg
    obtain ⟨g', hg', heq⟩ := step_join hs
    obtain ⟨g'', hpath, heq'⟩ := ih heq
    exact ⟨g'', .cons hg' hpath, heq'⟩

/-- Every run is one with the additions kept apart. -/
theorem exists_split {s : State T B (Atomic T L V) Atomic.Res (∀ l, V l)}
    (h : (atomicGrid block m progs).Reachable s) :
    ∃ g, (splitGrid block m progs).Reachable g ∧ g.join = s := by
  induction h with
  | init h =>
    obtain rfl := h
    refine ⟨{ mem := Split.of m, progs := progs }, .init rfl, ?_⟩
    rw [State.join, Split.join_of]
  | step _ hs ih =>
    obtain ⟨g, hg, rfl⟩ := ih
    obtain ⟨g', hg', heq⟩ := step_join hs
    exact ⟨g', hg.step hg', heq⟩

/-- No more is in the cells of a place than the threads have added to it. -/
theorem sum_cells_le {g : State T B (Atomic T L V) Atomic.Res (Split T L)}
    (h : (splitGrid block m progs).Reachable g) (l : L) :
    ∑ t, g.mem (l, some t) ≤ ∑ t, ((g.log t).map (Split.addedTo l)).sum := by
  apply h.invariant
  · rintro g rfl
    simp [Split.of]
  · intro g lab g' _ ih hs
    cases hs with
    | @op t o k ht =>
      have hlog : ∀ u, (((g.perform (V := fun _ : L × Option T => ℕ) Split.exec t o k).log u).map
          (Split.addedTo l)).sum =
          ((g.log u).map (Split.addedTo l)).sum + if u = t then Split.addedTo l o else 0 := by
        intro u
        by_cases hu : u = t
        · subst hu
          simp [State.perform]
        · simp [State.perform, hu]
      refine (Split.sum_cell_le o l fun t => g.mem (l, some t)).trans ?_
      rw [Finset.sum_congr rfl fun u _ => hlog u, Finset.sum_add_distrib, Finset.sum_ite_eq',
        if_pos (Finset.mem_univ t)]
      exact Nat.add_le_add_right ih _
    | sync hblock hsync => exact ih

/-! ### Plans -/

namespace Plan

variable {P : Plan T B (Atomic T L V) Atomic.Res fun _ : L × Option T => ℕ} {rounds : ℕ}
  {s : State T B (Atomic T L V) Atomic.Res (∀ l, V l)}

omit [DecidableEq B] in
lemma round_of_store {t : T} {e : ℕ} {l : L} {v : V l}
    (h : .store l v ∈ (P.round Split.exec block t e).log)
    (hv : ∀ w, .store l w ∈ (P.round Split.exec block t e).log → w = v)
    (hadd : ∀ u w, .add u l w ∉ (P.round Split.exec block t e).log) (c : Option T) :
    (P.round Split.exec block t e).mem (l, c) = Split.stored v c := by
  rw [round, Prog.mem_solo, Split.foldl_exec]
  exact Split.foldl_cell_of_store h hv hadd c _

omit [DecidableEq B] in
lemma round_of_no_store {t : T} {e : ℕ} {c : L × Option T}
    (h : ∀ v, .store c.1 v ∉ (P.round Split.exec block t e).log) :
    (P.round Split.exec block t e).mem c =
      P.view (block t) e c + ((P.round Split.exec block t e).log.map (Split.added c)).sum := by
  rw [round, Prog.mem_solo, Split.foldl_exec]
  exact Split.foldl_cell_of_no_store h _

/-- Whatever a thread is about to add, no more is in the cells of a place then than the plan adds to
it. -/
lemma Sound.add_le (hP : P.Sound Split.exec block rounds (Split.of m) progs)
    {g : State T B (Atomic T L V) Atomic.Res (Split T L)}
    (h : (splitGrid block m progs).Reachable g) {t u : T} {l : L} {v : V l}
    {k : Unit → Prog (Atomic T L V) Atomic.Res Unit} (ht : g.progs t = .op (.add u l v) k) :
    ∑ t, g.mem (l, some t) + Word.toNat v ≤
      ∑ t, ((P.before Split.exec block t (rounds + 1)).map (Split.addedTo l)).sum := by
  have hcell : ∀ t, Split.cell (.add u l v) (l, some t) (g.mem (l, some t)) =
      g.mem (l, some t) + if t = u then Word.toNat v else 0 := fun t => by
    by_cases htu : t = u
    · simp [Split.cell, htu]
    · simp [Split.cell, htu]
  have hnext : (splitGrid block m progs).Reachable
      (g.perform (V := fun _ : L × Option T => ℕ) Split.exec t (.add u l v) k) := h.step (.op ht)
  have hcells : ∑ t, g.mem (l, some t) + Word.toNat v =
      ∑ t, Split.cell (.add u l v) (l, some t) (g.mem (l, some t)) := by
    rw [Finset.sum_congr rfl fun t _ => hcell t, Finset.sum_add_distrib, Finset.sum_ite_eq',
      if_pos (Finset.mem_univ u)]
  rw [hcells]
  refine (sum_cells_le hnext l).trans (Finset.sum_le_sum fun t _ => ?_)
  obtain ⟨log, hlog⟩ := hP.log_prefix hnext t
  rw [← hlog, List.map_append, List.sum_append]
  exact Nat.le_add_right _ _

theorem Sound.atomic_progress (hP : P.Sound Split.exec block rounds (Split.of m) progs)
    (h : (atomicGrid block m progs).Reachable s) (hundone : ∃ t, s.progs t ≠ .pure ()) :
    ∃ l s', (atomicGrid block m progs).step s l s' := by
  obtain ⟨g, hg, rfl⟩ := exists_split h
  obtain ⟨l, g', hs⟩ := hP.progress hg hundone
  exact ⟨l, g'.join, join_step hs⟩

theorem Sound.atomic_bounded [Fintype B]
    (hP : P.Sound Split.exec block rounds (Split.of m) progs) :
    ∃ n, ∀ s₀ ls s, (atomicGrid block m progs).init s₀ →
      (atomicGrid block m progs).Path s₀ ls s → ls.length ≤ n := by
  obtain ⟨n, hn⟩ := hP.bounded
  refine ⟨n, fun s₀ ls s hinit hpath => ?_⟩
  obtain rfl := hinit
  have hstart : ({ mem := Split.of m, progs := progs } :
      State T B (Atomic T L V) Atomic.Res (Split T L)).join = { mem := m, progs := progs } := by
    rw [State.join, Split.join_of]
  rw [← hstart] at hpath
  obtain ⟨g, hg, -⟩ := path_split hpath
  exact hn _ ls g rfl hg

end Plan

end Grid

end Simt
