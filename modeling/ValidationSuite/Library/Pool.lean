import ValidationSuite.Library.Transition
import Mathlib.Data.List.Perm.Basic
import Mathlib.Tactic.SplitIfs

/-!
# Processes over a shared store

A system of any number of processes that come up one by one and take their atomic steps on a store
they share, in any order. Three rules: an invariant of the store together with one of each process
on its own, how a step changes the number of processes of a kind, and a log in which each process
writes in its own name.
-/

namespace Transition

variable {σ P : Type*}

/-- How the processes start and what the `i`th of them does in one step. -/
structure System (σ P : Type*) where
  init : σ → Prop
  enter : P → Prop
  act : ℕ → σ → P → σ → P → Prop

/-- The store and the processes that have started. -/
structure Pool (σ P : Type*) where
  store : σ
  procs : List P := []

namespace Pool

/-- A process starts, or the `i`th one takes a step. -/
inductive Label where
  | enter
  | act (i : ℕ)
  deriving DecidableEq

/-- The number of processes of the kind `p`. -/
def count (p : P → Bool) (s : Pool σ P) : ℕ := s.procs.countP p

inductive Step (Y : System σ P) : Pool σ P → Label → Pool σ P → Prop
  | enter {s : Pool σ P} {x : P} (h : Y.enter x) :
      Step Y s .enter { s with procs := s.procs ++ [x] }
  | act {s : Pool σ P} {i : ℕ} {x x' : P} {store : σ} (hi : s.procs[i]? = some x)
      (h : Y.act i s.store x store x') : Step Y s (.act i) ⟨store, s.procs.set i x'⟩

@[simp] lemma count_nil (p : P → Bool) (store : σ) :
    ({ store := store } : Pool σ P).count p = 0 := rfl

@[simp] lemma count_enter (p : P → Bool) (s : Pool σ P) (x : P) :
    ({ s with procs := s.procs ++ [x] } : Pool σ P).count p =
      s.count p + (p x).toNat := by
  cases h : p x <;> simp [count, h]

/-- A step of one process changes a count by what it changes about this process. -/
lemma count_act (p : P → Bool) {s : Pool σ P} {i : ℕ} {x : P} (hi : s.procs[i]? = some x)
    (x' : P) (store : σ) :
    (⟨store, s.procs.set i x'⟩ : Pool σ P).count p + (p x).toNat =
      s.count p + (p x').toNat := by
  obtain ⟨hlt, rfl⟩ := List.getElem?_eq_some_iff.mp hi
  have hpos : p s.procs[i] = true → 0 < s.procs.countP p := fun hp =>
    List.countP_pos_iff.mpr ⟨_, List.getElem_mem hlt, hp⟩
  simp only [count, List.countP_set hlt]
  cases hp : p s.procs[i] <;> cases hp' : p x' <;> simp_all

lemma count_le_count {p q : P → Bool} (h : ∀ x, p x = true → q x = true) (s : Pool σ P) :
    s.count p ≤ s.count q :=
  List.countP_mono_left fun x _ => h x

lemma count_lt_count {p q : P → Bool} (h : ∀ x, p x = true → q x = true) {s : Pool σ P} {x : P}
    (hx : x ∈ s.procs) (hq : q x = true) (hp : p x = false) : s.count p < s.count q := by
  obtain ⟨l, l', hl⟩ := List.append_of_mem hx
  have hle := List.countP_mono_left (l := l) fun y _ => h y
  have hle' := List.countP_mono_left (l := l') fun y _ => h y
  simp only [count, hl, List.countP_append, List.countP_cons, hq, hp]
  simp only [Bool.false_eq_true, if_false, if_true]
  omega

lemma count_eq_zero {p : P → Bool} {s : Pool σ P} (h : ∀ x ∈ s.procs, p x = false) :
    s.count p = 0 :=
  List.countP_eq_zero.mpr fun x hx => by simp [h x hx]

/-- A relation between any two processes survives a step of one of them that keeps it with all
others. -/
lemma pairwise_set {R : P → P → Prop} {l : List P} (h : l.Pairwise R) {i : ℕ} {x x' : P}
    (hi : l[i]? = some x) (hx : ∀ y, (R x y → R x' y) ∧ (R y x → R y x')) :
    (l.set i x').Pairwise R := by
  obtain ⟨hlt, rfl⟩ := List.getElem?_eq_some_iff.mp hi
  rw [List.pairwise_iff_getElem] at h ⊢
  intro j k hj hk hjk
  rw [List.length_set] at hj hk
  have hR := h j k hj hk hjk
  rw [List.getElem_set, List.getElem_set]
  split_ifs with hij hik hik
  · omega
  · subst hij
    exact (hx _).1 hR
  · subst hik
    exact (hx _).2 hR
  · exact hR

/-- What holds of all processes still does after one has started that it holds of. -/
lemma forall_concat {Q : P → Prop} {l : List P} {x : P} (h : ∀ y ∈ l, Q y) (hx : Q x) :
    ∀ y ∈ l ++ [x], Q y := by
  intro y hy
  rcases List.mem_append.mp hy with hy | hy
  · exact h y hy
  · obtain rfl := List.mem_singleton.mp hy
    exact hx

/-- The same after a step of one of them. -/
lemma forall_set {Q : P → Prop} {l : List P} {i : ℕ} {x' : P} (h : ∀ y ∈ l, Q y) (hx : Q x') :
    ∀ y ∈ l.set i x', Q y := by
  intro y hy
  rcases List.mem_or_eq_of_mem_set hy with hy | rfl
  · exact h y hy
  · exact hx

/-- Somebody it holds of is still there after a step that does not make it false. -/
lemma exists_mem_set {Q : P → Prop} {l : List P} {i : ℕ} {x x' : P} (h : ∃ y ∈ l, Q y)
    (hi : l[i]? = some x) (hx : Q x → Q x') : ∃ y ∈ l.set i x', Q y := by
  obtain ⟨y, hy, hQ⟩ := h
  obtain ⟨j, hj⟩ := List.mem_iff_getElem?.mp hy
  rcases eq_or_ne i j with rfl | hne
  · obtain rfl := Option.some.inj (hi.symm.trans hj)
    exact ⟨x', List.mem_set (List.getElem?_eq_some_iff.mp hi).1 x', hx hQ⟩
  · exact ⟨y, List.mem_of_getElem? (List.getElem?_set_ne hne ▸ hj), hQ⟩

/-- Who is there after a process has started. -/
lemma of_getElem?_concat {l : List P} {x y : P} {j : ℕ} (h : (l ++ [x])[j]? = some y) :
    l[j]? = some y ∨ j = l.length ∧ y = x := by
  rcases Nat.lt_or_ge j l.length with hlt | hge
  · rw [List.getElem?_append_left hlt] at h
    exact .inl h
  · rw [List.getElem?_append_right hge] at h
    obtain ⟨hlt, hy⟩ := List.getElem?_eq_some_iff.mp h
    rw [List.length_singleton] at hlt
    refine .inr ⟨by omega, ?_⟩
    simpa using hy.symm

/-- Who is there after a step of the `i`th process. -/
lemma of_getElem?_set {l : List P} {i j : ℕ} {x' y : P} (h : (l.set i x')[j]? = some y) :
    j = i ∧ y = x' ∨ j ≠ i ∧ l[j]? = some y := by
  rw [List.getElem?_set] at h
  split_ifs at h with hij hlt
  · exact .inl ⟨hij.symm, (Option.some.inj h).symm⟩
  · exact .inr ⟨Ne.symm hij, h⟩

lemma of_mem_set {l : List P} {i : ℕ} {x' y : P} (h : y ∈ l.set i x') :
    y = x' ∨ ∃ j, j ≠ i ∧ l[j]? = some y := by
  obtain ⟨j, hj⟩ := List.mem_iff_getElem?.mp h
  exact (of_getElem?_set hj).imp (·.2) fun hj => ⟨j, hj⟩

/-- A symmetric relation between any two processes holds of two at different places. -/
lemma of_pairwise {R : P → P → Prop} (hsymm : ∀ x y, R x y → R y x) {l : List P}
    (h : l.Pairwise R) {i j : ℕ} {x y : P} (hij : j ≠ i) (hi : l[i]? = some x)
    (hj : l[j]? = some y) : R x y := by
  obtain ⟨hlt, rfl⟩ := List.getElem?_eq_some_iff.mp hi
  obtain ⟨hlt', rfl⟩ := List.getElem?_eq_some_iff.mp hj
  rw [List.pairwise_iff_getElem] at h
  rcases Nat.lt_or_gt_of_ne hij with hlt'' | hgt
  · exact hsymm _ _ (h j i _ _ hlt'')
  · exact h i j _ _ hgt

/-- A step that keeps what is collected from its process keeps what is collected from all. -/
lemma filterMap_set {β : Type*} {f : P → Option β} {l : List P} {i : ℕ} {x x' : P}
    (hi : l[i]? = some x) (hx : f x' = f x) : ((l.set i x').filterMap f).Perm (l.filterMap f) := by
  obtain ⟨hlt, rfl⟩ := List.getElem?_eq_some_iff.mp hi
  have hset := (List.set_perm_cons_eraseIdx hlt x').filterMap f
  have hold := (List.getElem_cons_eraseIdx_perm hlt).filterMap f
  rw [List.filterMap_cons, hx] at hset
  rw [List.filterMap_cons] at hold
  exact hset.trans hold

/-- A step changes a sum over all processes by what it changes about its own. -/
lemma sum_map_set {f : P → ℕ} {l : List P} {i : ℕ} {x : P} (hi : l[i]? = some x) (x' : P) :
    ((l.set i x').map f).sum + f x = (l.map f).sum + f x' := by
  obtain ⟨hlt, rfl⟩ := List.getElem?_eq_some_iff.mp hi
  have hset := ((List.set_perm_cons_eraseIdx hlt x').map f).sum_nat
  have hold := ((List.getElem_cons_eraseIdx_perm hlt).map f).sum_nat
  rw [List.map_cons, List.sum_cons] at hset hold
  omega

/-- A step may take away what is collected from its process. -/
lemma filterMap_set_none {β : Type*} {f : P → Option β} {l : List P} {i : ℕ} {x x' : P} {b : β}
    (hi : l[i]? = some x) (hx : f x = some b) (hx' : f x' = none) :
    (b :: (l.set i x').filterMap f).Perm (l.filterMap f) := by
  obtain ⟨hlt, rfl⟩ := List.getElem?_eq_some_iff.mp hi
  have hset := (List.set_perm_cons_eraseIdx hlt x').filterMap f
  have hold := (List.getElem_cons_eraseIdx_perm hlt).filterMap f
  rw [List.filterMap_cons, hx'] at hset
  rw [List.filterMap_cons, hx] at hold
  exact (hset.cons b).trans hold

end Pool

namespace System

variable (Y : System σ P)

/-- The runs of the system, from a store with no process. -/
def lts : LTS (Pool σ P) Pool.Label where
  init s := Y.init s.store ∧ s.procs = []
  step := Pool.Step Y

variable {Y}

/-- What holds of the store at first and of each process when it starts, and what no step of a
process spoils for the store or for itself, holds in every state. -/
theorem invariant {I : σ → Prop} {J : P → Prop} (hinit : ∀ store, Y.init store → I store)
    (henter : ∀ x, Y.enter x → J x)
    (hact : ∀ i store x store' x', I store → J x → Y.act i store x store' x' → I store' ∧ J x')
    {s : Pool σ P} (h : Y.lts.Reachable s) : I s.store ∧ ∀ x ∈ s.procs, J x := by
  refine h.invariant (I := fun s => I s.store ∧ ∀ x ∈ s.procs, J x) ?_ ?_
  · rintro s ⟨hs, hnone⟩
    refine ⟨hinit _ hs, ?_⟩
    rw [hnone]
    intro x hx
    cases hx
  · rintro s l s' _ ⟨hI, hJ⟩ hs
    cases hs with
    | enter hx => exact ⟨hI, Pool.forall_concat hJ (henter _ hx)⟩
    | act hi hx =>
      obtain ⟨hI', hx'⟩ := hact _ _ _ _ _ hI (hJ _ (List.mem_of_getElem? hi)) hx
      exact ⟨hI', Pool.forall_set hJ hx'⟩

/-- What every step of a process does to it, if that is reflexive and transitive, a path does to it
as well. -/
lemma evolves {R : P → P → Prop} (hrefl : ∀ x, R x x) (htrans : ∀ x y z, R x y → R y z → R x z)
    (hact : ∀ s i x store x', Y.lts.Reachable s → s.procs[i]? = some x →
      Y.act i s.store x store x' → R x x')
    {s s' : Pool σ P} {ls : List Pool.Label} (h : Y.lts.Reachable s) (hp : Y.lts.Path s ls s')
    {i : ℕ} {x : P} (hi : s.procs[i]? = some x) : ∃ y, s'.procs[i]? = some y ∧ R x y := by
  induction hp generalizing x with
  | nil s => exact ⟨x, hi, hrefl x⟩
  | @cons u _ _ _ _ hs _ ih =>
    have hr := h.step hs
    cases hs with
    | enter hx => exact ih hr (List.getElem?_append_left (List.getElem?_eq_some_iff.mp hi).1 ▸ hi)
    | @act j y y' _ hj hy =>
      rcases eq_or_ne j i with rfl | hne
      · rw [hj] at hi
        obtain rfl := Option.some.inj hi
        obtain ⟨z, hz, hR⟩ := ih hr (List.getElem?_set_self (List.getElem?_eq_some_iff.mp hj).1)
        exact ⟨z, hz, htrans _ _ _ (hact _ _ _ _ _ h hj hy) hR⟩
      · have hi' : (u.procs.set j y')[i]? = some x := by rwa [List.getElem?_set_ne hne]
        exact ih hr hi'

/-- The rule for a log that the processes share: what each of them has written there, if the entries
say whose they are. -/
theorem log_of_procs {E β : Type*} (log : σ → List E) (owner : E → ℕ) (val : E → β) (f : P → List β)
    (hinit : ∀ store, Y.init store → log store = []) (henter : ∀ x, Y.enter x → f x = [])
    (hact : ∀ s i x store x', Y.lts.Reachable s → s.procs[i]? = some x →
      Y.act i s.store x store x' → log store = log s.store ∧ f x' = f x ∨
        ∃ e, owner e = i ∧ log store = log s.store ++ [e] ∧ f x' = f x ++ [val e])
    {s : Pool σ P} (h : Y.lts.Reachable s) :
    (∀ e ∈ log s.store, owner e < s.procs.length) ∧
      ∀ i x, s.procs[i]? = some x →
        ((log s.store).filter fun e => decide (owner e = i)).map val = f x := by
  refine h.invariant (I := fun s => (∀ e ∈ log s.store, owner e < s.procs.length) ∧
    ∀ i x, s.procs[i]? = some x →
      ((log s.store).filter fun e => decide (owner e = i)).map val = f x) ?_ ?_
  · rintro s ⟨hs, hnone⟩
    rw [hinit _ hs, hnone]
    exact ⟨by simp, by simp⟩
  · rintro s l s' hr ⟨howner, hwritten⟩ hs
    cases hs with
    | @enter x hx =>
      refine ⟨fun e he => ?_, fun j y hj => ?_⟩
      · rw [List.length_append]
        exact Nat.lt_add_right _ (howner e he)
      · rcases Pool.of_getElem?_concat hj with hj | ⟨rfl, rfl⟩
        · exact hwritten j y hj
        · -- nobody has written in its name before
          rw [henter y hx, List.map_eq_nil_iff, List.filter_eq_nil_iff]
          intro e he
          rw [decide_eq_true_eq]
          exact Nat.ne_of_lt (howner e he)
    | @act i x x' store hi hx =>
      have hlt := (List.getElem?_eq_some_iff.mp hi).1
      rcases hact s i x store x' hr hi hx with ⟨hlog, hf⟩ | ⟨e, rfl, hlog, hf⟩
      · rw [hlog, List.length_set]
        refine ⟨howner, fun j y hj => ?_⟩
        rcases Pool.of_getElem?_set hj with ⟨rfl, rfl⟩ | ⟨-, hj⟩
        · rw [hf, hwritten j x hi]
        · exact hwritten j y hj
      · rw [hlog, List.length_set]
        refine ⟨Pool.forall_concat howner hlt, fun j y hj => ?_⟩
        rw [List.filter_append, List.map_append]
        rcases Pool.of_getElem?_set hj with ⟨rfl, rfl⟩ | ⟨hne, hj⟩
        · rw [hf, hwritten _ x hi]
          simp
        · rw [hwritten j y hj]
          simp [Ne.symm hne]

end System

end Transition
