import Mathlib.Algebra.BigOperators.Group.Finset.Basic
import Mathlib.Algebra.Order.BigOperators.Group.Finset
import Mathlib.Data.Fintype.BigOperators
import Mathlib.Logic.Function.Basic
import ValidationSuite.Library.Transition

/-!
# Threads with barriers

A grid of threads that share a memory. The threads of a block meet at barriers; apart from these
they run in any order, operation by operation. Where in each round between two barriers no thread
touches what another one writes, a run does what the threads do when each of them runs a round on
its own, and comes to an end.
-/

namespace Simt

open Transition

/-! ### Programs -/

section Programs

variable {Op : Type} {Res : Op → Type} {M α β : Type}

/-- What a thread still has to do: operations on the memory, whose results it may use, and
barriers. -/
inductive Prog (Op : Type) (Res : Op → Type) (α : Type) where
  | pure (a : α)
  | op (o : Op) (k : Res o → Prog Op Res α)
  | sync (k : Prog Op Res α)

namespace Prog

def bind : Prog Op Res α → (α → Prog Op Res β) → Prog Op Res β
  | .pure a, f => f a
  | .op o k, f => .op o fun r => (k r).bind f
  | .sync k, f => .sync (k.bind f)

instance : Monad (Prog Op Res) where
  pure := .pure
  bind := bind

end Prog

/-- The barrier of a block. -/
def syncthreads : Prog Op Res Unit := .sync (.pure ())

/-- `body i a`, `body (i + 1)` of its result, and so on, `n` times. -/
def loop (body : ℕ → α → Prog Op Res α) (i : ℕ) : ℕ → α → Prog Op Res α
  | 0, a => pure a
  | n + 1, a => do
    let a ← body i a
    loop body (i + 1) n a

/-! ### One thread on its own -/

/-- How far a thread gets on its own: up to its end or the next barrier. -/
structure Round (Op : Type) (Res : Op → Type) (M α : Type) where
  log : List Op
  mem : M
  next : α ⊕ Prog Op Res α

/-- The round with these operations before it. -/
def Round.after (r : Round Op Res M α) (log : List Op) : Round Op Res M α :=
  ⟨log ++ r.log, r.mem, r.next⟩

@[simp] lemma Round.log_after (r : Round Op Res M α) (log : List Op) :
    (r.after log).log = log ++ r.log := rfl

@[simp] lemma Round.after_mk (log log' : List Op) (m : M) (next : α ⊕ Prog Op Res α) :
    (⟨log', m, next⟩ : Round Op Res M α).after log = ⟨log ++ log', m, next⟩ := rfl

@[simp] lemma Round.after_after (r : Round Op Res M α) (log log' : List Op) :
    (r.after log).after log' = r.after (log' ++ log) := by
  rw [after, after, after, List.append_assoc]

variable (exec : (o : Op) → M → Res o × M)

namespace Prog

def solo : Prog Op Res α → M → Round Op Res M α
  | .pure a, m => ⟨[], m, .inl a⟩
  | .sync k, m => ⟨[], m, .inr k⟩
  | .op o k, m => ((k (exec o m).1).solo (exec o m).2).after [o]

@[simp] lemma solo_pure (a : α) (m : M) :
    (Pure.pure a : Prog Op Res α).solo exec m = ⟨[], m, .inl a⟩ := rfl

@[simp] lemma solo_sync (k : Prog Op Res α) (m : M) :
    (Prog.sync k).solo exec m = ⟨[], m, .inr k⟩ := rfl

lemma solo_op (o : Op) (k : Res o → Prog Op Res α) (m : M) :
    (Prog.op o k).solo exec m = ((k (exec o m).1).solo exec (exec o m).2).after [o] := rfl

@[simp] lemma pure_bind (a : α) (f : α → Prog Op Res β) :
    ((Prog.pure a : Prog Op Res α) >>= f) = f a := rfl

lemma sync_bind (k : Prog Op Res α) (f : α → Prog Op Res β) :
    (Prog.sync k >>= f) = .sync (k >>= f) := rfl

lemma op_bind (o : Op) (k : Res o → Prog Op Res α) (f : α → Prog Op Res β) :
    (Prog.op o k >>= f) = .op o fun r => k r >>= f := rfl

end Prog

/-- What comes of a round with more to do after it: a thread that came to its end goes on, and one
at a barrier has the rest before it. -/
def Round.andThen (r : Round Op Res M α) (f : α → Prog Op Res β) : Round Op Res M β :=
  match r.next with
  | .inl a => ((f a).solo exec r.mem).after r.log
  | .inr k => ⟨r.log, r.mem, .inr (k >>= f)⟩

@[simp] lemma Round.andThen_inl (log : List Op) (m : M) (a : α) (f : α → Prog Op Res β) :
    Round.andThen exec ⟨log, m, .inl a⟩ f = ((f a).solo exec m).after log := rfl

@[simp] lemma Round.andThen_inr (log : List Op) (m : M) (k : Prog Op Res α)
    (f : α → Prog Op Res β) : Round.andThen exec ⟨log, m, .inr k⟩ f = ⟨log, m, .inr (k >>= f)⟩ := rfl

lemma Round.andThen_after (r : Round Op Res M α) (log : List Op) (f : α → Prog Op Res β) :
    (r.after log).andThen exec f = (r.andThen exec f).after log := by
  obtain ⟨log', m, a | k⟩ := r
  · exact (Round.after_after _ _ _).symm
  · rfl

namespace Prog

@[simp] lemma solo_bind (p : Prog Op Res α) (f : α → Prog Op Res β) (m : M) :
    (p >>= f).solo exec m = (p.solo exec m).andThen exec f := by
  induction p generalizing m with
  | pure a => rfl
  | op o k ih => rw [op_bind, solo_op, ih, solo_op, Round.andThen_after]
  | sync k => rfl

/-- A loop without a barrier whose steps keep what they depend on. -/
lemma solo_loop_of_inv {body : ℕ → α → Prog Op Res α} {f : ℕ → α → α} {log : ℕ → List Op}
    {Q : M → Prop} (h : ∀ i a m, Q m →
      ∃ m', Q m' ∧ (body i a).solo exec m = ⟨log i, m', .inl (f i a)⟩) (i n : ℕ) (a : α) {m : M}
    (hm : Q m) :
    ∃ m', Q m' ∧ (loop body i n a).solo exec m =
      ⟨(List.range' i n).flatMap log, m', .inl ((List.range' i n).foldl (fun a j => f j a) a)⟩ := by
  induction n generalizing i a m with
  | zero => exact ⟨m, hm, rfl⟩
  | succ n ih =>
    obtain ⟨m₁, hm₁, hbody⟩ := h i a m hm
    obtain ⟨m₂, hm₂, hrest⟩ := ih (i + 1) (f i a) hm₁
    refine ⟨m₂, hm₂, ?_⟩
    rw [loop, solo_bind, hbody, Round.andThen_inl, hrest]
    rfl

/-- A loop without a barrier that carries nothing on from step to step. -/
lemma solo_loop_unit {body : ℕ → Prog Op Res Unit} {log : ℕ → List Op} {Q : M → Prop}
    (h : ∀ i m, Q m → ∃ m', Q m' ∧ (body i).solo exec m = ⟨log i, m', .inl ()⟩) (i n : ℕ) {m : M}
    (hm : Q m) :
    ∃ m', Q m' ∧ (loop (fun i _ => body i) i n ()).solo exec m =
      ⟨(List.range' i n).flatMap log, m', .inl ()⟩ :=
  solo_loop_of_inv exec (f := fun _ _ => ()) (fun i _ m => h i m) i n () hm

/-- A loop that leaves the memory alone and has no barrier. -/
lemma solo_loop {body : ℕ → α → Prog Op Res α} {f : ℕ → α → α} {log : ℕ → List Op} {m : M}
    (h : ∀ i a, (body i a).solo exec m = ⟨log i, m, .inl (f i a)⟩) (i n : ℕ) (a : α) :
    (loop body i n a).solo exec m =
      ⟨(List.range' i n).flatMap log, m, .inl ((List.range' i n).foldl (fun a j => f j a) a)⟩ := by
  have hinv : ∀ i a m', m' = m →
      ∃ m'', m'' = m ∧ (body i a).solo exec m' = ⟨log i, m'', .inl (f i a)⟩ := by
    rintro i a m' rfl
    exact ⟨m', rfl, h i a⟩
  obtain ⟨m', rfl, hloop⟩ := solo_loop_of_inv exec (Q := (· = m)) hinv i n a rfl
  exact hloop

/-- The memory is what the operations have made of it. -/
lemma mem_solo (p : Prog Op Res α) (m : M) :
    (p.solo exec m).mem = (p.solo exec m).log.foldl (fun m o => (exec o m).2) m := by
  induction p generalizing m with
  | pure a => rfl
  | sync k => rfl
  | op o k ih => exact ih _ _

/-- Whatever the operations return, all of them are `A`. -/
inductive All (A : Op → Prop) : Prog Op Res α → Prop where
  | pure (a : α) : All A (.pure a)
  | op {o : Op} {k : Res o → Prog Op Res α} (ho : A o) (hk : ∀ r, All A (k r)) : All A (.op o k)
  | sync {k : Prog Op Res α} (hk : All A k) : All A (.sync k)

lemma All.bind {A : Op → Prop} {p : Prog Op Res α} {f : α → Prog Op Res β} (hp : p.All A)
    (hf : ∀ a, (f a).All A) : (p >>= f).All A := by
  induction hp with
  | pure a => exact hf a
  | op ho hk ih => exact .op ho ih
  | sync hk ih => exact .sync ih

lemma all_loop {A : Op → Prop} {body : ℕ → α → Prog Op Res α} {i n : ℕ}
    (h : ∀ j, i ≤ j → j < i + n → ∀ a, (body j a).All A) (a : α) : (loop body i n a).All A := by
  induction n generalizing i a with
  | zero => exact .pure a
  | succ n ih =>
    refine (h i le_rfl (by omega) a).bind fun a => ?_
    exact ih (fun j hj hlt => h j (by omega) (by omega)) a

end Prog

lemma all_syncthreads {A : Op → Prop} : (syncthreads : Prog Op Res Unit).All A :=
  .sync (.pure ())

end Programs

/-! ### Loads and stores -/

section Access

variable {L : Type} {V : L → Type}

inductive Access (L : Type) (V : L → Type) where
  | load (l : L)
  | store (l : L) (v : V l)

/-- What an access returns. -/
def Access.Res : Access L V → Type
  | .load l => V l
  | .store _ _ => Unit

def Access.exec [DecidableEq L] : (o : Access L V) → (∀ l, V l) → o.Res × ∀ l, V l
  | .load l, m => (m l, m)
  | .store l v, m => ((), Function.update m l v)

def load (l : L) : Prog (Access L V) Access.Res (V l) := .op (.load l) .pure

def store (l : L) (v : V l) : Prog (Access L V) Access.Res Unit :=
  .op (.store l v) .pure

variable [DecidableEq L]

@[simp] lemma solo_load (l : L) (m : ∀ l, V l) :
    (load l : Prog (Access L V) Access.Res (V l)).solo Access.exec m = ⟨[.load l], m, .inl (m l)⟩ :=
  rfl

@[simp] lemma solo_store (l : L) (v : V l) (m : ∀ l, V l) :
    (store l v : Prog (Access L V) Access.Res Unit).solo Access.exec m =
      ⟨[.store l v], Function.update m l v, .inl ()⟩ :=
  rfl

/-- Is it a store to `l`? -/
def Access.storesTo (l : L) : Access L V → Bool
  | .load _ => false
  | .store l' _ => l' = l

/-- A place that is not stored to is as it was. -/
lemma foldl_exec_of_notMem {log : List (Access L V)} {l : L} (h : ∀ v, .store l v ∉ log)
    (m : ∀ l, V l) : log.foldl (fun m o => (o.exec m).2) m l = m l := by
  induction log generalizing m with
  | nil => rfl
  | cons o log ih =>
    rw [List.foldl_cons, ih fun v hv => h v (List.mem_cons_of_mem o hv)]
    cases o with
    | load l' => rfl
    | store l' v =>
      have hne : l ≠ l' := by
        rintro rfl
        exact h v List.mem_cons_self
      simp [Access.exec, hne]

/-- A place has the only value that is stored to it. -/
lemma foldl_exec_of_mem {log : List (Access L V)} {l : L} {v : V l} (h : .store l v ∈ log)
    (hv : ∀ w, .store l w ∈ log → w = v) (m : ∀ l, V l) :
    log.foldl (fun m o => (o.exec m).2) m l = v := by
  induction log generalizing m with
  | nil => exact absurd h List.not_mem_nil
  | cons o log ih =>
    rw [List.foldl_cons]
    by_cases hlog : ∃ w, .store l w ∈ log
    · obtain ⟨w, hw⟩ := hlog
      obtain rfl := hv w (List.mem_cons_of_mem o hw)
      exact ih hw (fun w hw => hv w (List.mem_cons_of_mem o hw)) _
    · push Not at hlog
      rw [foldl_exec_of_notMem hlog]
      obtain rfl | h := List.mem_cons.mp h
      · simp [Access.exec]
      · exact absurd h (hlog v)

end Access

/-! ### Threads and their memory -/

section Grid

variable {T B L Op : Type} {Res : Op → Type} {V : L → Type}

/-- What each thread has done and how many barriers each block has passed are a history. -/
structure State (T B Op : Type) (Res : Op → Type) (M : Type) where
  mem : M
  progs : T → Prog Op Res Unit
  log : T → List Op := fun _ => []
  passed : B → ℕ := fun _ => 0

variable (exec : (o : Op) → (∀ l, V l) → Res o × ∀ l, V l) (block : T → B)

/-- An operation that depends on nothing but `R` and `W` and changes nothing but `W`. -/
def Confined (R W : Set L) (o : Op) : Prop :=
  ∀ m m' : ∀ l, V l, (∀ l ∈ R ∪ W, m l = m' l) →
    (exec o m).1 = (exec o m').1 ∧ (∀ l ∈ W, (exec o m).2 l = (exec o m').2 l) ∧
      ∀ l ∉ W, (exec o m).2 l = m l

lemma confined_load [DecidableEq L] {R W : Set L} {l : L} (h : l ∈ R ∪ W) :
    Confined (Access.exec (L := L) (V := V)) R W (.load l) :=
  fun _ _ hm => ⟨hm l h, fun _ hw => hm _ (.inr hw), fun _ _ => rfl⟩

lemma confined_store [DecidableEq L] {R W : Set L} {l : L} (v : V l) (h : l ∈ W) :
    Confined Access.exec R W (.store l v) := by
  refine fun m m' hm => ⟨rfl, fun u hu => ?_, fun u hu => ?_⟩
  · by_cases hul : u = l
    · subst hul
      simp [Access.exec]
    · simp [Access.exec, hul, hm u (.inr hu)]
  · have hul : u ≠ l := fun heq => hu (heq ▸ h)
    simp [Access.exec, hul]

/-- The programs of the threads and the memory of the blocks when each of their rounds begins, the
places a thread may write in a round, and those that matter to a block. -/
structure Plan (T B Op : Type) (Res : Op → Type) (V : L → Type) where
  prog : T → ℕ → Prog Op Res Unit
  view : B → ℕ → ∀ l, V l
  writes : T → ℕ → Set L
  foot : B → Set L

namespace Plan

variable (P : Plan T B Op Res V)

/-- The places that no thread of the block writes in the round. -/
def reads (b : B) (e : ℕ) : Set L := {l | l ∈ P.foot b ∧ ∀ t, block t = b → l ∉ P.writes t e}

def round (t : T) (e : ℕ) : Round Op Res (∀ l, V l) Unit :=
  (P.prog t e).solo exec (P.view (block t) e)

/-- What a thread does before the round. -/
def before (t : T) : ℕ → List Op
  | 0 => []
  | e + 1 => before t e ++ (P.round exec block t e).log

lemma mem_before {t : T} {e : ℕ} {o : Op} :
    o ∈ P.before exec block t e ↔ ∃ d < e, o ∈ (P.round exec block t d).log := by
  induction e with
  | zero => simp [before]
  | succ e ih =>
    rw [before, List.mem_append, ih]
    constructor
    · rintro (⟨d, hd, ho⟩ | ho)
      · exact ⟨d, hd.trans (Nat.lt_succ_self e), ho⟩
      · exact ⟨e, Nat.lt_succ_self e, ho⟩
    · rintro ⟨d, hd, ho⟩
      obtain hlt | rfl := Nat.lt_succ_iff_lt_or_eq.mp hd
      · exact .inl ⟨d, hlt, ho⟩
      · exact .inr ho

/-- A place that a round stores one value to has it when the round ends. -/
lemma mem_round_of_store [DecidableEq L]
    {P : Plan T B (Access L V) Access.Res V} {t : T} {e : ℕ} {l : L} {v : V l}
    (h : .store l v ∈ (P.round Access.exec block t e).log)
    (hv : ∀ w, .store l w ∈ (P.round Access.exec block t e).log → w = v) :
    (P.round Access.exec block t e).mem l = v := by
  rw [round, Prog.mem_solo]
  exact foldl_exec_of_mem h hv _

/-- The threads run, round by round, as the plan says, and in no round does one of them touch what
another one writes. -/
structure Sound (rounds : ℕ) (mem : ∀ l, V l) (progs : T → Prog Op Res Unit) : Prop where
  prog_zero : ∀ t, P.prog t 0 = progs t
  view_zero : ∀ b, ∀ l ∈ P.foot b, P.view b 0 l = mem l
  next : ∀ t, ∀ e < rounds, (P.round exec block t e).next = .inr (P.prog t (e + 1))
  last : ∀ t, (P.round exec block t rounds).next = .inl ()
  confined : ∀ t, ∀ e ≤ rounds, ∀ o ∈ (P.round exec block t e).log,
    Confined exec (P.reads block (block t) e) (P.writes t e) o
  written : ∀ t, ∀ e ≤ rounds, ∀ l ∈ P.writes t e,
    P.view (block t) (e + 1) l = (P.round exec block t e).mem l
  kept : ∀ b, ∀ e ≤ rounds, ∀ l ∈ P.reads block b e, P.view b (e + 1) l = P.view b e l
  within : ∀ t e, P.writes t e ⊆ P.foot (block t)
  alone : ∀ t t' e, block t = block t' → t ≠ t' → ∀ l ∈ P.writes t e, l ∉ P.writes t' e
  apart : ∀ t e b, block t ≠ b → ∀ l ∈ P.writes t e, l ∉ P.foot b

/-- The thread is on its way through the round `e`: what it has left to do, on a memory `v` of its
own that agrees with the actual one where the thread may touch it, completes the round. -/
structure OnWay (s : State T B Op Res (∀ l, V l)) (t : T) (e : ℕ) (v : ∀ l, V l)
    (done : List Op) : Prop where
  round : P.round exec block t e = ((s.progs t).solo exec v).after done
  log : s.log t = P.before exec block t e ++ done
  writes : ∀ l ∈ P.writes t e, s.mem l = v l
  reads : ∀ l ∈ P.reads block (block t) e, v l = P.view (block t) e l

/-- The invariant: every thread is on its way through the round of its block, what nobody writes in
this round is as it was when it began, and nothing else has changed at all. -/
structure Follows (rounds : ℕ) (mem : ∀ l, V l) (s : State T B Op Res (∀ l, V l)) : Prop where
  passed : ∀ b, s.passed b ≤ rounds
  onWay : ∀ t, ∃ v done, P.OnWay exec block s t (s.passed (block t)) v done
  quiet : ∀ b, ∀ l ∈ P.reads block b (s.passed b), s.mem l = P.view b (s.passed b) l
  outside : ∀ l, (∀ b, l ∉ P.foot b) → s.mem l = mem l

variable {exec block} {P} {rounds : ℕ} {mem : ∀ l, V l} {progs : T → Prog Op Res Unit}
  {s : State T B Op Res (∀ l, V l)}

lemma Sound.follows_start (hP : P.Sound exec block rounds mem progs) :
    P.Follows exec block rounds mem { mem := mem, progs := progs } where
  passed _ := Nat.zero_le _
  onWay t := by
    refine ⟨P.view (block t) 0, [], ⟨?_, rfl, fun l hl => ?_, fun l _ => rfl⟩⟩
    · rw [round, hP.prog_zero]
      rfl
    · exact (hP.view_zero _ l (hP.within t 0 hl)).symm
  quiet b l hl := (hP.view_zero b l hl.1).symm
  outside _ _ := rfl

/-- What a thread may write is none of what another one may touch. -/
lemma Sound.notMem_writes_of_ne (hP : P.Sound exec block rounds mem progs) {t u : T}
    (hu : u ≠ t) {l : L} (hl : l ∈ P.writes u (s.passed (block u))) :
    l ∉ P.writes t (s.passed (block t)) := by
  by_cases hb : block t = block u
  · intro hw
    rw [hb] at hw
    exact hP.alone t u _ hb (Ne.symm hu) l hw hl
  · exact fun hw => hP.apart t _ _ hb l hw (hP.within u _ hl)

lemma Sound.notMem_writes_of_reads (hP : P.Sound exec block rounds mem progs) (t : T) {b : B}
    {l : L} (hl : l ∈ P.reads block b (s.passed b)) :
    l ∉ P.writes t (s.passed (block t)) := by
  by_cases hb : block t = b
  · subst hb
    exact hl.2 t rfl
  · exact fun hw => hP.apart t _ b hb l hw hl.1

/-- A thread that has come to its end is in the last round, and one at a barrier is not. -/
lemma Sound.passed_eq_of_done (hP : P.Sound exec block rounds mem progs)
    (h : P.Follows exec block rounds mem s) {t : T} (ht : s.progs t = .pure ()) :
    s.passed (block t) = rounds := by
  obtain ⟨v, done, hv⟩ := h.onWay t
  have hround := hv.round
  rw [ht] at hround
  by_contra hne
  have hnext := hP.next t _ (lt_of_le_of_ne (h.passed _) hne)
  rw [hround] at hnext
  cases hnext

lemma Sound.passed_lt_of_sync (hP : P.Sound exec block rounds mem progs)
    (h : P.Follows exec block rounds mem s) {t : T} {k : Prog Op Res Unit}
    (ht : s.progs t = .sync k) : s.passed (block t) < rounds := by
  obtain ⟨v, done, hv⟩ := h.onWay t
  have hround := hv.round
  rw [ht] at hround
  refine lt_of_le_of_ne (h.passed _) fun heq => ?_
  have hlast := hP.last t
  rw [← heq, hround] at hlast
  cases hlast

/-- A thread at a barrier has done its round, and is left with the next. -/
lemma Sound.next_of_sync (hP : P.Sound exec block rounds mem progs)
    (h : P.Follows exec block rounds mem s) {t : T} {k : Prog Op Res Unit}
    (ht : s.progs t = .sync k) :
    s.passed (block t) < rounds ∧ k = P.prog t (s.passed (block t) + 1) ∧
      s.log t = P.before exec block t (s.passed (block t) + 1) := by
  obtain ⟨v, done, hv⟩ := h.onWay t
  have hround := hv.round
  rw [ht, Prog.solo_sync] at hround
  have hlt := hP.passed_lt_of_sync h ht
  have hnext := hP.next t _ hlt
  rw [hround] at hnext
  refine ⟨hlt, Sum.inr.inj hnext, ?_⟩
  rw [before, hround, hv.log]
  simp

/-- When all threads of a block have come to the end of a round, the memory of the block is the one
at the beginning of the next. -/
lemma Sound.mem_of_ends (hP : P.Sound exec block rounds mem progs)
    (h : P.Follows exec block rounds mem s) {b : B}
    (hends : ∀ t, block t = b → ∃ next, ∀ m, (s.progs t).solo exec m = ⟨[], m, next⟩) {l : L}
    (hl : l ∈ P.foot b) : s.mem l = P.view b (s.passed b + 1) l := by
  by_cases hread : l ∈ P.reads block b (s.passed b)
  · rw [h.quiet b l hread, hP.kept b _ (h.passed b) l hread]
  · obtain ⟨t, rfl, hw⟩ : ∃ t, block t = b ∧ l ∈ P.writes t (s.passed b) := by
      by_contra hnone
      push Not at hnone
      exact hread ⟨hl, hnone⟩
    obtain ⟨v, done, hv⟩ := h.onWay t
    obtain ⟨next, hnext⟩ := hends t rfl
    rw [hv.writes l hw, hP.written t _ (h.passed _) l hw, hv.round, hnext]
    rfl

end Plan

/-! ### The grid -/

inductive Label (T B : Type) where
  | op (t : T)
  | sync (b : B)

/-- What is left to do after a barrier. -/
def Prog.afterSync : Prog Op Res Unit → Prog Op Res Unit
  | .sync k => k
  | .pure a => .pure a
  | .op o k => .op o k

variable [DecidableEq T] [DecidableEq B]

/-- The thread `t` performs the operation `o`. -/
def State.perform (s : State T B Op Res (∀ l, V l)) (t : T) (o : Op)
    (k : Res o → Prog Op Res Unit) : State T B Op Res (∀ l, V l) :=
  { s with
    mem := (exec o s.mem).2
    progs := Function.update s.progs t (k (exec o s.mem).1)
    log := Function.update s.log t (s.log t ++ [o]) }

/-- The block `b` passes a barrier. -/
def State.pass (s : State T B Op Res (∀ l, V l)) (b : B) : State T B Op Res (∀ l, V l) :=
  { s with
    progs := fun t => if block t = b then (s.progs t).afterSync else s.progs t
    passed := Function.update s.passed b (s.passed b + 1) }

/-- A thread performs an operation, or a block whose threads have all come to a barrier passes it. -/
inductive Step : State T B Op Res (∀ l, V l) → Label T B → State T B Op Res (∀ l, V l) → Prop
  | op {s : State T B Op Res (∀ l, V l)} {t : T} {o : Op} {k : Res o → Prog Op Res Unit}
      (h : s.progs t = .op o k) : Step s (.op t) (s.perform exec t o k)
  | sync {s : State T B Op Res (∀ l, V l)} {b : B} (hblock : ∃ t, block t = b)
      (h : ∀ t, block t = b → ∃ k, s.progs t = .sync k) : Step s (.sync b) (s.pass block b)

/-- The runs of the programs `progs` on the memory `mem`. -/
def grid (mem : ∀ l, V l) (progs : T → Prog Op Res Unit) :
    LTS (State T B Op Res (∀ l, V l)) (Label T B) where
  init s := s = { mem := mem, progs := progs }
  step := Step exec block

lemma Prog.All.afterSync {A : Op → Prop} {p : Prog Op Res Unit} (h : p.All A) :
    p.afterSync.All A := by
  cases h with
  | pure a => exact .pure a
  | op ho hk => exact .op ho hk
  | sync hk => exact hk

/-- A thread does nothing its program does not say. -/
theorem all_of_reachable {A : T → Op → Prop} {mem : ∀ l, V l} {progs : T → Prog Op Res Unit}
    {s : State T B Op Res (∀ l, V l)} (hprogs : ∀ t, (progs t).All (A t))
    (h : (grid exec block mem progs).Reachable s) : ∀ t, ∀ o ∈ s.log t, A t o := by
  have hall : ∀ t, (s.progs t).All (A t) ∧ ∀ o ∈ s.log t, A t o := by
    apply h.invariant
    · rintro s rfl t
      exact ⟨hprogs t, fun o ho => absurd ho List.not_mem_nil⟩
    · intro s l s' _ ih hs u
      obtain ⟨hprog, hlog⟩ := ih u
      cases hs with
      | @op t o k ht =>
        by_cases hu : u = t
        · subst hu
          rw [ht] at hprog
          obtain _ | ⟨ho, hk⟩ := hprog
          refine ⟨?_, fun o' ho' => ?_⟩
          · simp only [State.perform, Function.update_self]
            exact hk _
          · simp only [State.perform, Function.update_self, List.mem_append,
              List.mem_singleton] at ho'
            rcases ho' with ho' | rfl
            · exact hlog o' ho'
            · exact ho
        · simp only [State.perform, Function.update_of_ne hu]
          exact ⟨hprog, hlog⟩
      | @sync b hblock hsync =>
        refine ⟨?_, hlog⟩
        dsimp only [State.pass]
        split_ifs
        · exact hprog.afterSync
        · exact hprog
  exact fun t => (hall t).2

/-! ### Runs follow the plan -/

namespace Plan

variable {exec block} {P : Plan T B Op Res V} {rounds : ℕ} {mem : ∀ l, V l}
  {progs : T → Prog Op Res Unit} {s : State T B Op Res (∀ l, V l)}

omit [DecidableEq B] in
/-- An operation of one thread. -/
lemma Sound.follows_perform (hP : P.Sound exec block rounds mem progs)
    (h : P.Follows exec block rounds mem s) {t : T} {o : Op} {k : Res o → Prog Op Res Unit}
    (ht : s.progs t = .op o k) :
    P.Follows exec block rounds mem (s.perform exec t o k) := by
  obtain ⟨v, done, hv⟩ := h.onWay t
  have hround := hv.round
  rw [ht, Prog.solo_op, Round.after_after] at hround
  have ho : o ∈ (P.round exec block t (s.passed (block t))).log := by
    rw [hround]
    simp
  have hconfined := hP.confined t _ (h.passed _) o ho
  -- the thread's own memory agrees with the actual one wherever the operation looks
  have hagree : ∀ l ∈ P.reads block (block t) (s.passed (block t)) ∪
      P.writes t (s.passed (block t)), s.mem l = v l := by
    rintro l (hl | hl)
    · rw [h.quiet _ l hl, hv.reads l hl]
    · exact hv.writes l hl
  obtain ⟨hres, hwrite, hframe⟩ := hconfined _ _ hagree
  have hown : ∀ l ∉ P.writes t (s.passed (block t)), (exec o v).2 l = v l :=
    (hconfined v v fun _ _ => rfl).2.2
  refine ⟨h.passed, fun u => ?_, fun b l hl => ?_, fun l hl => ?_⟩
  · by_cases hu : u = t
    · subst hu
      refine ⟨(exec o v).2, done ++ [o], ⟨?_, ?_, hwrite, fun l hl => ?_⟩⟩
      · simp only [State.perform, Function.update_self]
        rw [hround, hres]
      · simp only [State.perform, Function.update_self]
        rw [hv.log, List.append_assoc]
      · exact (hown l (hP.notMem_writes_of_reads u hl)).trans (hv.reads l hl)
    · obtain ⟨v', done', hv'⟩ := h.onWay u
      refine ⟨v', done', ⟨?_, ?_, fun l hl => ?_, hv'.reads⟩⟩
      · simp only [State.perform, Function.update_of_ne hu]
        exact hv'.round
      · simp only [State.perform, Function.update_of_ne hu]
        exact hv'.log
      · exact (hframe l (hP.notMem_writes_of_ne hu hl)).trans (hv'.writes l hl)
  · exact (hframe l (hP.notMem_writes_of_reads t hl)).trans (h.quiet b l hl)
  · exact (hframe l fun hw => hl _ (hP.within t _ hw)).trans (h.outside l hl)

omit [DecidableEq T] in
/-- A block that passes a barrier. -/
lemma Sound.follows_pass (hP : P.Sound exec block rounds mem progs)
    (h : P.Follows exec block rounds mem s) {b : B} (hblock : ∃ t, block t = b)
    (hsync : ∀ t, block t = b → ∃ k, s.progs t = .sync k) :
    P.Follows exec block rounds mem (s.pass block b) := by
  have hmem : ∀ l ∈ P.foot b, s.mem l = P.view b (s.passed b + 1) l := fun l hl => by
    refine hP.mem_of_ends h (fun t ht => ?_) hl
    obtain ⟨k, hk⟩ := hsync t ht
    rw [hk]
    exact ⟨.inr k, fun m => rfl⟩
  have hthread : ∀ t, block t = b → s.passed b < rounds ∧
      (s.progs t).afterSync = P.prog t (s.passed b + 1) ∧
      s.log t = P.before exec block t (s.passed b + 1) := by
    rintro t rfl
    obtain ⟨k, hk⟩ := hsync t rfl
    rw [hk]
    exact hP.next_of_sync h hk
  obtain ⟨t₀, ht₀⟩ := hblock
  refine ⟨fun c => ?_, fun t => ?_, fun c l hl => ?_, h.outside⟩
  · by_cases hc : c = b
    · subst hc
      simp only [State.pass, Function.update_self]
      exact Nat.succ_le_of_lt (hthread t₀ ht₀).1
    · simpa [State.pass, hc] using h.passed c
  · by_cases ht : block t = b
    · subst ht
      obtain ⟨-, hprog, hlog⟩ := hthread t rfl
      refine ⟨P.view (block t) (s.passed (block t) + 1), [], ?_⟩
      simp only [State.pass, Function.update_self]
      refine ⟨?_, ?_, fun l hl => hmem l (hP.within t _ hl), fun l _ => rfl⟩
      · dsimp only
        rw [if_pos rfl, hprog, round]
        rfl
      · rw [hlog, List.append_nil]
    · obtain ⟨v, done, hv⟩ := h.onWay t
      refine ⟨v, done, ?_⟩
      simp only [State.pass, Function.update_of_ne ht]
      refine ⟨?_, hv.log, hv.writes, hv.reads⟩
      dsimp only
      rw [if_neg ht]
      exact hv.round
  · by_cases hc : c = b
    · subst hc
      simp only [State.pass, Function.update_self] at hl ⊢
      exact hmem l hl.1
    · simp only [State.pass, Function.update_of_ne hc] at hl ⊢
      exact h.quiet c l hl

theorem Sound.follows (hP : P.Sound exec block rounds mem progs)
    (h : (grid exec block mem progs).Reachable s) : P.Follows exec block rounds mem s := by
  apply h.invariant
  · rintro s rfl
    exact hP.follows_start
  · intro s l s' _ ih hs
    cases hs with
    | op ht => exact hP.follows_perform ih ht
    | sync hblock hsync => exact hP.follows_pass ih hblock hsync

/-! ### What comes of a run -/

/-- Whatever the threads do, and in whatever order, each does what the plan says, as far as it has
got. -/
theorem Sound.log_prefix (hP : P.Sound exec block rounds mem progs)
    (h : (grid exec block mem progs).Reachable s) (t : T) :
    s.log t <+: P.before exec block t (rounds + 1) := by
  have hf := hP.follows h
  obtain ⟨v, done, hv⟩ := hf.onWay t
  have hmono : ∀ e d, P.before exec block t e <+: P.before exec block t (e + d) := by
    intro e d
    induction d with
    | zero => exact List.prefix_rfl
    | succ d ih => exact ih.trans (List.prefix_append _ _)
  have hround : s.log t <+: P.before exec block t (s.passed (block t) + 1) := by
    rw [hv.log, before, hv.round, Round.log_after, ← List.append_assoc]
    exact List.prefix_append _ _
  obtain ⟨d, hd⟩ := Nat.exists_eq_add_of_le (hf.passed (block t))
  apply hround.trans
  rw [hd, Nat.add_right_comm]
  exact hmono _ d

/-- What a thread has done it has done in a round it has come to. -/
lemma Sound.mem_round_of_mem_log (hP : P.Sound exec block rounds mem progs)
    (h : (grid exec block mem progs).Reachable s) {t : T} {o : Op} (ho : o ∈ s.log t) :
    ∃ e ≤ s.passed (block t), o ∈ (P.round exec block t e).log := by
  obtain ⟨v, done, hv⟩ := (hP.follows h).onWay t
  rw [hv.log, List.mem_append] at ho
  obtain ho | ho := ho
  · obtain ⟨e, he, ho⟩ := (mem_before exec block P).mp ho
    exact ⟨e, he.le, ho⟩
  · refine ⟨_, le_rfl, ?_⟩
    rw [hv.round, Round.log_after]
    exact List.mem_append_left _ ho

/-- What a thread is about to do belongs to the round of its block. -/
lemma Sound.mem_round_of_op (hP : P.Sound exec block rounds mem progs)
    (h : (grid exec block mem progs).Reachable s) {t : T} {o : Op} {k : Res o → Prog Op Res Unit}
    (ht : s.progs t = .op o k) : o ∈ (P.round exec block t (s.passed (block t))).log := by
  obtain ⟨v, done, hv⟩ := (hP.follows h).onWay t
  rw [hv.round, ht, Prog.solo_op]
  simp

/-- When its block has passed a barrier, a thread has done what comes before. -/
lemma Sound.mem_log_of_passed (hP : P.Sound exec block rounds mem progs)
    (h : (grid exec block mem progs).Reachable s) {t : T} {e : ℕ} (he : e < s.passed (block t))
    {o : Op} (ho : o ∈ (P.round exec block t e).log) : o ∈ s.log t := by
  obtain ⟨v, done, hv⟩ := (hP.follows h).onWay t
  rw [hv.log]
  exact List.mem_append_left _ ((mem_before exec block P).mpr ⟨e, he, ho⟩)

/-- When all threads have come to their end, each has done what the plan says, and the memory is as
the plan says. -/
theorem Sound.of_done (hP : P.Sound exec block rounds mem progs)
    (h : (grid exec block mem progs).Reachable s) (hdone : ∀ t, s.progs t = .pure ()) :
    (∀ t, s.log t = P.before exec block t (rounds + 1)) ∧
      (∀ t, ∀ l ∈ P.foot (block t), s.mem l = P.view (block t) (rounds + 1) l) ∧
      ∀ l, (∀ b, l ∉ P.foot b) → s.mem l = mem l := by
  have hf := hP.follows h
  have hlast : ∀ t, s.passed (block t) = rounds ∧ s.log t = P.before exec block t (rounds + 1) := by
    intro t
    obtain ⟨v, done, hv⟩ := hf.onWay t
    have hround := hv.round
    rw [hdone t] at hround
    have hpassed := hP.passed_eq_of_done hf (hdone t)
    refine ⟨hpassed, ?_⟩
    rw [hv.log, ← hpassed, before, hround]
    simp [Round.after, Prog.solo]
  refine ⟨fun t => (hlast t).2, fun t l hl => ?_, hf.outside⟩
  rw [hP.mem_of_ends hf (fun u _ => ?_) hl, (hlast t).1]
  rw [hdone u]
  exact ⟨.inl (), fun m => rfl⟩

/-- As long as a thread has not come to its end, there is a step to take. -/
theorem Sound.progress (hP : P.Sound exec block rounds mem progs)
    (h : (grid exec block mem progs).Reachable s) (hundone : ∃ t, s.progs t ≠ .pure ()) :
    ∃ l s', (grid exec block mem progs).step s l s' := by
  have hf := hP.follows h
  by_cases hop : ∃ t o k, s.progs t = .op o k
  · obtain ⟨t, o, k, ht⟩ := hop
    exact ⟨_, _, .op ht⟩
  · push Not at hop
    obtain ⟨t, ht⟩ := hundone
    have hsync : ∀ u, s.progs u ≠ .pure () → ∃ k, s.progs u = .sync k := by
      intro u hu
      cases hprog : s.progs u with
      | pure a => exact absurd hprog hu
      | op o k => exact absurd hprog (hop u o k)
      | sync k => exact ⟨k, rfl⟩
    obtain ⟨k, hk⟩ := hsync t ht
    -- all threads of its block are at the barrier: none has come to its end before
    refine ⟨_, _, .sync ⟨t, rfl⟩ fun u hu => hsync u fun hpure => ?_⟩
    have hlt := hP.passed_lt_of_sync hf hk
    rw [← hu, hP.passed_eq_of_done hf hpure] at hlt
    exact lt_irrefl _ hlt

/-! ### Runs are finite -/

lemma sum_update_succ {ι : Type} [Fintype ι] [DecidableEq ι] (f : ι → ℕ) (i : ι) :
    ∑ j, Function.update f i (f i + 1) j = ∑ j, f j + 1 := by
  rw [Finset.sum_update_of_mem (Finset.mem_univ i),
    Finset.sum_eq_add_sum_sdiff_singleton_of_mem (Finset.mem_univ i) f]
  exact Nat.add_right_comm _ _ _

variable [Fintype T] [Fintype B]

/-- The number of steps that have been taken. -/
def work (s : State T B Op Res (∀ l, V l)) : ℕ := ∑ t, (s.log t).length + ∑ b, s.passed b

lemma work_step {s s' : State T B Op Res (∀ l, V l)} {l : Label T B}
    (h : Step exec block s l s') : work s' = work s + 1 := by
  cases h with
  | @op t o k ht =>
    have hlog : (fun u => ((s.perform exec t o k).log u).length) =
        Function.update (fun u => (s.log u).length) t ((s.log t).length + 1) := by
      funext u
      by_cases hu : u = t
      · subst hu
        simp [State.perform]
      · simp [State.perform, hu]
    rw [work, hlog, sum_update_succ, work]
    exact Nat.add_right_comm _ _ _
  | @sync b hblock hsync =>
    rw [work, State.pass, sum_update_succ, work, Nat.add_assoc]

/-- No run takes more steps than the plan has operations and barriers. -/
theorem Sound.length_le (hP : P.Sound exec block rounds mem progs) {ls : List (Label T B)}
    (h : (grid exec block mem progs).Path { mem := mem, progs := progs } ls s) :
    ls.length ≤ ∑ t, (P.before exec block t (rounds + 1)).length + Fintype.card B * rounds := by
  have hwork : ∀ {u u' : State T B Op Res (∀ l, V l)} {ls : List (Label T B)},
      (grid exec block mem progs).Path u ls u' → work u' = work u + ls.length := by
    intro u u' ls hp
    induction hp with
    | nil => rfl
    | cons hs _ ih =>
      rw [ih, work_step hs, List.length_cons]
      omega
  have hreach : (grid exec block mem progs).Reachable s := (LTS.Reachable.init rfl).path h
  have hf := hP.follows hreach
  have hstart : work ({ mem := mem, progs := progs } : State T B Op Res (∀ l, V l)) = 0 := by
    simp [work]
  calc ls.length = work s := by rw [hwork h, hstart, Nat.zero_add]
    _ ≤ _ := by
      refine Nat.add_le_add (Finset.sum_le_sum fun t _ => (hP.log_prefix hreach t).length_le) ?_
      exact (Finset.sum_le_card_nsmul _ _ _ fun b _ => hf.passed b).trans_eq (by simp)

theorem Sound.bounded (hP : P.Sound exec block rounds mem progs) :
    ∃ n, ∀ s₀ ls s, (grid exec block mem progs).init s₀ →
      (grid exec block mem progs).Path s₀ ls s → ls.length ≤ n := by
  refine ⟨∑ t, (P.before exec block t (rounds + 1)).length + Fintype.card B * rounds,
    fun s₀ ls s hinit hpath => ?_⟩
  obtain rfl := hinit
  exact hP.length_le hpath

end Plan

end Grid

end Simt
