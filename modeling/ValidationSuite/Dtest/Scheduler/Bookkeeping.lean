import ValidationSuite.Dtest.Scheduler.Properties
import ValidationSuite.Dtest.Scheduler.Worker

/-!
# Bookkeeping

Two invariants of every run. `Run.Ledger` says that the counter `remaining_`, the flags `done` and
`running` and the recorded attempts of a task agree with the calls, returns and finishes that have
happened. `State.Threads` ties the flags to the threads: a task is marked as running exactly while
one thread is in `exec_.run` with it.
-/

namespace Dtest

open Transition

variable {S : Scheduler} {tasks : List Task}

/-! ### The ledger -/

def Event.isCall (t : TaskId tasks) : Event S tasks → Bool
  | .call _ t' => decide (t' = t)
  | _ => false

def Event.isRet (t : TaskId tasks) : Event S tasks → Bool
  | .ret _ t' _ => decide (t' = t)
  | _ => false

def Event.isFinish (t : TaskId tasks) : Event S tasks → Bool
  | .finish t' _ => decide (t' = t)
  | _ => false

namespace Run

variable (r : Run S tasks)

/-- How often `exec_.run` has been called with the task `t`. -/
def calls (t : TaskId tasks) : ℕ := r.events.countP (Event.isCall t)

/-- How often `exec_.run` has returned for the task `t`. -/
def returns (t : TaskId tasks) : ℕ := r.events.countP (Event.isRet t)

/-- How often `finish` has been called on the task `t`. -/
def finishes (t : TaskId tasks) : ℕ := r.events.countP (Event.isFinish t)

/-- The tasks with `done = false`. -/
def undone : Finset (TaskId tasks) := Finset.univ.filter fun t => (r.st t).done = false

structure Ledger : Prop where
  remaining_eq : r.remaining = r.undone.card
  running_of_done : ∀ t, (r.st t).done = true → (r.st t).running = false
  finishes_eq : ∀ t, r.finishes t = if (r.st t).done then 1 else 0
  returns_eq : ∀ t, r.returns t = (r.st t).attempts.length
  calls_eq : ∀ t, r.calls t = (r.st t).attempts.length + if (r.st t).running then 1 else 0

variable {r}

lemma undone_congr {r' : Run S tasks} (h : ∀ t, (r'.st t).done = (r.st t).done) :
    r'.undone = r.undone := by
  simp [undone, h]

/-- The ledger is kept by what changes none of its entries. -/
lemma Ledger.congr (h : r.Ledger) {r' : Run S tasks} (hremaining : r'.remaining = r.remaining)
    (hdone : ∀ t, (r'.st t).done = (r.st t).done)
    (hrunning : ∀ t, (r'.st t).running = (r.st t).running)
    (hattempts : ∀ t, (r'.st t).attempts = (r.st t).attempts)
    (hcalls : ∀ t, r'.calls t = r.calls t) (hreturns : ∀ t, r'.returns t = r.returns t)
    (hfinishes : ∀ t, r'.finishes t = r.finishes t) : r'.Ledger where
  remaining_eq := by rw [hremaining, h.remaining_eq, undone_congr hdone]
  running_of_done t hd := by
    rw [hrunning]
    exact h.running_of_done t (hdone t ▸ hd)
  finishes_eq t := by rw [hfinishes, hdone, h.finishes_eq]
  returns_eq t := by rw [hreturns, hattempts, h.returns_eq]
  calls_eq t := by rw [hcalls, hattempts, hrunning, h.calls_eq]

/-- A running task is not done. -/
lemma Ledger.not_done (h : r.Ledger) {t : TaskId tasks} (hrun : (r.st t).running = true) :
    (r.st t).done = false := by
  by_contra hdone
  rw [h.running_of_done t (by simpa using hdone)] at hrun
  cases hrun

lemma Ledger.start (h : r.Ledger) {a : Entry S} {t : TaskId tasks}
    (hdone : (r.st t).done = false) (hrun : (r.st t).running = false) : (r.start a t).Ledger where
  remaining_eq := by
    rw [start_remaining, h.remaining_eq, undone_congr]
    intro t'
    by_cases ht : t' = t <;> simp [ht]
  running_of_done t' hd := by
    by_cases ht : t' = t
    · subst ht; simp [hdone] at hd
    · simp only [start_st, ht, if_false] at hd ⊢
      exact h.running_of_done t' hd
  finishes_eq t' := by
    have := h.finishes_eq t'
    by_cases ht : t' = t <;> simp_all [finishes, Event.isFinish]
  returns_eq t' := by
    have := h.returns_eq t'
    by_cases ht : t' = t <;> simp_all [returns, Event.isRet]
  calls_eq t' := by
    have := h.calls_eq t'
    by_cases ht : t' = t
    · subst ht; simp_all [calls, Event.isCall]
    · simp_all [calls, Event.isCall, Ne.symm ht]

lemma Ledger.storeAttempt (h : r.Ledger) {a : Entry S} {t : TaskId tasks} {res : AttemptResult}
    (hrun : (r.st t).running = true) : (r.storeAttempt a t res).Ledger where
  remaining_eq := by
    rw [storeAttempt_remaining, h.remaining_eq, undone_congr]
    intro t'
    by_cases ht : t' = t <;> simp [ht]
  running_of_done t' hd := by
    by_cases ht : t' = t
    · simp [ht]
    · simp only [storeAttempt_st, ht, if_false] at hd ⊢
      exact h.running_of_done t' hd
  finishes_eq t' := by
    have := h.finishes_eq t'
    by_cases ht : t' = t <;> simp_all [finishes, Event.isFinish]
  returns_eq t' := by
    have := h.returns_eq t'
    by_cases ht : t' = t
    · subst ht; simp_all [returns, Event.isRet]
    · simp_all [returns, Event.isRet, Ne.symm ht]
  calls_eq t' := by
    have := h.calls_eq t'
    by_cases ht : t' = t <;> simp_all [calls, Event.isCall]

lemma Ledger.finish (h : r.Ledger) {t : TaskId tasks} {f : FinalStatus} {msg : ByteString}
    (hdone : (r.st t).done = false) (hrun : (r.st t).running = false) :
    (r.finish t f msg).Ledger where
  remaining_eq := by
    have hmem : t ∈ r.undone := by simp [undone, hdone]
    have herase : (r.finish t f msg).undone = r.undone.erase t := by
      ext t'
      by_cases ht : t' = t <;> simp [undone, ht]
    rw [finish_remaining, h.remaining_eq, herase, Finset.card_erase_of_mem hmem,
      Nat.cast_sub (Finset.card_pos.mpr ⟨t, hmem⟩), Nat.cast_one]
  running_of_done t' hd := by
    by_cases ht : t' = t
    · simp [ht, hrun]
    · simp only [finish_st, ht, if_false] at hd ⊢
      exact h.running_of_done t' hd
  finishes_eq t' := by
    have := h.finishes_eq t'
    by_cases ht : t' = t
    · subst ht; simp_all [finishes, Event.isFinish]
    · simp_all [finishes, Event.isFinish, Ne.symm ht]
  returns_eq t' := by
    have := h.returns_eq t'
    by_cases ht : t' = t <;> simp_all [returns, Event.isRet]
  calls_eq t' := by
    have := h.calls_eq t'
    by_cases ht : t' = t <;> simp_all [calls, Event.isCall]

lemma Ledger.countFailure (h : r.Ledger) (t : TaskId tasks) : (r.countFailure t).Ledger := by
  apply h.congr
  · exact countFailure_remaining r t
  · intro u
    by_cases hu : u = t <;> simp [hu]
  · intro u
    by_cases hu : u = t <;> simp [hu]
  · intro u
    by_cases hu : u = t <;> simp [hu]
  · exact fun _ => rfl
  · exact fun _ => rfl
  · exact fun _ => rfl

lemma Ledger.retire (h : r.Ledger) (a : Entry S) : (r.retire a).Ledger := by
  apply h.congr
  · exact retire_remaining r a
  · exact fun _ => rfl
  · exact fun _ => rfl
  · exact fun _ => rfl
  · intro t
    simp [calls, Event.isCall]
  · intro t
    simp [returns, Event.isRet]
  · intro t
    simp [finishes, Event.isFinish]

lemma Ledger.resolveUnschedulable (h : r.Ledger) : r.resolveUnschedulable.Ledger :=
  r.resolveUnschedulable_induction h fun _ _ _ h hs => h.finish hs.1 hs.2.1

lemma Ledger.record (h : r.Ledger) {a : Entry S} {t : TaskId tasks} {res : AttemptResult}
    (hrun : (r.st t).running = true) : (r.record a t res).Ledger := by
  have hdone := h.not_done hrun
  have hstored : (r.storeAttempt a t res).Ledger := h.storeAttempt hrun
  have hrec := Recorded.of_record r a t res
  generalize r.record a t res = r' at hrec ⊢
  cases hrec with
  | passed _ => exact hstored.finish (by simp [hdone]) (by simp)
  | exhausted _ _ => exact (hstored.countFailure t).finish (by simp [hdone]) (by simp)
  | requeued _ _ => exact hstored.countFailure t
  | retired _ _ => exact (hstored.retire a).resolveUnschedulable
  | again _ _ => exact hstored

lemma Ledger.init : ({} : Run S tasks).Ledger where
  remaining_eq := by simp [undone]
  running_of_done _ _ := rfl
  finishes_eq _ := rfl
  returns_eq _ := rfl
  calls_eq _ := rfl

end Run

/-! ### The threads -/

namespace State

variable {s s' : State S tasks} {l : Label S tasks}

/-- The mutex excludes, and each running task belongs to one call. -/
structure Threads (s : State S tasks) : Prop where
  mutex : ∀ w w', s.pc w = .locked → s.pc w' = .locked → w = w'
  running_iff : ∀ t, (s.run.st t).running = true ↔ ∃ w, s.pc w = .calling t
  calling_unique : ∀ t w w', s.pc w = .calling t → s.pc w' = .calling t → w = w'

lemma threads_init : (init : State S tasks).Threads where
  mutex _ _ hw := by cases hw
  running_iff t := by
    have hrun : ((init : State S tasks).run.st t).running = false := by
      simp only [init, Run.resolveUnschedulable_st]
      split_ifs <;> rfl
    simp only [hrun, Bool.false_eq_true, false_iff, not_exists]
    intro w hw
    cases hw
  calling_unique _ _ _ hw := by cases hw

lemma Threads.mutex_step (h : s.Threads) (hs : Step s l s') {w w' : Worker S}
    (hw : s'.pc w = .locked) (hw' : s'.pc w' = .locked) : w = w' := by
  rcases hs.locked hw with hl | ⟨hfree, hl⟩
  · rcases hs.locked hw' with hl' | ⟨hfree, _⟩
    · exact h.mutex w w' hl hl'
    · exact absurd hl (hfree w)
  · rcases hs.locked hw' with hl' | ⟨_, hl'⟩
    · exact absurd hl' (hfree w')
    · rw [← hl, ← hl']

/-- The task a thread picks was not running. -/
lemma running_of_pick {r : Run S tasks} {a : Entry S} {t : TaskId tasks}
    (h : r.pick a = some t) : (r.st t).running = false :=
  ((r.eligible_iff a t).mp (Run.eligible_of_pick r h)).1.2.1

lemma Threads.calling_step (h : s.Threads) (hs : Step s l s') {t : TaskId tasks} {w w' : Worker S}
    (hw : s'.pc w = .calling t) (hw' : s'.pc w' = .calling t) : w = w' := by
  have hpicked : ∀ v, l = .call v t → ∀ u, s.pc u ≠ .calling t := by
    rintro v rfl u hu
    cases hs with
    | call _ _ _ _ hpick =>
      have hrun := (h.running_iff t).mpr ⟨u, hu⟩
      rw [running_of_pick hpick] at hrun
      cases hrun
  rcases hs.calling hw with hc | hc
  · rcases hs.calling hw' with hc' | hc'
    · exact h.calling_unique t w w' hc hc'
    · exact absurd hc (hpicked _ hc' w)
  · rcases hs.calling hw' with hc' | hc'
    · exact absurd hc' (hpicked _ hc w')
    · rw [hc] at hc'
      cases hc'
      rfl

/-- A task is running after a step if the step picked it, or if it was and the step did not bring
its result. -/
lemma running_step (hs : Step s l s') (t : TaskId tasks) :
    (s'.run.st t).running = true ↔
      (∃ w, l = .call w t) ∨ (s.run.st t).running = true ∧ ∀ w res, l ≠ .ret w t res := by
  cases hs with
  | acquire _ _ _ => simp
  | wake _ _ => simp
  | wait _ _ _ _ => simp
  | leave _ _ => simp
  | call w u _ _ _ =>
    by_cases h : t = u
    · subst h; simp
    · simp [h, Ne.symm h]
  | ret w u res _ _ =>
    rw [setPc_run, withRun_notifyAll_run, Run.record_running]
    constructor
    · rintro ⟨hne, hrun⟩
      refine .inr ⟨hrun, ?_⟩
      rintro v res' hv
      cases hv
      exact hne rfl
    · rintro (⟨v, hv⟩ | ⟨hrun, hret⟩)
      · cases hv
      · exact ⟨fun htu => hret w res (by rw [htu]), hrun⟩

lemma Threads.running_step (h : s.Threads) (hs : Step s l s') (t : TaskId tasks) :
    (s'.run.st t).running = true ↔ ∃ w, s'.pc w = .calling t := by
  rw [State.running_step hs, h.running_iff]
  constructor
  · rintro (⟨w, rfl⟩ | ⟨⟨w, hw⟩, hret⟩)
    · refine ⟨w, ?_⟩
      cases hs
      simp
    · refine ⟨w, (hs.calling_of hw).resolve_right ?_⟩
      rintro ⟨res, hl⟩
      exact hret w res hl
  · rintro ⟨w, hw⟩
    rcases hs.calling hw with hc | rfl
    · refine .inr ⟨⟨w, hc⟩, ?_⟩
      rintro v res rfl
      cases hs with
      | ret _ _ _ _ hv =>
        have hwv := h.calling_unique t w v hc hv
        subst hwv
        simp at hw
    · exact .inl ⟨w, rfl⟩

lemma Threads.step (h : s.Threads) (hs : Step s l s') : s'.Threads where
  mutex _ _ := h.mutex_step hs
  running_iff := h.running_step hs
  calling_unique _ _ _ := h.calling_step hs

lemma ledger_step (hl : s.run.Ledger) (ht : s.Threads) (hs : Step s l s') : s'.run.Ledger := by
  cases hs with
  | acquire _ _ _ => exact hl
  | wake _ _ => exact hl
  | wait _ _ _ _ => exact hl
  | leave _ _ => exact hl
  | call w t _ _ hpick =>
    obtain ⟨⟨hdone, hrun, _⟩, _⟩ := (s.run.eligible_iff _ _).mp (Run.eligible_of_pick _ hpick)
    exact hl.start hdone hrun
  | ret w t res _ hpc => exact hl.record ((ht.running_iff t).mpr ⟨w, hpc⟩)

/-- The bookkeeping of every state of every run. -/
theorem bookkeeping (h : (workers S tasks).Reachable s) : s.run.Ledger ∧ s.Threads := by
  refine h.invariant (I := fun s => s.run.Ledger ∧ s.Threads) ?_ ?_
  · rintro s rfl
    exact ⟨Run.Ledger.init.resolveUnschedulable, threads_init⟩
  · intro s l s' _ ⟨hl, ht⟩ hs
    exact ⟨ledger_step hl ht hs, ht.step hs⟩

/-- A task that is out with a thread is not done. -/
lemma not_done_of_calling (h : (workers S tasks).Reachable s) {w : Worker S} {t : TaskId tasks}
    (hpc : s.pc w = .calling t) : (s.run.st t).done = false := by
  obtain ⟨hl, ht⟩ := bookkeeping h
  exact hl.not_done ((ht.running_iff t).mpr ⟨w, hpc⟩)

/-- A retired agent is not taken up again. -/
lemma alive_step (hs : Step s l s') {a : Entry S} (ha : s.run.alive a = false) :
    s'.run.alive a = false := by
  cases hs with
  | acquire _ _ _ => exact ha
  | wake _ _ => exact ha
  | wait _ _ _ _ => exact ha
  | leave _ _ => exact ha
  | call _ _ _ _ _ => exact ha
  | ret w t res _ _ =>
    by_contra hlive
    have hlive := ((s.run.record_alive w.1 a t res).mp (by simpa using hlive)).1
    rw [ha] at hlive
    cases hlive

/-- A finished task is left alone by every step. -/
lemma done_step (hl : s.run.Ledger) (ht : s.Threads) (hs : Step s l s') {t : TaskId tasks}
    (hdone : (s.run.st t).done = true) : s'.run.st t = s.run.st t := by
  have hidle := hl.running_of_done t hdone
  cases hs with
  | acquire _ _ _ => rfl
  | wake _ _ => rfl
  | wait _ _ _ _ => rfl
  | leave _ _ => rfl
  | call w u _ _ hpick =>
    have hne : t ≠ u := by
      rintro rfl
      rw [((s.run.eligible_iff _ _).mp (Run.eligible_of_pick _ hpick)).1.1] at hdone
      cases hdone
    simp [hne]
  | ret w u res _ hpc =>
    have hne : t ≠ u := by
      rintro rfl
      rw [(ht.running_iff t).mpr ⟨w, hpc⟩] at hidle
      cases hidle
    rcases s.run.record_st_of_ne w.1 res hne with hst | ⟨_, hd, _⟩
    · simpa using hst
    · rw [hd] at hdone
      cases hdone

end State

/-- In every state of every run: `remaining_` counts the unfinished tasks, `finish` has been
called at most once on each task, no finished task is running, at most one call per task is in
flight, every call that has returned has left its record, and no step touches a finished task. -/
theorem each_task_resolved_once (agents : List AgentInfo) (tasks : List Task)
    (s : State (Scheduler.make agents) tasks)
    (h : (workers (Scheduler.make agents) tasks).Reachable s) :
    s.run.remaining = (Finset.univ.filter fun t => (s.run.st t).done = false).card ∧
    (∀ t, s.run.finishes t ≤ 1) ∧
    (∀ t, ¬ ((s.run.st t).done = true ∧ (s.run.st t).running = true)) ∧
    (∀ t w w', s.pc w = .calling t → s.pc w' = .calling t → w = w') ∧
    (∀ t, (s.run.st t).attempts.length = s.run.returns t) ∧
    (∀ t, s.run.calls t = s.run.returns t + if ∃ w, s.pc w = .calling t then 1 else 0) ∧
    (∀ l s' t, Step s l s' → (s.run.st t).done = true →
      s'.run.st t = s.run.st t ∧ s'.run.calls t = s.run.calls t ∧
        s'.run.finishes t = s.run.finishes t) := by
  obtain ⟨hl, ht⟩ := State.bookkeeping h
  refine ⟨hl.remaining_eq, ?_, ?_, ht.calling_unique, ?_, ?_, ?_⟩
  · intro t
    rw [hl.finishes_eq]
    split_ifs <;> simp
  · rintro t ⟨hdone, hrun⟩
    rw [hl.running_of_done t hdone] at hrun
    cases hrun
  · intro t
    rw [hl.returns_eq]
  · intro t
    rw [hl.calls_eq, hl.returns_eq]
    simp only [ht.running_iff t]
  · intro l s' t hs hdone
    have hl' := State.ledger_step hl ht hs
    have hst := State.done_step hl ht hs hdone
    refine ⟨hst, ?_, ?_⟩
    · rw [hl'.calls_eq, hl.calls_eq, hst]
    · rw [hl'.finishes_eq, hl.finishes_eq, hst]

/-- After the outage of the whole of `kvmhost`, with the second task left unfinished. -/
theorem each_task_resolved_once_outage :
    ∃ s : State Fleet.scheduler Fleet.vms, State.init.follow Fleet.outageRun = some s ∧
      s.run.remaining = (Finset.univ.filter fun t => (s.run.st t).done = false).card ∧
      (∀ t, s.run.finishes t ≤ 1) ∧ s.run.finishes Fleet.vm1 = 1 ∧ s.run.returns Fleet.vm2 = 1 := by
  obtain ⟨s, hs, hr, hp⟩ := State.exists_follow Fleet.outageRun
    (fun s => s.run.finishes Fleet.vm1 = 1 ∧ s.run.returns Fleet.vm2 = 1) (by decide)
  obtain ⟨hremaining, hfinishes, _⟩ := each_task_resolved_once Fleet.hosts Fleet.vms s hr
  exact ⟨s, hs, hremaining, hfinishes, hp⟩

end Dtest
