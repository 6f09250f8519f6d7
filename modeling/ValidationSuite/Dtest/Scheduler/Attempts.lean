import ValidationSuite.Dtest.Scheduler.Verdict
import Mathlib.Algebra.BigOperators.Fin
import Mathlib.Algebra.Order.BigOperators.Group.Finset

/-!
# The number of attempts

The results that `exec_.run` has returned in a run, and bounds on them. An attempt that ends in
`Passed`, `Failed` or `TimedOut` is paid for by the retry budget of its task. An outage is free for
the task, but it costs the thread that reports it: its agent is retired from then on, so the thread
never calls again.
-/

namespace Dtest

open Transition

variable {S : Scheduler} {tasks : List Task}

/-- The task and the status of a return of `exec_.run`. -/
def Event.result : Event S tasks → Option (TaskId tasks × AttemptStatus)
  | .ret _ t status => some (t, status)
  | _ => none

def Event.isAnyCall : Event S tasks → Bool
  | .call _ _ => true
  | _ => false

namespace Run

variable (r : Run S tasks)

/-- What `exec_.run` has returned, in order. -/
def results : List (TaskId tasks × AttemptStatus) := r.events.filterMap Event.result

/-- What `exec_.run` has returned for the task `t`. -/
def resultsOf (t : TaskId tasks) : List AttemptStatus :=
  (r.results.filter fun x => decide (x.1 = t)).map (·.2)

/-- The calls for the task `t` that ended in `Passed`, `Failed` or `TimedOut`. -/
def decided (t : TaskId tasks) : ℕ :=
  (r.resultsOf t).countP fun status => decide (status ≠ .agentError)

/-- The calls that ended in `AgentError`. -/
def outages : ℕ := r.results.countP fun x => decide (x.2 = .agentError)

/-- All calls of `exec_.run`, those in flight included. -/
def totalCalls : ℕ := r.events.countP Event.isAnyCall

/-! ### Results -/

@[simp] lemma results_start (a : Entry S) (t : TaskId tasks) :
    (r.start a t).results = r.results := by
  simp [results, Event.result]

@[simp] lemma results_storeAttempt (a : Entry S) (t : TaskId tasks) (res : AttemptResult) :
    (r.storeAttempt a t res).results = r.results ++ [(t, res.status)] := by
  simp [results, Event.result]

@[simp] lemma results_countFailure (t : TaskId tasks) :
    (r.countFailure t).results = r.results := rfl

@[simp] lemma results_finish (t : TaskId tasks) (f : FinalStatus) (msg : ByteString) :
    (r.finish t f msg).results = r.results := by
  simp [results, Event.result]

@[simp] lemma results_retire (a : Entry S) : (r.retire a).results = r.results := by
  simp [results, Event.result]

@[simp] lemma results_resolveUnschedulable : r.resolveUnschedulable.results = r.results :=
  r.resolveUnschedulable_induction (P := fun r' => r'.results = r.results) rfl
    fun r' t msg h _ => by rw [results_finish, h]

@[simp] lemma results_record (a : Entry S) (t : TaskId tasks) (res : AttemptResult) :
    (r.record a t res).results = r.results ++ [(t, res.status)] := by
  have hrec := Recorded.of_record r a t res
  generalize r.record a t res = r' at hrec ⊢
  cases hrec <;> simp

@[simp] lemma results_init : ({} : Run S tasks).results = [] := rfl

variable {r}

/-- Every result has left its record, in order. -/
def Recording (r : Run S tasks) : Prop := ∀ t, (r.st t).statuses = r.resultsOf t

lemma Recording.congr (h : r.Recording) {r' : Run S tasks} (hres : r'.results = r.results)
    (hst : ∀ t, (r'.st t).attempts = (r.st t).attempts) : r'.Recording := by
  intro t
  rw [resultsOf, hres, TaskState.statuses, hst]
  exact h t

lemma Recording.start (h : r.Recording) (a : Entry S) (t : TaskId tasks) :
    (r.start a t).Recording := by
  apply h.congr (r.results_start a t)
  intro u
  simp only [start_st]
  split_ifs <;> rfl

lemma Recording.finish (h : r.Recording) (t : TaskId tasks) (f : FinalStatus)
    (msg : ByteString) : (r.finish t f msg).Recording := by
  apply h.congr (r.results_finish t f msg)
  intro u
  simp only [finish_st]
  split_ifs <;> rfl

lemma Recording.countFailure (h : r.Recording) (t : TaskId tasks) :
    (r.countFailure t).Recording := by
  apply h.congr (r.results_countFailure t)
  intro u
  simp only [countFailure_st]
  split_ifs <;> rfl

lemma Recording.retire (h : r.Recording) (a : Entry S) : (r.retire a).Recording :=
  h.congr (r.results_retire a) fun _ => rfl

lemma Recording.resolveUnschedulable (h : r.Recording) : r.resolveUnschedulable.Recording :=
  r.resolveUnschedulable_induction h fun _ t msg h _ => h.finish t .unschedulable msg

lemma Recording.storeAttempt (h : r.Recording) (a : Entry S) (t : TaskId tasks)
    (res : AttemptResult) : (r.storeAttempt a t res).Recording := by
  intro u
  by_cases hu : u = t
  · subst hu
    simpa [resultsOf, TaskState.statuses] using h u
  · simpa [resultsOf, TaskState.statuses, hu, Ne.symm hu] using h u

lemma Recording.record (h : r.Recording) (a : Entry S) (t : TaskId tasks)
    (res : AttemptResult) : (r.record a t res).Recording := by
  have hstored := h.storeAttempt a t res
  have hrec := Recorded.of_record r a t res
  generalize r.record a t res = r' at hrec ⊢
  cases hrec with
  | passed _ => exact hstored.finish t .passed []
  | exhausted _ _ => exact (hstored.countFailure t).finish t _ []
  | requeued _ _ => exact hstored.countFailure t
  | retired _ _ => exact (hstored.retire a).resolveUnschedulable
  | again _ _ => exact hstored

/-! ### Counting by task -/

/-- The events of a list, counted task by task. -/
lemma sum_countP {α : Type*} (p : TaskId tasks → α → Bool) (q : α → Bool)
    (hpq : ∀ x, (∑ t, if p t x then 1 else 0) = if q x then 1 else 0) (l : List α) :
    ∑ t, l.countP (p t) = l.countP q := by
  induction l with
  | nil => simp
  | cons x l ih => simp only [List.countP_cons, Finset.sum_add_distrib, ih, hpq]

lemma sum_calls (r : Run S tasks) : ∑ t, r.calls t = r.totalCalls := by
  refine sum_countP _ _ ?_ _
  intro e
  cases e <;> simp [Event.isCall, Event.isAnyCall]

/-- The results of a task decide something, or are outages. -/
lemma length_resultsOf (r : Run S tasks) (t : TaskId tasks) :
    (r.resultsOf t).length = r.decided t + (r.resultsOf t).count .agentError := by
  rw [decided, List.length_eq_countP_add_countP fun status => decide (status ≠ .agentError)]
  congr 1
  apply List.countP_congr
  simp

lemma sum_outages (r : Run S tasks) : ∑ t, (r.resultsOf t).count .agentError = r.outages := by
  simp only [resultsOf, List.count, List.countP_map, List.countP_filter]
  refine sum_countP _ _ ?_ _
  intro x
  by_cases hs : x.2 = .agentError <;> simp [hs]

lemma countP_ne_agentError (l : List AttemptStatus) :
    l.countP (fun status => decide (status ≠ .agentError)) = passCount l + failureCount l := by
  induction l with
  | nil => rfl
  | cons x l ih =>
    rw [List.countP_cons, ih, passCount, passCount, failureCount, failureCount, List.count_cons,
      List.countP_cons]
    cases x <;> simp [AttemptStatus.isFailure] <;> omega

/-- An attempt that is no outage has passed or has failed. -/
lemma decided_eq (h : r.Recording) (t : TaskId tasks) :
    r.decided t = passCount (r.st t).statuses + failureCount (r.st t).statuses := by
  rw [h t, decided, countP_ne_agentError]

end Run

/-! ### The budget of a task -/

namespace TaskState

variable {s : TaskState S} {retries : ℤ} {p : Prop}

/-- A task has used at most its retries and one attempt more, the one in flight included. -/
lemma Agrees.le_budget (h : s.Agrees retries p) (hrun : s.done = true → s.running = false) :
    ((passCount s.statuses + failureCount s.statuses + if s.running then 1 else 0 : ℕ) : ℤ)
      ≤ retries + 1 := by
  obtain ⟨_, h⟩ := h
  cases hd : s.done
  · simp only [hd] at h
    split_ifs <;> push_cast <;> omega
  · simp only [hd, Shows] at h
    rw [if_neg (by simp [hrun hd])]
    cases hv : s.final <;> simp only [hv] at h <;> push_cast <;> omega

end TaskState

/-! ### Outages use up threads -/

namespace State

variable {s s' : State S tasks} {l : Label S tasks}

/-- The thread never calls `exec_.run` again. -/
def Spent (s : State S tasks) (w : Worker S) : Prop :=
  s.pc w = .exited ∨ s.run.alive w.1 = false ∧ ∀ t, s.pc w ≠ .calling t

lemma Spent.step (hs : Step s l s') {w : Worker S} (h : s.Spent w) : s'.Spent w := by
  rcases h with hex | ⟨hdead, hidle⟩
  · left
    by_cases hw : w = l.worker
    · subst hw
      cases hs <;> simp_all [Label.worker]
    · rcases hs.pc_of_ne hw with hp | ⟨hp, _⟩
      · rw [hp, hex]
      · rw [hex] at hp
        cases hp
  · right
    refine ⟨alive_step hs hdead, ?_⟩
    intro t ht
    rcases hs.calling ht with hc | rfl
    · exact hidle t hc
    · -- a thread of a retired agent does not call
      cases hs with
      | call _ _ _ hcond _ =>
        obtain ⟨_, hlive⟩ := (s.run.continues_iff w.1).mp hcond
        rw [hdead] at hlive
        cases hlive

/-- The thread that reports an outage was not spent before, and is spent then. -/
lemma spent_of_outage {w : Worker S} {t : TaskId tasks} {res : AttemptResult}
    (hs : Step s (.ret w t res) s') (hres : res.status = .agentError) :
    ¬ s.Spent w ∧ s'.Spent w := by
  cases hs with
  | ret _ _ _ _ hpc =>
    refine ⟨?_, .inr ⟨?_, ?_⟩⟩
    · rintro (hex | ⟨_, hidle⟩)
      · rw [hpc] at hex
        cases hex
      · exact hidle t hpc
    · by_contra hlive
      exact ((s.run.record_alive w.1 w.1 t res).mp (by simpa using hlive)).2 rfl hres
    · simp

instance (s : State S tasks) (w : Worker S) : Decidable (s.Spent w) :=
  inferInstanceAs (Decidable (_ ∨ _ ∧ _))

/-- The threads that never call again. -/
def spent (s : State S tasks) : Finset (Worker S) := Finset.univ.filter s.Spent

lemma spent_step (hs : Step s l s') : s.spent ⊆ s'.spent := by
  intro w hw
  simp only [spent, Finset.mem_filter, Finset.mem_univ, true_and] at hw ⊢
  exact hw.step hs

@[simp] lemma outages_record (r : Run S tasks) (a : Entry S) (t : TaskId tasks)
    (res : AttemptResult) :
    (r.record a t res).outages = r.outages + if res.status = .agentError then 1 else 0 := by
  simp [Run.outages]

/-- Each outage has used up a thread of its own. -/
theorem outages_le (h : (workers S tasks).Reachable s) : s.run.outages ≤ s.spent.card := by
  refine h.invariant (I := fun s => s.run.outages ≤ s.spent.card) ?_ ?_
  · rintro s rfl
    simp [init, Run.outages]
  · intro s l s' _ ih hs
    have hmono : s.spent.card ≤ s'.spent.card := Finset.card_le_card (spent_step hs)
    cases hs with
    | acquire _ _ _ => exact ih.trans hmono
    | wake _ _ => exact ih.trans hmono
    | wait _ _ _ _ => exact ih.trans hmono
    | leave _ _ => exact ih.trans hmono
    | call w t _ _ _ =>
      refine le_trans ?_ (ih.trans hmono)
      simp [Run.outages]
    | ret w t res hfree hpc =>
      rw [setPc_run, withRun_notifyAll_run, outages_record]
      have hs := Step.ret w t res hfree hpc
      by_cases hres : res.status = .agentError
      · obtain ⟨hnot, hnow⟩ := spent_of_outage hs hres
        have hlt : s.spent.card < _ := Finset.card_lt_card
          ((Finset.ssubset_iff_of_subset (spent_step hs)).mpr
            ⟨w, by simpa [spent] using hnow, by simpa [spent] using hnot⟩)
        rw [if_pos hres]
        omega
      · rw [if_neg hres]
        omega

theorem recording (h : (workers S tasks).Reachable s) : s.run.Recording := by
  refine run_invariant (fun _ _ _ => id) ?_ ?_ ?_ h
  · rintro s rfl
    exact Run.Recording.resolveUnschedulable fun _ => rfl
  · intro s w t s' _ _ ih
    exact ih.start w.1 t
  · intro s w t res s' _ _ _ ih
    exact ih.record w.1 t res

/-- The results of a task that are no outages, and its call in flight. -/
lemma decided_le (hr : ∀ t ∈ tasks, 0 ≤ t.retries) (h : (workers S tasks).Reachable s)
    (t : TaskId tasks) :
    ((s.run.decided t + if (s.run.st t).running then 1 else 0 : ℕ) : ℤ)
      ≤ (tasks.get t).retries + 1 := by
  rw [Run.decided_eq (recording h)]
  exact (agrees hr h t).le_budget ((bookkeeping h).1.running_of_done t)

/-- Every call is in flight, or it has decided something, or it was an outage. -/
lemma totalCalls_eq (h : (workers S tasks).Reachable s) :
    s.run.totalCalls =
      (∑ t, (s.run.decided t + if (s.run.st t).running then 1 else 0)) + s.run.outages := by
  rw [← Run.sum_calls, ← Run.sum_outages, ← Finset.sum_add_distrib]
  refine Finset.sum_congr rfl fun t _ => ?_
  have hlen : (s.run.st t).attempts.length = (s.run.resultsOf t).length := by
    rw [← recording h t, TaskState.statuses, List.length_map]
  rw [(bookkeeping h).1.calls_eq t, hlen, Run.length_resultsOf]
  omega

end State

/-- One thread for each slot that the constructor has left an agent with. -/
lemma card_worker (agents : List AgentInfo) :
    Fintype.card (Worker (Scheduler.make agents)) =
      (agents.map fun a => max a.slots.toNat 1).sum := by
  rw [Fintype.card_sigma]
  simp only [Fintype.card_fin, List.get_eq_getElem]
  rw [Fin.sum_univ_fun_getElem (Scheduler.make agents).agents fun a => a.slots.toNat]
  simp only [Scheduler.make, List.map_map]
  congr 1
  refine List.map_congr_left fun a _ => ?_
  simp only [Function.comp_apply]
  split_ifs with h
  · simp [h]
  · have hpos : a.slots.toNat ≠ 0 := fun h0 => h (UInt32.toNat_inj.mp h0)
    omega

/-- Every run, completed or not, makes a bounded number of attempts: a task decides at most
`retries + 1` of them, at most one per thread is an outage, and there are no others. -/
theorem attempts_bounded (agents : List AgentInfo) (tasks : List Task)
    (hretries : ∀ t ∈ tasks, 0 ≤ t.retries) (s : State (Scheduler.make agents) tasks)
    (h : (workers (Scheduler.make agents) tasks).Reachable s) :
    (∀ t, (s.run.decided t : ℤ) ≤ (tasks.get t).retries + 1) ∧
    s.run.outages ≤ (agents.map fun a => max a.slots.toNat 1).sum ∧
    (s.run.totalCalls : ℤ) ≤ (tasks.map fun t => t.retries + 1).sum +
      (agents.map fun a => max a.slots.toNat 1).sum := by
  have hout : s.run.outages ≤ (agents.map fun a => max a.slots.toNat 1).sum := by
    rw [← card_worker]
    exact (State.outages_le h).trans (Finset.card_le_univ _)
  refine ⟨?_, hout, ?_⟩
  · intro t
    have hle := State.decided_le hretries h t
    push_cast at hle
    split_ifs at hle <;> omega
  · have hsum : (tasks.map fun t => t.retries + 1).sum =
        ∑ t : TaskId tasks, ((tasks.get t).retries + 1) :=
      (Fin.sum_univ_fun_getElem tasks fun t => t.retries + 1).symm
    rw [State.totalCalls_eq h, hsum, Nat.cast_add, Nat.cast_sum]
    exact add_le_add (Finset.sum_le_sum fun t _ => State.decided_le hretries h t)
      (by exact_mod_cast hout)

/-- Two outages, one for each slot of `kvmhost`, in a run that never completes. -/
theorem attempts_bounded_outage :
    ∃ s : State Fleet.scheduler Fleet.vms, State.init.follow Fleet.outageRun = some s ∧
      s.run.outages = 2 ∧ s.run.totalCalls = 2 ∧ (s.run.totalCalls : ℤ) ≤ 2 + 3 := by
  obtain ⟨s, hs, hr, hout, hcalls⟩ := State.exists_follow Fleet.outageRun
    (fun s => s.run.outages = 2 ∧ s.run.totalCalls = 2) (by decide)
  have hbound := (attempts_bounded Fleet.hosts Fleet.vms (by decide) s hr).2.2
  exact ⟨s, hs, hout, hcalls, hbound⟩

end Dtest
