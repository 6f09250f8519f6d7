import ValidationSuite.Dtest.Executions

/-!
# How many commands

A call that the controller has given up on may still be served. So a task can be executed more often
than its verdict needs, and twice at once. Here the bounds: each command belongs to an attempt, and
each one that may still be at work without a thread waiting for it has cost an outage.
-/

namespace Dtest

open Transition

variable {c : Cluster} {tasks : List Task} {s s' : Pool (c.Store tasks) (c.Rpc tasks)}

namespace Cluster

/-! ### Counting calls -/

def Rpc.launched (x : c.Rpc tasks) : Bool :=
  match x.stage with
  | .sent => false
  | .served _ p => p.launched

/-- The calls for a task. -/
def callFor (t : TaskId tasks) (x : c.Rpc tasks) : Bool := decide (x.task = t)

/-- Those a thread waits for. -/
def awaitedFor (t : TaskId tasks) (x : c.Rpc tasks) : Bool := decide (x.task = t) && x.waiting

/-- Those whose threads have gone on. -/
def endedFor (t : TaskId tasks) (x : c.Rpc tasks) : Bool := decide (x.task = t) && !x.waiting

/-- Those that an agent has, or may yet get, work to do for. -/
def busyFor (t : TaskId tasks) (x : c.Rpc tasks) : Bool := decide (x.task = t) && x.outstanding

/-- Those of them whose threads have gone on. -/
def strayFor (t : TaskId tasks) (x : c.Rpc tasks) : Bool :=
  decide (x.task = t) && (!x.waiting && x.outstanding)

/-- Those whose commands have been started. -/
def launchedFor (t : TaskId tasks) (x : c.Rpc tasks) : Bool := decide (x.task = t) && x.launched

/-- The attempts at a task that ended in an outage. -/
def outagesOf (s : Pool (c.Store tasks) (c.Rpc tasks)) (t : TaskId tasks) : ℕ :=
  (attempts s t).countP fun rec => decide (rec.result.status = .agentError)

lemma count_of_procs (p : c.Rpc tasks → Bool) (h : s'.procs = s.procs) :
    s'.count p = s.count p := by
  rw [Pool.count, Pool.count, h]

lemma count_of_concat (p : c.Rpc tasks → Bool) {x : c.Rpc tasks} (h : s'.procs = s.procs ++ [x]) :
    s'.count p = s.count p + (p x).toNat := by
  rw [← Pool.count_enter p s x]
  exact count_of_procs p h

lemma count_of_set (p : c.Rpc tasks → Bool) {k : ℕ} {x x' : c.Rpc tasks}
    (hk : s.procs[k]? = some x) (h : s'.procs = s.procs.set k x') :
    s'.count p + (p x).toNat = s.count p + (p x').toNat := by
  rw [← Pool.count_act p hk x' s'.store]
  congr 1
  exact count_of_procs p h

/-- A call that has got further is one for the same task, whose thread has not moved. -/
lemma Rpc.Proceeds.outstanding {x : c.Rpc tasks} {stage : Stage} (h : x.Proceeds stage) :
    x.outstanding = true := by
  cases h with
  | deliver hstage _ => simp [Rpc.outstanding, hstage]
  | handle hstage hhandles => exact outstanding_of_handles hstage hhandles

/-- The calls whose threads have gone on are the attempts on record. -/
theorem count_ended (h : (c.lts tasks).Reachable s) (t : TaskId tasks) :
    s.count (endedFor t) = (attempts s t).length := by
  refine h.invariant (I := fun s => s.count (endedFor t) = (attempts s t).length) ?_ ?_
  · rintro s rfl
    have hnone : ((State.init : State c.scheduler tasks).run.st t).attempts = [] := by
      simp only [State.init, Run.resolveUnschedulable_st]
      split_ifs <;> rfl
    simp [attempts, hnone]
  · intro s _ s' _ ih hs
    cases hs.effect with
    | quiet hprocs hattempts => rw [count_of_procs _ hprocs, hattempts, ih]
    | start _ hprocs hattempts =>
      rw [count_of_concat _ hprocs, hattempts, ih]
      simp [endedFor]
    | @proceed k x stage hk _ hprocs hattempts =>
      have hcount := count_of_set (endedFor t) hk hprocs
      rw [hattempts, ← ih]
      exact Nat.add_right_cancel hcount
    | @hangUp k x res hk hwait _ hprocs hattempts =>
      have hcount := count_of_set (endedFor t) hk hprocs
      rw [hattempts, List.length_append, ← ih]
      by_cases ht : x.task = t
      · simpa [endedFor, hwait, ht] using hcount
      · simpa [endedFor, hwait, ht, Ne.symm ht] using hcount

/-- A call that an agent may still be working on without anybody waiting was given up. -/
theorem count_stray (h : (c.lts tasks).Reachable s) (t : TaskId tasks) :
    s.count (strayFor t) ≤ outagesOf s t := by
  refine h.invariant (I := fun s => s.count (strayFor t) ≤ outagesOf s t) ?_ ?_
  · rintro s rfl
    simp
  · intro s _ s' _ ih hs
    cases hs.effect with
    | quiet hprocs hattempts =>
      rw [count_of_procs _ hprocs, outagesOf, hattempts]
      exact ih
    | start _ hprocs hattempts =>
      rw [count_of_concat _ hprocs, outagesOf, hattempts]
      simpa [strayFor, outagesOf] using ih
    | @proceed k x stage hk hx hprocs hattempts =>
      have hcount := count_of_set (strayFor t) hk hprocs
      have hle : (strayFor t { x with stage := stage }).toNat ≤ (strayFor t x).toNat := by
        apply Bool.toNat_le_toNat
        intro hstray
        simp only [strayFor, Bool.and_eq_true] at hstray ⊢
        exact ⟨hstray.1, hstray.2.1, hx.outstanding⟩
      rw [outagesOf, hattempts]
      refine le_trans ?_ ih
      omega
    | @hangUp k x res hk hwait hres hprocs hattempts =>
      have hcount := count_of_set (strayFor t) hk hprocs
      rw [outagesOf, hattempts, List.countP_append]
      by_cases ht : x.task = t
      · -- an answered call has no work left, so this one is an outage if it does
        have hle : x.outstanding.toNat ≤ if res.status = .agentError then 1 else 0 := by
          rcases hres with ⟨_, answer, hanswer, -⟩ | hout
          · simp [Rpc.not_outstanding_of_answer hanswer]
          · rw [if_pos hout]
            exact Bool.toNat_le _
        have hadd : s'.count (strayFor t) = s.count (strayFor t) + x.outstanding.toNat := by
          simpa [strayFor, hwait, ht, Rpc.outstanding] using hcount
        have hone : ([⟨(c.agentOf x.worker).address, res⟩] : List AttemptRecord).countP
            (fun rec => decide (rec.result.status = .agentError)) =
              if res.status = .agentError then 1 else 0 := by
          simp [List.countP_cons]
        rw [if_pos ht.symm, hone, hadd]
        exact Nat.add_le_add ih hle
      · have hsame : s'.count (strayFor t) = s.count (strayFor t) := by
          simpa [strayFor, ht] using hcount
        rw [if_neg (Ne.symm ht), hsame]
        exact ih

lemma countP_le_one {α : Type*} {p : α → Bool} {l : List α}
    (h : l.Pairwise fun x y => ¬(p x = true ∧ p y = true)) : l.countP p ≤ 1 := by
  induction h with
  | nil => simp
  | @cons x l hx _ ih =>
    rw [List.countP_cons]
    by_cases hp : p x = true
    · have hnone : l.countP p = 0 := List.countP_eq_zero.mpr fun y hy hpy => hx y hy ⟨hp, hpy⟩
      simp [hp, hnone]
    · simpa [hp] using ih

/-- A thread waits for at most one call for a task, and then the task is running. -/
theorem count_awaited (h : (c.lts tasks).Reachable s) (t : TaskId tasks) :
    s.count (awaitedFor t) ≤ if (s.store.sched.run.st t).running then 1 else 0 := by
  have hone := oneCallEach h
  have hthreads := (State.bookkeeping (sched_reachable h)).2
  split_ifs with hrun
  · apply countP_le_one
    refine hone.apart.imp_of_mem ?_
    rintro x y hx hy hxy ⟨hpx, hpy⟩
    simp only [awaitedFor, Bool.and_eq_true, decide_eq_true_eq] at hpx hpy
    apply hxy (by simp [Rpc.live, hpx.2]) (by simp [Rpc.live, hpy.2])
    apply hthreads.calling_unique t
    · rw [← hpx.1]
      exact hone.calling x hx hpx.2
    · rw [← hpy.1]
      exact hone.calling y hy hpy.2
  · rw [Nat.le_zero]
    apply Pool.count_eq_zero
    intro x hx
    by_contra hawaited
    simp only [awaitedFor, Bool.not_eq_false, Bool.and_eq_true, decide_eq_true_eq] at hawaited
    obtain ⟨rfl, hwait⟩ := hawaited
    exact hrun ((hthreads.running_iff _).mpr ⟨_, hone.calling x hx hwait⟩)

lemma count_add (p : c.Rpc tasks → Bool) (q : c.Rpc tasks → Bool)
    (s : Pool (c.Store tasks) (c.Rpc tasks)) :
    s.count p = s.count (fun x => p x && q x) + s.count (fun x => p x && !q x) := by
  simp only [Pool.count]
  induction s.procs with
  | nil => rfl
  | cons x l ih =>
    rw [List.countP_cons, List.countP_cons, List.countP_cons, ih]
    cases p x <;> cases q x <;> simp <;> omega

/-- Every call for a task is an attempt on record, or in flight. -/
theorem count_callFor (h : (c.lts tasks).Reachable s) (t : TaskId tasks) :
    s.count (callFor t) ≤ s.store.sched.run.calls t := by
  have hsplit := count_add (callFor t) Rpc.waiting s
  have hawaited := count_awaited h t
  have hended := count_ended h t
  rw [(State.bookkeeping (sched_reachable h)).1.calls_eq t, hsplit]
  exact Nat.add_comm _ _ ▸ Nat.add_le_add hended.le hawaited

/-- The attempts at a task that are no outages, with the one in flight, are within its budget. -/
lemma calls_le (hretries : ∀ t ∈ tasks, 0 ≤ t.retries) (h : (c.lts tasks).Reachable s)
    (t : TaskId tasks) :
    (s.store.sched.run.calls t : ℤ) ≤ (tasks.get t).retries + 1 + outagesOf s t := by
  have hr := sched_reachable h
  have hdecided := State.decided_le hretries hr t
  have hcalls := (State.bookkeeping hr).1.calls_eq t
  have hresults : (attempts s t).length =
      s.store.sched.run.decided t + (s.store.sched.run.resultsOf t).count .agentError := by
    rw [← Run.length_resultsOf, ← State.recording hr t, TaskState.statuses, List.length_map]
  have houtages : (s.store.sched.run.resultsOf t).count .agentError = outagesOf s t := by
    rw [← State.recording hr t, TaskState.statuses, List.count, List.countP_map, outagesOf]
    exact List.countP_congr fun rec _ => by simp
  rw [hcalls, hresults, houtages]
  push_cast at hdecided ⊢
  omega

/-- The slots of a cluster. -/
def slots (c : Cluster) : ℕ := (c.nodes.map fun n => n.service.opts.slots.toNat).sum

lemma card_worker_eq (c : Cluster) : Fintype.card (Worker c.scheduler) = c.slots := by
  rw [card_worker, slots, List.map_map]
  congr 1
  refine List.map_congr_left fun n _ => ?_
  have hpos := n.service.slots_pos
  rw [Function.comp_apply, n.info_eq.2]
  omega

lemma totalCalls_le (hretries : ∀ t ∈ tasks, 0 ≤ t.retries) (h : (c.lts tasks).Reachable s) :
    (s.store.sched.run.totalCalls : ℤ) ≤ (tasks.map fun t => t.retries + 1).sum + c.slots := by
  have hr := sched_reachable h
  have hsum : (tasks.map fun t => t.retries + 1).sum =
      ∑ t : TaskId tasks, ((tasks.get t).retries + 1) :=
    (Fin.sum_univ_fun_getElem tasks fun t => t.retries + 1).symm
  have houtages : s.store.sched.run.outages ≤ c.slots := by
    rw [← card_worker_eq]
    exact (State.outages_le hr).trans (Finset.card_le_univ _)
  rw [State.totalCalls_eq hr, hsum, Nat.cast_add, Nat.cast_sum]
  exact add_le_add (Finset.sum_le_sum fun t _ => State.decided_le hretries hr t)
    (by exact_mod_cast houtages)

lemma length_procs_le (h : (c.lts tasks).Reachable s) :
    s.procs.length ≤ s.store.sched.run.totalCalls := by
  have hall : ∑ t, s.count (callFor t) = s.procs.length := by
    have hone := Run.sum_countP callFor (fun _ => true) (fun x => by simp [callFor])
      s.procs
    exact hone.trans (congrFun List.countP_true s.procs)
  rw [← hall, ← Run.sum_calls]
  exact Finset.sum_le_sum fun t _ => count_callFor h t

end Cluster

/-- In every state of every run of the cluster: the commands started for a task are at most its
retries, one more, and its outages; those that may still be at work are at most its outages, and one
more while it is running; and all commands of the run are at most the budgets of the tasks and the
slots of the agents. So without an outage no task is executed twice at once. -/
theorem commands_bounded (c : Cluster) (tasks : List Task) (hretries : ∀ t ∈ tasks, 0 ≤ t.retries)
    (s : Pool (c.Store tasks) (c.Rpc tasks)) (h : (c.lts tasks).Reachable s) :
    (∀ t, (s.count (Cluster.launchedFor t) : ℤ) ≤
      (tasks.get t).retries + 1 + Cluster.outagesOf s t) ∧
    (∀ t, s.count (Cluster.busyFor t) ≤
      Cluster.outagesOf s t + if (s.store.sched.run.st t).running then 1 else 0) ∧
    (s.count Cluster.Rpc.launched : ℤ) ≤
      (tasks.map fun t => t.retries + 1).sum + c.slots := by
  refine ⟨fun t => ?_, fun t => ?_, ?_⟩
  · have hle : s.count (Cluster.launchedFor t) ≤ s.store.sched.run.calls t := by
      refine le_trans (Pool.count_le_count (fun x hx => ?_) s) (Cluster.count_callFor h t)
      exact (Bool.and_eq_true _ _ ▸ hx).1
    exact le_trans (by exact_mod_cast hle) (Cluster.calls_le hretries h t)
  · have hstray := Cluster.count_stray h t
    have hawaited := Cluster.count_awaited h t
    have hsplit : s.count (Cluster.busyFor t) ≤
        s.count (Cluster.awaitedFor t) + s.count (Cluster.strayFor t) := by
      rw [Cluster.count_add (Cluster.busyFor t) Cluster.Rpc.waiting s]
      refine Nat.add_le_add (Pool.count_le_count (fun x hx => ?_) s)
        (Pool.count_le_count (fun x hx => ?_) s)
      · simp only [Cluster.busyFor, Bool.and_eq_true] at hx
        simp [Cluster.awaitedFor, hx.1.1, hx.2]
      · simp only [Cluster.busyFor, Bool.and_eq_true] at hx
        simp [Cluster.strayFor, hx.1.1, hx.1.2, hx.2]
    omega
  · have hle : s.count Cluster.Rpc.launched ≤ s.store.sched.run.totalCalls :=
      (List.countP_le_length).trans (Cluster.length_procs_le h)
    exact le_trans (by exact_mod_cast hle) (Cluster.totalCalls_le hretries h)

/-- The commands of the run in which `probe` passes. -/
theorem commands_bounded_probe :
    ∃ s : Pool (Fleet.single.Store Fleet.probes) (Fleet.single.Rpc Fleet.probes),
      (Fleet.single.lts Fleet.probes).Reachable s ∧
      (s.store.sched.run.st Fleet.probe).final = .passed ∧
      (s.count Cluster.Rpc.launched : ℤ) ≤
        (Fleet.probes.map fun t => t.retries + 1).sum + Fleet.single.slots := by
  obtain ⟨past, s, h, hpassed, -⟩ := Fleet.answered
  exact ⟨s, h.reachable, hpassed,
    (commands_bounded Fleet.single Fleet.probes (by decide) s h.reachable).2.2⟩

end Dtest
