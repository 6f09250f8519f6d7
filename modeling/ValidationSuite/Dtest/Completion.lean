import ValidationSuite.Dtest.Agent.Authentication
import ValidationSuite.Dtest.Commands
import ValidationSuite.Dtest.Scheduler.Reasons

/-!
# Every run comes to its end

Threads, requests, handlers and replies wait for each other, and never do so for good. A run of the
cluster has no more steps than a number that depends on the agents and the tasks only, apart from
threads that wake up by themselves; and until everything is done, some step is possible that takes
no outage, unless a task is stranded, which takes an outage itself.
-/

namespace Dtest

open Transition ByteString

/-! ### The way left for a thread -/

section Threads

variable {S : Scheduler} {tasks : List Task} {u u' : State S tasks} {l : Label S tasks}

/-- More than the steps of a thread until it calls or waits. A call has to make up for the threads
it wakes up when it returns, and so has a thread that leaves; there are `n` of them. -/
def Pc.left (n : ℕ) : Pc tasks → ℕ
  | .exited => 0
  | .waiting => 2 * n
  | .locked => 2 * n + 1
  | .start | .notified => 2 * n + 2
  | .calling _ => 4 * n + 2

namespace State

def left (u : State S tasks) : ℕ := ∑ w, (u.pc w).left (Fintype.card (Worker S))

lemma left_setPc (u : State S tasks) (w : Worker S) (p : Pc tasks) :
    (u.setPc w p).left + (u.pc w).left (Fintype.card (Worker S)) =
      u.left + p.left (Fintype.card (Worker S)) := by
  have hrest : ∑ v ∈ Finset.univ.erase w, ((u.setPc w p).pc v).left (Fintype.card (Worker S)) =
      ∑ v ∈ Finset.univ.erase w, (u.pc v).left (Fintype.card (Worker S)) := by
    refine Finset.sum_congr rfl fun v hv => ?_
    rw [setPc_pc, if_neg (Finset.ne_of_mem_erase hv)]
  have hself : (u.setPc w p).pc w = p := by rw [setPc_pc, if_pos rfl]
  rw [left, left, ← Finset.add_sum_erase _ _ (Finset.mem_univ w), hrest, hself,
    ← Finset.add_sum_erase _ _ (Finset.mem_univ w)]
  omega

/-- A notification costs no more than two for each thread. -/
lemma left_notifyAll (u : State S tasks) :
    u.notifyAll.left ≤ u.left + 2 * Fintype.card (Worker S) := by
  have heach : ∀ w, (u.notifyAll.pc w).left (Fintype.card (Worker S)) ≤
      (u.pc w).left (Fintype.card (Worker S)) + 2 := by
    intro w
    rw [notifyAll]
    dsimp only
    split_ifs with hw
    · rw [hw, Pc.left, Pc.left]
    · exact Nat.le_add_right _ _
  calc u.notifyAll.left
      ≤ ∑ w, ((u.pc w).left (Fintype.card (Worker S)) + 2) := Finset.sum_le_sum fun w _ => heach w
    _ = u.left + 2 * Fintype.card (Worker S) := by
        rw [Finset.sum_add_distrib, Finset.sum_const, Finset.card_univ, smul_eq_mul, left,
          Nat.mul_comm 2]

/-- Apart from calls, only waking up by itself takes a thread back. -/
lemma left_step (hs : Step u l u') (hcall : ∀ w t, l ≠ .call w t) (hwake : ∀ w, l ≠ .wake w) :
    u'.left < u.left := by
  cases hs with
  | acquire w _ hpc =>
    have hset := u.left_setPc w .locked
    have hfrom : (u.pc w).left (Fintype.card (Worker S)) = 2 * Fintype.card (Worker S) + 2 := by
      rcases hpc with hpc | hpc
      · rw [hpc, Pc.left]
      · rw [hpc, Pc.left]
    rw [Pc.left] at hset
    omega
  | wake w _ => exact absurd rfl (hwake w)
  | wait w hpc _ _ =>
    have hset := u.left_setPc w .waiting
    rw [hpc, Pc.left, Pc.left] at hset
    omega
  | call w t _ _ _ => exact absurd rfl (hcall w t)
  | ret w t res _ hpc =>
    have hset := (u.withRun (u.run.record w.1 t res)).notifyAll.left_setPc w .locked
    have hnotify := (u.withRun (u.run.record w.1 t res)).left_notifyAll
    have hsame : (u.withRun (u.run.record w.1 t res)).left = u.left := rfl
    have hfrom : (u.withRun (u.run.record w.1 t res)).notifyAll.pc w = .calling t := by
      simp [notifyAll, hpc]
    rw [hfrom, Pc.left, Pc.left] at hset
    omega
  | leave w hpc _ =>
    have hset := u.notifyAll.left_setPc w .exited
    have hnotify := u.left_notifyAll
    have hfrom : u.notifyAll.pc w = .locked := by simp [notifyAll, hpc]
    rw [hfrom, Pc.left, Pc.left] at hset
    omega

lemma left_wake {w : Worker S} (hs : Step u (.wake w) u') : u'.left ≤ u.left + 2 := by
  cases hs with
  | wake _ hpc =>
    have hset := u.left_setPc w .notified
    rw [hpc, Pc.left, Pc.left] at hset
    omega

lemma left_call {w : Worker S} {t : TaskId tasks} (hs : Step u (.call w t) u') :
    u'.left ≤ u.left + (2 * Fintype.card (Worker S) + 1) := by
  cases hs with
  | call _ _ hpc _ _ =>
    have hset := (u.withRun (u.run.start w.1 t)).left_setPc w (.calling t)
    have hsame : (u.withRun (u.run.start w.1 t)).left = u.left := rfl
    rw [withRun_pc, hpc, Pc.left, Pc.left] at hset
    omega

end State

end Threads

/-! ### The way left for a call -/

/-- The steps a handler has left, at most. -/
def Phase.left : Phase → ℕ
  | .arrived => 5
  | .checked => 4
  | .admitted => 3
  | .executing _ => 2
  | .executed _ | .refused => 1
  | .finished _ => 0

lemma AgentService.Handles.left_lt {svc : AgentService} {call : Incoming RunTaskRequest}
    {n n' : UInt32} {p p' : Phase} (h : svc.Handles call n p n' p') : p'.left < p.left := by
  cases h with
  | reject _ => exact Nat.succ_pos 4
  | accept _ => exact Nat.lt_succ_self 4
  | grant _ => exact Nat.lt_succ_self 3
  | refuse _ => decide
  | undo => exact Nat.one_pos
  | launch => exact Nat.lt_succ_self 2
  | exit _ => exact Nat.lt_succ_self 1
  | release => exact Nat.one_pos

namespace Cluster

variable {c : Cluster} {tasks : List Task} {s s' : Pool (c.Store tasks) (c.Rpc tasks)}

def Rpc.left (x : c.Rpc tasks) : ℕ :=
  match x.stage with
  | .sent => 6
  | .served _ p => p.left

/-- A thread has woken up by itself. -/
def Woken (s s' : Pool (c.Store tasks) (c.Rpc tasks)) : Prop :=
  ∃ w, Dtest.Step s.store.sched (.wake w) s'.store.sched

/-- The most calls a run can make. -/
def budget (c : Cluster) (tasks : List Task) : ℕ :=
  ((tasks.map fun t => t.retries + 1).sum + (c.slots : ℤ)).toNat

/-- The steps a run has left, at most. -/
def left (s : Pool (c.Store tasks) (c.Rpc tasks)) : ℕ :=
  s.store.sched.left + (s.procs.map Rpc.left).sum +
    (2 * Fintype.card (Worker c.scheduler) + 8) * (c.budget tasks - s.procs.length)

lemma length_procs_le_budget (hretries : ∀ t ∈ tasks, 0 ≤ t.retries)
    (h : (c.lts tasks).Reachable s) : s.procs.length ≤ c.budget tasks := by
  have hcalls := length_procs_le h
  have htotal := totalCalls_le hretries h
  rw [budget]
  omega

/-- A step that makes no new call. -/
lemma left_lt_of (hlength : s'.procs.length = s.procs.length)
    (h : s'.store.sched.left + (s'.procs.map Rpc.left).sum <
      s.store.sched.left + (s.procs.map Rpc.left).sum) : left s' < left s := by
  rw [left, left, hlength]
  exact Nat.add_lt_add_right h _

/-- A call gets on. -/
lemma sum_left_lt {k : ℕ} {x x' : c.Rpc tasks} (hk : s.procs[k]? = some x) (h : x'.left < x.left) :
    ((s.procs.set k x').map Rpc.left).sum < (s.procs.map Rpc.left).sum := by
  have hsum := Pool.sum_map_set (f := Rpc.left) hk x'
  omega

/-- The thread of a call gets on. -/
lemma left_lt_of_ret {k : ℕ} {x : c.Rpc tasks} (hk : s.procs[k]? = some x) {res : AttemptResult}
    {sched : State c.scheduler tasks}
    (hs : Dtest.Step s.store.sched (.ret x.worker x.task res) sched) :
    left ⟨{ s.store with sched := sched }, s.procs.set k { x with waiting := false }⟩ < left s := by
  have hsum := Pool.sum_map_set (f := Rpc.left) hk { x with waiting := false }
  exact left_lt_of List.length_set (Nat.add_lt_add_of_lt_of_le
    (State.left_step hs (by simp) (by simp)) (Nat.le_of_add_le_add_right hsum.le))

/-- Every step brings a run closer to its end, but for a thread that wakes up by itself. -/
lemma left_step (hretries : ∀ t ∈ tasks, 0 ≤ t.retries) (h : (c.lts tasks).Reachable s)
    (hs : Step s s') : left s' < left s ∨ Woken s s' ∧ left s' ≤ left s + 2 := by
  have hbudget := length_procs_le_budget hretries (h.step (l := ()) hs)
  cases hs with
  | @schedule l sched hstep hcall _ =>
    by_cases hwake : ∃ w, l = .wake w
    · obtain ⟨w, rfl⟩ := hwake
      have hmore := State.left_wake hstep
      refine .inr ⟨⟨w, hstep⟩, ?_⟩
      rw [left, left]
      dsimp only
      omega
    · left
      refine left_lt_of rfl (Nat.add_lt_add_right ?_ _)
      exact State.left_step hstep hcall fun w hw => hwake ⟨w, hw⟩
  | @call w t sched i hstep _ =>
    left
    have hmore := State.left_call hstep
    have hlength : (s.procs ++ [({ worker := w, task := t, node := i } : c.Rpc tasks)]).length =
        s.procs.length + 1 := List.length_append
    have hsum : ((s.procs ++ [({ worker := w, task := t, node := i } : c.Rpc tasks)]).map
        Rpc.left).sum = (s.procs.map Rpc.left).sum + 6 := by
      rw [List.map_append, List.sum_append]
      rfl
    -- the call is paid for by the budget
    have hone : c.budget tasks - s.procs.length = c.budget tasks - (s.procs.length + 1) + 1 := by
      rw [hlength] at hbudget
      omega
    rw [left, left, hone, Nat.mul_add, hsum, hlength]
    dsimp only
    omega
  | callNoStub _ hstub =>
    rw [stub_eq] at hstub
    cases hstub
  | noStub hstub _ =>
    rw [stub_eq] at hstub
    cases hstub
  | @deliver k x hk hstage canonical =>
    refine .inl (left_lt_of List.length_set (Nat.add_lt_add_left (sum_left_lt hk ?_) _))
    rw [Rpc.left, Rpc.left, hstage]
    exact Nat.lt_succ_self 5
  | @handle k x call p p' n hk hstage hhandles =>
    refine .inl (left_lt_of List.length_set (Nat.add_lt_add_left (sum_left_lt hk ?_) _))
    rw [Rpc.left, Rpc.left, hstage]
    exact hhandles.left_lt
  | reply _ hk _ _ hstep => exact .inl (left_lt_of_ret hk hstep)
  | fail _ _ _ hk _ hstep => exact .inl (left_lt_of_ret hk hstep)

end Cluster

/-! ### The length of a run -/

/-- The runs of the cluster, with a mark on each step in which a thread wakes up by itself. -/
def Cluster.marked (c : Cluster) (tasks : List Task) :
    LTS (Pool (c.Store tasks) (c.Rpc tasks)) Bool where
  init := (c.lts tasks).init
  step s woken s' := Cluster.Step s s' ∧ (woken = true ↔ Cluster.Woken s s')

/-- The steps of a run in which no thread wakes up by itself are no more. -/
def Cluster.longest (c : Cluster) (tasks : List Task) : ℕ :=
  c.slots * (2 * c.slots + 2) + (2 * c.slots + 8) * c.budget tasks

namespace Cluster

variable {c : Cluster} {tasks : List Task} {s s' : Pool (c.Store tasks) (c.Rpc tasks)}

lemma reachable_of_marked (h : (c.marked tasks).Reachable s) : (c.lts tasks).Reachable s := by
  induction h with
  | init h => exact .init h
  | step _ hs ih => exact ih.step (l := ()) hs.1

/-- Every run can be marked. -/
lemma exists_marked (h : (c.lts tasks).Reachable s) :
    ∃ s₀ wakes, (c.marked tasks).init s₀ ∧ (c.marked tasks).Path s₀ wakes s := by
  classical
  induction h with
  | @init s h => exact ⟨s, [], h, .nil s⟩
  | @step s s' l _ hs ih =>
    obtain ⟨s₀, wakes, hinit, hpath⟩ := ih
    exact ⟨s₀, wakes ++ [decide (Woken s s')], hinit, hpath.concat ⟨hs, decide_eq_true_iff⟩⟩

lemma left_init (h : (c.lts tasks).init s) : left s = c.longest tasks := by
  obtain rfl : s = ⟨⟨State.init, fun _ => 0⟩, []⟩ := h
  have hthreads : (State.init : State c.scheduler tasks).left = c.slots * (2 * c.slots + 2) := by
    rw [State.left, ← card_worker_eq, ← Finset.card_univ, ← smul_eq_mul, ← Finset.sum_const]
    rfl
  rw [left, longest, hthreads, card_worker_eq]
  rfl

lemma sum_wakes (wakes : List Bool) :
    (wakes.map fun woken => 3 * woken.toNat).sum = 3 * wakes.count true := by
  induction wakes with
  | nil => rfl
  | cons woken wakes ih =>
    rw [List.map_cons, List.sum_cons, List.count_cons, ih, Nat.mul_add, Nat.add_comm]
    cases woken <;> rfl

theorem length_le (hretries : ∀ t ∈ tasks, 0 ≤ t.retries) {wakes : List Bool}
    (hinit : (c.marked tasks).init s) (h : (c.marked tasks).Path s wakes s') :
    wakes.length ≤ c.longest tasks + 3 * wakes.count true := by
  have hlength := h.length_add_le (f := left) (g := fun woken => 3 * woken.toNat) ?_ (.init hinit)
  · rw [sum_wakes, left_init hinit] at hlength
    exact (Nat.le_add_right _ _).trans hlength
  · rintro u woken u' hr ⟨hs, hwoken⟩
    rcases left_step hretries (reachable_of_marked hr) hs with hless | ⟨hw, hmore⟩
    · exact hless.trans_le (Nat.le_add_right _ _)
    · rw [hwoken.mpr hw]
      exact Nat.lt_succ_of_le hmore

end Cluster

/-! ### Without an outage -/

namespace State

variable {S : Scheduler} {tasks : List Task} {u u' : State S tasks} {l : Label S tasks}

lemma outages_step (hs : Step u l u')
    (hres : ∀ w t res, l = .ret w t res → res.status ≠ .agentError) :
    u'.run.outages = u.run.outages := by
  cases hs with
  | acquire _ _ _ => rfl
  | wake _ _ => rfl
  | wait _ _ _ _ => rfl
  | leave _ _ => rfl
  | call w t _ _ _ => simp [Run.outages]
  | ret w t res _ _ => simp [hres w t res rfl]

lemma outages_mono (hs : Step u l u') : u.run.outages ≤ u'.run.outages := by
  cases hs with
  | ret w t res _ _ => simp
  | acquire _ _ _ => exact le_rfl
  | wake _ _ => exact le_rfl
  | wait _ _ _ _ => exact le_rfl
  | leave _ _ => exact le_rfl
  | call w t _ _ _ => simp [Run.outages]

/-- As long as there is no outage, no agent is retired, and so no task is stranded. -/
theorem alive_of_no_outage (h : (workers S tasks).Reachable u) (hnone : u.run.outages = 0)
    (a : Entry S) : u.run.alive a = true := by
  refine run_invariant (I := fun r => r.outages = 0 → ∀ a, r.alive a = true) (fun _ _ _ => id)
    ?_ ?_ ?_ h hnone a
  · rintro u rfl _ a
    simp [init]
  · intro u w t u' _ _ ih hnone
    exact ih (by simpa [Run.outages] using hnone)
  · intro u w t res u' _ _ _ ih hnone a
    obtain ⟨hbefore, hnow⟩ := Nat.add_eq_zero_iff.mp (outages_record u.run w.1 t res ▸ hnone)
    exact (u.run.record_alive w.1 a t res).mpr ⟨ih hbefore a, fun _ hres => by simp [hres] at hnow⟩

theorem not_strands_of_no_outage (h : (workers S tasks).Reachable u) (hnone : u.run.outages = 0) :
    ¬ u.Strands := by
  refine h.invariant (I := fun u => u.run.outages = 0 → ¬ u.Strands) ?_ ?_ hnone
  · rintro u rfl _ ⟨t, ht⟩
    exact Run.not_stranded_resolveUnschedulable _ t ht
  · intro u l u' hr ih hs hnone hstrands
    obtain ⟨-, hbefore | hdrops⟩ := (strands_step hr hs).mp hstrands
    · exact ih (Nat.le_zero.mp (hnone ▸ outages_mono hs)) hbefore
    · -- only a thread of a retired agent could have put the task back for nobody
      have halive := alive_of_no_outage (hr.step hs) hnone
      refine hdrops ?_
      cases hs with
      | ret w t res hfree hpc =>
        intro hdead
        have hbefore := ((u.run.record_alive w.1 w.1 t res).mp (by simpa using halive w.1)).1
        rw [hdead] at hbefore
        cases hbefore
      | acquire _ _ _ => trivial
      | wake _ _ => trivial
      | wait _ _ _ _ => trivial
      | leave _ _ => trivial
      | call _ _ _ _ _ => trivial

/-! ### Sleepers and others -/

/-- Unless a thread wakes up by itself, it is its own step that moves it. -/
lemma pc_worker_step (hs : Step u l u') (hwake : ∀ w, l ≠ .wake w) :
    u'.pc l.worker ≠ u.pc l.worker ∧ u'.pc l.worker ≠ .notified := by
  cases hs with
  | acquire w _ hpc => rcases hpc with hpc | hpc <;> simp [Label.worker, hpc]
  | wake w _ => exact absurd rfl (hwake w)
  | wait w hpc _ _ => simp [Label.worker, hpc]
  | call w t hpc _ _ => simp [Label.worker, hpc]
  | ret w t res _ hpc => simp [Label.worker, hpc]
  | leave w hpc _ => simp [Label.worker, hpc]

lemma pc_wake {w : Worker S} (hs : Step u (.wake w) u') :
    u.pc w = .waiting ∧ u' = u.setPc w .notified := by
  cases hs with
  | wake _ hpc => exact ⟨hpc, rfl⟩

lemma pc_ret {w : Worker S} {t : TaskId tasks} {res : AttemptResult}
    (hs : Step u (.ret w t res) u') : u'.pc w = .locked := by
  cases hs
  simp

lemma not_wake_of_step (hs : Step u l u') (hwake : ∀ w, l ≠ .wake w) (w : Worker S) :
    ¬Step u (.wake w) u' := by
  intro hw
  obtain ⟨hmoved, hnot⟩ := pc_worker_step hs hwake
  rw [(pc_wake hw).2, setPc_pc] at hmoved hnot
  split_ifs at hmoved hnot
  · exact hnot rfl
  · exact hmoved rfl

lemma not_wake_self (w : Worker S) : ¬Step u (.wake w) u := by
  intro hw
  obtain ⟨hpc, hsame⟩ := pc_wake hw
  have hnotified : u.pc w = .notified := by
    rw [hsame, setPc_pc, if_pos rfl]
  rw [hpc] at hnotified
  cases hnotified

lemma Completed.not_step (h : u.Completed) : ¬Step u l u' := by
  intro hs
  cases hs with
  | acquire w _ hpc => simp [h w] at hpc
  | wake w hpc => simp [h w] at hpc
  | wait w hpc _ _ => simp [h w] at hpc
  | call w t hpc _ _ => simp [h w] at hpc
  | ret w t res _ hpc => simp [h w] at hpc
  | leave w hpc _ => simp [h w] at hpc

end State

/-! ### Somebody can go on -/

lemma AgentService.exists_handles (svc : AgentService) (call : Incoming RunTaskRequest)
    (n : UInt32) {p : Phase} (hp : p.isFinished = false) :
    ∃ n' p', svc.Handles call n p n' p' := by
  cases p with
  | arrived =>
    cases hcheck : svc.check call with
    | none => exact ⟨_, _, .accept hcheck⟩
    | some st => exact ⟨_, _, .reject hcheck⟩
  | checked =>
    by_cases hfree : n < svc.opts.slots
    · exact ⟨_, _, .grant hfree⟩
    · exact ⟨_, _, .refuse (UInt32.not_lt.mp hfree)⟩
  | refused => exact ⟨_, _, .undo⟩
  | admitted => exact ⟨_, _, .launch⟩
  | executing spec => exact ⟨_, _, .exit { outcome := .exited }⟩
  | executed out => exact ⟨_, _, .release⟩
  | finished answer => cases hp

/-- Who is let in is not told anything that the controller takes for an outage. -/
lemma AgentService.code_of_check_of_authenticate {svc : AgentService}
    {call : Incoming RunTaskRequest} (hauth : svc.authenticate call.metadata = none) {st : Status}
    (h : svc.check call = some st) : st.code.isInfrastructure = false := by
  unfold check at h
  rw [hauth] at h
  grind [StatusCode.isInfrastructure]

lemma Node.authenticated {token : ByteString} (n : Node token) :
    n.service.authenticate (GrpcExecutor.metadata token) = none := by
  by_contra hnot
  obtain ⟨st, hst⟩ := Option.ne_none_iff_exists'.mp hnot
  have hconnected := n.connected
  rw [AgentService.getInfo_of_authenticate hst] at hconnected
  cases hconnected

namespace Cluster

variable {c : Cluster} {tasks : List Task} {s s' : Pool (c.Store tasks) (c.Rpc tasks)}

/-- Each thread that is in `exec_.run` waits for a call. -/
lemma exists_awaited (h : (c.lts tasks).Reachable s) {w : Worker c.scheduler} {t : TaskId tasks}
    (hpc : s.store.sched.pc w = .calling t) :
    ∃ x ∈ s.procs, x.waiting = true ∧ x.worker = w ∧ x.task = t := by
  refine h.invariant (I := fun s => ∀ w t, s.store.sched.pc w = .calling t →
    ∃ x ∈ s.procs, x.waiting = true ∧ x.worker = w ∧ x.task = t) ?_ ?_ w t hpc
  · rintro s rfl w t hpc
    cases hpc
  · intro s _ s' _ ih hs w t hpc
    have hhung : ∀ {k : ℕ} {x : c.Rpc tasks} {res : AttemptResult}, s.procs[k]? = some x →
        Dtest.Step s.store.sched (.ret x.worker x.task res) s'.store.sched →
        ∃ y ∈ s.procs.set k { x with waiting := false },
          y.waiting = true ∧ y.worker = w ∧ y.task = t := by
      intro k x res hk hstep
      refine Pool.exists_mem_set (ih w t ((hstep.calling hpc).resolve_right (by simp))) hk ?_
      rintro ⟨-, rfl, -⟩
      rw [(State.pc_ret hstep)] at hpc
      cases hpc
    cases hs with
    | schedule hstep hcall _ =>
      exact ih w t ((hstep.calling hpc).resolve_right (hcall w t))
    | call hstep _ =>
      rcases hstep.calling hpc with hold | hnew
      · obtain ⟨x, hx, hfor⟩ := ih w t hold
        exact ⟨x, List.mem_append_left _ hx, hfor⟩
      · cases hnew
        exact ⟨_, List.mem_append_right _ (List.mem_singleton_self _), rfl, rfl, rfl⟩
    | callNoStub _ hstub =>
      rw [stub_eq] at hstub
      cases hstub
    | noStub hstub _ =>
      rw [stub_eq] at hstub
      cases hstub
    | deliver hk _ _ => exact Pool.exists_mem_set (ih w t hpc) hk id
    | handle hk _ _ => exact Pool.exists_mem_set (ih w t hpc) hk id
    | reply _ hk _ _ hstep => exact hhung hk hstep
    | fail _ _ _ hk _ hstep => exact hhung hk hstep

/-- A step that neither a spurious wakeup nor an outage is needed for. -/
structure Advances (s s' : Pool (c.Store tasks) (c.Rpc tasks)) : Prop where
  step : Step s s'
  not_woken : ¬Woken s s'
  outages_eq : s'.store.sched.run.outages = s.store.sched.run.outages

/-- Every thread has left its loop, every task is done, and no agent has any work to do. -/
structure Ended (s : Pool (c.Store tasks) (c.Rpc tasks)) : Prop where
  completed : s.store.sched.Completed
  done : ∀ t, (s.store.sched.run.st t).done = true
  idle : ∀ x ∈ s.procs, x.outstanding = false

lemma Ended.not_step (h : Ended s) : ¬Step s s' := by
  intro hs
  have hbusy : ∀ {k : ℕ} {x : c.Rpc tasks}, s.procs[k]? = some x → ¬x.outstanding = true := by
    intro k x hk hout
    rw [h.idle x (List.mem_of_getElem? hk)] at hout
    cases hout
  cases hs with
  | schedule hstep _ _ => exact h.completed.not_step hstep
  | call hstep _ => exact h.completed.not_step hstep
  | callNoStub hstep _ => exact h.completed.not_step hstep
  | noStub _ hstep => exact h.completed.not_step hstep
  | deliver hk hstage _ => exact hbusy hk (by simp [Rpc.outstanding, hstage])
  | handle hk hstage hhandles => exact hbusy hk (outstanding_of_handles hstage hhandles)
  | reply _ _ _ _ hstep => exact h.completed.not_step hstep
  | fail _ _ _ _ _ hstep => exact h.completed.not_step hstep

/-- The agents get on with their work, whether or not anybody waits for it. -/
lemma exists_advance_of_outstanding {x : c.Rpc tasks} (hx : x ∈ s.procs)
    (hout : x.outstanding = true) : ∃ s', Advances s s' := by
  obtain ⟨k, hk⟩ := List.mem_iff_getElem?.mp hx
  cases hstage : x.stage with
  | sent => exact ⟨_, .deliver hk hstage id, not_exists.mpr State.not_wake_self, rfl⟩
  | served call p =>
    have hp : p.isFinished = false := by simpa [Rpc.outstanding, hstage] using hout
    obtain ⟨n, p', hhandles⟩ := (c.node x.node).service.exists_handles call
      (s.store.running x.node) hp
    exact ⟨_, .handle hk hstage hhandles, not_exists.mpr State.not_wake_self, rfl⟩

lemma exists_answer {x : c.Rpc tasks} (h : x.outstanding = false) :
    ∃ answer, x.answer? = some answer := by
  cases hstage : x.stage with
  | sent => simp [Rpc.outstanding, hstage] at h
  | served call p =>
    cases p with
    | finished answer => exact ⟨answer, Rpc.answer?_eq_some.mpr ⟨call, hstage⟩⟩
    | arrived => simp [Rpc.outstanding, hstage, Phase.isFinished] at h
    | checked => simp [Rpc.outstanding, hstage, Phase.isFinished] at h
    | refused => simp [Rpc.outstanding, hstage, Phase.isFinished] at h
    | admitted => simp [Rpc.outstanding, hstage, Phase.isFinished] at h
    | executing spec => simp [Rpc.outstanding, hstage, Phase.isFinished] at h
    | executed out => simp [Rpc.outstanding, hstage, Phase.isFinished] at h

/-- No agent answers with what the controller takes for an outage. -/
lemma status_of_answer (h : (c.lts tasks).Reachable s) {x : c.Rpc tasks} (hx : x ∈ s.procs)
    {answer : Except Status RunTaskReply} (hanswer : x.answer? = some answer) (elapsed : ℚ) :
    (GrpcExecutor.attemptResult elapsed answer).status ≠ .agentError := by
  intro hres
  obtain ⟨st, rfl, hinfra⟩ := (GrpcExecutor.attemptResult_agentError_iff _ _).mp hres
  obtain ⟨call, hstage⟩ := Rpc.answer?_eq_some.mp hanswer
  have hfaithful := faithful h x hx
  have hcheck := hfaithful.check_of_error ((noneRefused h).answer_ne x hx) hstage
  have hauth : (c.node x.node).service.authenticate call.metadata = none := by
    rw [(hfaithful.2 call _ hstage).1]
    exact (c.node x.node).authenticated
  rw [AgentService.code_of_check_of_authenticate hauth hcheck] at hinfra
  cases hinfra

/-- A thread that is in `exec_.run` gets an answer, or its agent is still at work. -/
lemma exists_advance_of_calling (h : (c.lts tasks).Reachable s) (hfree : s.store.sched.MuFree)
    {w : Worker c.scheduler} {t : TaskId tasks} (hpc : s.store.sched.pc w = .calling t) :
    ∃ s', Advances s s' := by
  obtain ⟨x, hx, hwait, rfl, rfl⟩ := exists_awaited h hpc
  cases hout : x.outstanding with
  | true => exact exists_advance_of_outstanding hx hout
  | false =>
    obtain ⟨answer, hanswer⟩ := exists_answer hout
    obtain ⟨k, hk⟩ := List.mem_iff_getElem?.mp hx
    have hret := Dtest.Step.ret x.worker x.task (GrpcExecutor.attemptResult 0 answer) hfree hpc
    refine ⟨_, .reply 0 hk hwait hanswer hret, ?_, ?_⟩
    · exact not_exists.mpr (State.not_wake_of_step hret (by simp))
    · refine State.outages_step hret ?_
      rintro _ _ _ hl
      cases hl
      exact status_of_answer h hx hanswer 0

theorem exists_advance (h : (c.lts tasks).Reachable s) (hstrands : ¬s.store.sched.Strands) :
    Ended s ∨ ∃ s', Advances s s' := by
  have hr := sched_reachable h
  by_cases hout : ∃ x ∈ s.procs, x.outstanding = true
  · obtain ⟨x, hx, hout⟩ := hout
    exact .inr (exists_advance_of_outstanding hx hout)
  by_cases hcompleted : s.store.sched.Completed
  · refine .inl ⟨hcompleted, fun t => ?_, fun x hx => ?_⟩
    · by_contra hdone
      exact hstrands ⟨t, State.stranded_of_completed hr hcompleted (Bool.not_eq_true _ |>.mp hdone)⟩
    · by_contra hbusy
      exact hout ⟨x, hx, Bool.not_eq_false _ |>.mp hbusy⟩
  · right
    have hstuck := State.not_stuck_of_not_stranded hr fun t ht => hstrands ⟨t, ht⟩
    obtain ⟨l, u, ⟨hs, -⟩, hwake⟩ := @State.exists_step _ _ (fun _ => true)
      (fun _ _ => .passed) _ hstuck hcompleted
    have hquiet : (∀ w t res, l ≠ .ret w t res) →
        (∀ w, ¬Dtest.Step s.store.sched (.wake w) u) ∧
          u.run.outages = s.store.sched.run.outages := by
      intro hret
      exact ⟨State.not_wake_of_step hs hwake,
        State.outages_step hs fun w t res hl => absurd hl (hret w t res)⟩
    cases l with
    | ret w t res =>
      cases hs with
      | ret _ _ _ hfree hpc => exact exists_advance_of_calling h hfree hpc
    | call w t =>
      obtain ⟨hasleep, hsame⟩ := hquiet (by simp)
      exact ⟨_, .call hs (stub_eq w), not_exists.mpr hasleep, hsame⟩
    | wake w => exact absurd rfl (hwake w)
    | acquire w =>
      obtain ⟨hasleep, hsame⟩ := hquiet (by simp)
      exact ⟨_, .schedule hs (by simp) (by simp), not_exists.mpr hasleep, hsame⟩
    | wait w =>
      obtain ⟨hasleep, hsame⟩ := hquiet (by simp)
      exact ⟨_, .schedule hs (by simp) (by simp), not_exists.mpr hasleep, hsame⟩
    | leave w =>
      obtain ⟨hasleep, hsame⟩ := hquiet (by simp)
      exact ⟨_, .schedule hs (by simp) (by simp), not_exists.mpr hasleep, hsame⟩

/-- A run without an outage can be continued to its end. -/
theorem exists_ended (hretries : ∀ t ∈ tasks, 0 ≤ t.retries)
    {past : List (Pool (c.Store tasks) (c.Rpc tasks))} (h : (c.lts tasks).Execution past s)
    (hnone : s.store.sched.run.outages = 0) :
    ∃ more s', (c.lts tasks).Execution (past ++ more) s' ∧
      s'.store.sched.run.outages = 0 ∧ Ended s' := by
  refine h.exists_extension (I := fun u => u.store.sched.run.outages = 0) left ?_ hnone
  intro u hu hquiet
  have hstrands := State.not_strands_of_no_outage (sched_reachable hu) hquiet
  refine (exists_advance hu hstrands).imp_right ?_
  rintro ⟨u', hstep, hwoken, houtages⟩
  refine ⟨(), u', hstep, houtages.trans hquiet, ?_⟩
  exact (left_step hretries hu hstep).resolve_right fun hw => hwoken hw.1

end Cluster

/-- Every run of the cluster comes to its end. Its steps are at most a number that the slots of the
agents and the retries of the tasks determine, and three more for each time a thread wakes up by
itself. Where it is, either everything is done and nothing is possible any more, or some step is
possible that takes neither such a wakeup nor an outage, unless a task is stranded; and without an
outage none is. -/
theorem every_run_ends (c : Cluster) (tasks : List Task) (hretries : ∀ t ∈ tasks, 0 ≤ t.retries)
    (s₀ s : Pool (c.Store tasks) (c.Rpc tasks)) (wakes : List Bool)
    (hinit : (c.marked tasks).init s₀) (h : (c.marked tasks).Path s₀ wakes s) :
    wakes.length ≤ c.longest tasks + 3 * wakes.count true ∧
    (¬s.store.sched.Strands →
      (Cluster.Ended s ∧ ∀ s', ¬Cluster.Step s s') ∨ ∃ s', Cluster.Advances s s') ∧
    (s.store.sched.run.outages = 0 → ¬s.store.sched.Strands) := by
  have hr : (c.lts tasks).Reachable s :=
    Cluster.reachable_of_marked ((LTS.Reachable.init hinit).path h)
  refine ⟨Cluster.length_le hretries hinit h, fun hstrands => ?_, ?_⟩
  · refine (Cluster.exists_advance hr hstrands).imp_left fun hended => ⟨hended, fun s' => ?_⟩
    exact hended.not_step
  · exact State.not_strands_of_no_outage (Cluster.sched_reachable hr)

/-- The run in which `probe` passes. -/
theorem every_run_ends_probe :
    ∃ (s₀ s : Pool (Fleet.single.Store Fleet.probes) (Fleet.single.Rpc Fleet.probes))
      (wakes : List Bool), (Fleet.single.marked Fleet.probes).init s₀ ∧
      (Fleet.single.marked Fleet.probes).Path s₀ wakes s ∧
      (s.store.sched.run.st Fleet.probe).final = .passed ∧
      wakes.length ≤ Fleet.single.longest Fleet.probes + 3 * wakes.count true := by
  obtain ⟨past, s, h, hpassed, -⟩ := Fleet.answered
  obtain ⟨s₀, wakes, hinit, hpath⟩ := Cluster.exists_marked h.reachable
  exact ⟨s₀, s, wakes, hinit, hpath, hpassed,
    (every_run_ends Fleet.single Fleet.probes (by decide) s₀ s wakes hinit hpath).1⟩

end Dtest
