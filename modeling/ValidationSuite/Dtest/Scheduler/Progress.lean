import ValidationSuite.Dtest.Scheduler.Bookkeeping
import ValidationSuite.Dtest.Scheduler.Wakeup

/-!
# Progress

As long as every pending task has a live agent that can run it, the threads never all sleep. A
retirement resolves the tasks that lose their last agent, except those that are in flight on
another slot at that moment. When such a call returns without deciding its task, the task is put
back although nobody can run it, and nothing resolves it any more: this is how the scheduler gets
stuck, and the only way.
-/

namespace Dtest

open Transition ByteString

variable {S : Scheduler} {tasks : List Task}

/-- A thread only calls `exec_.run` for a task its agent is able to run. -/
theorem State.able_of_calling {s : State S tasks} (h : (workers S tasks).Reachable s)
    {w : Worker S} {t : TaskId tasks} (hw : s.pc w = .calling t) : able w.1 t = true := by
  refine h.invariant (I := fun s => ∀ w t, s.pc w = .calling t → able w.1 t = true) ?_ ?_ w t hw
  · rintro s rfl w t hw
    cases hw
  · intro s l s' _ ih hs w t hw
    rcases hs.calling hw with hc | rfl
    · exact ih w t hc
    · cases hs with
      | call _ _ _ _ hpick =>
        exact ((s.run.eligible_iff _ _).mp (Run.eligible_of_pick _ hpick)).1.2.2

/-- Does the result `res` finish the task `t`? -/
def Run.decides (r : Run S tasks) (t : TaskId tasks) (res : AttemptResult) : Bool :=
  match res.status with
  | .passed => true
  | .failed | .timedOut => decide ((r.st t).failures + 1 > (tasks.get t).retries)
  | .agentError => false

namespace State

/-- If tasks remain and some thread has not left its loop, then a task is running or a thread of
a live agent finds a task to pick. -/
def Progresses (s : State S tasks) : Prop :=
  0 < s.run.remaining → (∃ w, s.pc w ≠ .exited) →
    (∃ t, (s.run.st t).running = true) ∨
      ∃ w : Worker S, s.run.alive w.1 = true ∧ (s.run.pick w.1).isSome = true

/-- All remaining threads are asleep in `cv_.wait`, and no attempt is in flight. -/
def Stuck (s : State S tasks) : Prop :=
  (∃ w, s.pc w = .waiting) ∧ ∀ w, s.pc w = .waiting ∨ s.pc w = .exited

instance (s : State S tasks) : Decidable s.Progresses :=
  inferInstanceAs (Decidable (_ → _ → _))

instance (s : State S tasks) : Decidable s.Stuck := inferInstanceAs (Decidable (_ ∧ _))

/-- The step does not put a task back that no live agent is able to run: when a call returns from
an agent that is already retired, and its result does not decide the task, some live agent is able
to run the task. -/
def KeepsRunnable (s : State S tasks) : Label S tasks → Prop
  | .ret w t res => s.run.alive w.1 = false → s.run.decides t res = false →
      ∃ b, able b t = true ∧ s.run.alive b = true
  | _ => True

end State

/-! ### Pending tasks keep an agent -/

namespace Run

variable {r : Run S tasks}

lemma not_stranded_of_alive {a : Entry S} {t : TaskId tasks} (hable : able a t = true)
    (halive : r.alive a = true) : ¬ r.Stranded t := by
  rintro ⟨_, _, hnone⟩
  rw [(r.anyLiveCapable_iff t).mpr ⟨a, hable, halive⟩] at hnone
  cases hnone

/-- Recording a result strands no task, if it keeps its own task runnable. -/
lemma not_stranded_record (h : ∀ t, ¬ r.Stranded t) {a : Entry S} {t : TaskId tasks}
    {res : AttemptResult} (hable : able a t = true)
    (hkeep : r.alive a = false → r.decides t res = false →
      ∃ b, able b t = true ∧ r.alive b = true) (u : TaskId tasks) :
    ¬ (r.record a t res).Stranded u := by
  -- unless it decides the task, the task still has a live agent
  have hlive : r.decides t res = false → ∃ b, able b t = true ∧ r.alive b = true := by
    intro hd
    cases ha : r.alive a
    · exact hkeep ha hd
    · exact ⟨a, hable, ha⟩
  have hrec := Recorded.of_record r a t res
  generalize r.record a t res = r' at hrec ⊢
  by_cases hut : u = t
  · subst hut
    cases hrec with
    | passed _ => simp [Stranded]
    | exhausted _ _ => simp [Stranded]
    | requeued hs hf =>
      obtain ⟨b, hb, hbl⟩ := hlive (by
        cases hst : res.status <;> simp_all [decides, AttemptStatus.isFailure])
      exact not_stranded_of_alive hb (by simpa using hbl)
    | retired _ _ => exact not_stranded_resolveUnschedulable _ u
    | again hs _ =>
      obtain ⟨b, hb, hbl⟩ := hlive (by simp [decides, hs])
      exact not_stranded_of_alive hb (by simpa using hbl)
  · cases hrec with
    | passed _ => exact mt (stranded_congr (by simp [hut]) (by simp)).mp (h u)
    | exhausted _ _ => exact mt (stranded_congr (by simp [hut]) (by simp)).mp (h u)
    | requeued _ _ => exact mt (stranded_congr (by simp [hut]) (by simp)).mp (h u)
    | retired _ _ => exact not_stranded_resolveUnschedulable _ u
    | again _ _ => exact mt (stranded_congr (by simp [hut]) (by simp)).mp (h u)

end Run

namespace State

variable {s s' : State S tasks} {l : Label S tasks}

lemma not_stranded_step (hr : (workers S tasks).Reachable s) (h : ∀ t, ¬ s.run.Stranded t)
    (hs : Step s l s') (hkeep : s.KeepsRunnable l) (t : TaskId tasks) : ¬ s'.run.Stranded t := by
  cases hs with
  | acquire _ _ _ => exact h t
  | wake _ _ => exact h t
  | wait _ _ _ _ => exact h t
  | leave _ _ => exact h t
  | call w u _ _ _ =>
    rintro ⟨hdone, hrun, hlive⟩
    by_cases htu : t = u
    · simp [htu] at hrun
    · refine h t ⟨?_, ?_, hlive⟩
      · simpa [htu] using hdone
      · simpa [htu] using hrun
  | ret w u res _ hpc => exact Run.not_stranded_record h (able_of_calling hr hpc) hkeep t

/-- Along a run whose steps keep their tasks runnable, every pending task has a live agent that is
able to run it. -/
theorem not_stranded (h : ((workers S tasks).restrict KeepsRunnable).Reachable s)
    (t : TaskId tasks) : ¬ s.run.Stranded t := by
  refine h.invariant (I := fun s => ∀ t, ¬ s.run.Stranded t) ?_ ?_ t
  · rintro s rfl t
    exact Run.not_stranded_resolveUnschedulable _ t
  · intro s l s' hr ih ⟨hs, hkeep⟩ t
    exact not_stranded_step hr.of_restrict ih hs hkeep t

lemma exists_undone (hl : s.run.Ledger) (h : 0 < s.run.remaining) :
    ∃ t, (s.run.st t).done = false := by
  rw [hl.remaining_eq, Int.natCast_pos, Finset.card_pos] at h
  obtain ⟨t, ht⟩ := h
  exact ⟨t, by simpa [Run.undone] using ht⟩

/-- Without stranded tasks, a task is running or somebody can pick one. -/
lemma running_or_pick (hl : s.run.Ledger) (h : ∀ t, ¬ s.run.Stranded t)
    (hpos : 0 < s.run.remaining) :
    (∃ t, (s.run.st t).running = true) ∨
      ∃ a, s.run.alive a = true ∧ (s.run.pick a).isSome = true := by
  obtain ⟨t, hdone⟩ := exists_undone hl hpos
  by_cases hrun : (s.run.st t).running = true
  · exact .inl ⟨t, hrun⟩
  right
  have hrun := Bool.not_eq_true _ |>.mp hrun
  have hlive : s.run.anyLiveCapable t = true := by
    by_contra hnone
    exact h t ⟨hdone, hrun, Bool.not_eq_true _ |>.mp hnone⟩
  obtain ⟨a, hable, halive⟩ := (s.run.anyLiveCapable_iff t).mp hlive
  obtain ⟨b, hb, helig⟩ := s.run.exists_eligible hdone hrun hable halive
  refine ⟨b, hb, ?_⟩
  by_contra hnone
  have hpick := (s.run.pick_eq_none_iff b).mp (by simpa using hnone) t
  rw [helig] at hpick
  cases hpick

lemma progresses_of_not_stranded (hr : (workers S tasks).Reachable s)
    (h : ∀ t, ¬ s.run.Stranded t) : s.Progresses := by
  intro hpos _
  rcases running_or_pick (bookkeeping hr).1 h hpos with hrun | ⟨a, ha, hpick⟩
  · exact .inl hrun
  · exact .inr ⟨firstWorker a, ha, hpick⟩

lemma not_stuck_of_not_stranded (hr : (workers S tasks).Reachable s)
    (h : ∀ t, ¬ s.run.Stranded t) : ¬ s.Stuck := by
  rintro ⟨⟨w, hw⟩, hall⟩
  obtain ⟨hl, ht⟩ := bookkeeping hr
  obtain ⟨hpos, _⟩ := (s.run.continues_iff w.1).mp (idle_of_waiting hr hw).1
  rcases running_or_pick hl h hpos with ⟨t, hrun⟩ | ⟨a, ha, hpick⟩
  · obtain ⟨v, hv⟩ := (ht.running_iff t).mp hrun
    rcases hall v with hp | hp
    · rw [hp] at hv; cases hv
    · rw [hp] at hv; cases hv
  · rcases hall (firstWorker a) with hp | hp
    · have hnone : s.run.pick a = none := (idle_of_waiting hr hp).2
      rw [hnone] at hpick
      cases hpick
    · have hstop : s.run.continues a = false := stopped_of_exited hr hp
      rw [(s.run.continues_iff a).mpr ⟨hpos, ha⟩] at hstop
      cases hstop

end State

/-! ### The scheduler can get stuck -/

/-- In `Fleet.outageRun` the second slot of `kvmhost` returns after the first has retired it. Its
task is put back, no live agent is able to run it, and `plain` sleeps for good. -/
theorem scheduler_gets_stuck :
    ∃ s, (workers Fleet.scheduler Fleet.vms).Reachable s ∧ ¬ s.Progresses ∧ s.Stuck := by
  obtain ⟨s, _, hr, hp⟩ := State.exists_follow Fleet.outageRun
    (fun s => ¬ s.Progresses ∧ s.Stuck) (by decide)
  exact ⟨s, hr, hp⟩

/-- Every run whose steps keep their tasks runnable progresses, and never has all its remaining
threads asleep. -/
theorem scheduler_never_stuck (agents : List AgentInfo) (tasks : List Task)
    (s : State (Scheduler.make agents) tasks)
    (h : ((workers (Scheduler.make agents) tasks).restrict State.KeepsRunnable).Reachable s) :
    s.Progresses ∧ ¬ s.Stuck :=
  ⟨State.progresses_of_not_stranded h.of_restrict (State.not_stranded h),
    State.not_stuck_of_not_stranded h.of_restrict (State.not_stranded h)⟩

namespace Fleet

/-- Another host has KVM as well. -/
def spareHosts : List AgentInfo :=
  [{ address := lit "kvmhost", slots := 2, labels := [lit "kvm=true"] },
   { address := lit "spare", labels := [lit "kvm=true"] }]

abbrev spareScheduler : Scheduler := Scheduler.make spareHosts

def first : Worker spareScheduler := ⟨⟨0, by decide⟩, ⟨0, by decide⟩⟩

def second : Worker spareScheduler := ⟨⟨0, by decide⟩, ⟨1, by decide⟩⟩

def spare : Worker spareScheduler := ⟨⟨1, by decide⟩, ⟨0, by decide⟩⟩

end Fleet

/-- Both slots of `kvmhost` are busy and `spare` sleeps; the first slot returns and retires the host,
and when the second one returns after that, its task is put back for `spare`. -/
theorem scheduler_never_stuck_spare :
    ∃ s : State Fleet.spareScheduler Fleet.vms,
      ((workers Fleet.spareScheduler Fleet.vms).restrict State.KeepsRunnable).Reachable s ∧
      0 < s.run.remaining ∧ s.run.alive Fleet.second.1 = false ∧
      (∀ t, (s.run.st t).running = false) ∧
      ∃ w : Worker Fleet.spareScheduler,
        s.run.alive w.1 = true ∧ (s.run.pick w.1).isSome = true := by
  have h := LTS.Reachable.init
      (A := (workers Fleet.spareScheduler Fleet.vms).restrict State.KeepsRunnable)
      (s := State.init) rfl
    |>.step ⟨.acquire Fleet.first (by decide) (by decide), trivial⟩
    |>.step ⟨.call Fleet.first Fleet.vm1 (by decide) (by decide) (by decide), trivial⟩
    |>.step ⟨.acquire Fleet.second (by decide) (by decide), trivial⟩
    |>.step ⟨.call Fleet.second Fleet.vm2 (by decide) (by decide) (by decide), trivial⟩
    |>.step ⟨.acquire Fleet.spare (by decide) (by decide), trivial⟩
    |>.step ⟨.wait Fleet.spare (by decide) (by decide) (by decide), trivial⟩
    |>.step ⟨.ret Fleet.first Fleet.vm1 Fleet.outage (by decide) (by decide),
      fun halive => absurd halive (by decide)⟩
    |>.step ⟨.leave Fleet.first (by decide) (by decide), trivial⟩
    -- the host is retired by now, and `spare` can run the task
    |>.step ⟨.ret Fleet.second Fleet.vm2 Fleet.outage (by decide) (by decide),
      fun _ _ => ⟨Fleet.spare.1, by decide, by decide⟩⟩
    |>.step ⟨.leave Fleet.second (by decide) (by decide), trivial⟩
  obtain ⟨hprogress, -⟩ := scheduler_never_stuck Fleet.spareHosts Fleet.vms _ h
  refine ⟨_, h, by decide, by decide, by decide, ?_⟩
  rcases hprogress (by decide) ⟨Fleet.spare, by decide⟩ with ⟨t, hrun⟩ | hpick
  · revert t
    decide
  · exact hpick

end Dtest
