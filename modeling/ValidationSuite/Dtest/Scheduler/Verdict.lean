import ValidationSuite.Dtest.Report
import ValidationSuite.Dtest.Scheduler.Bookkeeping

/-!
# Verdicts

What the recorded attempts of a task say about its verdict, and the invariant that the two agree
in every state of every run, whatever the executor returns and in whatever order.
-/

namespace Dtest

open Transition

variable {S : Scheduler} {tasks : List Task}

/-- The number of passed attempts. -/
def passCount (l : List AttemptStatus) : ℕ := l.count .passed

/-- The number of attempts that count against the retry budget. -/
def failureCount (l : List AttemptStatus) : ℕ := l.countP AttemptStatus.isFailure

@[simp] lemma passCount_concat (l : List AttemptStatus) (x : AttemptStatus) :
    passCount (l ++ [x]) = passCount l + if x = .passed then 1 else 0 := by
  cases x <;> simp [passCount]

@[simp] lemma failureCount_concat (l : List AttemptStatus) (x : AttemptStatus) :
    failureCount (l ++ [x]) = failureCount l + if x.isFailure then 1 else 0 := by
  cases x <;> simp [failureCount, AttemptStatus.isFailure]

namespace TaskState

variable (s : TaskState S)

/-- The statuses of the recorded attempts, in order. -/
def statuses : List AttemptStatus := s.attempts.map (·.result.status)

/-- What the attempts of a task show, by its verdict. -/
def Shows (retries : ℤ) (unreachable : Prop) : Prop :=
  match s.final with
  | .passed =>
    passCount s.statuses = 1 ∧ failureCount s.statuses ≤ retries ∧
      s.statuses.getLast? = some .passed
  | .failed =>
    passCount s.statuses = 0 ∧ failureCount s.statuses = retries + 1 ∧
      s.statuses.getLast? = some .failed
  | .timedOut =>
    passCount s.statuses = 0 ∧ failureCount s.statuses = retries + 1 ∧
      s.statuses.getLast? = some .timedOut
  | .unschedulable =>
    passCount s.statuses = 0 ∧ failureCount s.statuses ≤ retries ∧ unreachable

/-- The counter, the verdict and the attempts of a task agree. Until it is done, a task has not
passed and has failures to spare. -/
def Agrees (retries : ℤ) (unreachable : Prop) : Prop :=
  s.failures = failureCount s.statuses ∧
  match s.done with
  | false =>
    s.final = .unschedulable ∧ passCount s.statuses = 0 ∧ failureCount s.statuses ≤ retries
  | true => s.Shows retries unreachable

variable {s} {retries : ℤ} {p q : Prop}

lemma Shows.mono (h : s.Shows retries p) (hpq : p → q) : s.Shows retries q := by
  unfold Shows at h ⊢
  cases hv : s.final with
  | unschedulable =>
    simp only [hv] at h ⊢
    exact ⟨h.1, h.2.1, hpq h.2.2⟩
  | passed => simpa [hv] using h
  | failed => simpa [hv] using h
  | timedOut => simpa [hv] using h

lemma Agrees.mono (h : s.Agrees retries p) (hpq : p → q) : s.Agrees retries q := by
  obtain ⟨hf, h⟩ := h
  refine ⟨hf, ?_⟩
  cases hd : s.done
  · simpa [hd] using h
  · simp only [hd] at h ⊢
    exact h.mono hpq

/-- A pending task can be given up once nobody can run it. -/
lemma Agrees.giveUp (h : s.Agrees retries p) (hdone : s.done = false) (hq : q)
    (msg : ByteString) :
    ({ s with done := true, final := .unschedulable, message := msg } : TaskState S).Agrees
      retries q := by
  obtain ⟨hf, h⟩ := h
  simp only [hdone] at h
  exact ⟨hf, h.2.1, h.2.2, hq⟩

/-- Once the run is over, the attempts show the verdict of a task even if it was never finished. -/
lemma Agrees.shows (h : s.Agrees retries p) (hp : s.done = false → p) : s.Shows retries p := by
  obtain ⟨_, h⟩ := h
  cases hd : s.done
  · simp only [hd] at h
    simp only [Shows, h.1]
    exact ⟨h.2.1, h.2.2, hp hd⟩
  · simpa [hd] using h

lemma Shows.passed_iff (h : s.Shows retries p) :
    s.final = .passed ↔ passCount s.statuses = 1 ∧ s.statuses.getLast? = some .passed ∧
      failureCount s.statuses ≤ retries := by
  unfold Shows at h
  cases hv : s.final <;> simp only [hv] at h
  · simp [h]
  · simp [h.1]
  · simp [h.1]
  · simp [h.1]

lemma Shows.failed_iff (h : s.Shows retries p) :
    s.final = .failed ↔ passCount s.statuses = 0 ∧ failureCount s.statuses = retries + 1 ∧
      s.statuses.getLast? = some .failed := by
  unfold Shows at h
  cases hv : s.final <;> simp only [hv] at h
  · simp [h.1]
  · simp [h]
  · simp [h.2.2]
  · simp only [reduceCtorEq, false_iff]
    rintro ⟨_, hfail, _⟩
    omega

lemma Shows.timedOut_iff (h : s.Shows retries p) :
    s.final = .timedOut ↔ passCount s.statuses = 0 ∧ failureCount s.statuses = retries + 1 ∧
      s.statuses.getLast? = some .timedOut := by
  unfold Shows at h
  cases hv : s.final <;> simp only [hv] at h
  · simp [h.1]
  · simp [h.2.2]
  · simp [h]
  · simp only [reduceCtorEq, false_iff]
    rintro ⟨_, hfail, _⟩
    omega

lemma Shows.unschedulable (h : s.Shows retries p) (hv : s.final = .unschedulable) :
    passCount s.statuses = 0 ∧ failureCount s.statuses ≤ retries ∧ p := by
  simpa only [Shows, hv] using h

lemma exists_last {x : AttemptStatus} (h : s.statuses.getLast? = some x) :
    ∃ last, s.attempts.getLast? = some last ∧ last.result.status = x := by
  rwa [statuses, List.getLast?_map, Option.map_eq_some_iff] at h

/-- The deciding attempt is the last one. -/
lemma Shows.exists_deciding (h : s.Shows retries p) (hne : s.final ≠ .unschedulable) :
    ∃ last, s.attempts.getLast? = some last ∧ last.result.status.verdict = s.final := by
  unfold Shows at h
  cases hv : s.final <;> simp only [hv] at h hne ⊢
  · obtain ⟨last, hlast, hst⟩ := exists_last h.2.2
    exact ⟨last, hlast, by rw [hst]; rfl⟩
  · obtain ⟨last, hlast, hst⟩ := exists_last h.2.2
    exact ⟨last, hlast, by rw [hst]; rfl⟩
  · obtain ⟨last, hlast, hst⟩ := exists_last h.2.2
    exact ⟨last, hlast, by rw [hst]; rfl⟩
  · exact absurd rfl hne

end TaskState

namespace Run

variable {r : Run S tasks}

/-- No live agent is able to run the task `t`. -/
def Unreachable (r : Run S tasks) (t : TaskId tasks) : Prop :=
  ∀ a, able a t = true → r.alive a = false

@[simp] lemma unreachable_start (a : Entry S) (t u : TaskId tasks) :
    (r.start a t).Unreachable u ↔ r.Unreachable u := Iff.rfl

@[simp] lemma unreachable_storeAttempt (a : Entry S) (t u : TaskId tasks) (res : AttemptResult) :
    (r.storeAttempt a t res).Unreachable u ↔ r.Unreachable u := Iff.rfl

@[simp] lemma unreachable_countFailure (t u : TaskId tasks) :
    (r.countFailure t).Unreachable u ↔ r.Unreachable u := Iff.rfl

@[simp] lemma unreachable_finish (t u : TaskId tasks) (f : FinalStatus) (msg : ByteString) :
    (r.finish t f msg).Unreachable u ↔ r.Unreachable u := Iff.rfl

def Agrees (r : Run S tasks) : Prop :=
  ∀ t, (r.st t).Agrees (tasks.get t).retries (r.Unreachable t)

lemma agrees_init (hr : ∀ t ∈ tasks, 0 ≤ t.retries) : ({} : Run S tasks).Agrees :=
  fun _ => ⟨rfl, rfl, rfl, hr _ (List.get_mem _ _)⟩

/-- What touches only one task has to see to that one. -/
lemma Agrees.of_st {r' : Run S tasks} (h : r.Agrees) {t : TaskId tasks}
    (hne : ∀ u, u ≠ t → r'.st u = r.st u) (halive : r'.alive = r.alive)
    (ht : (r'.st t).Agrees (tasks.get t).retries (r.Unreachable t)) : r'.Agrees := by
  intro u
  rw [Unreachable, halive]
  by_cases hu : u = t
  · subst hu
    exact ht
  · rw [hne u hu]
    exact h u

lemma Agrees.start (h : r.Agrees) (a : Entry S) (t : TaskId tasks) : (r.start a t).Agrees := by
  refine h.of_st (t := t) (fun u hu => by simp [hu]) rfl ?_
  simpa [TaskState.Agrees, TaskState.Shows, TaskState.statuses] using h t

lemma Agrees.retire (h : r.Agrees) (a : Entry S) : (r.retire a).Agrees := by
  intro u
  refine (h u).mono fun hu b hb => ?_
  simp [hu b hb]

lemma unreachable_of_stranded {t : TaskId tasks} (h : r.Stranded t) : r.Unreachable t := by
  intro a ha
  by_contra hlive
  exact absurd ((r.anyLiveCapable_iff t).mpr ⟨a, ha, by simpa using hlive⟩) (by simp [h.2.2])

lemma Agrees.resolveUnschedulable (h : r.Agrees) : r.resolveUnschedulable.Agrees := by
  apply r.resolveUnschedulable_induction h
  intro r t msg h hs
  refine h.of_st (t := t) (fun u hu => by simp [hu]) rfl ?_
  simpa using (h t).giveUp hs.1 (unreachable_of_stranded hs) msg

/-- An outage is not held against the task. -/
lemma Agrees.storeOutage (h : r.Agrees) {a : Entry S} {t : TaskId tasks} {res : AttemptResult}
    (hs : res.status = .agentError) (hdone : (r.st t).done = false) :
    (r.storeAttempt a t res).Agrees := by
  refine h.of_st (t := t) (fun u hu => by simp [hu]) rfl ?_
  simpa [hs, hdone, TaskState.Agrees, TaskState.statuses, AttemptStatus.isFailure] using h t

lemma mem_dead_record (h : ∀ a, r.alive a = false → (S.agents.get a).address ∈ r.dead)
    {a : Entry S} {t : TaskId tasks} {res : AttemptResult} (b : Entry S)
    (hb : (r.record a t res).alive b = false) :
    (S.agents.get b).address ∈ (r.record a t res).dead := by
  have hrec := Recorded.of_record r a t res
  generalize r.record a t res = r' at hrec hb ⊢
  cases hrec with
  | passed _ => exact h b hb
  | exhausted _ _ => exact h b hb
  | requeued _ _ => exact h b hb
  | again _ _ => exact h b hb
  | retired _ _ =>
    rw [resolveUnschedulable_alive, retire_alive] at hb
    rw [resolveUnschedulable_dead]
    by_cases hba : b = a
    · subst hba; simp
    · simpa using .inl (h b (by simpa [hba] using hb))

/-- What a task without a verdict has to show for itself. -/
lemma Agrees.of_pending (h : r.Agrees) {t : TaskId tasks} (hdone : (r.st t).done = false) :
    (r.st t).failures = failureCount (r.st t).statuses ∧ passCount (r.st t).statuses = 0 ∧
      failureCount (r.st t).statuses ≤ (tasks.get t).retries := by
  obtain ⟨hf, ht⟩ := h t
  simp only [hdone] at ht
  exact ⟨hf, ht.2⟩

lemma Agrees.record (h : r.Agrees) {a : Entry S} {t : TaskId tasks} {res : AttemptResult}
    (hdone : (r.st t).done = false) : (r.record a t res).Agrees := by
  obtain ⟨hf, hpass, hfail⟩ := h.of_pending hdone
  have hrec := Recorded.of_record r a t res
  generalize r.record a t res = r' at hrec ⊢
  cases hrec with
  | passed hs =>
    refine h.of_st (t := t) (fun u hu => by simp [hu]) rfl ?_
    simpa [TaskState.Agrees, TaskState.Shows, TaskState.statuses, hs,
      AttemptStatus.isFailure] using And.intro hf (And.intro hpass hfail)
  | exhausted hs hlt =>
    refine h.of_st (t := t) (fun u hu => by simp [hu]) rfl ?_
    -- the failures so far are within the budget, and one more is not
    have hall : (failureCount (r.st t).statuses : ℤ) = (tasks.get t).retries := by omega
    have hgoal := And.intro hf (And.intro hpass hall)
    cases hst : res.status with
    | passed => simp [hst, AttemptStatus.isFailure] at hs
    | agentError => simp [hst, AttemptStatus.isFailure] at hs
    | failed =>
      simpa [TaskState.Agrees, TaskState.Shows, TaskState.statuses, hst,
        AttemptStatus.isFailure, AttemptStatus.verdict] using hgoal
    | timedOut =>
      simpa [TaskState.Agrees, TaskState.Shows, TaskState.statuses, hst,
        AttemptStatus.isFailure, AttemptStatus.verdict] using hgoal
  | requeued hs hle =>
    refine h.of_st (t := t) (fun u hu => by simp [hu]) rfl ?_
    have hspare : (failureCount (r.st t).statuses : ℤ) + 1 ≤ (tasks.get t).retries := by omega
    have hfinal : (r.st t).final = .unschedulable := by
      have ht := (h t).2
      simp only [hdone] at ht
      exact ht.1
    have hne : res.status ≠ .passed := by
      intro hst
      simp [hst, AttemptStatus.isFailure] at hs
    simpa [TaskState.Agrees, TaskState.statuses, hs, hne, hdone, hfinal] using
      And.intro hf (And.intro hpass hspare)
  | retired hs _ => exact ((h.storeOutage hs hdone).retire a).resolveUnschedulable
  | again hs _ => exact h.storeOutage hs hdone

end Run

namespace State

variable {s : State S tasks}

/-- In every state of every run, the verdicts agree with the attempts. -/
theorem agrees (hr : ∀ t ∈ tasks, 0 ≤ t.retries) (h : (workers S tasks).Reachable s) :
    s.run.Agrees := by
  refine run_invariant (fun _ _ _ => id) ?_ ?_ ?_ h
  · rintro s rfl
    exact (Run.agrees_init hr).resolveUnschedulable
  · intro s w t s' _ _ ih
    exact ih.start w.1 t
  · intro s w t res s' hreach _ hpc ih
    exact ih.record (not_done_of_calling hreach hpc)

/-- When every thread has left its loop, a task without a verdict has lost all its agents. -/
lemma unreachable_of_completed (h : (workers S tasks).Reachable s) (hc : s.Completed)
    {t : TaskId tasks} (hdone : (s.run.st t).done = false) : s.run.Unreachable t := by
  intro a _
  have hpos : 0 < s.run.remaining := by
    rw [(bookkeeping h).1.remaining_eq, Int.natCast_pos, Finset.card_pos]
    exact ⟨t, by simp [Run.undone, hdone]⟩
  have hstop : s.run.continues a = false := stopped_of_exited h (hc (firstWorker a))
  by_contra hlive
  rw [(s.run.continues_iff a).mpr ⟨hpos, by simpa using hlive⟩] at hstop
  cases hstop

/-- A retired agent is on the list of dead agents. -/
lemma mem_dead (h : (workers S tasks).Reachable s) {a : Entry S} (ha : s.run.alive a = false) :
    (S.agents.get a).address ∈ s.run.dead := by
  refine run_invariant (I := fun r => ∀ a, r.alive a = false → (S.agents.get a).address ∈ r.dead)
    (fun _ _ _ => id) ?_ ?_ ?_ h a ha
  · rintro s rfl a ha
    simp [init] at ha
  · intro s w t s' _ _ ih
    exact ih
  · intro s w t res s' _ _ _ ih
    exact Run.mem_dead_record ih

end State

/-! ### The summary -/

lemma Run.summary_outcomes (r : Run S tasks) (wallSeconds : ℚ) (t : TaskId tasks) :
    (r.summary wallSeconds).outcomes[(t : ℕ)]? = some
      { task := tasks.get t
        status := (r.st t).final
        attempts := (r.st t).attempts
        message := (r.st t).message } := by
  simp [summary]

/-- The verdict of a task agrees with its attempts, at the end of every run. -/
theorem verdict_agrees_with_attempts (agents : List AgentInfo) (tasks : List Task)
    (hretries : ∀ t ∈ tasks, 0 ≤ t.retries) (s : State (Scheduler.make agents) tasks)
    (h : (workers (Scheduler.make agents) tasks).Reachable s) (hc : s.Completed)
    (wallSeconds : ℚ) :
    (s.run.summary wallSeconds).outcomes.length = tasks.length ∧
    (∀ t : TaskId tasks, ∃ o, (s.run.summary wallSeconds).outcomes[(t : ℕ)]? = some o ∧
      o.task = tasks.get t ∧
      let l := o.attempts.map (·.result.status)
      (o.status = .passed ↔
        passCount l = 1 ∧ l.getLast? = some .passed ∧ failureCount l ≤ o.task.retries) ∧
      (o.status = .failed ↔
        passCount l = 0 ∧ failureCount l = o.task.retries + 1 ∧ l.getLast? = some .failed) ∧
      (o.status = .timedOut ↔
        passCount l = 0 ∧ failureCount l = o.task.retries + 1 ∧ l.getLast? = some .timedOut) ∧
      (o.status = .unschedulable →
        passCount l = 0 ∧ failureCount l ≤ o.task.retries ∧
        ∀ a : Entry (Scheduler.make agents),
          labelsSatisfy ((Scheduler.make agents).agents.get a).labels o.task.needs = true →
          s.run.alive a = false ∧
            ((Scheduler.make agents).agents.get a).address ∈
              (s.run.summary wallSeconds).deadAgents) ∧
      (o.status ≠ .unschedulable →
        ∃ last, o.attempts.getLast? = some last ∧ last.result.status.verdict = o.status)) ∧
    (∀ fixed, (renderText fixed (s.run.summary wallSeconds)).isSome = true ∧
      ∀ suiteName, (renderJunit fixed suiteName (s.run.summary wallSeconds)).isSome = true) := by
  have hshows : ∀ t, (s.run.st t).Shows (tasks.get t).retries (s.run.Unreachable t) :=
    fun t => (State.agrees hretries h t).shows (State.unreachable_of_completed h hc)
  have hattempts : (s.run.summary wallSeconds).HasAttempts := by
    intro o ho hne
    obtain ⟨t, _, rfl⟩ := List.mem_map.mp ho
    obtain ⟨last, hlast, _⟩ := (hshows t).exists_deciding hne
    exact List.ne_nil_of_mem (List.mem_of_getLast? hlast)
  refine ⟨by simp [Run.summary], ?_, ?_⟩
  · intro t
    refine ⟨_, s.run.summary_outcomes wallSeconds t, rfl, (hshows t).passed_iff,
      (hshows t).failed_iff, (hshows t).timedOut_iff, ?_, (hshows t).exists_deciding⟩
    intro hv
    obtain ⟨hpass, hfail, hgone⟩ := (hshows t).unschedulable hv
    refine ⟨hpass, hfail, ?_⟩
    intro a ha
    exact ⟨hgone a ha, State.mem_dead h (hgone a ha)⟩
  · intro fixed
    exact ⟨hattempts.isSome_renderText, hattempts.isSome_renderJunit⟩

/-- `vm1` passes and `vm2` fails, side by side on the two slots of `kvmhost`. -/
def Fleet.passFailRun : List (Label scheduler vms) :=
  [.acquire kvm1, .call kvm1 vm1, .acquire kvm2, .call kvm2 vm2, .acquire plain, .wait plain,
   .ret kvm1 vm1 { status := .passed }, .wait kvm1, .ret kvm2 vm2 { status := .failed },
   .leave kvm2, .acquire kvm1, .leave kvm1, .acquire plain, .leave plain]

/-- The completed run of the two tasks, and its report. -/
theorem verdict_agrees_with_attempts_passFail :
    ∃ s : State Fleet.scheduler Fleet.vms, State.init.follow Fleet.passFailRun = some s ∧
      s.Completed ∧ (s.run.st Fleet.vm1).final = .passed ∧ (s.run.st Fleet.vm2).final = .failed ∧
      ∀ fixed, (renderText fixed (s.run.summary 0)).isSome = true := by
  obtain ⟨s, hs, hr, hc, hpassed, hfailed⟩ := State.exists_follow Fleet.passFailRun
    (fun s => s.Completed ∧ (s.run.st Fleet.vm1).final = .passed ∧
      (s.run.st Fleet.vm2).final = .failed) (by decide)
  obtain ⟨_, _, hreport⟩ :=
    verdict_agrees_with_attempts Fleet.hosts Fleet.vms (by decide) s hr hc 0
  exact ⟨s, hs, hc, hpassed, hfailed, fun fixed => (hreport fixed).1⟩

end Dtest
