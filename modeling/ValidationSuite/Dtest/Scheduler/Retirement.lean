import ValidationSuite.Dtest.Scheduler.History

/-!
# Retiring an agent

Several slots of an agent can see it fail at once. The first to report the failure retires the
agent, the others find it retired; what is still in flight on it is recorded as it returns, and
nothing is started on it again.
-/

namespace Dtest

open Transition

variable {S : Scheduler} {tasks : List Task}

def Event.retired : Event S tasks → Option (Entry S)
  | .retire a => some a
  | .call _ _ | .ret _ _ _ | .finish _ _ => none

namespace Run

variable (r : Run S tasks)

/-- The agent entries that have been retired, in order. -/
def retirements : List (Entry S) := r.events.filterMap Event.retired

@[simp] lemma retirements_start (a : Entry S) (t : TaskId tasks) :
    (r.start a t).retirements = r.retirements := by
  simp [retirements, Event.retired]

@[simp] lemma retirements_storeAttempt (a : Entry S) (t : TaskId tasks) (res : AttemptResult) :
    (r.storeAttempt a t res).retirements = r.retirements := by
  simp [retirements, Event.retired]

@[simp] lemma retirements_countFailure (t : TaskId tasks) :
    (r.countFailure t).retirements = r.retirements := rfl

@[simp] lemma retirements_finish (t : TaskId tasks) (f : FinalStatus) (msg : ByteString) :
    (r.finish t f msg).retirements = r.retirements := by
  simp [retirements, Event.retired]

@[simp] lemma retirements_retire (a : Entry S) :
    (r.retire a).retirements = r.retirements ++ [a] := by
  simp [retirements, Event.retired]

@[simp] lemma retirements_resolveUnschedulable :
    r.resolveUnschedulable.retirements = r.retirements :=
  r.resolveUnschedulable_induction (P := fun r' => r'.retirements = r.retirements) rfl
    fun r' t msg h _ => by rw [retirements_finish, h]

/-- An outage retires the agent that is alive, and nothing else retires anybody. -/
lemma retirements_record (a : Entry S) (t : TaskId tasks) (res : AttemptResult) :
    (r.record a t res).retirements =
      r.retirements ++ if res.status = .agentError ∧ r.alive a = true then [a] else [] := by
  have hfailure : res.status.isFailure = true → res.status ≠ .agentError := by
    cases res.status <;> simp [AttemptStatus.isFailure]
  have hrec := Recorded.of_record r a t res
  generalize r.record a t res = r' at hrec ⊢
  cases hrec with
  | passed hs => simp [hs]
  | exhausted hs _ => simp [hfailure hs]
  | requeued hs _ => simp [hfailure hs]
  | retired hs halive => simp [hs, halive]
  | again hs hdead => simp [hdead]

/-- `dead_` lists the agents that are not alive, each once. -/
structure Roster : Prop where
  dead_eq : r.dead = r.retirements.map fun a => (S.agents.get a).address
  nodup : r.retirements.Nodup
  mem_iff : ∀ a, a ∈ r.retirements ↔ r.alive a = false

variable {r}

lemma Roster.congr (h : r.Roster) {r' : Run S tasks} (hdead : r'.dead = r.dead)
    (hretirements : r'.retirements = r.retirements) (halive : r'.alive = r.alive) :
    r'.Roster where
  dead_eq := by rw [hdead, hretirements, h.dead_eq]
  nodup := hretirements ▸ h.nodup
  mem_iff a := by rw [hretirements, halive, h.mem_iff]

lemma Roster.retire (h : r.Roster) {a : Entry S} (halive : r.alive a = true) :
    (r.retire a).Roster where
  dead_eq := by simp [h.dead_eq]
  nodup := by
    have hnew : a ∉ r.retirements := by simp [h.mem_iff, halive]
    rw [retirements_retire, List.nodup_append]
    refine ⟨h.nodup, List.nodup_singleton a, ?_⟩
    rintro b hb c hc rfl
    exact hnew (List.mem_singleton.mp hc ▸ hb)
  mem_iff b := by
    by_cases hb : b = a
    · simp [hb]
    · simp [hb, h.mem_iff]

lemma Roster.record (h : r.Roster) (a : Entry S) (t : TaskId tasks) (res : AttemptResult) :
    (r.record a t res).Roster := by
  have hstored : (r.storeAttempt a t res).Roster :=
    h.congr rfl (r.retirements_storeAttempt a t res) rfl
  have hrec := Recorded.of_record r a t res
  generalize r.record a t res = r' at hrec ⊢
  cases hrec with
  | passed _ => exact hstored.congr rfl (retirements_finish _ _ _ _) rfl
  | exhausted _ _ => exact hstored.congr rfl (retirements_finish _ _ _ _) rfl
  | requeued _ _ => exact hstored.congr rfl rfl rfl
  | retired _ halive =>
    have hretired := hstored.retire halive
    exact hretired.congr (resolveUnschedulable_dead _) (retirements_resolveUnschedulable _)
      (resolveUnschedulable_alive _)
  | again _ _ => exact hstored

end Run

namespace State

variable {s s' : State S tasks} {l : Label S tasks} {ls : List (Label S tasks)}

theorem roster (h : (workers S tasks).Reachable s) : s.run.Roster := by
  refine run_invariant (fun _ _ _ => id) ?_ ?_ ?_ h
  · rintro s rfl
    have hstart : ({} : Run S tasks).Roster :=
      ⟨rfl, List.nodup_nil, fun a => iff_of_false List.not_mem_nil (by simp)⟩
    exact hstart.congr (Run.resolveUnschedulable_dead _) (Run.retirements_resolveUnschedulable _)
      (Run.resolveUnschedulable_alive _)
  · intro s w t s' _ _ ih
    exact ih.congr rfl (s.run.retirements_start w.1 t) rfl
  · intro s w t res s' _ _ _ ih
    exact ih.record w.1 t res

lemma retirements_step (hs : Step s l s') : s.run.retirements <+: s'.run.retirements := by
  cases hs with
  | acquire _ _ _ => exact List.prefix_rfl
  | wake _ _ => exact List.prefix_rfl
  | wait _ _ _ _ => exact List.prefix_rfl
  | leave _ _ => exact List.prefix_rfl
  | call w t _ _ _ =>
    rw [setPc_run, withRun_run, Run.retirements_start]
  | ret w t res _ _ =>
    rw [setPc_run, withRun_notifyAll_run, Run.retirements_record]
    exact List.prefix_append _ _

lemma retirements_path (h : (workers S tasks).Path s ls s') :
    s.run.retirements <+: s'.run.retirements := by
  induction h with
  | nil s => exact List.prefix_rfl
  | cons hs _ ih => exact (retirements_step hs).trans ih

/-- Nothing is started on an agent that is retired. -/
lemma alive_of_call (h : (workers S tasks).Path s ls s') {w : Worker S} {t : TaskId tasks}
    (hcall : .call w t ∈ ls) : s.run.alive w.1 = true := by
  induction h with
  | nil s => cases hcall
  | @cons s u s' l ls hs _ ih =>
    rcases List.mem_cons.mp hcall with rfl | hcall
    · cases hs with
      | call _ _ _ hcond _ => exact ((s.run.continues_iff w.1).mp hcond).2
    · by_contra hdead
      have hlater := alive_step hs (Bool.not_eq_true _ |>.mp hdead)
      rw [ih hcall] at hlater
      cases hlater

end State

/-- In every run: `dead_` lists each retired agent entry once, and these are the entries that are
not alive and those on which a call has returned with `AgentError`. They stay retired and nothing
is started on them, but a call that is in flight on one returns and is recorded. -/
theorem retirement_once_and_final (agents : List AgentInfo) (tasks : List Task)
    (ls : List (Label (Scheduler.make agents) tasks)) (s : State (Scheduler.make agents) tasks)
    (h : (workers (Scheduler.make agents) tasks).Path .init ls s) :
    (s.run.dead = s.run.retirements.map (fun a => ((Scheduler.make agents).agents.get a).address) ∧
      s.run.retirements.Nodup) ∧
    (∀ a, a ∈ s.run.retirements ↔ s.run.alive a = false) ∧
    (∀ a, a ∈ s.run.retirements ↔ ∃ (w : Worker (Scheduler.make agents)) (t : TaskId tasks)
      (res : AttemptResult), .ret w t res ∈ ls ∧ w.1 = a ∧ res.status = .agentError) ∧
    (∀ ls' s', (workers (Scheduler.make agents) tasks).Path s ls' s' →
      s.run.retirements <+: s'.run.retirements ∧
        ∀ w t, .call w t ∈ ls' → w.1 ∉ s.run.retirements) ∧
    (∀ w t res, s.pc w = .calling t → w.1 ∈ s.run.retirements → s.MuFree →
      ∃ s', Step s (.ret w t res) s' ∧ s'.run.retirements = s.run.retirements ∧
        (s'.run.st t).attempts = (s.run.st t).attempts ++
          [⟨((Scheduler.make agents).agents.get w.1).address, res⟩]) := by
  obtain ⟨hdead, hnodup, hmem⟩ := State.roster (LTS.Reachable.path (.init rfl) h)
  have htraced := State.traced h
  refine ⟨⟨hdead, hnodup⟩, hmem, ?_, ?_, ?_⟩
  · intro a
    rw [hmem, ← Bool.not_eq_true, htraced.alive_iff]
    push Not
    constructor
    · rintro ⟨t, res, hres, hstatus⟩
      obtain ⟨w, hw, rfl⟩ := mem_returnsOf.mp hres
      exact ⟨w, t, res, hw, rfl, hstatus⟩
    · rintro ⟨w, t, res, hw, rfl, hstatus⟩
      exact ⟨t, res, mem_returnsOf.mpr ⟨w, hw, rfl⟩, hstatus⟩
  · intro ls' s' hpath
    refine ⟨State.retirements_path hpath, ?_⟩
    intro w t hcall hretired
    rw [hmem, State.alive_of_call hpath hcall] at hretired
    cases hretired
  · intro w t res hpc hretired hfree
    refine ⟨_, .ret w t res hfree hpc, ?_, ?_⟩
    · simp [Run.retirements_record, (hmem w.1).mp hretired]
    · simp [(s.run.record_memory w.1 t t res).1]

/-- Both slots of `kvmhost` report the outage, and it is retired once. -/
theorem retirement_once_and_final_outage :
    ∃ s : State Fleet.scheduler Fleet.vms, State.init.follow Fleet.outageRun = some s ∧
      (s.run.retirements.Nodup ∧ s.run.retirements = [Fleet.kvm1.1]) ∧
      ∀ ls s', (workers Fleet.scheduler Fleet.vms).Path s ls s' → ∀ t, .call Fleet.kvm2 t ∉ ls := by
  obtain ⟨s, hs, -, honce⟩ := State.exists_follow Fleet.outageRun
    (fun s => s.run.retirements = [Fleet.kvm1.1]) (by decide)
  obtain ⟨⟨-, hnodup⟩, -, -, hfinal, -⟩ := retirement_once_and_final Fleet.hosts Fleet.vms
    Fleet.outageRun s (State.path_of_follow hs)
  refine ⟨s, hs, ⟨hnodup, honce⟩, ?_⟩
  intro ls s' hpath t hcall
  apply (hfinal ls s' hpath).2 Fleet.kvm2 t hcall
  rw [honce]
  decide

end Dtest
