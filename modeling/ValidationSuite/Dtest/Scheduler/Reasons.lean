import ValidationSuite.Dtest.Scheduler.Reference

/-!
# Why a task is unschedulable

A task is given up by `resolve_unschedulable`, which says why. A task that has never been resolved
is reported as unschedulable too, since this is what its state says from the beginning, and without
a reason. At the end of a run there is such a task when one has been put back that nobody can run
any more, and no agent has been retired after that.
-/

namespace Dtest

open ByteString Transition

variable {S : Scheduler} {tasks : List Task}

/-! ### Messages -/

/-- The requirements, joined by commas. Empty ones at the beginning leave no trace. -/
lemma Run.joinNeeds_eq (needs : List ByteString) :
    joinNeeds needs = (lit ", ").intercalate (needs.dropWhile List.isEmpty) := by
  induction needs with
  | nil => rfl
  | cons need needs ih =>
    by_cases hneed : need = []
    · subst hneed
      exact ih
    · rw [List.dropWhile_cons_of_neg (by simpa using hneed), intercalate_cons,
        ← foldl_join _ hneed]
      rfl

/-- What a task is told that no agent entry could ever run. -/
def noAgentText (needs : List ByteString) : ByteString :=
  let req := (lit ", ").intercalate (needs.dropWhile List.isEmpty)
  lit "no agent provides the required labels" ++
    if req = [] then [] else lit " [" ++ req ++ lit "]"

/-- What a task is told that has lost its agents. -/
def unreachableText : ByteString :=
  lit "every agent that could run this task became unreachable"

lemma Run.unschedulableMessage_eq (anyCapable : Bool) (needs : List ByteString) :
    unschedulableMessage anyCapable needs =
      if anyCapable then unreachableText else noAgentText needs := by
  simp only [unschedulableMessage, joinNeeds_eq, noAgentText, unreachableText, List.isEmpty_iff]

lemma noAgentText_ne (needs : List ByteString) : noAgentText needs ≠ unreachableText := by
  intro h
  have hno : (noAgentText needs).head? = some 110 := rfl
  have hevery : unreachableText.head? = some 101 := rfl
  rw [h, hevery] at hno
  exact absurd hno (by decide)

lemma noAgentText_ne_nil (needs : List ByteString) : noAgentText needs ≠ [] := by
  simp [noAgentText, lit]

lemma unreachableText_ne_nil : unreachableText ≠ [] := by
  simp [unreachableText, lit]

/-! ### Resolved tasks have a reason -/

namespace Run

variable {r : Run S tasks}

/-- Each task that has been given up has been told why. -/
def Reasons (r : Run S tasks) : Prop :=
  ∀ t, (r.st t).done = true → (r.st t).final = .unschedulable →
    (r.st t).message = unschedulableMessage (capable S t) (tasks.get t).needs

/-- What touches one task, and neither its verdict nor its message, keeps the reasons. -/
lemma Reasons.of_st {r' : Run S tasks} (h : r.Reasons) (t : TaskId tasks)
    (hne : ∀ u, u ≠ t → r'.st u = r.st u) (hdone : (r'.st t).done = (r.st t).done)
    (hfinal : (r'.st t).final = (r.st t).final)
    (hmessage : (r'.st t).message = (r.st t).message) : r'.Reasons := by
  intro u
  by_cases hu : u = t
  · subst hu
    rw [hdone, hfinal, hmessage]
    exact h u
  · rw [hne u hu]
    exact h u

lemma Reasons.start (h : r.Reasons) (a : Entry S) (t : TaskId tasks) : (r.start a t).Reasons :=
  h.of_st t (fun u hu => by simp [hu]) (by simp) (by simp) (by simp)

lemma Reasons.storeAttempt (h : r.Reasons) (a : Entry S) (t : TaskId tasks) (res : AttemptResult) :
    (r.storeAttempt a t res).Reasons :=
  h.of_st t (fun u hu => by simp [hu]) (by simp) (by simp) (by simp)

lemma Reasons.countFailure (h : r.Reasons) (t : TaskId tasks) : (r.countFailure t).Reasons :=
  h.of_st t (fun u hu => by simp [hu]) (by simp) (by simp) (by simp)

/-- A verdict that comes from an attempt needs no reason. -/
lemma Reasons.finish (h : r.Reasons) (t : TaskId tasks) {f : FinalStatus} (hf : f ≠ .unschedulable)
    (msg : ByteString) : (r.finish t f msg).Reasons := by
  intro u
  by_cases hu : u = t
  · simp [hu, hf]
  · simpa [hu] using h u

lemma Reasons.resolveUnschedulable (h : r.Reasons) : r.resolveUnschedulable.Reasons := by
  intro t
  rw [resolveUnschedulable_st]
  split_ifs with hs
  · exact fun _ _ => rfl
  · exact h t

lemma Reasons.record (h : r.Reasons) (a : Entry S) (t : TaskId tasks) (res : AttemptResult) :
    (r.record a t res).Reasons := by
  have hstored := h.storeAttempt a t res
  have hrec := Recorded.of_record r a t res
  generalize r.record a t res = r' at hrec ⊢
  cases hrec with
  | passed _ => exact hstored.finish t (by simp) []
  | exhausted hs _ =>
    refine (hstored.countFailure t).finish t ?_ []
    cases hst : res.status with
    | failed => simp [AttemptStatus.verdict]
    | timedOut => simp [AttemptStatus.verdict]
    | passed => simp [hst, AttemptStatus.isFailure] at hs
    | agentError => simp [hst, AttemptStatus.isFailure] at hs
  | requeued _ _ => exact hstored.countFailure t
  | retired _ _ => exact Reasons.resolveUnschedulable hstored
  | again _ _ => exact hstored

end Run

theorem State.reasons {s : State S tasks} (h : (workers S tasks).Reachable s) : s.run.Reasons := by
  refine run_invariant (fun _ _ _ => id) ?_ ?_ ?_ h
  · rintro s rfl
    refine Run.Reasons.resolveUnschedulable fun t hdone => ?_
    cases hdone
  · intro s w t s' _ _ ih
    exact ih.start w.1 t
  · intro s w t res s' _ _ _ ih
    exact ih.record w.1 t res

/-! ### Runs that forget a task -/

namespace State

variable {s s' : State S tasks} {l : Label S tasks} {ls : List (Label S tasks)}

instance (s : State S tasks) (l : Label S tasks) : Decidable (s.KeepsRunnable l) :=
  match l with
  | .ret _ _ _ => inferInstanceAs (Decidable (_ → _ → ∃ _, _ ∧ _))
  | .acquire _ | .wake _ | .wait _ | .call _ _ | .leave _ => inferInstanceAs (Decidable True)

/-- The step retires an agent, and so resolves what nobody can run any more. -/
def retires (s : State S tasks) : Label S tasks → Bool
  | .ret w _ res => decide (res.status = .agentError) && s.run.alive w.1
  | .acquire _ | .wake _ | .wait _ | .call _ _ | .leave _ => false

/-- Some of the steps retires an agent. -/
def retiresIn : State S tasks → List (Label S tasks) → Bool
  | _, [] => false
  | s, l :: ls => s.retires l || (s.next l).any fun s' => s'.retiresIn ls

/-- Some of the steps puts a task back that nobody can run, and none after it retires an agent. -/
def forgets : State S tasks → List (Label S tasks) → Bool
  | _, [] => false
  | s, l :: ls => (s.next l).any fun s' =>
      !decide (s.KeepsRunnable l) && !s'.retiresIn ls || s'.forgets ls

lemma keepsRunnable_of_retires (h : s.retires l = true) : s.KeepsRunnable l := by
  cases l with
  | ret w t res =>
    obtain ⟨-, halive⟩ := Bool.and_eq_true_iff.mp h
    intro hdead
    rw [hdead] at halive
    cases halive
  | acquire w => trivial
  | wake w => trivial
  | wait w => trivial
  | call w t => trivial
  | leave w => trivial

/-- There is a pending task that no live agent can run. -/
def Strands (s : State S tasks) : Prop := ∃ t, s.run.Stranded t

end State

namespace Run

variable {r : Run S tasks}

lemma stranded_record_of_ne {a : Entry S} {t u : TaskId tasks} {res : AttemptResult} (hu : u ≠ t)
    (hretires : ¬ (res.status = .agentError ∧ r.alive a = true)) :
    (r.record a t res).Stranded u ↔ r.Stranded u := by
  have hrec := Recorded.of_record r a t res
  generalize r.record a t res = r' at hrec ⊢
  cases hrec with
  | passed _ => exact stranded_congr (by simp [hu]) (by simp)
  | exhausted _ _ => exact stranded_congr (by simp [hu]) (by simp)
  | requeued _ _ => exact stranded_congr (by simp [hu]) (by simp)
  | retired hs halive => exact absurd ⟨hs, halive⟩ hretires
  | again _ _ => exact stranded_congr (by simp [hu]) (by simp)

lemma not_stranded_record_of_retires {a : Entry S} {t : TaskId tasks} {res : AttemptResult}
    (hs : res.status = .agentError) (halive : r.alive a = true) (u : TaskId tasks) :
    ¬ (r.record a t res).Stranded u := by
  have hrec : r.record a t res = ((r.storeAttempt a t res).retire a).resolveUnschedulable := by
    simp [record, hs, halive]
  rw [hrec]
  exact not_stranded_resolveUnschedulable _ u

/-- The task whose result is recorded is stranded afterwards if it is put back and nobody is left
who can run it. -/
lemma stranded_record_self {a : Entry S} {t : TaskId tasks} {res : AttemptResult}
    (hdone : (r.st t).done = false)
    (hretires : ¬ (res.status = .agentError ∧ r.alive a = true)) :
    (r.record a t res).Stranded t ↔ r.decides t res = false ∧ r.anyLiveCapable t = false := by
  have hrec := Recorded.of_record r a t res
  generalize r.record a t res = r' at hrec ⊢
  cases hrec with
  | passed hs => simp [Stranded, decides, hs]
  | exhausted hs hfail =>
    have hdecides : r.decides t res = true := by
      cases hst : res.status <;> simp_all [decides, AttemptStatus.isFailure]
    simp [Stranded, hdecides]
  | requeued hs hfail =>
    have hdecides : r.decides t res = false := by
      cases hst : res.status <;> simp_all [decides, AttemptStatus.isFailure]
    simp [Stranded, hdecides, hdone, anyLiveCapable]
  | retired hs halive => exact absurd ⟨hs, halive⟩ hretires
  | again hs _ => simp [Stranded, decides, hs, hdone, anyLiveCapable]

lemma anyLiveCapable_eq_false_iff (t : TaskId tasks) :
    r.anyLiveCapable t = false ↔ ∀ b, able b t = true → r.alive b = false := by
  rw [← Bool.not_eq_true, anyLiveCapable_iff]
  simp

end Run

namespace State

variable {s s' : State S tasks} {l : Label S tasks} {ls : List (Label S tasks)}

lemma not_keepsRunnable_ret_iff (hr : (workers S tasks).Reachable s) {w : Worker S}
    {t : TaskId tasks} (hpc : s.pc w = .calling t) (res : AttemptResult) :
    ¬ s.KeepsRunnable (.ret w t res) ↔
      s.run.decides t res = false ∧ s.run.anyLiveCapable t = false := by
  rw [Run.anyLiveCapable_eq_false_iff]
  constructor
  · intro h
    simp only [KeepsRunnable, not_forall, not_exists, not_and, Bool.not_eq_true] at h
    obtain ⟨-, hdecides, hnone⟩ := h
    exact ⟨hdecides, hnone⟩
  · rintro ⟨hdecides, hnone⟩ hkeep
    obtain ⟨b, hable, halive⟩ := hkeep (hnone w.1 (able_of_calling hr hpc)) hdecides
    rw [hnone b hable] at halive
    cases halive

/-- A task that is picked was not stranded, and is not while it runs. -/
lemma strands_start {a : Entry S} {t : TaskId tasks} (hcond : s.run.continues a = true)
    (hpick : s.run.pick a = some t) (u : TaskId tasks) :
    (s.run.start a t).Stranded u ↔ s.run.Stranded u := by
  by_cases hu : u = t
  · subst hu
    have hable := ((s.run.eligible_iff _ _).mp (Run.eligible_of_pick _ hpick)).1.2.2
    have halive := ((s.run.continues_iff _).mp hcond).2
    exact iff_of_false (by simp [Run.Stranded]) (Run.not_stranded_of_alive hable halive)
  · exact Run.stranded_congr (by simp [hu]) (by simp)

/-- A result that retires no agent strands its own task or none. -/
lemma strands_record (hr : (workers S tasks).Reachable s) {w : Worker S} {t : TaskId tasks}
    (hpc : s.pc w = .calling t) {res : AttemptResult}
    (hretires : ¬ (res.status = .agentError ∧ s.run.alive w.1 = true)) :
    (∃ u, (s.run.record w.1 t res).Stranded u) ↔
      s.Strands ∨ (s.run.record w.1 t res).Stranded t := by
  -- the task was out with the thread, so another one was stranded before, and still is
  have hrunning := ((bookkeeping hr).2.running_iff t).mpr ⟨w, hpc⟩
  constructor
  · rintro ⟨u, hu⟩
    by_cases hut : u = t
    · exact .inr (hut ▸ hu)
    · exact .inl ⟨u, (Run.stranded_record_of_ne hut hretires).mp hu⟩
  · rintro (⟨u, hu⟩ | ht)
    · have hut : u ≠ t := by
        rintro rfl
        rw [hu.2.1] at hrunning
        cases hrunning
      exact ⟨u, (Run.stranded_record_of_ne hut hretires).mpr hu⟩
    · exact ⟨t, ht⟩

/-- A step leaves a task stranded if it puts one back that nobody can run, or if one was stranded
before, unless it retires an agent. -/
lemma strands_step (hr : (workers S tasks).Reachable s) (hs : Step s l s') :
    s'.Strands ↔ s.retires l = false ∧ (s.Strands ∨ ¬ s.KeepsRunnable l) := by
  cases hs with
  | acquire _ _ _ => simp [Strands, retires, KeepsRunnable]
  | wake _ _ => simp [Strands, retires, KeepsRunnable]
  | wait _ _ _ _ => simp [Strands, retires, KeepsRunnable]
  | leave _ _ => simp [Strands, retires, KeepsRunnable]
  | call w t _ hcond hpick =>
    simp only [retires, KeepsRunnable, not_true_eq_false, or_false, true_and]
    exact exists_congr fun u => strands_start hcond hpick u
  | ret w t res _ hpc =>
    by_cases hretires : res.status = .agentError ∧ s.run.alive w.1 = true
    · have hnone : ∀ u, ¬ (s.run.record w.1 t res).Stranded u :=
        Run.not_stranded_record_of_retires hretires.1 hretires.2
      simp [Strands, retires, hretires, hnone]
    · have hnot : s.retires (.ret w t res) = false := by
        simpa [retires] using hretires
      have hself := Run.stranded_record_self (not_done_of_calling hr hpc) hretires
      rw [hnot, not_keepsRunnable_ret_iff hr hpc, ← hself, eq_self_iff_true, true_and]
      exact strands_record hr hpc hretires

/-- A run leaves a task stranded if it forgets one, or if one was stranded before and no agent is
retired. -/
theorem strands_iff_forgets (hr : (workers S tasks).Reachable s)
    (h : (workers S tasks).Path s ls s') :
    s'.Strands ↔ s.forgets ls = true ∨ s.Strands ∧ s.retiresIn ls = false := by
  induction h with
  | nil s => simp [forgets, retiresIn]
  | @cons s s₁ s' l ls hs hpath ih =>
    have hnext := Step.iff_next.mp hs
    rw [ih (hr.step hs), strands_step hr hs]
    simp only [forgets, retiresIn, hnext, Option.any_some, Bool.or_eq_true, Bool.and_eq_true,
      Bool.not_eq_true', Bool.or_eq_false_iff, decide_eq_false_iff_not]
    by_cases hkeep : s.KeepsRunnable l
    · simp only [hkeep, not_true_eq_false, or_false, false_and, false_or]
      exact or_congr_right (and_assoc.trans and_left_comm)
    · have hretires : s.retires l = false := by
        rw [← Bool.not_eq_true]
        exact mt keepsRunnable_of_retires hkeep
      simp only [hkeep, hretires, not_false_eq_true, or_true, true_and]
      tauto

end State

/-! ### The report -/

/-- The summary gives the right reason for each unschedulable task, and no task is left over. -/
structure Reported (agents : List AgentInfo) {tasks : List Task}
    (s : State (Scheduler.make agents) tasks) (wallSeconds : ℚ) : Prop where
  message_ne : ∀ o ∈ (s.run.summary wallSeconds).outcomes, o.status = .unschedulable →
    o.message ≠ []
  noAgent_iff : ∀ o ∈ (s.run.summary wallSeconds).outcomes, o.status = .unschedulable →
    (o.message = noAgentText o.task.needs ↔
      ∀ a ∈ agents, labelsSatisfy a.labels o.task.needs = false)
  unreachable_iff : ∀ o ∈ (s.run.summary wallSeconds).outcomes, o.status = .unschedulable →
    (o.message = unreachableText ↔ ∃ a ∈ agents, labelsSatisfy a.labels o.task.needs = true)
  done : ∀ t, (s.run.st t).done = true
  remaining : s.run.remaining = 0

namespace State

/-- In a completed run, a task that is not done is stranded. -/
lemma stranded_of_completed {s : State S tasks} (h : (workers S tasks).Reachable s)
    (hc : s.Completed) {t : TaskId tasks} (hdone : (s.run.st t).done = false) :
    s.run.Stranded t := by
  refine ⟨hdone, ?_, (Run.anyLiveCapable_eq_false_iff t).mpr (unreachable_of_completed h hc hdone)⟩
  by_contra hrun
  obtain ⟨w, hw⟩ := ((bookkeeping h).2.running_iff t).mp (Bool.not_eq_false _ |>.mp hrun)
  rw [hc w] at hw
  cases hw

/-- If all tasks are done, they are reported as they should. -/
lemma reported_of_done {agents : List AgentInfo} {s : State (Scheduler.make agents) tasks}
    (h : (workers (Scheduler.make agents) tasks).Reachable s)
    (hdone : ∀ t, (s.run.st t).done = true) (wallSeconds : ℚ) : Reported agents s wallSeconds := by
  have hmessage : ∀ o ∈ (s.run.summary wallSeconds).outcomes, o.status = .unschedulable →
      o.message = if agents.any fun a => labelsSatisfy a.labels o.task.needs then unreachableText
        else noAgentText o.task.needs := by
    intro o ho hv
    obtain ⟨t, -, rfl⟩ := List.mem_map.mp ho
    rw [← capable_make, ← Run.unschedulableMessage_eq]
    exact reasons h t (hdone t) hv
  refine ⟨fun o ho hv => ?_, fun o ho hv => ?_, fun o ho hv => ?_, hdone, ?_⟩
  · rw [hmessage o ho hv]
    split_ifs
    · exact unreachableText_ne_nil
    · exact noAgentText_ne_nil _
  · rw [hmessage o ho hv]
    split_ifs with hany
    · simpa [(noAgentText_ne _).symm] using hany
    · simpa using hany
  · rw [hmessage o ho hv]
    split_ifs with hany
    · simpa using hany
    · simpa [noAgentText_ne] using hany
  · have hundone : s.run.undone = ∅ := by
      simp [Run.undone, hdone]
    rw [(bookkeeping h).1.remaining_eq, hundone]
    rfl

end State

/-- A completed run reports every unschedulable task with its reason, and leaves none over, if and
only if it forgets no task. -/
theorem unschedulable_reported_iff (agents : List AgentInfo) (tasks : List Task)
    (ls : List (Label (Scheduler.make agents) tasks)) (s : State (Scheduler.make agents) tasks)
    (h : (workers (Scheduler.make agents) tasks).Path .init ls s) (hc : s.Completed)
    (wallSeconds : ℚ) :
    Reported agents s wallSeconds ↔
      (State.init : State (Scheduler.make agents) tasks).forgets ls = false := by
  have hinit : (workers (Scheduler.make agents) tasks).Reachable .init := .init rfl
  have hstart : ¬ (State.init : State (Scheduler.make agents) tasks).Strands := by
    rintro ⟨t, ht⟩
    exact Run.not_stranded_resolveUnschedulable _ t ht
  have hstrands := State.strands_iff_forgets hinit h
  simp only [hstart, false_and, or_false] at hstrands
  rw [← Bool.not_eq_true, ← hstrands]
  constructor
  · rintro hreported ⟨t, hdone, -⟩
    rw [hreported.done t] at hdone
    cases hdone
  · intro hnone
    refine State.reported_of_done (hinit.path h) (fun t => ?_) wallSeconds
    by_contra hdone
    exact hnone ⟨t, State.stranded_of_completed (hinit.path h) hc (Bool.not_eq_true _ |>.mp hdone)⟩

namespace Fleet

/-- `kvmhost` alone, with the threads of its two slots. -/
def lone : List AgentInfo := hosts.take 1

def lone1 : Worker (Scheduler.make lone) := ⟨⟨0, by decide⟩, ⟨0, by decide⟩⟩

def lone2 : Worker (Scheduler.make lone) := ⟨⟨0, by decide⟩, ⟨1, by decide⟩⟩

/-- The first slot is busy when `kvmhost` goes away. -/
def loneOutage : List (Label (Scheduler.make lone) vms) :=
  [.acquire lone1, .call lone1 vm1, .ret lone1 vm1 outage, .leave lone1, .acquire lone2,
   .leave lone2]

/-- Both slots are busy. -/
def loneOutages : List (Label (Scheduler.make lone) vms) :=
  [.acquire lone1, .call lone1 vm1, .acquire lone2, .call lone2 vm2, .ret lone1 vm1 outage,
   .leave lone1, .ret lone2 vm2 outage, .leave lone2]

end Fleet

theorem unschedulable_reported_outage :
    ∃ s : State (Scheduler.make Fleet.lone) Fleet.vms,
      State.init.follow Fleet.loneOutage = some s ∧ s.Completed ∧
        (s.run.st Fleet.vm2).final = .unschedulable ∧ Reported Fleet.lone s 0 := by
  obtain ⟨s, hs, -, hc, hfinal⟩ := State.exists_follow Fleet.loneOutage
    (fun s => s.Completed ∧ (s.run.st Fleet.vm2).final = .unschedulable) (by decide)
  exact ⟨s, hs, hc, hfinal, (unschedulable_reported_iff Fleet.lone Fleet.vms Fleet.loneOutage s
    (State.path_of_follow hs) hc 0).mpr (by decide)⟩

/-- The second slot returns after the first has retired `kvmhost`, and its task is never given up:
it is reported without a reason, and `remaining_` stays at 1. -/
theorem unschedulable_unreported :
    ∃ s : State (Scheduler.make Fleet.lone) Fleet.vms,
      (workers (Scheduler.make Fleet.lone) Fleet.vms).Reachable s ∧ s.Completed ∧
        s.run.remaining = 1 ∧ (s.run.st Fleet.vm2).done = false ∧
        (∃ o ∈ (s.run.summary 0).outcomes, o.status = .unschedulable ∧ o.message = []) ∧
        ¬ Reported Fleet.lone s 0 := by
  obtain ⟨s, -, hr, hc, hremaining, hdone, hfinal, hmessage⟩ := State.exists_follow
    Fleet.loneOutages (fun s => s.Completed ∧ s.run.remaining = 1 ∧
      (s.run.st Fleet.vm2).done = false ∧ (s.run.st Fleet.vm2).final = .unschedulable ∧
      (s.run.st Fleet.vm2).message = []) (by decide)
  refine ⟨s, hr, hc, hremaining, hdone,
    ⟨_, List.mem_map.mpr ⟨Fleet.vm2, List.mem_finRange _, rfl⟩, hfinal, hmessage⟩,
    fun hreported => ?_⟩
  rw [hreported.remaining] at hremaining
  cases hremaining

end Dtest
