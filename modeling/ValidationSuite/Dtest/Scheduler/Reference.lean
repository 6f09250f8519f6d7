import ValidationSuite.Dtest.Scheduler.Progress
import ValidationSuite.Dtest.Scheduler.Verdict

/-!
# Independence of the schedule

A sequential reference for one task, and an invariant that ties every run to it, for executors
under which each agent is either up or down and the result of a task depends on the task and on
the number of its earlier attempts alone. Then the verdicts depend on neither the interleaving nor
the slots nor the outages.
-/

namespace Dtest

open Transition ByteString

variable {S : Scheduler} {tasks : List Task}

/-! ### The reference -/

/-- The attempts at a task from attempt number `k` on, with `left` retries left, one after the
other: up to the first `Passed`, or up to the failure that no retry is left for. -/
def replay (g : ℕ → AttemptStatus) : ℕ → ℕ → List AttemptStatus × FinalStatus
  | 0, k => ([g k], (g k).verdict)
  | left + 1, k =>
    if g k = .passed then ([.passed], .passed)
    else ((g k) :: (replay g left (k + 1)).1, (replay g left (k + 1)).2)

/-- What happens to a task. -/
def reference (g : ℕ → AttemptStatus) (retries : ℤ) (capable : Bool) :
    List AttemptStatus × FinalStatus :=
  if capable then replay g retries.toNat 0 else ([], .unschedulable)

variable {g : ℕ → AttemptStatus} {left k : ℕ}

lemma replay_of_passed (h : g k = .passed) : replay g left k = ([.passed], .passed) := by
  cases left <;> simp [replay, h, AttemptStatus.verdict]

lemma replay_succ (h : g k ≠ .passed) :
    replay g (left + 1) k = (g k :: (replay g left (k + 1)).1, (replay g left (k + 1)).2) :=
  if_neg h

/-- The retries a task has left after `failures` of them. -/
def retriesLeft (retries failures : ℤ) : ℕ := (retries - failures).toNat

lemma retriesLeft_of_lt {retries failures : ℤ} (h : retries < failures + 1) :
    retriesLeft retries failures = 0 := by
  rw [retriesLeft]
  omega

lemma retriesLeft_of_le {retries failures : ℤ} (h : failures + 1 ≤ retries) :
    retriesLeft retries failures = retriesLeft retries (failures + 1) + 1 := by
  rw [retriesLeft, retriesLeft]
  omega

namespace TaskState

variable (s : TaskState S)

/-- The results of the attempts that were no outages. -/
def settled : List AttemptStatus := s.statuses.filter fun status => decide (status ≠ .agentError)

/-- The task is on its way along the reference, or has arrived at its end. -/
def Follows (g : ℕ → AttemptStatus) (retries : ℤ) (capable : Bool) : Prop :=
  match s.done with
  | false =>
    capable = true ∧
      let rest := replay g (retriesLeft retries s.failures) s.settled.length
      replay g retries.toNat 0 = (s.settled ++ rest.1, rest.2)
  | true => reference g retries capable = (s.settled, s.final)

variable {s} {s' : TaskState S} {retries : ℤ} {capable : Bool}

/-- A result that is no outage joins the results. -/
lemma settled_concat {x : AttemptRecord} (h : s'.attempts = s.attempts ++ [x]) :
    s'.settled =
      s.settled ++ if x.result.status = .agentError then [] else [x.result.status] := by
  by_cases hx : x.result.status = .agentError <;> simp [settled, statuses, h, hx]

lemma follows_init (g : ℕ → AttemptStatus) (retries : ℤ) :
    ({} : TaskState S).Follows g retries true := by
  refine ⟨rfl, ?_⟩
  simp [settled, statuses, retriesLeft]

/-- An unfinished task has come along the reference so far. -/
lemma Follows.pending (h : s.Follows g retries capable) (hdone : s.done = false) :
    capable = true ∧
      let rest := replay g (retriesLeft retries s.failures) s.settled.length
      replay g retries.toNat 0 = (s.settled ++ rest.1, rest.2) := by
  simpa only [Follows, hdone] using h

lemma Follows.of_done (h : s.Follows g retries capable) (hdone : s.done = true) :
    reference g retries capable = (s.settled, s.final) := by
  simpa only [Follows, hdone] using h

/-- The task stays where it is as long as nothing is recorded about it but outages. -/
lemma Follows.congr (h : s.Follows g retries capable) (hdone : s'.done = s.done)
    (hfinal : s'.final = s.final) (hfailures : s'.failures = s.failures)
    (hsettled : s'.settled = s.settled) : s'.Follows g retries capable := by
  simpa only [Follows, hdone, hfinal, hfailures, hsettled] using h

/-- A pass is where the reference ends. -/
lemma Follows.passed (h : s.Follows g retries capable) (hdone : s.done = false)
    (hg : g s.settled.length = .passed) (hdone' : s'.done = true) (hfinal : s'.final = .passed)
    (hsettled : s'.settled = s.settled ++ [.passed]) : s'.Follows g retries capable := by
  obtain ⟨rfl, hreplay⟩ := h.pending hdone
  simp only [replay_of_passed hg] at hreplay
  simp only [Follows, hdone', reference, if_true, hreplay, hsettled, hfinal]

/-- A failure that no retry is left for is where the reference ends. -/
lemma Follows.exhausted (h : s.Follows g retries capable) (hdone : s.done = false)
    (hleft : retries < s.failures + 1) (hdone' : s'.done = true)
    (hfinal : s'.final = (g s.settled.length).verdict)
    (hsettled : s'.settled = s.settled ++ [g s.settled.length]) :
    s'.Follows g retries capable := by
  obtain ⟨rfl, hreplay⟩ := h.pending hdone
  simp only [retriesLeft_of_lt hleft, replay] at hreplay
  simp only [Follows, hdone', reference, if_true, hreplay, hsettled, hfinal]

/-- Any other failure is a step along the reference. -/
lemma Follows.requeued (h : s.Follows g retries capable) (hdone : s.done = false)
    (hleft : s.failures + 1 ≤ retries) (hg : g s.settled.length ≠ .passed)
    (hdone' : s'.done = false) (hfailures : s'.failures = s.failures + 1)
    (hsettled : s'.settled = s.settled ++ [g s.settled.length]) :
    s'.Follows g retries capable := by
  obtain ⟨rfl, hreplay⟩ := h.pending hdone
  simp only [retriesLeft_of_le hleft, replay_succ hg] at hreplay
  simp only [Follows, hdone', hreplay, hsettled, hfailures, List.length_append,
    List.length_singleton, List.append_assoc, List.singleton_append, and_self]

end TaskState

/-! ### Steady executors -/

/-- Some agent entry, up or down, is able to run the task `t`. -/
def capable (S : Scheduler) (t : TaskId tasks) : Bool :=
  (List.finRange S.agents.length).any fun a : Entry S => able a t

lemma capable_iff (t : TaskId tasks) : capable S t = true ↔ ∃ a : Entry S, able a t = true := by
  simp [capable, List.any_eq_true]

/-- A task that any agent is able to run has one among them that is up. -/
def Covered (S : Scheduler) (tasks : List Task) (up : ℕ → Bool) : Prop :=
  ∀ t : TaskId tasks, capable S t = true → ∃ a : Entry S, able a t = true ∧ up a = true

/-- The executor answers as the agents' health and the history of the task say. -/
def State.Obeys (up : ℕ → Bool) (f : TaskId tasks → ℕ → AttemptStatus) (s : State S tasks) :
    Label S tasks → Prop
  | .ret w t res =>
    res.status = if up w.1 then f t (s.run.st t).settled.length else .agentError
  | _ => True

/-- The runs under an executor with the agents `up` up and the results `f`. -/
def steady (S : Scheduler) (tasks : List Task) (up : ℕ → Bool)
    (f : TaskId tasks → ℕ → AttemptStatus) : LTS (State S tasks) (Label S tasks) :=
  (workers S tasks).restrict (State.Obeys up f)

section Steady

variable {up : ℕ → Bool} {f : TaskId tasks → ℕ → AttemptStatus} {s s' : State S tasks}
  {l : Label S tasks}

namespace Run

variable {r : Run S tasks}

/-- Every task follows its reference. -/
def Follows (r : Run S tasks) (f : TaskId tasks → ℕ → AttemptStatus) : Prop :=
  ∀ t, (r.st t).Follows (f t) (tasks.get t).retries (capable S t)

lemma follows_init (f : TaskId tasks → ℕ → AttemptStatus) :
    ({} : Run S tasks).resolveUnschedulable.Follows f := by
  intro t
  rw [resolveUnschedulable_st]
  split_ifs with hs
  · have hnone : capable S t = false := by
      by_contra hcap
      obtain ⟨a, ha⟩ := (capable_iff t).mp (by simpa using hcap)
      have hlive := (anyLiveCapable_iff ({} : Run S tasks) t).mpr ⟨a, ha, rfl⟩
      rw [hs.2.2] at hlive
      cases hlive
    rw [hnone]
    rfl
  · have hcap : capable S t = true := by
      by_contra hnone
      refine hs ⟨rfl, rfl, ?_⟩
      by_contra hlive
      obtain ⟨a, ha, _⟩ := (anyLiveCapable_iff _ t).mp (by simpa using hlive)
      exact hnone ((capable_iff t).mpr ⟨a, ha⟩)
    rw [hcap]
    exact TaskState.follows_init (f t) _

lemma Follows.start (h : r.Follows f) (a : Entry S) (t : TaskId tasks) :
    (r.start a t).Follows f := by
  intro u
  rw [start_st]
  split_ifs
  · exact (h u).congr rfl rfl rfl rfl
  · exact h u

/-- A task that some live agent is able to run is not resolved. -/
lemma resolveUnschedulable_st_of_alive {a : Entry S} {t : TaskId tasks}
    (hable : able a t = true) (halive : r.alive a = true) :
    r.resolveUnschedulable.st t = r.st t := by
  rw [resolveUnschedulable_st, if_neg (not_stranded_of_alive hable halive)]

/-- Every result leaves its record. -/
lemma record_attempts (r : Run S tasks) (a : Entry S) (t : TaskId tasks) (res : AttemptResult) :
    ((r.record a t res).st t).attempts =
      (r.st t).attempts ++ [⟨(S.agents.get a).address, res⟩] := by
  rw [(r.record_memory a t t res).1, storeAttempt_st, if_pos rfl]

/-- Recording a result keeps every task on its reference, if each task that some agent is able to
run is left with a live one. -/
lemma Follows.record (h : r.Follows f) {a : Entry S} {t : TaskId tasks}
    {res : AttemptResult} (hdone : (r.st t).done = false)
    (hres : res.status = .agentError ∨ res.status = f t (r.st t).settled.length)
    (hlive : ∀ u : TaskId tasks, capable S u = true →
      ∃ b, able b u = true ∧ (r.record a t res).alive b = true) :
    (r.record a t res).Follows f := by
  intro u
  by_cases hu : u = t
  · subst hu
    obtain ⟨b, hb, hbl⟩ := hlive u ((h u).pending hdone).1
    have hfailure : res.status.isFailure = true →
        res.status ≠ .agentError ∧ res.status ≠ .passed := by
      cases res.status <;> simp [AttemptStatus.isFailure]
    have hsettled := TaskState.settled_concat (r.record_attempts a u res)
    have hrec := Recorded.of_record r a u res
    generalize r.record a u res = r' at hrec hbl hsettled ⊢
    cases hrec with
    | passed hs =>
      have hg := hres.resolve_left (by simp [hs])
      apply (h u).passed hdone (hg ▸ hs) (by simp) (by simp)
      rw [hsettled, if_neg (by simp [hs]), hs]
    | exhausted hs hlt =>
      obtain ⟨hne, _⟩ := hfailure hs
      have hg := hres.resolve_left hne
      apply (h u).exhausted hdone hlt (by simp) (by simp [hg])
      rw [hsettled, if_neg hne, hg]
    | requeued hs hle =>
      obtain ⟨hne, hpass⟩ := hfailure hs
      have hg := hres.resolve_left hne
      apply (h u).requeued hdone hle (hg ▸ hpass) (by simpa using hdone) (by simp)
      rw [hsettled, if_neg hne, hg]
    | retired hs _ =>
      rw [resolveUnschedulable_alive] at hbl
      rw [resolveUnschedulable_st_of_alive hb hbl] at hsettled ⊢
      apply (h u).congr (by simp) (by simp) (by simp)
      rw [hsettled, if_pos hs, List.append_nil]
    | again hs _ =>
      apply (h u).congr (by simp) (by simp) (by simp)
      rw [hsettled, if_pos hs, List.append_nil]
  · rcases r.record_st_of_ne a res hu with hst | ⟨_, hdone, _, hdead⟩
    · rw [hst]
      exact h u
    · obtain ⟨b, hb, hbl⟩ := hlive u ((h u).pending hdone).1
      rw [hdead b hb] at hbl
      cases hbl

end Run

namespace State

/-- Only agents that are down are retired. -/
theorem alive_of_up (hf : ∀ t k, f t k ≠ .agentError) (h : (steady S tasks up f).Reachable s)
    {a : Entry S} (ha : up a = true) : s.run.alive a = true := by
  refine run_invariant (A := steady S tasks up f)
    (I := fun r => ∀ a : Entry S, up a = true → r.alive a = true) (fun _ _ _ => And.left)
    ?_ ?_ ?_ h a ha
  · rintro s rfl a _
    simp [init]
  · intro s w t s' _ _ ih
    exact ih
  · rintro s w t res s' _ ⟨_, hobeys⟩ _ ih a ha
    refine (s.run.record_alive w.1 a t res).mpr ⟨ih a ha, ?_⟩
    rintro rfl
    have hres : res.status = _ := hobeys
    rw [if_pos ha] at hres
    rw [hres]
    exact hf t _

lemma exists_alive (hcover : Covered S tasks up) (hf : ∀ t k, f t k ≠ .agentError)
    (h : (steady S tasks up f).Reachable s) {t : TaskId tasks} (ht : capable S t = true) :
    ∃ a, able a t = true ∧ s.run.alive a = true := by
  obtain ⟨a, hable, hup⟩ := hcover t ht
  exact ⟨a, hable, alive_of_up hf h hup⟩

/-- No step of such a run puts a task back that nobody can run. -/
lemma keepsRunnable (hcover : Covered S tasks up) (hf : ∀ t k, f t k ≠ .agentError)
    (h : (steady S tasks up f).Reachable s) :
    ((workers S tasks).restrict KeepsRunnable).Reachable s := by
  refine LTS.Reachable.restrict_mono ?_ h
  rintro s l s' hr ⟨hs, _⟩
  cases l with
  | ret w t res =>
    intro _ _
    have hpc : s.pc w = .calling t := by
      cases hs with
      | ret _ _ _ _ hpc => exact hpc
    exact exists_alive hcover hf hr ((capable_iff t).mpr ⟨w.1, able_of_calling hr.of_restrict hpc⟩)
  | acquire _ => trivial
  | wake _ => trivial
  | wait _ => trivial
  | call _ _ => trivial
  | leave _ => trivial

/-- In every state of every such run, each task follows its reference. -/
theorem follows (hcover : Covered S tasks up) (hf : ∀ t k, f t k ≠ .agentError)
    (h : (steady S tasks up f).Reachable s) : s.run.Follows f := by
  refine run_invariant (A := steady S tasks up f) (I := fun r => r.Follows f)
    (fun _ _ _ => And.left) ?_ ?_ ?_ h
  · rintro s rfl
    exact Run.follows_init f
  · intro s w t s' _ _ ih
    exact ih.start w.1 t
  · intro s w t res s' hr hstep hpc ih
    have hr' := hr.step hstep
    obtain ⟨hs, hobeys⟩ := hstep
    have hres : res.status = _ := hobeys
    cases hs
    refine ih.record (not_done_of_calling hr.of_restrict hpc) ?_
      fun u hu => exists_alive hcover hf hr' hu
    split_ifs at hres with hup
    · exact .inr hres
    · exact .inl hres

/-- At the end of such a run every task has arrived at the end of its reference. -/
theorem reference_of_completed (hcover : Covered S tasks up) (hf : ∀ t k, f t k ≠ .agentError)
    (h : (steady S tasks up f).Reachable s) (hc : s.Completed) (t : TaskId tasks) :
    reference (f t) (tasks.get t).retries (capable S t) =
      ((s.run.st t).settled, (s.run.st t).final) := by
  have hfollows := follows hcover hf h t
  cases hdone : (s.run.st t).done
  · exfalso
    obtain ⟨a, hable, halive⟩ := exists_alive hcover hf h (hfollows.pending hdone).1
    have hdead := unreachable_of_completed h.of_restrict hc hdone a hable
    rw [halive] at hdead
    cases hdead
  · exact hfollows.of_done hdone

/-- A run that is not over and not stuck can go on without a spurious wakeup, whatever the executor
has to answer. -/
lemma exists_step (hstuck : ¬ s.Stuck) (hc : ¬ s.Completed) :
    ∃ l s', (steady S tasks up f).step s l s' ∧ ∀ w, l ≠ .wake w := by
  by_cases hfree : s.MuFree
  · obtain ⟨w, hne⟩ := not_forall.mp hc
    -- some thread is neither asleep nor gone
    obtain ⟨v, hv⟩ : ∃ v, s.pc v ≠ .waiting ∧ s.pc v ≠ .exited := by
      by_contra hall
      push Not at hall
      refine hstuck ⟨⟨w, by_contra fun hw => hne (hall w hw)⟩, fun v => ?_⟩
      by_cases hw : s.pc v = .waiting
      · exact .inl hw
      · exact .inr (hall v hw)
    cases hpc : s.pc v with
    | start => exact ⟨_, _, ⟨.acquire v hfree (.inl hpc), trivial⟩, by simp⟩
    | notified => exact ⟨_, _, ⟨.acquire v hfree (.inr hpc), trivial⟩, by simp⟩
    | locked => exact absurd hpc (hfree v)
    | waiting => exact absurd hpc hv.1
    | exited => exact absurd hpc hv.2
    | calling t =>
      exact ⟨_, _, ⟨.ret v t
        { status := if up v.1 then f t (s.run.st t).settled.length else .agentError } hfree hpc,
        rfl⟩, by simp⟩
  · obtain ⟨v, hv⟩ := not_forall.mp hfree
    have hv := not_not.mp hv
    cases hcond : s.run.continues v.1
    · exact ⟨_, _, ⟨.leave v hv hcond, trivial⟩, by simp⟩
    · cases hpick : s.run.pick v.1 with
      | none => exact ⟨_, _, ⟨.wait v hv hcond hpick, trivial⟩, by simp⟩
      | some t => exact ⟨_, _, ⟨.call v t hv hcond hpick, trivial⟩, by simp⟩

end State

end Steady

/-! ### The verdicts of a run -/

/-- What an outcome says about its task: the results that were no outages, and the verdict. -/
def TaskOutcome.history (o : TaskOutcome) : List AttemptStatus × FinalStatus :=
  ((o.attempts.map (·.result.status)).filter fun status => decide (status ≠ .agentError), o.status)

def RunSummary.histories (s : RunSummary) : List (List AttemptStatus × FinalStatus) :=
  s.outcomes.map TaskOutcome.history

/-- The references of all tasks. A task that no agent is able to run is unschedulable. -/
def references (agents : List AgentInfo) (tasks : List Task)
    (f : TaskId tasks → ℕ → AttemptStatus) : List (List AttemptStatus × FinalStatus) :=
  (List.finRange _).map fun t =>
    reference (f t) (tasks.get t).retries
      (agents.any fun a => labelsSatisfy a.labels (tasks.get t).needs)

/-- The agents that are up. -/
def upAgents (agents : List AgentInfo) (up : ℕ → Bool) : List AgentInfo :=
  (agents.zipIdx.filter fun x => up x.2).map (·.1)

/-- Each task has no capable agent at all, or one that is up. -/
def Serviceable (agents : List AgentInfo) (tasks : List Task) (up : ℕ → Bool) : Prop :=
  ∀ t ∈ tasks, (∀ a ∈ agents, labelsSatisfy a.labels t.needs = false) ∨
    ∃ i a, agents[i]? = some a ∧ up i = true ∧ labelsSatisfy a.labels t.needs = true

lemma capable_make (agents : List AgentInfo) (t : TaskId tasks) :
    capable (Scheduler.make agents) t =
      agents.any fun a => labelsSatisfy a.labels (tasks.get t).needs := by
  rw [Bool.eq_iff_iff, capable_iff, List.any_eq_true]
  constructor
  · rintro ⟨a, ha⟩
    obtain ⟨b, hb, hlabels⟩ := labels_get_make a
    rw [able, hlabels] at ha
    exact ⟨b, List.mem_of_getElem? hb, ha⟩
  · rintro ⟨b, hb, hlabels⟩
    obtain ⟨i, hi⟩ := List.mem_iff_getElem?.mp hb
    obtain ⟨a, _, ha⟩ := exists_entry hi
    refine ⟨a, ?_⟩
    rwa [able, ha]

lemma Serviceable.covered {agents : List AgentInfo} {up : ℕ → Bool}
    (h : Serviceable agents tasks up) : Covered (Scheduler.make agents) tasks up := by
  intro t ht
  rw [capable_make, List.any_eq_true] at ht
  obtain ⟨b, hb, hlabels⟩ := ht
  rcases h _ (List.get_mem _ t) with hnone | ⟨i, b, hi, hup, hlabels⟩
  · rw [hnone b hb] at hlabels
    cases hlabels
  · obtain ⟨a, rfl, ha⟩ := exists_entry hi
    refine ⟨a, ?_, hup⟩
    rwa [able, ha]

/-- What is serviceable only depends on the labels of the agents. -/
lemma Serviceable.congr {agents agents' : List AgentInfo} {up : ℕ → Bool}
    (h : Serviceable agents tasks up) (hlabels : agents'.map (·.labels) = agents.map (·.labels)) :
    Serviceable agents' tasks up := by
  intro t ht
  rcases h t ht with hnone | ⟨i, a, hi, hup, ha⟩
  · left
    intro a' ha'
    have hmem : a'.labels ∈ agents.map (·.labels) := hlabels ▸ List.mem_map_of_mem ha'
    obtain ⟨a, ha, hl⟩ := List.mem_map.mp hmem
    rw [← hl]
    exact hnone a ha
  · right
    have hi' : (agents'.map (·.labels))[i]? = some a.labels := by
      rw [hlabels, List.getElem?_map, hi]
      rfl
    rw [List.getElem?_map, Option.map_eq_some_iff] at hi'
    obtain ⟨a', hi', hl⟩ := hi'
    exact ⟨i, a', hi', hup, hl ▸ ha⟩

lemma mem_upAgents {agents : List AgentInfo} {up : ℕ → Bool} {a : AgentInfo} :
    a ∈ upAgents agents up ↔ ∃ i, agents[i]? = some a ∧ up i = true := by
  simp [upAgents, List.mem_zipIdx_iff_getElem?]

lemma Serviceable.upAgents {agents : List AgentInfo} {up : ℕ → Bool}
    (h : Serviceable agents tasks up) :
    Serviceable (upAgents agents up) tasks fun _ => true := by
  intro t ht
  rcases h t ht with hnone | ⟨i, a, hi, hup, hlabels⟩
  · left
    intro a ha
    obtain ⟨i, hi, _⟩ := mem_upAgents.mp ha
    exact hnone a (List.mem_of_getElem? hi)
  · right
    obtain ⟨j, hj⟩ := List.mem_iff_getElem?.mp (mem_upAgents.mpr ⟨i, hi, hup⟩)
    exact ⟨j, a, hj, rfl, hlabels⟩

/-- Leaving out the agents that are down changes no reference. -/
lemma references_upAgents {agents : List AgentInfo} {up : ℕ → Bool}
    (h : Serviceable agents tasks up) (f : TaskId tasks → ℕ → AttemptStatus) :
    references (upAgents agents up) tasks f = references agents tasks f := by
  refine List.map_congr_left fun t _ => ?_
  congr 1
  rw [Bool.eq_iff_iff, List.any_eq_true, List.any_eq_true]
  constructor
  · rintro ⟨a, ha, hlabels⟩
    obtain ⟨i, hi, _⟩ := mem_upAgents.mp ha
    exact ⟨a, List.mem_of_getElem? hi, hlabels⟩
  · rintro ⟨b, hb, hlabels⟩
    rcases h _ (List.get_mem _ t) with hnone | ⟨i, a, hi, hup, ha⟩
    · rw [hnone b hb] at hlabels
      cases hlabels
    · exact ⟨a, mem_upAgents.mpr ⟨i, hi, hup⟩, ha⟩

/-- The references only depend on the labels of the agents. -/
lemma references_congr {agents agents' : List AgentInfo}
    (h : agents'.map (·.labels) = agents.map (·.labels))
    (f : TaskId tasks → ℕ → AttemptStatus) :
    references agents' tasks f = references agents tasks f := by
  refine List.map_congr_left fun t _ => ?_
  have hany : ∀ l : List AgentInfo, (l.any fun a => labelsSatisfy a.labels (tasks.get t).needs) =
      (l.map (·.labels)).any fun ls => labelsSatisfy ls (tasks.get t).needs := by
    intro l
    rw [List.any_map]
    rfl
  rw [hany, hany, h]

/-- The summary of a completed run under a steady executor lists the references. -/
lemma histories_summary {agents : List AgentInfo} {up : ℕ → Bool}
    {f : TaskId tasks → ℕ → AttemptStatus} (h : Serviceable agents tasks up)
    (hf : ∀ t k, f t k ≠ .agentError) {s : State (Scheduler.make agents) tasks}
    (hs : (steady (Scheduler.make agents) tasks up f).Reachable s) (hc : s.Completed)
    (wallSeconds : ℚ) : (s.run.summary wallSeconds).histories = references agents tasks f := by
  simp only [RunSummary.histories, Run.summary, List.map_map, references]
  refine List.map_congr_left fun t _ => ?_
  rw [← capable_make, State.reference_of_completed h.covered hf hs hc t]
  rfl

/-- Verdicts depend neither on the schedule nor on outages. Under an executor that keeps each agent
up or down and answers for an agent that is up by the task and the number of its attempts so far:
no run gets stuck, all completed runs, with any slots, list the same results and verdicts, those of
the sequential references, and so do the runs without the agents that are down. -/
theorem verdicts_independent_of_schedule (agents : List AgentInfo) (tasks : List Task)
    (up : ℕ → Bool) (f : TaskId tasks → ℕ → AttemptStatus) (hf : ∀ t k, f t k ≠ .agentError)
    (hserviceable : Serviceable agents tasks up) :
    (∀ s, (steady (Scheduler.make agents) tasks up f).Reachable s →
      s.Progresses ∧ ¬ s.Stuck ∧
        (s.Completed ∨
          ∃ l s', (steady (Scheduler.make agents) tasks up f).step s l s' ∧ ∀ w, l ≠ .wake w)) ∧
    (∀ s, (steady (Scheduler.make agents) tasks up f).Reachable s → s.Completed →
      ∀ wallSeconds, (s.run.summary wallSeconds).histories = references agents tasks f) ∧
    (∀ agents', agents'.map (·.labels) = agents.map (·.labels) →
      ∀ s s', (steady (Scheduler.make agents) tasks up f).Reachable s → s.Completed →
        (steady (Scheduler.make agents') tasks up f).Reachable s' → s'.Completed →
        ∀ wallSeconds wallSeconds', (s'.run.summary wallSeconds').histories =
          (s.run.summary wallSeconds).histories) ∧
    (∀ s s', (steady (Scheduler.make agents) tasks up f).Reachable s → s.Completed →
      (steady (Scheduler.make (upAgents agents up)) tasks (fun _ => true) f).Reachable s' →
        s'.Completed → ∀ wallSeconds wallSeconds', (s'.run.summary wallSeconds').histories =
          (s.run.summary wallSeconds).histories) := by
  refine ⟨?_, ?_, ?_, ?_⟩
  · intro s hs
    have hnone := State.not_stranded (State.keepsRunnable hserviceable.covered hf hs)
    have hstuck := State.not_stuck_of_not_stranded hs.of_restrict hnone
    refine ⟨State.progresses_of_not_stranded hs.of_restrict hnone, hstuck, ?_⟩
    by_cases hc : s.Completed
    · exact .inl hc
    · exact .inr (State.exists_step hstuck hc)
  · intro s hs hc wallSeconds
    exact histories_summary hserviceable hf hs hc wallSeconds
  · intro agents' hlabels s s' hs hc hs' hc' wallSeconds wallSeconds'
    rw [histories_summary hserviceable hf hs hc,
      histories_summary (hserviceable.congr hlabels) hf hs' hc', references_congr hlabels]
  · intro s s' hs hc hs' hc' wallSeconds wallSeconds'
    rw [histories_summary hserviceable hf hs hc,
      histories_summary hserviceable.upAgents hf hs' hc', references_upAgents hserviceable]

namespace Fleet

/-- Two agents without labels, the first of them down, and a task without requirements. -/
def pair : List AgentInfo := [{ address := lit "down" }, { address := lit "up" }]

def smoke : List Task := [{ name := lit "smoke", argv := [lit "/bin/true"] }]

def onDown : Worker (Scheduler.make pair) := ⟨⟨0, by decide⟩, ⟨0, by decide⟩⟩

def onUp : Worker (Scheduler.make pair) := ⟨⟨1, by decide⟩, ⟨0, by decide⟩⟩

def only : TaskId smoke := ⟨0, by decide⟩

/-- The task is tried on the agent that is down first. -/
lemma steady_smoke :
    ∃ s, (steady (Scheduler.make pair) smoke (· == 1) fun _ _ => .passed).Reachable s ∧
      s.Completed ∧ (s.run.st only).attempts.length = 2 := by
  have hout := LTS.Reachable.init (A := steady (Scheduler.make pair) smoke (· == 1)
    fun _ _ => .passed) rfl
    |>.step ⟨.acquire onDown (by decide) (by decide), trivial⟩
    |>.step ⟨.call onDown only (by decide) (by decide) (by decide), trivial⟩
    |>.step ⟨.ret onDown only outage (by decide) (by decide), rfl⟩
    |>.step ⟨.leave onDown (by decide) (by decide), trivial⟩
  have hpass := hout
    |>.step ⟨.acquire onUp (by decide) (by decide), trivial⟩
    |>.step ⟨.call onUp only (by decide) (by decide) (by decide), trivial⟩
    |>.step ⟨.ret onUp only { status := .passed } (by decide) (by decide), rfl⟩
    |>.step ⟨.leave onUp (by decide) (by decide), trivial⟩
  exact ⟨_, hpass, by decide, by decide⟩

end Fleet

/-- The run of `smoke` ends as the reference says, in spite of the outage. -/
theorem verdicts_independent_of_schedule_smoke :
    ∃ s : State (Scheduler.make Fleet.pair) Fleet.smoke, s.Completed ∧
      (s.run.st Fleet.only).attempts.length = 2 ∧
      (s.run.summary 0).histories = [([.passed], .passed)] := by
  obtain ⟨s, hs, hc, hlen⟩ := Fleet.steady_smoke
  obtain ⟨_, hreference, _⟩ := verdicts_independent_of_schedule Fleet.pair Fleet.smoke (· == 1)
    (fun _ _ => .passed) (by simp) fun t ht =>
      .inr ⟨1, { address := lit "up" }, rfl, rfl, by revert t; decide⟩
  exact ⟨s, hc, hlen, hreference s hs hc 0⟩

end Dtest
