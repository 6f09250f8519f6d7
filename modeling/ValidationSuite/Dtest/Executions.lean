import ValidationSuite.Dtest.Cluster
import Mathlib.Data.List.Forall2

/-!
# From results back to commands

What an agent has done for a task is known to the controller through the records of its attempts
only. Here the way back: in every run of the cluster each record belongs to a call of its own, what
it says is what the handler of that call has to report, and a handler reports a result only after
it has executed the command of the task. Calls the controller has given up on may still execute
theirs, so the commands are bounded by the attempts, and not by the verdicts.
-/

namespace Dtest

open Transition ByteString

variable {c : Cluster} {tasks : List Task} {s s' : Pool (c.Store tasks) (c.Rpc tasks)}

/-! ### What the scheduler remembers -/

namespace State

variable {S : Scheduler} {u u' : State S tasks} {l : Label S tasks}

/-- Nothing but the return of a call leaves a record. -/
lemma attempts_step (hs : Step u l u') (hret : ∀ w t res, l ≠ .ret w t res) (t : TaskId tasks) :
    (u'.run.st t).attempts = (u.run.st t).attempts := by
  cases hs with
  | acquire _ _ _ => rfl
  | wake _ _ => rfl
  | wait _ _ _ _ => rfl
  | leave _ _ => rfl
  | ret w v res _ _ => exact absurd rfl (hret w v res)
  | call w v _ _ _ =>
    simp only [setPc_run, withRun_run, Run.start_st]
    split_ifs <;> rfl

/-- A thread calls for a task its agent is able to run. -/
lemma able_of_pick {w : Worker S} {t : TaskId tasks} (hs : Step u (.call w t) u') :
    able w.1 t = true := by
  cases hs with
  | call _ _ _ _ hpick => exact ((u.run.eligible_iff w.1 t).mp (u.run.eligible_of_pick hpick)).1.2.2

lemma attempts_ret {w : Worker S} {v : TaskId tasks} {res : AttemptResult}
    (hs : Step u (.ret w v res) u') (t : TaskId tasks) :
    (u'.run.st t).attempts = (u.run.st t).attempts ++
      if t = v then [⟨(S.agents.get w.1).address, res⟩] else [] := by
  cases hs with
  | ret _ _ _ _ _ =>
    rw [setPc_run, withRun_notifyAll_run, (u.run.record_memory w.1 v t res).1, Run.storeAttempt_st]
    split_ifs <;> simp

end State

namespace Cluster

/-- The records of the attempts at a task. -/
abbrev attempts (s : Pool (c.Store tasks) (c.Rpc tasks)) (t : TaskId tasks) : List AttemptRecord :=
  (s.store.sched.run.st t).attempts

/-- The scheduler of a cluster takes the steps of a scheduler. -/
lemma Step.sched (h : Step s s') :
    s'.store.sched = s.store.sched ∨ ∃ l, Dtest.Step s.store.sched l s'.store.sched := by
  cases h with
  | schedule hstep _ _ => exact .inr ⟨_, hstep⟩
  | call hstep _ => exact .inr ⟨_, hstep⟩
  | callNoStub hstep _ => exact .inr ⟨_, hstep⟩
  | noStub _ hstep => exact .inr ⟨_, hstep⟩
  | deliver _ _ _ => exact .inl rfl
  | handle _ _ _ => exact .inl rfl
  | reply _ _ _ _ hstep => exact .inr ⟨_, hstep⟩
  | fail _ _ _ _ _ hstep => exact .inr ⟨_, hstep⟩

/-- What holds of every run of the scheduler holds of it as a part of the cluster. -/
theorem sched_reachable (h : (c.lts tasks).Reachable s) :
    (workers c.scheduler tasks).Reachable s.store.sched := by
  refine h.invariant (I := fun s => (workers c.scheduler tasks).Reachable s.store.sched) ?_ ?_
  · rintro s rfl
    exact .init rfl
  · intro s _ s' _ ih hs
    rcases hs.sched with hsame | ⟨l, hl⟩
    · rw [hsame]
      exact ih
    · exact ih.step hl

/-! ### What a step does to the calls -/

/-- How far a call gets in one step of its agent. -/
inductive Rpc.Proceeds (x : c.Rpc tasks) : Stage → Prop
  | deliver (hstage : x.stage = .sent) (canonical : ByteString → ByteString) :
      Proceeds x (.served ⟨GrpcExecutor.metadata c.token,
        GrpcExecutor.request (tasks.get x.task), canonical⟩ .arrived)
  | handle {call : Incoming RunTaskRequest} {p p' : Phase} {n n' : UInt32}
      (hstage : x.stage = .served call p)
      (h : (c.node x.node).service.Handles call n p n' p') : Proceeds x (.served call p')

/-- What the thread takes with it when it goes on: the answer, or an outage. -/
def Rpc.Yields (x : c.Rpc tasks) (res : AttemptResult) : Prop :=
  (∃ elapsed answer, x.answer? = some answer ∧ res = GrpcExecutor.attemptResult elapsed answer) ∨
    res.status = .agentError

/-- What a step does to the calls and to the records. -/
inductive Effect (s s' : Pool (c.Store tasks) (c.Rpc tasks)) : Prop
  | quiet (hprocs : s'.procs = s.procs) (hattempts : ∀ t, attempts s' t = attempts s t)
  | start {w : Worker c.scheduler} {t : TaskId tasks} (hable : able w.1 t = true)
      (hprocs : s'.procs = s.procs ++ [{ worker := w, task := t, node := c.index w.1 }])
      (hattempts : ∀ t, attempts s' t = attempts s t)
  | proceed {k : ℕ} {x : c.Rpc tasks} {stage : Stage} (hk : s.procs[k]? = some x)
      (hx : x.Proceeds stage) (hprocs : s'.procs = s.procs.set k { x with stage := stage })
      (hattempts : ∀ t, attempts s' t = attempts s t)
  | hangUp {k : ℕ} {x : c.Rpc tasks} {res : AttemptResult} (hk : s.procs[k]? = some x)
      (hwait : x.waiting = true) (hres : x.Yields res)
      (hprocs : s'.procs = s.procs.set k { x with waiting := false })
      (hattempts : ∀ t, attempts s' t = attempts s t ++
        if t = x.task then [⟨(c.agentOf x.worker).address, res⟩] else [])

lemma Step.effect (h : Step s s') : Effect s s' := by
  cases h with
  | schedule hstep _ hret => exact .quiet rfl (State.attempts_step hstep hret)
  | call hstep hstub =>
    rw [stub_eq] at hstub
    obtain rfl := Option.some.inj hstub
    exact .start (State.able_of_pick hstep) rfl (State.attempts_step hstep (by simp))
  | callNoStub _ hstub =>
    rw [stub_eq] at hstub
    cases hstub
  | noStub hstub _ =>
    rw [stub_eq] at hstub
    cases hstub
  | deliver hk hstage canonical => exact .proceed hk (.deliver hstage canonical) rfl fun _ => rfl
  | handle hk hstage h => exact .proceed hk (.handle hstage h) rfl fun _ => rfl
  | reply elapsed hk hwait hanswer hstep =>
    exact .hangUp hk hwait (.inl ⟨elapsed, _, hanswer, rfl⟩) rfl (State.attempts_ret hstep)
  | fail elapsed st hst hk hwait hstep =>
    refine .hangUp hk hwait (.inr ?_) rfl (State.attempts_ret hstep)
    exact (GrpcExecutor.attemptResult_agentError_iff _ _).mpr ⟨st, rfl, hst⟩

/-- The call `y` is the call `x`, further on. -/
structure Rpc.Onward (x y : c.Rpc tasks) : Prop where
  worker_eq : y.worker = x.worker
  task_eq : y.task = x.task
  node_eq : y.node = x.node
  waiting : x.waiting = false → y.waiting = false
  served : ∀ call p, x.stage = .served call p → ∃ p', y.stage = .served call p'
  answer : ∀ answer, x.answer? = some answer → y.answer? = some answer

lemma Rpc.Onward.refl (x : c.Rpc tasks) : x.Onward x :=
  ⟨rfl, rfl, rfl, id, fun _ p h => ⟨p, h⟩, fun _ => id⟩

lemma Rpc.Onward.trans {x y z : c.Rpc tasks} (h : x.Onward y) (h' : y.Onward z) : x.Onward z where
  worker_eq := h'.worker_eq.trans h.worker_eq
  task_eq := h'.task_eq.trans h.task_eq
  node_eq := h'.node_eq.trans h.node_eq
  waiting hx := h'.waiting (h.waiting hx)
  served call p hp := by
    obtain ⟨p', hp'⟩ := h.served call p hp
    exact h'.served call p' hp'
  answer answer hx := h'.answer answer (h.answer answer hx)

lemma Rpc.answer?_eq_some {x : c.Rpc tasks} {answer : Except Status RunTaskReply} :
    x.answer? = some answer ↔ ∃ call, x.stage = .served call (.finished answer) := by
  unfold answer?
  constructor
  · intro h
    split at h
    · next call answer' hstage =>
      obtain rfl := Option.some.inj h
      exact ⟨call, hstage⟩
    · cases h
  · rintro ⟨call, hstage⟩
    simp [hstage]

lemma Rpc.Proceeds.onward {x : c.Rpc tasks} {stage : Stage} (h : x.Proceeds stage) :
    x.Onward { x with stage := stage } := by
  refine ⟨rfl, rfl, rfl, id, ?_, ?_⟩
  · intro call p hp
    cases h with
    | deliver hstage _ =>
      rw [hstage] at hp
      cases hp
    | handle hstage _ =>
      rw [hstage] at hp
      cases hp
      exact ⟨_, rfl⟩
  · intro answer hanswer
    obtain ⟨call, hdone⟩ := Rpc.answer?_eq_some.mp hanswer
    cases h with
    | deliver hstage _ =>
      rw [hstage] at hdone
      cases hdone
    | handle hstage hhandles =>
      -- a handler that has returned takes no step
      rw [hstage] at hdone
      cases hdone
      cases hhandles

/-- No step takes a call back or lets one disappear. -/
lemma Effect.onward (h : Effect s s') {k : ℕ} {x : c.Rpc tasks} (hx : s.procs[k]? = some x) :
    ∃ y, s'.procs[k]? = some y ∧ x.Onward y := by
  cases h with
  | quiet hprocs _ => exact ⟨x, by rw [hprocs, hx], .refl x⟩
  | start _ hprocs _ =>
    refine ⟨x, ?_, .refl x⟩
    rw [hprocs, List.getElem?_append_left (List.getElem?_eq_some_iff.mp hx).1, hx]
  | @proceed j z stage hj hz hprocs _ =>
    rcases eq_or_ne j k with rfl | hne
    · obtain rfl := Option.some.inj (hj.symm.trans hx)
      refine ⟨_, ?_, hz.onward⟩
      rw [hprocs, List.getElem?_set_self (List.getElem?_eq_some_iff.mp hx).1]
    · exact ⟨x, by rw [hprocs, List.getElem?_set_ne hne, hx], .refl x⟩
  | @hangUp j z res hj _ _ hprocs _ =>
    rcases eq_or_ne j k with rfl | hne
    · obtain rfl := Option.some.inj (hj.symm.trans hx)
      refine ⟨{ z with waiting := false }, ?_, ⟨rfl, rfl, rfl, fun _ => rfl, ?_, fun _ => id⟩⟩
      · rw [hprocs, List.getElem?_set_self (List.getElem?_eq_some_iff.mp hx).1]
      · exact fun _ p hp => ⟨p, hp⟩
    · exact ⟨x, by rw [hprocs, List.getElem?_set_ne hne, hx], .refl x⟩

/-- A call that is there after a step was there before, or has just been made. -/
lemma Effect.before (h : Effect s s') {k : ℕ} {y : c.Rpc tasks} (hy : s'.procs[k]? = some y) :
    (y.stage = .sent ∧ able y.worker.1 y.task = true) ∨ ∃ x, s.procs[k]? = some x ∧ x.Onward y ∧
      (y.stage = x.stage ∨ x.Proceeds y.stage) := by
  cases h with
  | quiet hprocs _ => exact .inr ⟨y, by rw [← hprocs, hy], .refl y, .inl rfl⟩
  | start hable hprocs _ =>
    rw [hprocs] at hy
    rcases Pool.of_getElem?_concat hy with hold | ⟨-, rfl⟩
    · exact .inr ⟨y, hold, .refl y, .inl rfl⟩
    · exact .inl ⟨rfl, hable⟩
  | proceed hj hz hprocs _ =>
    rw [hprocs] at hy
    rcases Pool.of_getElem?_set hy with ⟨rfl, rfl⟩ | ⟨-, hold⟩
    · exact .inr ⟨_, hj, hz.onward, .inr hz⟩
    · exact .inr ⟨y, hold, .refl y, .inl rfl⟩
  | hangUp hj _ _ hprocs _ =>
    rw [hprocs] at hy
    rcases Pool.of_getElem?_set hy with ⟨rfl, rfl⟩ | ⟨-, hold⟩
    · exact .inr ⟨_, hj, ⟨rfl, rfl, rfl, fun _ => rfl, fun _ p hp => ⟨p, hp⟩, fun _ => id⟩, .inl rfl⟩
    · exact .inr ⟨y, hold, .refl y, .inl rfl⟩

end Cluster

/-! ### What a handler has behind it -/

/-- The command has been started. -/
def Phase.launched : Phase → Bool
  | .executing _ | .executed _ | .finished (.ok _) => true
  | .arrived | .checked | .refused | .admitted | .finished (.error _) => false

namespace AgentService

variable (svc : AgentService)

/-- What the phase of a handler says about the checks, the command and the answer. -/
def Justifies (call : Incoming RunTaskRequest) : Phase → Prop
  | .arrived => True
  | .checked | .refused | .admitted | .executed _ => svc.check call = none
  | .executing spec => svc.check call = none ∧ spec = svc.runSpec call.request
  | .finished (.error st) => svc.check call = some st ∨ st = atLimit
  | .finished (.ok rep) => svc.check call = none ∧ ∃ out : RunOutput, rep = out.toReply

variable {svc} {call : Incoming RunTaskRequest} {n n' : UInt32} {p p' : Phase}

lemma Handles.justifies (h : svc.Handles call n p n' p') (hp : svc.Justifies call p) :
    svc.Justifies call p' := by
  cases h with
  | reject hcheck => exact .inl hcheck
  | accept hcheck => exact hcheck
  | grant _ => exact hp
  | refuse _ => exact hp
  | undo => exact .inr rfl
  | launch => exact ⟨hp, rfl⟩
  | exit _ => exact hp.1
  | release => exact ⟨hp, _, rfl⟩

/-- A command is started by starting it. -/
lemma Handles.launched (h : svc.Handles call n p n' p') (hp' : p'.launched = true) :
    p.launched = true ∨ p' = .executing (svc.runSpec call.request) := by
  cases h with
  | launch => exact .inr rfl
  | exit _ => exact .inl rfl
  | release => exact .inl rfl
  | reject _ => cases hp'
  | accept _ => cases hp'
  | grant _ => cases hp'
  | refuse _ => cases hp'
  | undo => cases hp'

end AgentService

namespace Cluster

/-- The agent serves the request for the task, and its handler does what it has to. -/
def Rpc.Faithful (x : c.Rpc tasks) : Prop :=
  able x.worker.1 x.task = true ∧ ∀ call p, x.stage = .served call p →
    call.metadata = GrpcExecutor.metadata c.token ∧
    call.request = GrpcExecutor.request (tasks.get x.task) ∧
    (c.node x.node).service.Justifies call p

lemma Effect.faithful (h : Effect s s') (hs : ∀ x ∈ s.procs, x.Faithful) :
    ∀ y ∈ s'.procs, y.Faithful := by
  intro y hy
  obtain ⟨k, hk⟩ := List.mem_iff_getElem?.mp hy
  rcases h.before hk with ⟨hsent, hable⟩ | ⟨x, hx, hxy, hstage⟩
  · refine ⟨hable, fun call p hp => ?_⟩
    rw [hsent] at hp
    cases hp
  · obtain ⟨hable, hserved⟩ := hs x (List.mem_of_getElem? hx)
    refine ⟨by rw [hxy.worker_eq, hxy.task_eq]; exact hable, fun call p hp => ?_⟩
    rw [hxy.task_eq, hxy.node_eq]
    rcases hstage with hsame | hnext
    · exact hserved call p (hsame ▸ hp)
    · rw [hp] at hnext
      cases hnext with
      | deliver _ canonical => exact ⟨rfl, rfl, trivial⟩
      | handle hold hhandles =>
        obtain ⟨hmetadata, hrequest, hjust⟩ := hserved _ _ hold
        exact ⟨hmetadata, hrequest, hhandles.justifies hjust⟩

theorem faithful (h : (c.lts tasks).Reachable s) : ∀ x ∈ s.procs, x.Faithful := by
  refine h.invariant (I := fun s => ∀ x ∈ s.procs, x.Faithful) ?_ ?_
  · rintro s rfl x hx
    cases hx
  · intro s _ s' _ ih hs
    exact hs.effect.faithful ih

/-- The handler of the call at `k` is at the command of its task. -/
def ExecutingAt (u : Pool (c.Store tasks) (c.Rpc tasks)) (k : ℕ) (x : c.Rpc tasks) : Prop :=
  ∃ y call, u.procs[k]? = some y ∧ y.task = x.task ∧ y.node = x.node ∧
    y.stage = .served call
      (.executing ((c.node x.node).service.runSpec (GrpcExecutor.request (tasks.get x.task))))

/-- A handler that has started its command was at it once. -/
theorem executed_before {past : List (Pool (c.Store tasks) (c.Rpc tasks))}
    (h : (c.lts tasks).Execution past s) {k : ℕ} {x : c.Rpc tasks} (hk : s.procs[k]? = some x)
    {call : Incoming RunTaskRequest} {p : Phase} (hstage : x.stage = .served call p)
    (hp : p.launched = true) : ∃ u ∈ past ++ [s], ExecutingAt u k x := by
  induction h generalizing x call p with
  | init hinit =>
    obtain rfl : _ = (⟨⟨State.init, fun _ => 0⟩, []⟩ : Pool (c.Store tasks) (c.Rpc tasks)) := hinit
    cases hk
  | @step past s s' l hexec hs ih =>
    have hnow := (faithful (hexec.step hs).reachable x (List.mem_of_getElem? hk)).2 call p hstage
    have hlater : (∃ u ∈ past ++ [s], ExecutingAt u k x) →
        ∃ u ∈ (past ++ [s]) ++ [s'], ExecutingAt u k x := by
      rintro ⟨u, hu, hat⟩
      exact ⟨u, List.mem_append_left _ hu, hat⟩
    rcases hs.effect.before hk with ⟨hsent, -⟩ | ⟨y, hy, hyx, hsame | hnext⟩
    · rw [hsent] at hstage
      cases hstage
    · obtain ⟨u, hu, hat⟩ := ih hy (hsame ▸ hstage) hp
      refine hlater ⟨u, hu, ?_⟩
      rw [ExecutingAt, hyx.task_eq, hyx.node_eq]
      exact hat
    · rw [hstage] at hnext
      cases hnext with
      | deliver _ _ => cases hp
      | handle hold hhandles =>
        rcases hhandles.launched hp with hbefore | rfl
        · obtain ⟨u, hu, hat⟩ := ih hy hold hbefore
          refine hlater ⟨u, hu, ?_⟩
          rw [ExecutingAt, hyx.task_eq, hyx.node_eq]
          exact hat
        · refine ⟨s', List.mem_append_right _ (List.mem_singleton_self _), x, call, hk, rfl, rfl, ?_⟩
          rw [hstage, hnow.2.1, hyx.node_eq]

/-! ### One call for each record -/

/-- The record `rec` of an attempt at `t` is what came of the call at `k`. -/
def Accounts (s : Pool (c.Store tasks) (c.Rpc tasks)) (t : TaskId tasks) (k : ℕ)
    (rec : AttemptRecord) : Prop :=
  ∃ x, s.procs[k]? = some x ∧ x.task = t ∧ x.waiting = false ∧
    rec.agent = (c.agentOf x.worker).address ∧ x.Yields rec.result

lemma Rpc.Yields.onward {x y : c.Rpc tasks} (hxy : x.Onward y) {res : AttemptResult}
    (h : x.Yields res) : y.Yields res := by
  rcases h with ⟨elapsed, answer, hanswer, rfl⟩ | hout
  · exact .inl ⟨elapsed, answer, hxy.answer answer hanswer, rfl⟩
  · exact .inr hout

lemma Accounts.step (hs : Effect s s') {t : TaskId tasks} {k : ℕ} {rec : AttemptRecord}
    (h : Accounts s t k rec) : Accounts s' t k rec := by
  obtain ⟨x, hk, rfl, hwait, hagent, hres⟩ := h
  obtain ⟨y, hy, hxy⟩ := hs.onward hk
  refine ⟨y, hy, hxy.task_eq, hxy.waiting hwait, ?_, hres.onward hxy⟩
  rw [agentOf, hxy.worker_eq]
  exact hagent

lemma exists_mem_of_forall₂ {α β : Type*} {R : α → β → Prop} {l : List α} {l' : List β}
    (h : List.Forall₂ R l l') : (∀ a ∈ l, ∃ b ∈ l', R a b) ∧ ∀ b ∈ l', ∃ a ∈ l, R a b := by
  induction h with
  | nil => simp
  | @cons a b l l' hab _ ih =>
    refine ⟨?_, ?_⟩
    · intro a' ha
      rcases List.mem_cons.mp ha with rfl | ha
      · exact ⟨b, List.mem_cons_self, hab⟩
      · obtain ⟨b', hb, hR⟩ := ih.1 a' ha
        exact ⟨b', List.mem_cons_of_mem _ hb, hR⟩
    · intro b' hb
      rcases List.mem_cons.mp hb with rfl | hb
      · exact ⟨a, List.mem_cons_self, hab⟩
      · obtain ⟨a', ha, hR⟩ := ih.2 b' hb
        exact ⟨a', List.mem_cons_of_mem _ ha, hR⟩

lemma Effect.accounts (h : Effect s s') {t : TaskId tasks} {l : List ℕ} (hl : l.Nodup)
    (hall : List.Forall₂ (Accounts s t) l (attempts s t)) :
    ∃ l' : List ℕ, l'.Nodup ∧ List.Forall₂ (Accounts s' t) l' (attempts s' t) := by
  have hstay : List.Forall₂ (Accounts s' t) l (attempts s t) := hall.imp fun _ _ => Accounts.step h
  cases h with
  | quiet _ hattempts => exact ⟨l, hl, by rw [hattempts]; exact hstay⟩
  | start _ _ hattempts => exact ⟨l, hl, by rw [hattempts]; exact hstay⟩
  | proceed _ _ _ hattempts => exact ⟨l, hl, by rw [hattempts]; exact hstay⟩
  | @hangUp k x res hk hwait hres hprocs hattempts =>
    rw [hattempts]
    by_cases ht : t = x.task
    · subst ht
      rw [if_pos rfl]
      refine ⟨l ++ [k], ?_, List.rel_append hstay (.cons ?_ .nil)⟩
      · rw [List.nodup_append]
        refine ⟨hl, List.nodup_singleton k, ?_⟩
        rintro j hj k' hk' rfl
        obtain rfl := List.mem_singleton.mp hk'
        -- the calls that are accounted for are those whose threads have gone on
        obtain ⟨_, _, y, hy, _, hgone, _⟩ := (exists_mem_of_forall₂ hall).1 j hj
        obtain rfl := Option.some.inj (hk.symm.trans hy)
        rw [hwait] at hgone
        cases hgone
      · refine ⟨{ x with waiting := false }, ?_, rfl, rfl, rfl, hres⟩
        rw [hprocs, List.getElem?_set_self (List.getElem?_eq_some_iff.mp hk).1]
    · rw [if_neg ht, List.append_nil]
      exact ⟨l, hl, hstay⟩

theorem accounts (h : (c.lts tasks).Reachable s) (t : TaskId tasks) :
    ∃ l : List ℕ, l.Nodup ∧ List.Forall₂ (Accounts s t) l (attempts s t) := by
  refine h.invariant (I := fun s => ∃ l : List ℕ, l.Nodup ∧
    List.Forall₂ (Accounts s t) l (attempts s t)) ?_ ?_
  · rintro s rfl
    have hnone : attempts (⟨⟨State.init, fun _ => 0⟩, []⟩ : Pool (c.Store tasks) (c.Rpc tasks)) t =
        [] := by
      show ((State.init : State c.scheduler tasks).run.st t).attempts = []
      simp only [State.init, Run.resolveUnschedulable_st]
      split_ifs <;> rfl
    exact ⟨[], .nil, by rw [hnone]; exact .nil⟩
  · rintro s _ s' _ ⟨l, hl, hall⟩ hs
    exact hs.effect.accounts hl hall

end Cluster

/-! ### What the records say -/

/-- What the record `rec` says about the call at `k` is true. -/
inductive Cluster.Truthful (past : List (Pool (c.Store tasks) (c.Rpc tasks)))
    (s : Pool (c.Store tasks) (c.Rpc tasks)) (x : c.Rpc tasks) (k : ℕ) (rec : AttemptRecord) : Prop
  /-- The controller has not heard of any result. -/
  | outage (hstatus : rec.result.status = .agentError)
  /-- The agent refused the request by one of its checks, and never started the command. -/
  | refused {call : Incoming RunTaskRequest} {st : Status}
      (hstage : x.stage = .served call (.finished (.error st)))
      (hrequest : call.request = GrpcExecutor.request (tasks.get x.task))
      (hcheck : (c.node x.node).service.check call = some st)
      (hres : rec.result.status = .failed ∧ rec.result.message = st.message)
  /-- The agent executed the command, and this is its result. -/
  | ran {call : Incoming RunTaskRequest} {out : RunOutput}
      (hstage : x.stage = .served call (.finished (.ok out.toReply)))
      (hrequest : call.request = GrpcExecutor.request (tasks.get x.task))
      (hcheck : (c.node x.node).service.check call = none)
      (hexecuted : ∃ u ∈ past, Cluster.ExecutingAt u k x)
      (hres : ∃ elapsed, rec.result = GrpcExecutor.attemptResult elapsed (.ok out.toReply))

namespace Cluster

/-- An answer without a result of a command comes from a check. -/
lemma Rpc.Faithful.check_of_error {x : c.Rpc tasks} (h : x.Faithful)
    (hnone : ∀ st, x.answer? = some (.error st) → st.code ≠ .resourceExhausted)
    {call : Incoming RunTaskRequest} {st : Status}
    (hstage : x.stage = .served call (.finished (.error st))) :
    (c.node x.node).service.check call = some st := by
  rcases (h.2 call _ hstage).2.2 with hcheck | rfl
  · exact hcheck
  · exact absurd rfl (hnone atLimit (Rpc.answer?_eq_some.mpr ⟨call, hstage⟩))

/-- The last step of a run executes nothing that its answer is from. -/
lemma ExecutingAt.ne_finished {k : ℕ} {x : c.Rpc tasks} (h : ExecutingAt s k x)
    (hk : s.procs[k]? = some x) {call : Incoming RunTaskRequest}
    {answer : Except Status RunTaskReply} : x.stage ≠ .served call (.finished answer) := by
  obtain ⟨y, call', hy, _, _, hstage⟩ := h
  obtain rfl := Option.some.inj (hk.symm.trans hy)
  rw [hstage]
  exact nofun

lemma truthful {past : List (Pool (c.Store tasks) (c.Rpc tasks))}
    (h : (c.lts tasks).Execution past s) {k : ℕ} {x : c.Rpc tasks} (hk : s.procs[k]? = some x)
    {rec : AttemptRecord} (hres : x.Yields rec.result) : Truthful past s x k rec := by
  have hx := faithful h.reachable x (List.mem_of_getElem? hk)
  have hnone := (noneRefused h.reachable).answer_ne x (List.mem_of_getElem? hk)
  rcases hres with ⟨elapsed, answer, hanswer, hrec⟩ | hout
  · obtain ⟨call, hstage⟩ := Rpc.answer?_eq_some.mp hanswer
    obtain ⟨-, hrequest, hjust⟩ := hx.2 call _ hstage
    cases answer with
    | error st =>
      by_cases hst : st.code.isInfrastructure = true
      · exact .outage (hrec ▸ (GrpcExecutor.attemptResult_agentError_iff _ _).mpr ⟨st, rfl, hst⟩)
      · refine .refused hstage hrequest (hx.check_of_error hnone hstage) ?_
        rw [hrec]
        simp [GrpcExecutor.attemptResult, hst]
    | ok rep =>
      obtain ⟨hcheck, out, rfl⟩ := hjust
      refine .ran hstage hrequest hcheck ?_ ⟨elapsed, hrec⟩
      obtain ⟨u, hu, hat⟩ := executed_before h hk hstage rfl
      rcases List.mem_append.mp hu with hu | hu
      · exact ⟨u, hu, hat⟩
      · obtain rfl := List.mem_singleton.mp hu
        exact absurd hstage (hat.ne_finished hk)
  · exact .outage hout

end Cluster

/-- In every run of the cluster, whatever is delayed, lost or given up, the records of the attempts
at a task are, one by one, about different calls for this task at agents that are able to run it.
Each names the agent of its call, and says of it what is true: the command of the task was executed
there with this result, or the request was refused by a check, or nothing is known. -/
theorem records_account_for_calls (c : Cluster) (tasks : List Task)
    (past : List (Pool (c.Store tasks) (c.Rpc tasks))) (s : Pool (c.Store tasks) (c.Rpc tasks))
    (h : (c.lts tasks).Execution past s) (t : TaskId tasks) :
    ∃ l : List ℕ, l.Nodup ∧ List.Forall₂
      (fun k rec => ∃ x, s.procs[k]? = some x ∧ x.task = t ∧ able x.worker.1 t = true ∧
        rec.agent = (c.node x.node).address ∧ Cluster.Truthful past s x k rec)
      l (s.store.sched.run.st t).attempts := by
  obtain ⟨l, hl, hall⟩ := Cluster.accounts h.reachable t
  refine ⟨l, hl, hall.imp ?_⟩
  rintro k rec ⟨x, hk, rfl, -, hagent, hres⟩
  have hx := List.mem_of_getElem? hk
  refine ⟨x, hk, rfl, (Cluster.faithful h.reachable x hx).1, ?_, Cluster.truthful h hk hres⟩
  rw [hagent, Cluster.agentOf, Cluster.agents_get, (c.node _).info_eq.1,
    (Cluster.oneCallEach h.reachable).node_eq x hx]

/-! ### From verdicts to commands -/

lemma AttemptStatus.verdict_injective : Function.Injective AttemptStatus.verdict := by
  intro a b h
  cases a <;> cases b <;> first | rfl | cases h

namespace GrpcExecutor

lemma attemptResult_passed_iff (elapsed : ℚ) (rep : RunTaskReply) :
    (attemptResult elapsed (.ok rep)).status = .passed ↔
      rep.outcome = .exited ∧ rep.exitCode = 0 := by
  cases h : rep.outcome <;> simp [attemptResult, h]

lemma attemptResult_timedOut_iff (elapsed : ℚ) (rep : RunTaskReply) :
    (attemptResult elapsed (.ok rep)).status = .timedOut ↔ rep.outcome = .timedOut := by
  cases h : rep.outcome <;> simp [attemptResult, h]
  split_ifs <;> simp

end GrpcExecutor

namespace RunOutput

variable (out : RunOutput)

lemma toReply_exited_iff : out.toReply.outcome = .exited ↔ out.outcome = .exited := by
  cases h : out.outcome <;> simp [toReply, RunOutcome.toReply, h]

lemma toReply_timedOut_iff : out.toReply.outcome = .timedOut ↔ out.outcome = .timedOut := by
  cases h : out.outcome <;> simp [toReply, RunOutcome.toReply, h]

end RunOutput

namespace Cluster

/-- An agent that is able to run the task `t` has let its request pass, and has executed its command
with the result `out`. -/
def Executed (past : List (Pool (c.Store tasks) (c.Rpc tasks)))
    (s : Pool (c.Store tasks) (c.Rpc tasks)) (t : TaskId tasks) (out : RunOutput) : Prop :=
  ∃ k x call, s.procs[k]? = some x ∧ x.task = t ∧ able x.worker.1 t = true ∧
    call.request = GrpcExecutor.request (tasks.get t) ∧
    (c.node x.node).service.check call = none ∧
    x.stage = .served call (.finished (.ok out.toReply)) ∧ ∃ u ∈ past, ExecutingAt u k x

/-- An agent has refused the request for the task `t`. -/
def Refused (s : Pool (c.Store tasks) (c.Rpc tasks)) (t : TaskId tasks) : Prop :=
  ∃ x ∈ s.procs, ∃ call st, x.task = t ∧ call.request = GrpcExecutor.request (tasks.get t) ∧
    (c.node x.node).service.check call = some st ∧
    x.stage = .served call (.finished (.error st))

/-- A record with a result leads to the command that had it, or to the refusal of its request. -/
lemma executed_of_mem {past : List (Pool (c.Store tasks) (c.Rpc tasks))}
    (h : (c.lts tasks).Execution past s) {t : TaskId tasks} {rec : AttemptRecord}
    (hrec : rec ∈ attempts s t) (hne : rec.result.status ≠ .agentError) :
    (∃ out elapsed, Executed past s t out ∧
      rec.result = GrpcExecutor.attemptResult elapsed (.ok out.toReply)) ∨
    Refused s t ∧ rec.result.status = .failed := by
  obtain ⟨l, -, hall⟩ := accounts h.reachable t
  obtain ⟨k, -, x, hk, rfl, -, -, hres⟩ := (exists_mem_of_forall₂ hall).2 rec hrec
  have hx := List.mem_of_getElem? hk
  cases truthful h hk hres with
  | outage hstatus => exact absurd hstatus hne
  | @refused call st hstage hrequest hcheck hfailed =>
    exact .inr ⟨⟨x, hx, call, st, rfl, hrequest, hcheck, hstage⟩, hfailed.1⟩
  | @ran call out hstage hrequest hcheck hexecuted hresult =>
    obtain ⟨elapsed, hresult⟩ := hresult
    have hable := (faithful h.reachable x hx).1
    exact .inl ⟨out, elapsed, ⟨k, x, call, hk, rfl, hable, hrequest, hcheck, hstage, hexecuted⟩,
      hresult⟩

/-- The record that has decided a task. -/
lemma exists_deciding (hretries : ∀ t ∈ tasks, 0 ≤ t.retries) (h : (c.lts tasks).Reachable s)
    {t : TaskId tasks} (hfinal : (s.store.sched.run.st t).final ≠ .unschedulable) :
    ∃ rec ∈ attempts s t, rec.result.status.verdict = (s.store.sched.run.st t).final := by
  have hagrees := State.agrees hretries (sched_reachable h) t
  have hshows : (s.store.sched.run.st t).Shows (tasks.get t).retries True := by
    obtain ⟨-, hdone⟩ := hagrees
    cases hd : (s.store.sched.run.st t).done
    · simp only [hd] at hdone
      exact absurd hdone.1 hfinal
    · simp only [hd] at hdone
      exact hdone.mono fun _ => trivial
  obtain ⟨rec, hlast, hverdict⟩ := hshows.exists_deciding hfinal
  exact ⟨rec, List.mem_of_getLast? hlast, hverdict⟩

/-- A decided task was executed with a result for which its verdict is due, or refused. -/
lemma cause_of_final (hretries : ∀ t ∈ tasks, 0 ≤ t.retries)
    {past : List (Pool (c.Store tasks) (c.Rpc tasks))} (h : (c.lts tasks).Execution past s)
    {t : TaskId tasks} {f : FinalStatus} (hfinal : (s.store.sched.run.st t).final = f)
    (hf : f ≠ .unschedulable) :
    (∃ out elapsed, Executed past s t out ∧
      (GrpcExecutor.attemptResult elapsed (.ok out.toReply)).status.verdict = f) ∨
    Refused s t ∧ f = .failed := by
  subst hfinal
  obtain ⟨rec, hrec, hverdict⟩ := exists_deciding hretries h.reachable hf
  have hne : rec.result.status ≠ .agentError := by
    intro hout
    rw [hout] at hverdict
    exact hf hverdict.symm
  rcases executed_of_mem h hrec hne with ⟨out, elapsed, hexec, hres⟩ | ⟨href, hfailed⟩
  · exact .inl ⟨out, elapsed, hexec, by rw [← hres, hverdict]⟩
  · exact .inr ⟨href, by rw [← hverdict, hfailed]; rfl⟩

lemma executed_of_passed (hretries : ∀ t ∈ tasks, 0 ≤ t.retries)
    {past : List (Pool (c.Store tasks) (c.Rpc tasks))} (h : (c.lts tasks).Execution past s)
    {t : TaskId tasks} (hfinal : (s.store.sched.run.st t).final = .passed) :
    ∃ out, Executed past s t out ∧ out.outcome = .exited ∧ out.exitCode = 0 := by
  rcases cause_of_final hretries h hfinal nofun with ⟨out, elapsed, hexec, hv⟩ | ⟨-, hv⟩
  · have hpassed := @AttemptStatus.verdict_injective _ .passed hv
    obtain ⟨hout, hcode⟩ := (GrpcExecutor.attemptResult_passed_iff _ _).mp hpassed
    exact ⟨out, hexec, out.toReply_exited_iff.mp hout, hcode⟩
  · cases hv

end Cluster

/-- No verdict without a cause, in every state of every run of the cluster: a task that has passed
was executed before, by an agent that is able to run it and lets it pass, and this command exited
with 0; one that has timed out was executed, and this command was killed for its time; and one
that has failed was executed with some other end, or refused by an agent. -/
theorem verdicts_have_causes (c : Cluster) (tasks : List Task)
    (hretries : ∀ t ∈ tasks, 0 ≤ t.retries)
    (past : List (Pool (c.Store tasks) (c.Rpc tasks))) (s : Pool (c.Store tasks) (c.Rpc tasks))
    (h : (c.lts tasks).Execution past s) (t : TaskId tasks) :
    ((s.store.sched.run.st t).final = .passed →
      ∃ out, Cluster.Executed past s t out ∧ out.outcome = .exited ∧ out.exitCode = 0) ∧
    ((s.store.sched.run.st t).final = .timedOut →
      ∃ out, Cluster.Executed past s t out ∧ out.outcome = .timedOut) ∧
    ((s.store.sched.run.st t).final = .failed →
      Cluster.Refused s t ∨ ∃ out, Cluster.Executed past s t out ∧ out.outcome ≠ .timedOut ∧
        ¬(out.outcome = .exited ∧ out.exitCode = 0)) := by
  refine ⟨Cluster.executed_of_passed hretries h, fun hfinal => ?_, fun hfinal => ?_⟩
  · rcases Cluster.cause_of_final hretries h hfinal nofun with ⟨out, elapsed, hexec, hv⟩ | ⟨-, hv⟩
    · have htimed := @AttemptStatus.verdict_injective _ .timedOut hv
      have hout := (GrpcExecutor.attemptResult_timedOut_iff _ _).mp htimed
      exact ⟨out, hexec, out.toReply_timedOut_iff.mp hout⟩
    · cases hv
  · rcases Cluster.cause_of_final hretries h hfinal nofun with ⟨out, elapsed, hexec, hv⟩ | ⟨href, -⟩
    · refine .inr ⟨out, hexec, fun hout => ?_, fun hout => ?_⟩
      · rw [(GrpcExecutor.attemptResult_timedOut_iff _ _).mpr
          (out.toReply_timedOut_iff.mpr hout)] at hv
        cases hv
      · rw [(GrpcExecutor.attemptResult_passed_iff _ _).mpr
          ⟨out.toReply_exited_iff.mpr hout.1, hout.2⟩] at hv
        cases hv
    · exact .inl href

namespace Fleet

/-- The command of `probe` has exited with 0. -/
def success : RunOutput := { outcome := .exited, exitCode := 0 }

/-- The call for `probe` is made, served and answered. -/
lemma answered : ∃ past s, (single.lts probes).Execution past s ∧
    (s.store.sched.run.st probe).final = .passed ∧
      (s.store.sched.run.st probe).attempts.length = 1 := by
  have hcalled := LTS.Execution.init (A := single.lts probes) rfl
    |>.step (l := ()) (.schedule (.acquire thread (by decide) (by decide)) (by simp) (by simp))
    |>.step (l := ()) (.call (i := ⟨0, by decide⟩)
      (.call thread probe (by decide) (by decide) (by decide)) (by decide))
  have hserved := hcalled.step (l := ()) (.deliver (k := 0) rfl rfl id)
    |>.step (l := ()) (.handle (k := 0) rfl rfl (.accept (by decide)))
    |>.step (l := ()) (.handle (k := 0) rfl rfl (.grant (by decide)))
    |>.step (l := ()) (.handle (k := 0) rfl rfl .launch)
    |>.step (l := ()) (.handle (k := 0) rfl rfl (.exit success))
    |>.step (l := ()) (.handle (k := 0) rfl rfl .release)
  have hanswered := hserved.step (l := ()) (.reply (k := 0) 1 rfl rfl rfl
    (.ret thread probe _ (by decide) (by decide)))
  exact ⟨_, _, hanswered, rfl, rfl⟩

end Fleet

/-- The record of `probe` after its run is about its call. -/
theorem records_account_for_calls_probe :
    ∃ (past : List (Pool (Fleet.single.Store Fleet.probes) (Fleet.single.Rpc Fleet.probes)))
      (s : Pool (Fleet.single.Store Fleet.probes) (Fleet.single.Rpc Fleet.probes)),
      (Fleet.single.lts Fleet.probes).Execution past s ∧
      ∃ rec ∈ (s.store.sched.run.st Fleet.probe).attempts, ∃ k x, s.procs[k]? = some x ∧
        x.task = Fleet.probe ∧ rec.agent = (Fleet.single.node x.node).address ∧
        Cluster.Truthful past s x k rec := by
  obtain ⟨past, s, h, -, hlength⟩ := Fleet.answered
  obtain ⟨l, -, hall⟩ := records_account_for_calls Fleet.single Fleet.probes past s h Fleet.probe
  refine ⟨past, s, h, ?_⟩
  generalize (s.store.sched.run.st Fleet.probe).attempts = attempts at hlength hall ⊢
  cases hall with
  | nil => cases hlength
  | @cons k rec l recs hrec _ =>
    obtain ⟨x, hk, htask, -, hagent, htruthful⟩ := hrec
    exact ⟨rec, List.mem_cons_self, k, x, hk, htask, hagent, htruthful⟩

/-- `probe` has passed, so its command was executed. -/
theorem verdicts_have_causes_probe :
    ∃ (past : List (Pool (Fleet.single.Store Fleet.probes) (Fleet.single.Rpc Fleet.probes)))
      (s : Pool (Fleet.single.Store Fleet.probes) (Fleet.single.Rpc Fleet.probes)) (out : RunOutput),
      (Fleet.single.lts Fleet.probes).Execution past s ∧ Cluster.Executed past s Fleet.probe out ∧
      out.outcome = .exited ∧ out.exitCode = 0 := by
  obtain ⟨past, s, h, hpassed, -⟩ := Fleet.answered
  obtain ⟨out, hout⟩ :=
    (verdicts_have_causes Fleet.single Fleet.probes (by decide) past s h Fleet.probe).1 hpassed
  exact ⟨past, s, out, h, hout⟩

end Dtest
