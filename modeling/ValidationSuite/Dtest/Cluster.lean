import ValidationSuite.Dtest.Agent.Capacity
import ValidationSuite.Dtest.GrpcExecutor
import ValidationSuite.Dtest.Scheduler.Attempts

/-!
# Controller and agents

One run of the scheduler together with the agents that serve it. A thread of the scheduler issues a
`RunTask` call and waits; the request is delivered at some time or never, its handler takes its
steps on the agent, and the reply arrives at some time or never. The thread may give up on a call at
any time, with a status that `GrpcExecutor::run` takes for an outage, while the request is still
under way or its handler still at work.
-/

namespace Dtest

open Transition ByteString

/-! ### The system -/

/-- An agent that `connect` has accepted under the controller's token. -/
structure Node (token : ByteString) where
  address : ByteString
  service : AgentService
  cpus : UInt32
  info : AgentInfo
  connected : GrpcExecutor.connect address
    (service.getInfo cpus (GrpcExecutor.metadata token)) = .ok info

/-- The agents of a run, at pairwise distinct addresses. -/
structure Cluster where
  token : ByteString
  nodes : List (Node token)
  nodup : (nodes.map (·.address)).Nodup

namespace Node

variable {token : ByteString} (n : Node token)

/-- The controller knows the number of slots, as `GetInfo` reported it. -/
lemma info_eq : n.info.address = n.address ∧ n.info.slots = n.service.opts.slots := by
  obtain ⟨info, hinfo, haddress, hslots⟩ := GrpcExecutor.slots_of_connect n.connected
  refine ⟨haddress, ?_⟩
  rw [AgentService.getInfo] at hinfo
  cases hauth : n.service.authenticate (GrpcExecutor.metadata token) with
  | some st => simp [hauth] at hinfo
  | none =>
    simp only [hauth, Except.ok.injEq] at hinfo
    subst hinfo
    rw [hslots, if_neg]
    intro h0
    have hpos := n.service.slots_pos
    rw [show n.service.opts.slots = 0 from h0] at hpos
    simp at hpos

end Node

namespace Cluster

variable (c : Cluster)

/-- An agent of the cluster. -/
abbrev Index := Fin c.nodes.length

abbrev node (i : c.Index) : Node c.token := c.nodes.get i

/-- The scheduler over the agents of the cluster. -/
abbrev scheduler : Scheduler := Scheduler.make (c.nodes.map (·.info))

/-- The stub of `GrpcExecutor` for an address. -/
def stub (address : ByteString) : Option c.Index :=
  (List.finRange _).find? fun i => (c.node i).address == address

/-- The agent a thread of the scheduler works for. -/
def agentOf (w : Worker c.scheduler) : AgentInfo := c.scheduler.agents.get w.1

/-- How far a call has come, from the agent's point of view. -/
inductive Stage where
  /-- the request is under way, or lost -/
  | sent
  /-- the request has been delivered -/
  | served (call : Incoming RunTaskRequest) (phase : Phase)

/-- One `RunTask` call. -/
structure Rpc (tasks : List Task) where
  worker : Worker c.scheduler
  task : TaskId tasks
  node : c.Index
  /-- is the thread still waiting for the reply? -/
  waiting : Bool := true
  stage : Stage := .sent

/-- The scheduler and the `running_` of each agent. -/
structure Store (tasks : List Task) where
  sched : State c.scheduler tasks
  running : c.Index → UInt32

end Cluster

variable {c : Cluster} {tasks : List Task}

/-- The call `x` has got the answer of its handler. -/
def Cluster.Rpc.answer? (x : c.Rpc tasks) : Option (Except Status RunTaskReply) :=
  match x.stage with
  | .served _ (.finished answer) => some answer
  | _ => none

/-- The steps of the cluster. Those of the scheduler that neither start nor end a call are its own;
a call starts with a step of the scheduler and ends with one. -/
inductive Cluster.Step :
    Pool (c.Store tasks) (c.Rpc tasks) → Pool (c.Store tasks) (c.Rpc tasks) → Prop
  | schedule {s : Pool (c.Store tasks) (c.Rpc tasks)} {l : Label c.scheduler tasks}
      {sched : State c.scheduler tasks} (h : Dtest.Step s.store.sched l sched)
      (hcall : ∀ w t, l ≠ .call w t) (hret : ∀ w t res, l ≠ .ret w t res) :
      Step s { s with store := { s.store with sched := sched } }
  /-- `run` finds a stub and sends the request. -/
  | call {s : Pool (c.Store tasks) (c.Rpc tasks)} {w : Worker c.scheduler} {t : TaskId tasks}
      {sched : State c.scheduler tasks} {i : c.Index}
      (h : Dtest.Step s.store.sched (.call w t) sched)
      (hstub : c.stub (c.agentOf w).address = some i) :
      Step s ⟨{ s.store with sched := sched }, s.procs ++ [{ worker := w, task := t, node := i }]⟩
  /-- `run` finds no stub. -/
  | callNoStub {s : Pool (c.Store tasks) (c.Rpc tasks)} {w : Worker c.scheduler} {t : TaskId tasks}
      {sched : State c.scheduler tasks} (h : Dtest.Step s.store.sched (.call w t) sched)
      (hstub : c.stub (c.agentOf w).address = none) :
      Step s { s with store := { s.store with sched := sched } }
  | noStub {s : Pool (c.Store tasks) (c.Rpc tasks)} {w : Worker c.scheduler} {t : TaskId tasks}
      {sched : State c.scheduler tasks} (hstub : c.stub (c.agentOf w).address = none)
      (h : Dtest.Step s.store.sched (.ret w t (GrpcExecutor.noConnection (c.agentOf w))) sched) :
      Step s { s with store := { s.store with sched := sched } }
  /-- The request reaches the agent, whether or not anybody still waits for the reply. -/
  | deliver {s : Pool (c.Store tasks) (c.Rpc tasks)} {k : ℕ} {x : c.Rpc tasks}
      (hk : s.procs[k]? = some x) (hstage : x.stage = .sent) (canonical : ByteString → ByteString) :
      Step s { s with procs := s.procs.set k { x with
        stage := .served ⟨GrpcExecutor.metadata c.token, GrpcExecutor.request (tasks.get x.task),
          canonical⟩ .arrived } }
  /-- A handler takes a step. -/
  | handle {s : Pool (c.Store tasks) (c.Rpc tasks)} {k : ℕ} {x : c.Rpc tasks}
      {call : Incoming RunTaskRequest} {p p' : Phase} {n : UInt32} (hk : s.procs[k]? = some x)
      (hstage : x.stage = .served call p)
      (h : (c.node x.node).service.Handles call (s.store.running x.node) p n p') :
      Step s ⟨{ s.store with running := Function.update s.store.running x.node n },
        s.procs.set k { x with stage := .served call p' }⟩
  /-- The reply reaches the thread that waits for it. -/
  | reply {s : Pool (c.Store tasks) (c.Rpc tasks)} {k : ℕ} {x : c.Rpc tasks}
      {answer : Except Status RunTaskReply} {sched : State c.scheduler tasks} (elapsed : ℚ)
      (hk : s.procs[k]? = some x) (hwait : x.waiting = true) (hanswer : x.answer? = some answer)
      (h : Dtest.Step s.store.sched
        (.ret x.worker x.task (GrpcExecutor.attemptResult elapsed answer)) sched) :
      Step s ⟨{ s.store with sched := sched }, s.procs.set k { x with waiting := false }⟩
  /-- The thread gives up, however far the call has come. -/
  | fail {s : Pool (c.Store tasks) (c.Rpc tasks)} {k : ℕ} {x : c.Rpc tasks}
      {sched : State c.scheduler tasks} (elapsed : ℚ) (st : Status)
      (hst : st.code.isInfrastructure = true) (hk : s.procs[k]? = some x)
      (hwait : x.waiting = true)
      (h : Dtest.Step s.store.sched
        (.ret x.worker x.task (GrpcExecutor.attemptResult elapsed (.error st))) sched) :
      Step s ⟨{ s.store with sched := sched }, s.procs.set k { x with waiting := false }⟩

/-- The runs of the scheduler on `tasks` over the agents of the cluster. -/
def Cluster.lts (c : Cluster) (tasks : List Task) :
    LTS (Pool (c.Store tasks) (c.Rpc tasks)) Unit where
  init s := s = ⟨⟨State.init, fun _ => 0⟩, []⟩
  step s _ s' := Step s s'

/-! ### Threads and agents -/

namespace Cluster

/-- The agent of an entry of the scheduler. -/
def index (c : Cluster) (a : Entry c.scheduler) : c.Index :=
  ⟨a, by simpa [Scheduler.make] using a.isLt⟩

/-- The constructor of the scheduler finds nothing to repair. -/
lemma agents_eq (c : Cluster) : c.scheduler.agents = c.nodes.map (·.info) := by
  simp only [Scheduler.make, List.map_map]
  refine List.map_congr_left fun n _ => ?_
  have hpos := n.service.slots_pos
  rw [Function.comp_apply, if_neg]
  intro h0
  rw [← n.info_eq.2, h0] at hpos
  simp at hpos

lemma agents_get (a : Entry c.scheduler) :
    c.scheduler.agents.get a = (c.node (c.index a)).info := by
  have hget : c.scheduler.agents[(a : ℕ)]? = some (c.scheduler.agents.get a) := by simp
  have hnode : c.nodes[(a : ℕ)]? = some (c.node (c.index a)) := by
    simp [node, index]
  have hsame := congrArg (·[(a : ℕ)]?) c.agents_eq
  simp only [hget, List.getElem?_map, hnode] at hsame
  exact Option.some.inj hsame

/-- As the addresses are distinct, the stub for an agent's address leads to that agent. -/
lemma stub_eq (w : Worker c.scheduler) :
    c.stub (c.agentOf w).address = some (c.index w.1) := by
  have haddress : (c.agentOf w).address = (c.node (c.index w.1)).address := by
    rw [agentOf, agents_get, (c.node _).info_eq.1]
  have hfound : (c.stub (c.agentOf w).address).isSome = true := by
    rw [stub, List.find?_isSome]
    exact ⟨c.index w.1, List.mem_finRange _, by simp [haddress]⟩
  obtain ⟨i, hi⟩ := Option.isSome_iff_exists.mp hfound
  have hsame : (c.node i).address = (c.node (c.index w.1)).address := by
    rw [← haddress]
    simpa using List.find?_some hi
  rw [hi]
  congr 1
  apply Fin.ext
  have hinj := List.nodup_iff_injective_get.mp c.nodup
  have h := @hinj ⟨i, by simp⟩ ⟨c.index w.1, by simp⟩ (by simpa [node] using hsame)
  simpa using h

/-- An agent has as many threads as slots. -/
lemma length_le_slots {l : List (Worker c.scheduler)} (hl : l.Nodup) {i : c.Index}
    (hi : ∀ w ∈ l, c.index w.1 = i) : l.length ≤ (c.node i).service.opts.slots.toNat := by
  obtain ⟨a, rfl⟩ : ∃ a, c.index a = i := ⟨⟨i, by simp [Scheduler.make]⟩, rfl⟩
  have hsub : l.toFinset ⊆ Finset.univ.map (Function.Embedding.sigmaMk a) := by
    rintro ⟨b, k⟩ hw
    have hb : c.index b = c.index a := hi _ (List.mem_toFinset.mp hw)
    obtain rfl : b = a := Fin.ext (Fin.mk.inj hb)
    exact Finset.mem_map.mpr ⟨k, Finset.mem_univ _, rfl⟩
  have hcard := Finset.card_le_card hsub
  rw [List.toFinset_card_of_nodup hl, Finset.card_map, Finset.card_univ, Fintype.card_fin,
    agents_get, (c.node _).info_eq.2] at hcard
  exact hcard

end Cluster

/-! ### One call for each thread -/

namespace Cluster

/-- The agent has, or may yet get, work to do for the call. -/
def Rpc.outstanding (x : c.Rpc tasks) : Bool :=
  match x.stage with
  | .sent => true
  | .served _ p => !p.isFinished

/-- Is either end still busy with the call? -/
def Rpc.live (x : c.Rpc tasks) : Bool := x.waiting || x.outstanding

/-- Of two calls, at most one is live, unless they belong to different threads. -/
def Rpc.Apart (x y : c.Rpc tasks) : Prop :=
  x.live = true → y.live = true → x.worker ≠ y.worker

lemma Rpc.Apart.symm {x y : c.Rpc tasks} (h : x.Apart y) : y.Apart x :=
  fun hy hx hw => h hx hy hw.symm

/-- A thread waits for one call at most, and once it has given up on one that the agent may still
be working on, it calls nobody again. -/
structure OneCallEach (s : Pool (c.Store tasks) (c.Rpc tasks)) : Prop where
  node_eq : ∀ x ∈ s.procs, x.node = c.index x.worker.1
  calling : ∀ x ∈ s.procs, x.waiting = true → s.store.sched.pc x.worker = .calling x.task
  spent : ∀ x ∈ s.procs, x.waiting = false → x.outstanding = true →
    s.store.sched.Spent x.worker
  apart : s.procs.Pairwise Rpc.Apart

variable {s : Pool (c.Store tasks) (c.Rpc tasks)} {sched : State c.scheduler tasks}

/-- The scheduler moves on, and no call is answered. -/
lemma OneCallEach.schedule (h : OneCallEach s) {l : Label c.scheduler tasks}
    (hs : Dtest.Step s.store.sched l sched) (hret : ∀ w t res, l ≠ .ret w t res) :
    OneCallEach { s with store := { s.store with sched := sched } } where
  node_eq := h.node_eq
  calling x hx hwait := by
    apply (hs.calling_of (h.calling x hx hwait)).resolve_right
    rintro ⟨res, hl⟩
    exact hret _ _ _ hl
  spent x hx hwait hout := (h.spent x hx hwait hout).step hs
  apart := h.apart

/-- A thread that calls has no live call. -/
lemma OneCallEach.worker_ne (h : OneCallEach s) {w : Worker c.scheduler} {t : TaskId tasks}
    (hs : Dtest.Step s.store.sched (.call w t) sched) {x : c.Rpc tasks} (hx : x ∈ s.procs)
    (hlive : x.live = true) : x.worker ≠ w := by
  rintro rfl
  cases hs with
  | call _ _ hpc hcond _ =>
    cases hwait : x.waiting
    · have hout : x.outstanding = true := by simpa [Rpc.live, hwait] using hlive
      rcases h.spent x hx hwait hout with hex | ⟨hdead, _⟩
      · rw [hpc] at hex
        cases hex
      · obtain ⟨_, halive⟩ := (Run.continues_iff _ _).mp hcond
        rw [hdead] at halive
        cases halive
    · have hcalling := h.calling x hx hwait
      rw [hpc] at hcalling
      cases hcalling

lemma OneCallEach.call (h : OneCallEach s) {w : Worker c.scheduler} {t : TaskId tasks}
    (hs : Dtest.Step s.store.sched (.call w t) sched) :
    OneCallEach ⟨{ s.store with sched := sched },
      s.procs ++ [{ worker := w, task := t, node := c.index w.1 }]⟩ := by
  have hold := h.schedule hs (by simp)
  constructor
  · exact Pool.forall_concat hold.node_eq rfl
  · apply Pool.forall_concat hold.calling
    intro _
    cases hs
    simp
  · apply Pool.forall_concat hold.spent
    intro hwait _
    cases hwait
  · refine List.pairwise_append.mpr ⟨hold.apart, List.pairwise_singleton _ _, ?_⟩
    intro x hx y hy hlive _
    obtain rfl := List.mem_singleton.mp hy
    exact h.worker_ne hs hx hlive

/-- The agent gets on with the call `x`. -/
lemma OneCallEach.progress (h : OneCallEach s) {k : ℕ} {x : c.Rpc tasks} (hk : s.procs[k]? = some x)
    (hout : x.outstanding = true) (stage : Stage) (running : c.Index → UInt32) :
    OneCallEach ⟨{ s.store with running := running }, s.procs.set k { x with stage := stage }⟩ := by
  have hmem : x ∈ s.procs := List.mem_of_getElem? hk
  have hlive : x.live = true := by simp [Rpc.live, hout]
  constructor
  · exact Pool.forall_set h.node_eq (h.node_eq x hmem)
  · exact Pool.forall_set h.calling (h.calling x hmem)
  · exact Pool.forall_set h.spent fun hwait _ => h.spent x hmem hwait hout
  · refine Pool.pairwise_set h.apart hk fun y => ⟨?_, ?_⟩
    · intro hxy _ hy
      exact hxy hlive hy
    · intro hyx hy _
      exact hyx hy hlive

/-- The thread that waits for the call `x` goes on. If the agent may still be working on it, this is
an outage. -/
lemma OneCallEach.hangUp (h : OneCallEach s) {k : ℕ} {x : c.Rpc tasks} (hk : s.procs[k]? = some x)
    (hwait : x.waiting = true) {res : AttemptResult}
    (hs : Dtest.Step s.store.sched (.ret x.worker x.task res) sched)
    (hres : x.outstanding = true → res.status = .agentError) :
    OneCallEach ⟨{ s.store with sched := sched }, s.procs.set k { x with waiting := false }⟩ := by
  have hmem : x ∈ s.procs := List.mem_of_getElem? hk
  have hlive : x.live = true := by simp [Rpc.live, hwait]
  constructor
  · exact Pool.forall_set h.node_eq (h.node_eq x hmem)
  · intro y hy hwait'
    rcases Pool.of_mem_set hy with rfl | ⟨j, hjk, hj⟩
    · cases hwait'
    · have hapart := Pool.of_pairwise (fun _ _ => Rpc.Apart.symm) h.apart hjk hk hj
      refine (hs.calling_of (h.calling y (List.mem_of_getElem? hj) hwait')).resolve_right ?_
      rintro ⟨res', hl⟩
      exact hapart hlive (by simp [Rpc.live, hwait']) (congrArg Label.worker hl)
  · apply Pool.forall_set
    · intro y hy hwait' hout
      exact (h.spent y hy hwait' hout).step hs
    · intro _ hout
      exact (State.spent_of_outage hs (hres hout)).2
  · refine Pool.pairwise_set h.apart hk fun y => ⟨?_, ?_⟩
    · intro hxy _ hy
      exact hxy hlive hy
    · intro hyx hy _
      exact hyx hy hlive

lemma Rpc.not_outstanding_of_answer {x : c.Rpc tasks} {answer : Except Status RunTaskReply}
    (h : x.answer? = some answer) : x.outstanding = false := by
  unfold Rpc.answer? at h
  split at h
  · simp_all [Rpc.outstanding, Phase.isFinished]
  · cases h

lemma outstanding_of_handles {x : c.Rpc tasks} {call : Incoming RunTaskRequest} {p p' : Phase}
    {n n' : UInt32} {svc : AgentService} (hstage : x.stage = .served call p)
    (h : svc.Handles call n p n' p') : x.outstanding = true := by
  cases h <;> simp [Rpc.outstanding, hstage, Phase.isFinished]

lemma OneCallEach.step (h : OneCallEach s) {s' : Pool (c.Store tasks) (c.Rpc tasks)}
    (hs : Step s s') : OneCallEach s' := by
  cases hs with
  | schedule hstep _ hret => exact h.schedule hstep hret
  | call hstep hstub =>
    rw [stub_eq] at hstub
    obtain rfl := Option.some.inj hstub
    exact h.call hstep
  | callNoStub hstep hstub =>
    rw [stub_eq] at hstub
    cases hstub
  | noStub hstub _ =>
    rw [stub_eq] at hstub
    cases hstub
  | deliver hk hstage canonical =>
    exact h.progress hk (by simp [Rpc.outstanding, hstage]) _ _
  | handle hk hstage hhandle => exact h.progress hk (outstanding_of_handles hstage hhandle) _ _
  | reply elapsed hk hwait hanswer hstep =>
    apply h.hangUp hk hwait hstep
    intro hout
    rw [Rpc.not_outstanding_of_answer hanswer] at hout
    cases hout
  | fail elapsed st hst hk hwait hstep =>
    refine h.hangUp hk hwait hstep fun _ => ?_
    exact (GrpcExecutor.attemptResult_agentError_iff _ _).mpr ⟨st, rfl, hst⟩

theorem oneCallEach (h : (c.lts tasks).Reachable s) : OneCallEach s := by
  refine h.invariant (I := OneCallEach) ?_ ?_
  · rintro s rfl
    exact ⟨by simp, by simp, by simp, .nil⟩
  · intro s _ s' _ ih hs
    exact ih.step hs

/-! ### Capacity -/

/-- The calls whose handlers on the agent `i` are between their `fetch_add` and their
`fetch_sub`. -/
def countedAt (i : c.Index) (x : c.Rpc tasks) : Bool :=
  decide (x.node = i) && match x.stage with
    | .sent => false
    | .served _ p => p.counted

/-- The calls the agent `i` has, or may yet get, work to do for. -/
def outstandingAt (i : c.Index) (x : c.Rpc tasks) : Bool :=
  decide (x.node = i) && x.outstanding

lemma outstandingAt_of_countedAt {i : c.Index} {x : c.Rpc tasks} (h : countedAt i x = true) :
    outstandingAt i x = true := by
  unfold countedAt at h
  unfold outstandingAt Rpc.outstanding
  cases hstage : x.stage with
  | sent => simp [hstage] at h
  | served call p => cases p <;> simp_all [Phase.counted, Phase.isFinished]

/-- An agent has no more work than its slots. -/
lemma OneCallEach.outstanding_le (h : OneCallEach s) (i : c.Index) :
    s.count (outstandingAt i) ≤ (c.node i).service.opts.slots.toNat := by
  have hmem : ∀ x ∈ s.procs.filter (outstandingAt i), x ∈ s.procs ∧ x.node = i ∧ x.live = true := by
    intro x hx
    obtain ⟨hx, hout⟩ := List.mem_filter.mp hx
    simp only [outstandingAt, Bool.and_eq_true, decide_eq_true_eq] at hout
    exact ⟨hx, hout.1, by simp [Rpc.live, hout.2]⟩
  have hnodup : ((s.procs.filter (outstandingAt i)).map (·.worker)).Nodup := by
    rw [List.Nodup, List.pairwise_map]
    apply (h.apart.filter _).imp_of_mem
    intro x y hx hy hxy
    exact hxy (hmem x hx).2.2 (hmem y hy).2.2
  rw [Pool.count, List.countP_eq_length_filter, ← List.length_map (·.worker)]
  apply length_le_slots hnodup
  intro w hw
  obtain ⟨x, hx, rfl⟩ := List.mem_map.mp hw
  obtain ⟨hx, hnode, _⟩ := hmem x hx
  rw [← hnode, h.node_eq x hx]

lemma OneCallEach.counted_le (h : OneCallEach s) (i : c.Index) :
    s.count (countedAt i) ≤ (c.node i).service.opts.slots.toNat :=
  (Pool.count_le_count (fun _ => outstandingAt_of_countedAt) s).trans (h.outstanding_le i)

/-- Each agent's `running_` counts its handlers between their `fetch_add` and their `fetch_sub`,
and nobody has been refused for lack of a slot. -/
structure NoneRefused (s : Pool (c.Store tasks) (c.Rpc tasks)) : Prop where
  running_eq : ∀ i, s.store.running i = UInt32.ofNat (s.count (countedAt i))
  not_refused : ∀ x ∈ s.procs, ∀ call, x.stage ≠ .served call .refused
  answer_ne : ∀ x ∈ s.procs, ∀ st, x.answer? = some (.error st) → st.code ≠ .resourceExhausted

/-- The counter of an agent is exact. -/
lemma NoneRefused.running_toNat (h : NoneRefused s) (hone : OneCallEach s) (i : c.Index) :
    (s.store.running i).toNat = s.count (countedAt i) := by
  have hlt : s.count (countedAt i) < 2 ^ 32 :=
    (hone.counted_le i).trans_lt (UInt32.toNat_lt _)
  rw [h.running_eq, UInt32.toNat_ofNat', Nat.mod_eq_of_lt hlt]

/-- A handler that is about to add itself finds a free slot: it is one of the calls the agent has
work for, and not yet among those that are counted. -/
lemma NoneRefused.lt_slots (h : NoneRefused s) (hone : OneCallEach s) {k : ℕ} {x : c.Rpc tasks}
    {call : Incoming RunTaskRequest} (hk : s.procs[k]? = some x)
    (hstage : x.stage = .served call .checked) :
    s.store.running x.node < (c.node x.node).service.opts.slots := by
  rw [UInt32.lt_iff_toNat_lt, h.running_toNat hone]
  refine lt_of_lt_of_le ?_ (hone.outstanding_le x.node)
  refine Pool.count_lt_count (fun _ => outstandingAt_of_countedAt) (List.mem_of_getElem? hk) ?_ ?_
  · simp [outstandingAt, Rpc.outstanding, hstage, Phase.isFinished]
  · simp [countedAt, hstage, Phase.counted]

/-- A call other than the one that moves, or one that leaves the agent alone. -/
lemma NoneRefused.of_same (h : NoneRefused s) (sched : State c.scheduler tasks) {k : ℕ}
    {x x' : c.Rpc tasks} (hk : s.procs[k]? = some x)
    (hcounted : ∀ i, countedAt i x' = countedAt i x)
    (hrefused : ∀ call, x'.stage ≠ .served call .refused)
    (hanswer : ∀ st, x'.answer? = some (.error st) → st.code ≠ .resourceExhausted) :
    NoneRefused ⟨{ s.store with sched := sched }, s.procs.set k x'⟩ := by
  constructor
  · intro i
    have hcount := Pool.count_act (countedAt i) hk x' { s.store with sched := sched }
    rw [hcounted i] at hcount
    rw [Nat.add_right_cancel hcount]
    exact h.running_eq i
  · exact Pool.forall_set h.not_refused hrefused
  · exact Pool.forall_set h.answer_ne hanswer

lemma NoneRefused.handle (h : NoneRefused s) (hone : OneCallEach s) {k : ℕ} {x : c.Rpc tasks}
    {call : Incoming RunTaskRequest} {p p' : Phase} {n : UInt32} (hk : s.procs[k]? = some x)
    (hstage : x.stage = .served call p)
    (hs : (c.node x.node).service.Handles call (s.store.running x.node) p n p') :
    NoneRefused ⟨{ s.store with running := Function.update s.store.running x.node n },
      s.procs.set k { x with stage := .served call p' }⟩ := by
  have hmem : x ∈ s.procs := List.mem_of_getElem? hk
  constructor
  · intro i
    have hcount := Pool.count_act (countedAt i) hk { x with stage := .served call p' }
      { s.store with running := Function.update s.store.running x.node n }
    show Function.update s.store.running x.node n i = UInt32.ofNat _
    by_cases hi : x.node = i
    · subst hi
      simp only [countedAt, hstage, decide_true, Bool.true_and] at hcount
      rw [Function.update_self]
      exact hs.running_eq (h.running_eq x.node) hcount
    · simp only [countedAt, hi, decide_false, Bool.false_and, Bool.toNat_false, add_zero] at hcount
      rw [Function.update_of_ne (Ne.symm hi), h.running_eq i]
      exact congrArg UInt32.ofNat hcount.symm
  · apply Pool.forall_set h.not_refused
    rintro call' hrefused
    cases hrefused
    cases hs with
    | refuse hfull => exact absurd (h.lt_slots hone hk hstage) (UInt32.not_lt.mpr hfull)
  · apply Pool.forall_set h.answer_ne
    intro st hst
    cases hs with
    | reject hcheck =>
      cases hst
      exact AgentService.code_of_check _ hcheck
    | undo => exact absurd hstage (h.not_refused x hmem call)
    | release => cases hst
    | accept _ => cases hst
    | grant _ => cases hst
    | refuse _ => cases hst
    | launch => cases hst
    | exit _ => cases hst

/-- The agents do not notice when a thread goes on. -/
lemma NoneRefused.hangUp (h : NoneRefused s) {k : ℕ} {x : c.Rpc tasks} (hk : s.procs[k]? = some x) :
    NoneRefused ⟨{ s.store with sched := sched }, s.procs.set k { x with waiting := false }⟩ :=
  h.of_same sched hk (fun _ => rfl) (h.not_refused x (List.mem_of_getElem? hk))
    (h.answer_ne x (List.mem_of_getElem? hk))

lemma NoneRefused.step (h : NoneRefused s) (hone : OneCallEach s)
    {s' : Pool (c.Store tasks) (c.Rpc tasks)} (hs : Step s s') : NoneRefused s' := by
  cases hs with
  | schedule _ _ _ => exact ⟨h.running_eq, h.not_refused, h.answer_ne⟩
  | callNoStub _ _ => exact ⟨h.running_eq, h.not_refused, h.answer_ne⟩
  | noStub _ _ => exact ⟨h.running_eq, h.not_refused, h.answer_ne⟩
  | @call w t sched i _ _ =>
    constructor
    · intro j
      have hnew : countedAt j (⟨w, t, i, true, .sent⟩ : c.Rpc tasks) = false := by simp [countedAt]
      have hcount := Pool.count_enter (countedAt j) s ⟨w, t, i, true, .sent⟩
      rw [hnew] at hcount
      exact (h.running_eq j).trans (congrArg UInt32.ofNat hcount.symm)
    · exact Pool.forall_concat h.not_refused (by simp)
    · exact Pool.forall_concat h.answer_ne (by simp [Rpc.answer?])
  | deliver hk hstage canonical =>
    exact h.of_same s.store.sched hk
      (fun i => by simp [countedAt, hstage, Phase.counted]) (by simp) (by simp [Rpc.answer?])
  | handle hk hstage hhandle => exact h.handle hone hk hstage hhandle
  | reply _ hk _ _ _ => exact h.hangUp hk
  | fail _ _ _ hk _ _ => exact h.hangUp hk

theorem noneRefused (h : (c.lts tasks).Reachable s) : NoneRefused s := by
  refine h.invariant (I := NoneRefused) ?_ ?_
  · rintro s rfl
    exact ⟨fun _ => rfl, by simp, by simp⟩
  · intro s _ s' hr ih hs
    exact ih.step (oneCallEach hr) hs

end Cluster

/-- Controller and agents agree about capacity: whatever is delayed or given up, at most as many
handlers as an agent has slots are between their `fetch_add` and their `fetch_sub`, none of them is
refused, and no call is answered with `RESOURCE_EXHAUSTED`. -/
theorem controller_and_agents_agree (c : Cluster) (tasks : List Task)
    (s : Pool (c.Store tasks) (c.Rpc tasks)) (h : (c.lts tasks).Reachable s) :
    (∀ i, s.count (Cluster.countedAt i) ≤ (c.node i).info.slots.toNat) ∧
    (∀ i, (s.store.running i).toNat = s.count (Cluster.countedAt i)) ∧
    (∀ x ∈ s.procs, ∀ call, x.stage ≠ .served call .refused) ∧
    (∀ x ∈ s.procs, ∀ st, x.answer? = some (.error st) → st.code ≠ .resourceExhausted) := by
  have hone := Cluster.oneCallEach h
  have hnone := Cluster.noneRefused h
  refine ⟨?_, hnone.running_toNat hone, hnone.not_refused, hnone.answer_ne⟩
  intro i
  rw [(c.node i).info_eq.2]
  exact hone.counted_le i

namespace Fleet

/-- An agent that wants the token `secret`, with one slot. -/
def guarded : AgentService :=
  AgentService.make { token := lit "secret", policy := { allowAny := true } } (some (lit "host"))

def single : Cluster where
  token := lit "secret"
  nodes := [{ address := lit "host:50051"
              service := guarded
              cpus := 8
              info := { address := lit "host:50051", hostname := lit "host", slots := 1 }
              connected := rfl }]
  nodup := by simp

/-- A task for it. -/
def probes : List Task := [{ name := lit "probe", argv := [lit "/bin/true"] }]

def probe : TaskId probes := ⟨0, by decide⟩

/-- The thread of the only slot. -/
def thread : Worker single.scheduler := ⟨⟨0, by decide⟩, ⟨0, by decide⟩⟩

/-- The same agent with two slots. -/
def double : Cluster where
  token := lit "secret"
  nodes := [{ address := lit "host:50051"
              service := AgentService.make
                { token := lit "secret", policy := { allowAny := true }, slots := 2 }
                (some (lit "host"))
              cpus := 8
              info := { address := lit "host:50051", hostname := lit "host", slots := 2 }
              connected := rfl }]
  nodup := by simp

/-- Two tasks for it. -/
def twoProbes : List Task :=
  [{ name := lit "probe[1]", argv := [lit "/bin/true"] },
   { name := lit "probe[2]", argv := [lit "/bin/true"] }]

def probe1 : TaskId twoProbes := ⟨0, by decide⟩

def probe2 : TaskId twoProbes := ⟨1, by decide⟩

/-- The threads of the two slots. -/
def thread1 : Worker double.scheduler := ⟨⟨0, by decide⟩, ⟨0, by decide⟩⟩

def thread2 : Worker double.scheduler := ⟨⟨0, by decide⟩, ⟨1, by decide⟩⟩

def unavailable : Status := { code := .unavailable }

/-- The first thread gives up on its call while the command of the call is executing; after that
the handler of the second call does its `fetch_add`. -/
lemma gaveUp : ∃ s : Pool (double.Store twoProbes) (double.Rpc twoProbes),
    (double.lts twoProbes).Reachable s ∧ s.procs.map (·.waiting) = [false, true] ∧
      s.procs.map (Cluster.countedAt ⟨0, by decide⟩) = [true, true] := by
  have hcalled := LTS.Reachable.init (A := double.lts twoProbes) rfl
    |>.step (l := ()) (.schedule (.acquire thread1 (by decide) (by decide)) (by simp) (by simp))
    |>.step (l := ()) (.call (i := ⟨0, by decide⟩)
      (.call thread1 probe1 (by decide) (by decide) (by decide)) (by decide))
    |>.step (l := ()) (.schedule (.acquire thread2 (by decide) (by decide)) (by simp) (by simp))
    |>.step (l := ()) (.call (i := ⟨0, by decide⟩)
      (.call thread2 probe2 (by decide) (by decide) (by decide)) (by decide))
  have hexecuting := hcalled.step (l := ()) (.deliver (k := 0) rfl rfl id)
    |>.step (l := ()) (.handle (k := 0) rfl rfl (.accept (by decide)))
    |>.step (l := ()) (.handle (k := 0) rfl rfl (.grant (by decide)))
    |>.step (l := ()) (.handle (k := 0) rfl rfl .launch)
    |>.step (l := ()) (.deliver (k := 1) rfl rfl id)
    |>.step (l := ()) (.handle (k := 1) rfl rfl (.accept (by decide)))
  have hfailed := hexecuting.step (l := ()) (.fail (k := 0) 1 unavailable rfl rfl rfl
    (.ret thread1 probe1 _ (by decide) (by decide)))
  have hgranted := hfailed.step (l := ()) (.handle (k := 1) rfl rfl (.grant (by decide)))
  exact ⟨_, hgranted, rfl, rfl⟩

end Fleet

/-- Both slots are taken, one of them for a call that nobody waits for any more, and `running_` says
so. -/
theorem controller_and_agents_agree_gaveUp :
    ∃ s : Pool (Fleet.double.Store Fleet.twoProbes) (Fleet.double.Rpc Fleet.twoProbes),
      (Fleet.double.lts Fleet.twoProbes).Reachable s ∧
      s.procs.map (·.waiting) = [false, true] ∧ (s.store.running ⟨0, by decide⟩).toNat = 2 := by
  obtain ⟨s, hs, hwaiting, hcounted⟩ := Fleet.gaveUp
  refine ⟨s, hs, hwaiting, ?_⟩
  obtain ⟨-, hrunning, -⟩ := controller_and_agents_agree Fleet.double Fleet.twoProbes s hs
  rw [hrunning, Pool.count]
  have hcount := congrArg (List.countP id) hcounted
  rwa [List.countP_map] at hcount

end Dtest
