import ValidationSuite.Dtest.Agent.Requests
import ValidationSuite.Dtest.Completion
import ValidationSuite.Dtest.Ctl

/-!
# The exit status of the controller

The end of `main` of `dtest/src/ctl_main.cpp`: the report of the run and the exit status. Put
together with the command line, the job file and the agents that have answered, it says what the
exit status 0 of `dtest-ctl` is worth.
-/

namespace Dtest

open ByteString Transition

def RunSummary.allPassed (s : RunSummary) : Bool := s.count .passed == s.outcomes.length

lemma RunSummary.allPassed_iff (s : RunSummary) :
    s.allPassed = true ↔ ∀ o ∈ s.outcomes, o.status = .passed := by
  rw [allPassed, beq_iff_eq, count, List.countP_eq_length]
  simp

namespace Ctl

/-- What the program has done when it ends after a run. -/
structure Finished where
  status : ℕ
  out : ByteString
  err : ByteString := []
  /-- what the JUnit file holds, if it has been opened -/
  junit : Option ByteString := none
  deriving DecidableEq

/-- Where the report goes. -/
structure Files where
  /-- can the file be opened for writing? -/
  opens : ByteString → Bool
  /-- what a file holds after a text has been written to it: less than the text if its disk is
  full -/
  stored : ByteString → ByteString → ByteString

/-- The part of `main` after `scheduler.run`. The stream is asked after it has been opened, and not
again after it has been written to. -/
def finish (fixed : ℕ → ℚ → ByteString) (files : Files) (args : Arguments) (job : JobFile)
    (summary : RunSummary) : Option Finished := do
  let text ← renderText fixed summary
  let status := if summary.allPassed then 0 else 1
  if args.junitPath.isEmpty then return { status, out := text }
  else if !files.opens args.junitPath then
    return { status := 2
             out := text
             err := lit "error: cannot write " ++ args.junitPath ++ lit "\n" }
  else
    let xml ← renderJunit fixed job.name summary
    return { status
             out := text ++ lit "JUnit report written to " ++ args.junitPath ++ lit "\n"
             junit := some (files.stored args.junitPath xml) }

/-! ### The agents that have answered -/

section Cluster

variable {env : Env} {token : ByteString} {svc : ℕ → AgentService} {cpus : ℕ → UInt32}

/-- Whoever answers is the agent `svc` under its position. -/
def Answered (env : Env) (token : ByteString) (svc : ℕ → AgentService) (cpus : ℕ → UInt32) : Prop :=
  ∀ i info, env.answer i = .ok info →
    (svc i).getInfo (cpus i) (GrpcExecutor.metadata token) = .ok info

/-- The agent at an address, if `connect` accepts it. -/
def nodeAt (h : Answered env token svc cpus) (addr : ByteString × ℕ) : Option (Node token) :=
  match hconnect : GrpcExecutor.connect addr.1 (env.answer addr.2) with
  | .error _ => none
  | .ok info => some
    { address := addr.1
      service := svc addr.2
      cpus := cpus addr.2
      info := info
      connected := by
        obtain ⟨reply, hreply, -, -⟩ := GrpcExecutor.slots_of_connect hconnect
        rw [h addr.2 reply hreply, ← hreply]
        exact hconnect }

lemma map_info_nodeAt (h : Answered env token svc cpus) (addr : ByteString × ℕ) :
    (nodeAt h addr).map (·.info) = (GrpcExecutor.connect addr.1 (env.answer addr.2)).toOption := by
  unfold nodeAt
  split
  · next hconnect => exact (congrArg Except.toOption hconnect).symm
  · next hconnect => exact (congrArg Except.toOption hconnect).symm

lemma address_of_nodeAt {h : Answered env token svc cpus} {addr : ByteString × ℕ} {n : Node token}
    (hn : nodeAt h addr = some n) : n.address = addr.1 := by
  unfold nodeAt at hn
  split at hn
  · cases hn
  · obtain rfl := Option.some.inj hn
    rfl

/-- The agents that the controller keeps, if no address is given twice. -/
def cluster (h : Answered env token svc cpus) {agentAddrs : List ByteString}
    (hdistinct : agentAddrs.Nodup) : Cluster where
  token := token
  nodes := agentAddrs.zipIdx.filterMap (nodeAt h)
  nodup := by
    rw [List.Nodup, List.pairwise_map, List.pairwise_filterMap]
    have haddrs : (agentAddrs.zipIdx.map Prod.fst).Nodup := by simpa using hdistinct
    rw [List.Nodup, List.pairwise_map] at haddrs
    refine haddrs.imp ?_
    intro a b hab m hm n hn
    rw [address_of_nodeAt hm, address_of_nodeAt hn]
    exact hab

lemma cluster_info (h : Answered env token svc cpus) {agentAddrs : List ByteString}
    (hdistinct : agentAddrs.Nodup) :
    (cluster h hdistinct).nodes.map (·.info) = liveAgents env agentAddrs := by
  rw [cluster, liveAgents, List.map_filterMap]
  exact List.filterMap_congr fun addr _ => map_info_nodeAt h addr

end Cluster

/-! ### The job -/

/-- What is handed to the scheduler is the job of the file, and the agents of the arguments. -/
lemma of_prepare {env : Env} {argv : List ByteString} {args : Arguments} {job : JobFile}
    {live : List AgentInfo} (hargs : readArgs argv { token := env.dtestToken.getD [] } = .ok args)
    (h : prepare env argv = .ok (job, live)) :
    live = liveAgents env args.agentAddrs ∧ ∃ text, env.readFile args.jobsPath = some text ∧
      (parseJobs env.parse text).error = [] ∧ job = (parseJobs env.parse text).job := by
  cases hfile : env.readFile args.jobsPath with
  | none =>
    simp only [prepare, hargs, hfile] at h
    split_ifs at h
  | some text =>
    simp only [prepare, hargs, hfile] at h
    split_ifs at h with _ _ herror _ _
    obtain ⟨hjob, hlive⟩ := Prod.mk.inj (Except.ok.inj h)
    exact ⟨hlive.symm, text, rfl, by simpa using herror, hjob.symm⟩

lemma elaborate_retries {d t : Members} (hd : Member d "retries" (InRange 0 10))
    (ht : TaskObject t) : 0 ≤ (elaborate d t).retries := by
  simp only [elaborate]
  cases htask : t.int? "retries" with
  | some n => exact (Members.int?_mem ht.retries htask).1
  | none =>
    cases hdefault : d.int? "retries" with
    | some n => exact (Members.int?_mem hd hdefault).1
    | none => exact le_rfl

/-- No task of a parsed file has a negative budget. -/
lemma retries_of_parsed {parse : ByteString → Option Json} {text : ByteString}
    (herror : (parseJobs parse text).error = []) :
    ∀ task ∈ (parseJobs parse text).job.tasks, 0 ≤ task.retries := by
  intro task htask
  obtain ⟨root, m, ts, hparse, hobj⟩ := (parseJobs_error_iff parse text).mp herror
  rw [parseJobs_job hparse hobj] at htask
  obtain ⟨t, ht, hexpand⟩ := List.mem_flatMap.mp htask
  obtain ⟨name, -, rfl⟩ := List.mem_map.mp hexpand
  have hd : Member m.defaults "retries" (InRange 0 10) := by
    simp only [Members.defaults, Members.members?]
    cases hv : m.get? (lit "defaults") with
    | none => exact fun v hv => by simp at hv
    | some v =>
      obtain ⟨d, rfl, hd⟩ := hobj.defaults v hv
      exact hd.retries
  exact elaborate_retries hd (hobj.task t ht)

/-! ### The exit status -/

lemma finish_eq (fixed : ℕ → ℚ → ByteString) {summary : RunSummary} (h : summary.HasAttempts)
    (files : Files) (args : Arguments) (job : JobFile) :
    ∃ done xml, finish fixed files args job summary = some done ∧
      renderJunit fixed job.name summary = some xml ∧
      done.status = (if args.junitPath ≠ [] ∧ files.opens args.junitPath = false then 2
        else if summary.allPassed then 0 else 1) ∧
      done.junit = if args.junitPath ≠ [] ∧ files.opens args.junitPath = true then
        some (files.stored args.junitPath xml) else none := by
  have hsome : (renderText fixed summary).isSome := h.isSome_renderText
  have hsomeXml : (renderJunit fixed job.name summary).isSome := h.isSome_renderJunit job.name
  obtain ⟨text, htext⟩ := Option.isSome_iff_exists.mp hsome
  obtain ⟨xml, hxml⟩ := Option.isSome_iff_exists.mp hsomeXml
  by_cases hpath : args.junitPath = []
  · refine ⟨⟨if summary.allPassed then 0 else 1, text, [], none⟩, xml, ?_, hxml, ?_, ?_⟩
    · simp [finish, htext, hpath]
    · simp [hpath]
    · simp [hpath]
  · cases hopen : files.opens args.junitPath with
    | false =>
      refine ⟨⟨2, text, lit "error: cannot write " ++ args.junitPath ++ lit "\n", none⟩, xml, ?_,
        hxml, ?_, ?_⟩
      · simp [finish, htext, hpath, hopen]
      · simp [hpath]
      · simp
    | true =>
      refine ⟨⟨if summary.allPassed then 0 else 1,
        text ++ lit "JUnit report written to " ++ args.junitPath ++ lit "\n", [],
        some (files.stored args.junitPath xml)⟩, xml, ?_, hxml, ?_, ?_⟩
      · simp [finish, htext, hxml, hpath, hopen]
      · simp
      · simp [hpath]

end Ctl

variable {c : Cluster} {tasks : List Task} {s : Pool (c.Store tasks) (c.Rpc tasks)}

/-- What a run has to show for the tasks that have been decided. -/
lemma Cluster.hasAttempts (hretries : ∀ t ∈ tasks, 0 ≤ t.retries) (h : (c.lts tasks).Reachable s)
    (wallSeconds : ℚ) : (s.store.sched.run.summary wallSeconds).HasAttempts := by
  intro o ho hne
  obtain ⟨t, -, rfl⟩ := List.mem_map.mp ho
  obtain ⟨rec, hrec, -⟩ := exists_deciding hretries h (t := t) hne
  exact List.ne_nil_of_mem hrec

lemma Run.allPassed_iff {S : Scheduler} (r : Run S tasks) (wallSeconds : ℚ) :
    (r.summary wallSeconds).allPassed = true ↔ ∀ t, (r.st t).final = .passed := by
  rw [RunSummary.allPassed_iff]
  simp [Run.summary]

/-- What `dtest-ctl` says with its exit status, if its job file parses and no agent is given twice.
A run of the scheduler over the agents that have answered can be continued to its end, where every
thread has left its loop, unless there has been an outage. Whenever every thread has left its loop,
there is a report. The program exits with 2 exactly if it cannot open the JUnit file it has been
asked for; else with 0 exactly if every task of the file has passed, and then the command of every
single one was executed by an agent that is able to run it, and exited with 0; else with 1. Whether
all of the JUnit document gets into the file makes no difference. -/
theorem exit_status_means_what_it_says (env : Ctl.Env) (argv : List ByteString)
    (args : Ctl.Arguments) (job : JobFile) (live : List AgentInfo)
    (hargs : Ctl.readArgs argv { token := env.dtestToken.getD [] } = .ok args)
    (hprepare : Ctl.prepare env argv = .ok (job, live)) (svc : ℕ → AgentService) (cpus : ℕ → UInt32)
    (hanswered : Ctl.Answered env args.token svc cpus) (hdistinct : args.agentAddrs.Nodup)
    (past : List (Pool ((Ctl.cluster hanswered hdistinct).Store job.tasks)
      ((Ctl.cluster hanswered hdistinct).Rpc job.tasks)))
    (s : Pool ((Ctl.cluster hanswered hdistinct).Store job.tasks)
      ((Ctl.cluster hanswered hdistinct).Rpc job.tasks))
    (h : ((Ctl.cluster hanswered hdistinct).lts job.tasks).Execution past s)
    (fixed : ℕ → ℚ → ByteString) (files : Ctl.Files) (wallSeconds : ℚ) :
    (Ctl.cluster hanswered hdistinct).nodes.map (·.info) = live ∧
    (s.store.sched.run.outages = 0 → ∃ more s',
      ((Ctl.cluster hanswered hdistinct).lts job.tasks).Execution (past ++ more) s' ∧
        Cluster.Ended s') ∧
    (s.store.sched.Completed → ∃ done xml,
      Ctl.finish fixed files args job (s.store.sched.run.summary wallSeconds) = some done ∧
      renderJunit fixed job.name (s.store.sched.run.summary wallSeconds) = some xml ∧
      (done.status = 2 ↔ args.junitPath ≠ [] ∧ files.opens args.junitPath = false) ∧
      (done.status = 0 ↔ ¬(args.junitPath ≠ [] ∧ files.opens args.junitPath = false) ∧
        ∀ t, (s.store.sched.run.st t).final = .passed) ∧
      (done.status = 0 → ∀ t, ∃ out, Cluster.Executed past s t out ∧
        out.outcome = .exited ∧ out.exitCode = 0) ∧
      done.status ≤ 2 ∧
      done.junit = if args.junitPath ≠ [] ∧ files.opens args.junitPath = true then
        some (files.stored args.junitPath xml) else none) := by
  obtain ⟨hlive, text, -, herror, rfl⟩ := Ctl.of_prepare hargs hprepare
  have hretries := Ctl.retries_of_parsed herror
  refine ⟨hlive ▸ Ctl.cluster_info hanswered hdistinct, fun hnone => ?_, fun _ => ?_⟩
  · obtain ⟨more, s', hmore, -, hended⟩ := Cluster.exists_ended hretries h hnone
    exact ⟨more, s', hmore, hended⟩
  obtain ⟨done, xml, hdone, hxml, hstatus, hjunit⟩ := Ctl.finish_eq fixed
    (Cluster.hasAttempts hretries h.reachable wallSeconds) files args
    (parseJobs env.parse text).job
  have hzero : done.status = 0 ↔ ¬(args.junitPath ≠ [] ∧ files.opens args.junitPath = false) ∧
      ∀ t, (s.store.sched.run.st t).final = .passed := by
    rw [hstatus, ← Run.allPassed_iff _ wallSeconds]
    split_ifs with hfails hall
    · simp [hfails]
    · simp [hfails, hall]
    · simp [hall]
  refine ⟨done, xml, hdone, hxml, ?_, hzero, fun hs t => ?_, ?_, hjunit⟩
  · rw [hstatus]
    split_ifs with hfails
    · simp [hfails]
    · simp [hfails]
    · simp [hfails]
  · exact Cluster.executed_of_passed hretries h ((hzero.mp hs).2 t)
  · rw [hstatus]
    split_ifs <;> omega

namespace Ctl

/-- A job of one task, and one agent that wants a token. -/
def oneTask : Env where
  readFile _ := some []
  parse _ := some (repeatedTask 1)
  answer _ := Fleet.guarded.getInfo 8 (GrpcExecutor.metadata (lit "secret"))

def oneTaskArgv : List ByteString :=
  [lit "--jobs", lit "jobs.json", lit "--agent", lit "host:50051", lit "--token", lit "secret"]

def oneTaskArgs : Arguments where
  jobsPath := lit "jobs.json"
  token := lit "secret"
  agentAddrs := [lit "host:50051"]

def oneTaskJob : JobFile where
  tasks := [{ name := lit "a", argv := [lit "x"] }]

def oneTaskLive : List AgentInfo :=
  [{ address := lit "host:50051", hostname := lit "host", slots := 1 }]

lemma answered_oneTask :
    Answered oneTask oneTaskArgs.token (fun _ => Fleet.guarded) (fun _ => 8) := by
  intro i info h
  show Fleet.guarded.getInfo 8 (GrpcExecutor.metadata (lit "secret")) = .ok info
  exact h

/-- The cluster of the agent. -/
abbrev oneNode : Cluster :=
  cluster answered_oneTask (List.nodup_singleton (lit "host:50051"))

def onlyThread : Worker oneNode.scheduler := ⟨⟨0, by decide⟩, ⟨0, by decide⟩⟩

def onlyTask : TaskId oneTaskJob.tasks := ⟨0, by decide⟩

/-- The task is executed and passes, and the thread leaves its loop. -/
lemma passes_oneTask : ∃ past s, (oneNode.lts oneTaskJob.tasks).Execution past s ∧
    s.store.sched.Completed ∧ ∀ t, (s.store.sched.run.st t).final = .passed := by
  have hcalled := LTS.Execution.init (A := oneNode.lts oneTaskJob.tasks) rfl
    |>.step (l := ()) (.schedule (.acquire onlyThread (by decide) (by decide)) (by simp) (by simp))
    |>.step (l := ()) (.call (i := ⟨0, by decide⟩)
      (.call onlyThread onlyTask (by decide) (by decide) (by decide)) (by decide))
  have hserved := hcalled.step (l := ()) (.deliver (k := 0) rfl rfl id)
    |>.step (l := ()) (.handle (k := 0) rfl rfl (.accept (by decide)))
    |>.step (l := ()) (.handle (k := 0) rfl rfl (.grant (by decide)))
    |>.step (l := ()) (.handle (k := 0) rfl rfl .launch)
    |>.step (l := ()) (.handle (k := 0) rfl rfl (.exit Fleet.success))
    |>.step (l := ()) (.handle (k := 0) rfl rfl .release)
  have hanswered := hserved.step (l := ()) (.reply (k := 0) 1 rfl rfl rfl
    (.ret onlyThread onlyTask _ (by decide) (by decide)))
    |>.step (l := ()) (.schedule (.leave onlyThread (by decide) (by decide)) (by simp) (by simp))
  exact ⟨_, _, hanswered, by decide, by decide⟩

/-- A disk without room. -/
def full : Files := ⟨fun _ => true, fun _ _ => []⟩

end Ctl

/-- The only task is executed, the thread has left its loop, and the exit status is 0. -/
theorem exit_status_means_what_it_says_oneTask :
    ∃ past s done, (Ctl.oneNode.lts Ctl.oneTaskJob.tasks).Execution past s ∧
      s.store.sched.Completed ∧
      Ctl.finish (fun _ _ => lit "0") Ctl.full Ctl.oneTaskArgs Ctl.oneTaskJob
        (s.store.sched.run.summary 1) = some done ∧ done.status = 0 ∧
      ∃ out, Cluster.Executed past s Ctl.onlyTask out ∧ out.outcome = .exited ∧
        out.exitCode = 0 := by
  obtain ⟨past, s, h, hcompleted, hpassed⟩ := Ctl.passes_oneTask
  obtain ⟨-, -, hend⟩ := exit_status_means_what_it_says Ctl.oneTask Ctl.oneTaskArgv
    Ctl.oneTaskArgs Ctl.oneTaskJob Ctl.oneTaskLive (by rfl) (by rfl)
    (fun _ => Fleet.guarded) (fun _ => 8) Ctl.answered_oneTask (List.nodup_singleton _) past s h
    (fun _ _ => lit "0") Ctl.full 1
  obtain ⟨done, -, hdone, -, -, hzero, hexecuted, -⟩ := hend hcompleted
  have hstatus : done.status = 0 := hzero.mpr ⟨fun hjunit => hjunit.1 rfl, hpassed⟩
  exact ⟨past, s, done, h, hcompleted, hdone, hstatus, hexecuted hstatus Ctl.onlyTask⟩

end Dtest
