import ValidationSuite.Dtest.GrpcExecutor
import ValidationSuite.Dtest.Jobs.Properties
import ValidationSuite.Dtest.Scheduler.Addresses

/-!
# The controller

`main` of `dtest/src/ctl_main.cpp` up to the point where it starts the scheduler: it reads its
arguments and the job file, connects to the agents, and keeps those that answer. The texts it
prints on the way, other than those of its errors, are left out.
-/

namespace Dtest.Ctl

open ByteString Transition

structure Arguments where
  jobsPath : ByteString := []
  junitPath : ByteString := []
  token : ByteString := []
  agentAddrs : List ByteString := []
  connectTimeout : ℤ := 5
  validateOnly : Bool := false

/-- Why the program ends before it schedules anything: its exit status and its error. -/
structure Exit where
  status : ℕ
  message : ByteString := []
  deriving DecidableEq

/-- `std::atoi`, as `strtol` saturates and the conversion to `int` wraps. -/
def atoi (s : ByteString) : ℤ :=
  (max (-2 ^ 63) (min ((integer? s).getD 0) (2 ^ 63 - 1))).bmod (2 ^ 32)

/-- The loop over the arguments that follow the name of the program. -/
def readArgs : List ByteString → Arguments → Except Exit Arguments
  | [], args => .ok args
  | a :: rest, args =>
    if a = lit "-h" ∨ a = lit "--help" then .error ⟨0, []⟩
    else if a = lit "--jobs" then
      match rest with
      | [] => .error ⟨2, lit "--jobs needs a value"⟩
      | v :: rest => readArgs rest { args with jobsPath := v }
    else if a = lit "--agent" then
      match rest with
      | [] => .error ⟨2, lit "--agent needs a value"⟩
      | v :: rest => readArgs rest { args with agentAddrs := args.agentAddrs ++ [v] }
    else if a = lit "--token" then
      match rest with
      | [] => .error ⟨2, lit "--token needs a value"⟩
      | v :: rest => readArgs rest { args with token := v }
    else if a = lit "--junit" then
      match rest with
      | [] => .error ⟨2, lit "--junit needs a value"⟩
      | v :: rest => readArgs rest { args with junitPath := v }
    else if a = lit "--connect-timeout" then
      match rest with
      | [] => .error ⟨2, lit "--connect-timeout needs a positive integer"⟩
      | v :: rest =>
        if atoi v < 1 then .error ⟨2, lit "--connect-timeout needs a positive integer"⟩
        else readArgs rest { args with connectTimeout := atoi v }
    else if a = lit "--validate" then readArgs rest { args with validateOnly := true }
    else .error ⟨2, lit "unknown option: " ++ a⟩

/-- What the program finds around it: the variable `DTEST_TOKEN`, the files it can read, the JSON
parser, and the answer that `GetInfo` gives to each connection, by the position of its address. -/
structure Env where
  dtestToken : Option ByteString := none
  readFile : ByteString → Option ByteString
  parse : ByteString → Option Json
  answer : ℕ → Except Status InfoReply

/-- The agents that answered, in the order of the arguments. -/
def liveAgents (env : Env) (agentAddrs : List ByteString) : List AgentInfo :=
  agentAddrs.zipIdx.filterMap fun addr =>
    (GrpcExecutor.connect addr.1 (env.answer addr.2)).toOption

/-- The job and the agents that are handed to the scheduler. -/
def prepare (env : Env) (argv : List ByteString) : Except Exit (JobFile × List AgentInfo) :=
  match readArgs argv { token := env.dtestToken.getD [] } with
  | .error exit => .error exit
  | .ok args =>
    if args.jobsPath.isEmpty then .error ⟨2, lit "error: --jobs is required"⟩
    else if args.agentAddrs.isEmpty && !args.validateOnly then
      .error ⟨2, lit "error: at least one --agent is required"⟩
    else
      match env.readFile args.jobsPath with
      | none => .error ⟨2, lit "error: cannot read " ++ args.jobsPath⟩
      | some text =>
        let parsed := parseJobs env.parse text
        if !parsed.error.isEmpty then
          .error ⟨2, lit "error: " ++ args.jobsPath ++ lit ": " ++ parsed.error⟩
        else if args.validateOnly then .error ⟨0, []⟩
        else
          let live := liveAgents env args.agentAddrs
          if live.isEmpty then .error ⟨1, lit "error: no agent is reachable"⟩
          else .ok (parsed.job, live)

/-- Nothing rejects or merges an address that is given twice. -/
lemma agents_of_prepare {env : Env} {argv : List ByteString} {job : JobFile}
    {live : List AgentInfo} (h : prepare env argv = .ok (job, live)) :
    ∃ agentAddrs, live = liveAgents env agentAddrs := by
  cases hargs : readArgs argv { token := env.dtestToken.getD [] } with
  | error exit =>
    simp only [prepare, hargs] at h
    cases h
  | ok args =>
    cases hfile : env.readFile args.jobsPath with
    | none =>
      simp only [prepare, hargs, hfile] at h
      split_ifs at h
    | some text =>
      simp only [prepare, hargs, hfile] at h
      split_ifs at h
      obtain ⟨-, rfl⟩ := Prod.mk.inj (Except.ok.inj h)
      exact ⟨args.agentAddrs, rfl⟩

/-- An agent that reports no slots is handed over with one. -/
lemma slots_pos_of_live {env : Env} {agentAddrs : List ByteString} {a : AgentInfo}
    (ha : a ∈ liveAgents env agentAddrs) : a.slots ≠ 0 := by
  obtain ⟨addr, -, haddr⟩ := List.mem_filterMap.mp ha
  cases hconnect : GrpcExecutor.connect addr.1 (env.answer addr.2) with
  | error message => simp [hconnect, Except.toOption] at haddr
  | ok agent =>
    obtain rfl : agent = a := by simpa [hconnect, Except.toOption] using haddr
    obtain ⟨info, -, -, hslots⟩ := GrpcExecutor.slots_of_connect hconnect
    rw [hslots]
    split_ifs with hzero
    · decide
    · exact hzero

/-- The scheduler works with the agents it is handed. -/
lemma agents_make {agents : List AgentInfo} (h : ∀ a ∈ agents, a.slots ≠ 0) :
    (Scheduler.make agents).agents = agents := by
  have hmap : agents.map (fun a => if a.slots = 0 then { a with slots := 1 } else a) =
      agents.map id := List.map_congr_left fun a ha => if_neg (h a ha)
  exact hmap.trans (List.map_id _)

/-! ### One agent with one slot

A job of two tasks, and an agent that is given once, or twice. -/

def oneSlot : Env where
  readFile _ := some []
  parse _ := some (repeatedTask 2)
  answer _ := .ok { slots := 1 }

def host : AgentInfo := { address := lit "host:50051" }

def onceArgs : List ByteString := [lit "--jobs", lit "jobs.json", lit "--agent", lit "host:50051"]

def twiceArgs : List ByteString := onceArgs ++ [lit "--agent", lit "host:50051"]

def twoCopies : JobFile where
  tasks := [{ name := lit "a[1]", argv := [lit "x"] }, { name := lit "a[2]", argv := [lit "x"] }]

lemma prepare_once : prepare oneSlot onceArgs = .ok (twoCopies, [host]) := by rfl

lemma prepare_twice : prepare oneSlot twiceArgs = .ok (twoCopies, [host, host]) := by rfl

/-- Whatever `dtest-ctl` hands to the scheduler, where the entries of one address report the same
slots: the calls in flight to an address stay within them, in every run, exactly if no two entries
of one address can run tasks while the address can run more tasks than it has slots. -/
theorem inFlight_le_slots_iff (env : Env) (argv : List ByteString) (job : JobFile)
    (live : List AgentInfo) (h : prepare env argv = .ok (job, live))
    (hsame : ∀ a ∈ live, ∀ b ∈ live, a.address = b.address → a.slots = b.slots)
    (tasks : List Task) :
    (∀ s : State (Scheduler.make live) tasks, (workers (Scheduler.make live) tasks).Reachable s →
      ∀ a ∈ live, s.inFlight a.address ≤ a.slots.toNat) ↔
    ∀ addr, ¬Crowded (Scheduler.make live) tasks addr := by
  obtain ⟨agentAddrs, rfl⟩ := agents_of_prepare h
  have hagents : (Scheduler.make (liveAgents env agentAddrs)).agents = liveAgents env agentAddrs :=
    agents_make fun a ha => slots_pos_of_live ha
  have hmem : ∀ a, a ∈ (Scheduler.make (liveAgents env agentAddrs)).agents ↔
      a ∈ liveAgents env agentAddrs := fun a => by rw [hagents]
  have hsame' : (Scheduler.make (liveAgents env agentAddrs)).SameSlots := fun a b hab =>
    congrArg UInt32.toNat
      (hsame _ ((hmem _).mp (List.get_mem _ a)) _ ((hmem _).mp (List.get_mem _ b)) hab)
  rw [← State.inFlight_le_iff hsame']
  refine forall₂_congr fun s _ => ⟨fun hs a => hs _ ((hmem _).mp (List.get_mem _ a)), ?_⟩
  intro hs a ha
  obtain ⟨i, rfl⟩ := List.get_of_mem ((hmem a).mpr ha)
  exact hs i

theorem inFlight_le_slots_once :
    prepare oneSlot onceArgs = .ok (twoCopies, [host]) ∧
    ∀ s : State (Scheduler.make [host]) twoCopies.tasks,
      (workers (Scheduler.make [host]) twoCopies.tasks).Reachable s →
      ∀ a ∈ [host], s.inFlight a.address ≤ a.slots.toNat := by
  refine ⟨prepare_once, (inFlight_le_slots_iff oneSlot onceArgs twoCopies [host] prepare_once
    (by decide) twoCopies.tasks).mpr ?_⟩
  rintro addr ⟨a, b, hab, -⟩
  have hentry : ∀ a b : Entry (Scheduler.make [host]), a = b := by decide
  exact hab (hentry a b)

/-- The threads of the two entries that share one slot. -/
def first : Worker (Scheduler.make [host, host]) := ⟨⟨0, by decide⟩, ⟨0, by decide⟩⟩

def second : Worker (Scheduler.make [host, host]) := ⟨⟨1, by decide⟩, ⟨0, by decide⟩⟩

def bothCall : List (Label (Scheduler.make [host, host]) twoCopies.tasks) :=
  [.acquire first, .call first ⟨0, by decide⟩, .acquire second, .call second ⟨1, by decide⟩]

/-- An agent with one slot that is given twice is sent two tasks at once. -/
theorem slot_exceeded_twice :
    prepare oneSlot twiceArgs = .ok (twoCopies, [host, host]) ∧
    (∀ a ∈ [host, host], ∀ b ∈ [host, host], a.address = b.address → a.slots = b.slots) ∧
    ∃ s : State (Scheduler.make [host, host]) twoCopies.tasks,
      (workers (Scheduler.make [host, host]) twoCopies.tasks).Reachable s ∧
      ∃ a ∈ [host, host], a.slots.toNat < s.inFlight a.address := by
  refine ⟨prepare_twice, by decide, ?_⟩
  obtain ⟨s, -, hs, hp⟩ := State.exists_follow bothCall
    (fun s => host.slots.toNat < s.inFlight host.address) (by decide)
  exact ⟨s, hs, host, by simp, hp⟩

end Dtest.Ctl
