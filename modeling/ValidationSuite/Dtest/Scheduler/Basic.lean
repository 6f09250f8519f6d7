import ValidationSuite.Dtest.Jobs
import Mathlib.Data.Fintype.Sigma
import Mathlib.Data.List.FinRange
import Mathlib.Data.Rat.Defs

/-!
# The scheduling state

The data of `dtest/include/dtest/scheduler.hpp` and the class `Run` of `dtest/src/scheduler.cpp`,
without its threads: which task an agent may pick, how a result is recorded, how a task is
finished and how tasks that nobody can run are resolved. Everything here runs under `mu_`; the
threads that call it are in `ValidationSuite.Dtest.Scheduler.Worker`.
-/

namespace Dtest

open ByteString

/-- How the controller sees an agent. -/
structure AgentInfo where
  address : ByteString
  hostname : ByteString := []
  slots : UInt32 := 1
  labels : List ByteString := []
  deriving DecidableEq

/-- How one attempt at a task ended. -/
inductive AttemptStatus where
  | passed
  | failed
  | timedOut
  | agentError
  deriving DecidableEq

/-- The statuses that count against the retry budget of a task. -/
def AttemptStatus.isFailure : AttemptStatus → Bool
  | .failed | .timedOut => true
  | .passed | .agentError => false

/-- `seconds` is a `double` in the source. -/
structure AttemptResult where
  status : AttemptStatus := .failed
  exitCode : ℤ := -1
  out : ByteString := []
  err : ByteString := []
  message : ByteString := []
  seconds : ℚ := 0
  deriving DecidableEq

structure AttemptRecord where
  agent : ByteString
  result : AttemptResult
  deriving DecidableEq

inductive FinalStatus where
  | passed
  | failed
  | timedOut
  | unschedulable
  deriving DecidableEq

/-- The verdict an attempt gives when it is the deciding one. -/
def AttemptStatus.verdict : AttemptStatus → FinalStatus
  | .passed => .passed
  | .failed => .failed
  | .timedOut => .timedOut
  | .agentError => .unschedulable

/-- The agents of a scheduler. Its constructor leaves no agent without a slot. -/
structure Scheduler where
  agents : List AgentInfo
  slots_pos : ∀ a ∈ agents, 0 < a.slots.toNat

/-- The constructor `Scheduler::Scheduler`: an agent that reports no slots gets one. -/
def Scheduler.make (agents : List AgentInfo) : Scheduler where
  agents := agents.map fun a => if a.slots = 0 then { a with slots := 1 } else a
  slots_pos := by
    intro a ha
    obtain ⟨b, _, rfl⟩ := List.mem_map.mp ha
    split_ifs with h
    · simp
    · exact Nat.pos_of_ne_zero fun h0 => h (UInt32.toNat_inj.mp h0)

/-- An agent entry: an index into `agents_`. -/
abbrev Entry (S : Scheduler) := Fin S.agents.length

/-- A task: an index into `tasks_`. -/
abbrev TaskId (tasks : List Task) := Fin tasks.length

/-- What `Run` remembers about one task. -/
structure TaskState (S : Scheduler) where
  failures : ℤ := 0
  tried : Finset (Entry S) := ∅
  running : Bool := false
  done : Bool := false
  final : FinalStatus := .unschedulable
  message : ByteString := []
  attempts : List AttemptRecord := []

/-- What happened in a run, in order. No modelled function reads it. -/
inductive Event (S : Scheduler) (tasks : List Task) where
  | call (a : Entry S) (t : TaskId tasks)
  | ret (a : Entry S) (t : TaskId tasks) (status : AttemptStatus)
  | finish (t : TaskId tasks) (f : FinalStatus)
  | retire (a : Entry S)
  deriving DecidableEq

/-- The members of `Run`. The `size_t` counter `remaining_` is an integer here, so that an
underflow would show; `events` is a history variable. -/
structure Run (S : Scheduler) (tasks : List Task) where
  st : TaskId tasks → TaskState S := fun _ => {}
  alive : Entry S → Bool := fun _ => true
  dead : List ByteString := []
  remaining : ℤ := tasks.length
  events : List (Event S tasks) := []

variable {S : Scheduler} {tasks : List Task}

def able (a : Entry S) (t : TaskId tasks) : Bool :=
  labelsSatisfy (S.agents.get a).labels (tasks.get t).needs

namespace Run

variable (r : Run S tasks)

/-- Replace what is remembered about the task `t`. -/
def modify (t : TaskId tasks) (f : TaskState S → TaskState S) : Run S tasks :=
  { r with st := Function.update r.st t (f (r.st t)) }

def log (e : Event S tasks) : Run S tasks := { r with events := r.events ++ [e] }

/-- Is there another live, capable agent this task has not been tried on? -/
def hasFreshCandidate (t : TaskId tasks) (exceptAgent : Entry S) : Bool :=
  (List.finRange _).any fun a =>
    a != exceptAgent && r.alive a && able a t && !decide (a ∈ (r.st t).tried)

/-- The condition under which the loop of `pick` stops at the task `t`. -/
def eligible (a : Entry S) (t : TaskId tasks) : Bool :=
  !((r.st t).done || (r.st t).running || !able a t) &&
    !(decide (a ∈ (r.st t).tried) && r.hasFreshCandidate t a)

def pick (a : Entry S) : Option (TaskId tasks) :=
  (List.finRange _).find? fun t => r.eligible a t

def finish (t : TaskId tasks) (f : FinalStatus) (msg : ByteString := []) : Run S tasks :=
  { r.modify t fun s => { s with done := true, final := f, message := msg } with
    remaining := r.remaining - 1 }.log (.finish t f)

/-- The comma-joined requirements of a task. -/
def joinNeeds (needs : List ByteString) : ByteString :=
  needs.foldl (fun req need => req ++ ((if req.isEmpty then [] else lit ", ") ++ need)) []

/-- The message `resolve_unschedulable` leaves for a task. -/
def unschedulableMessage (anyCapable : Bool) (needs : List ByteString) : ByteString :=
  let req := joinNeeds needs
  if anyCapable then lit "every agent that could run this task became unreachable"
  else lit "no agent provides the required labels" ++
    (if req.isEmpty then [] else lit " [" ++ req ++ lit "]")

def anyCapable (_ : Run S tasks) (t : TaskId tasks) : Bool :=
  (List.finRange _).any fun a : Entry S => able a t

def anyLiveCapable (t : TaskId tasks) : Bool :=
  (List.finRange _).any fun a : Entry S => able a t && r.alive a

/-- One iteration of the loop of `resolve_unschedulable`. -/
def resolveTask (t : TaskId tasks) : Run S tasks :=
  if (r.st t).done || (r.st t).running then r
  else if r.anyLiveCapable t then r
  else r.finish t .unschedulable (unschedulableMessage (r.anyCapable t) (tasks.get t).needs)

/-- Marks pending tasks that no live agent can ever run. -/
def resolveUnschedulable : Run S tasks :=
  (List.finRange _).foldl resolveTask r

/-- The part of `worker` before `exec_.run`: the task is marked as running. -/
def start (a : Entry S) (t : TaskId tasks) : Run S tasks :=
  (r.modify t fun s => { s with running := true }).log (.call a t)

/-- The part of `worker` after `exec_.run` that does not depend on the status. -/
def storeAttempt (a : Entry S) (t : TaskId tasks) (res : AttemptResult) : Run S tasks :=
  (r.modify t fun s =>
    { s with
      running := false
      tried := insert a s.tried
      attempts := s.attempts ++ [⟨(S.agents.get a).address, res⟩] }).log (.ret a t res.status)

def countFailure (t : TaskId tasks) : Run S tasks :=
  r.modify t fun s => { s with failures := s.failures + 1 }

def retire (a : Entry S) : Run S tasks :=
  { r with
    alive := Function.update r.alive a false
    dead := r.dead ++ [(S.agents.get a).address] }.log (.retire a)

/-- What a worker of the agent `a` does with the result of `exec_.run` on the task `t`. -/
def record (a : Entry S) (t : TaskId tasks) (res : AttemptResult) : Run S tasks :=
  let r := r.storeAttempt a t res
  match res.status with
  | .passed => r.finish t .passed
  | .failed | .timedOut =>
    let r := r.countFailure t
    if (r.st t).failures > (tasks.get t).retries then
      r.finish t (if res.status = .timedOut then .timedOut else .failed)
    else r
  | .agentError =>
    -- several slots of one agent can fail at once; only the first records the retirement
    if r.alive a then (r.retire a).resolveUnschedulable else r

end Run

/-! ### The summary of a run -/

structure TaskOutcome where
  task : Task
  status : FinalStatus := .unschedulable
  attempts : List AttemptRecord := []
  message : ByteString := []

/-- Passed, but only after at least one failed attempt. -/
def TaskOutcome.flaky (o : TaskOutcome) : Bool :=
  o.status == .passed &&
    o.attempts.any fun a => a.result.status == .failed || a.result.status == .timedOut

structure RunSummary where
  outcomes : List TaskOutcome
  deadAgents : List ByteString
  wallSeconds : ℚ := 0

def RunSummary.count (s : RunSummary) (f : FinalStatus) : ℕ :=
  s.outcomes.countP fun o => o.status == f

def RunSummary.flakyCount (s : RunSummary) : ℕ := s.outcomes.countP (·.flaky)

/-- The end of `Run::execute`, after the workers have been joined. -/
def Run.summary (r : Run S tasks) (wallSeconds : ℚ) : RunSummary where
  outcomes := (List.finRange _).map fun t =>
    { task := tasks.get t
      status := (r.st t).final
      attempts := (r.st t).attempts
      message := (r.st t).message }
  deadAgents := r.dead
  wallSeconds := wallSeconds

end Dtest
