import ValidationSuite.Dtest.Policy
import ValidationSuite.Dtest.Rpc
import Mathlib.Data.List.Basic

/-!
# The agent

`AgentService` of `dtest/src/agent_service.cpp`: its constructor, the checks a request has to pass,
and the way of one `RunTask` handler through its atomic steps on `running_`.
-/

namespace Dtest

open ByteString

/-- `AgentService::Options`. -/
structure Options where
  token : ByteString := []
  policy : Policy := {}
  slots : UInt32 := 1
  labels : List ByteString := []
  hostname : ByteString := []
  maxOutputBytes : ℕ := 1048576
  deriving DecidableEq

/-- The options of a service. Its constructor leaves no service without a slot. -/
structure AgentService where
  opts : Options
  slots_pos : 0 < opts.slots.toNat

/-- The constructor. `gethostname` is the name of the host, if the call succeeds. -/
def AgentService.make (opts : Options) (gethostname : Option ByteString) : AgentService where
  opts :=
    { opts with
      slots := if opts.slots = 0 then 1 else opts.slots
      hostname := if opts.hostname.isEmpty then gethostname.getD [] else opts.hostname }
  slots_pos := by
    show 0 < (if opts.slots = 0 then 1 else opts.slots).toNat
    split_ifs with h
    · simp
    · exact Nat.pos_of_ne_zero fun h0 => h (UInt32.toNat_inj.mp h0)

lemma AgentService.make_slots (opts : Options) (gethostname : Option ByteString) :
    (make opts gethostname).opts.slots.toNat = max opts.slots.toNat 1 := by
  show (if opts.slots = 0 then 1 else opts.slots).toNat = _
  split_ifs with h
  · simp [h]
  · have hpos : opts.slots.toNat ≠ 0 := fun h0 => h (UInt32.toNat_inj.mp h0)
    omega

/-- The differences of two strings are collected in one byte, whatever their contents. -/
def constantTimeEquals (a b : ByteString) : Bool :=
  let diff : UInt8 := if a.length ≠ b.length then 1 else 0
  (List.zipWith (· ^^^ ·) a b).foldl (· ||| ·) diff == 0

/-- A call as it reaches the service: its metadata, its message, and the paths as they are at the
time of its policy check. -/
structure Incoming (α : Type) where
  metadata : List (ByteString × ByteString) := []
  request : α
  canonical : ByteString → ByteString := id

namespace AgentService

variable (svc : AgentService)

/-- The status a caller gets who is not allowed in. -/
def authenticate (metadata : List (ByteString × ByteString)) : Option Status :=
  if svc.opts.token.isEmpty then none
  else match metadata.find? fun kv => kv.1 == lit "authorization" with
    | none => some ⟨.unauthenticated, lit "missing authorization metadata"⟩
    | some kv =>
      if constantTimeEquals kv.2 (lit "Bearer " ++ svc.opts.token) then none
      else some ⟨.unauthenticated, lit "invalid token"⟩

/-- `cpus` is what `std::thread::hardware_concurrency` says. -/
def getInfo (cpus : UInt32) (metadata : List (ByteString × ByteString)) :
    Except Status InfoReply :=
  match svc.authenticate metadata with
  | some st => .error st
  | none => .ok
    { hostname := svc.opts.hostname
      cpus := cpus
      slots := svc.opts.slots
      labels := svc.opts.labels
      version := lit "0.1.0" }

/-- The checks of `RunTask`, up to `running_.fetch_add`. -/
def check (c : Incoming RunTaskRequest) : Option Status :=
  match svc.authenticate c.metadata with
  | some st => some st
  | none =>
    match c.request.argv with
    | [] => some ⟨.invalidArgument, lit "argv must not be empty"⟩
    | argv0 :: _ =>
      if argv0.isEmpty then some ⟨.invalidArgument, lit "argv must not be empty"⟩
      else if c.request.timeoutMs = 0 ∨ c.request.timeoutMs > 86400000 then
        some ⟨.invalidArgument, lit "timeout_ms must be in 1..86400000"⟩
      else
        let why := checkCommand c.canonical svc.opts.policy argv0
        if why.isEmpty then none else some ⟨.permissionDenied, why⟩

/-- No check refuses a call for lack of a slot. -/
lemma code_of_check {c : Incoming RunTaskRequest} {st : Status} (h : svc.check c = some st) :
    st.code ≠ .resourceExhausted := by
  unfold check authenticate at h
  grind

/-- What `run_process` is asked to run. -/
def runSpec (req : RunTaskRequest) : RunSpec where
  argv := req.argv
  env := req.env
  timeoutMs := req.timeoutMs.toNat
  maxOutputBytes := svc.opts.maxOutputBytes

end AgentService

/-- The status of a request that finds no free slot. -/
def atLimit : Status := ⟨.resourceExhausted, lit "agent is at its concurrency limit"⟩

def RunOutcome.toReply : RunOutcome → Outcome
  | .exited => .exited
  | .signaled => .signaled
  | .timedOut => .timedOut
  | .launchFailed => .launchFailed

/-- The reply to a request whose command has been run. -/
def RunOutput.toReply (out : RunOutput) : RunTaskReply where
  outcome := out.outcome.toReply
  exitCode := out.exitCode
  termSignal := out.termSignal
  stdoutData := out.out
  stderrData := out.err
  outputTruncated := out.truncated
  durationMs := UInt32.ofNat out.durationMs
  message := out.message

/-! ### One handler -/

/-- Where the handler of a `RunTask` call stands. -/
inductive Phase where
  /-- nothing done yet -/
  | arrived
  /-- past the checks, before `running_.fetch_add` -/
  | checked
  /-- has added itself, but found no free slot -/
  | refused
  /-- has added itself and has a slot -/
  | admitted
  /-- in `run_process` -/
  | executing (spec : RunSpec)
  /-- `run_process` has returned -/
  | executed (out : RunOutput)
  /-- has returned -/
  | finished (answer : Except Status RunTaskReply)

namespace Phase

/-- Has the handler done its `fetch_add`, and not yet its `fetch_sub`? -/
def counted : Phase → Bool
  | .refused | .admitted | .executing _ | .executed _ => true
  | .arrived | .checked | .finished _ => false

/-- Does the handler hold a slot? -/
def holdsSlot : Phase → Bool
  | .admitted | .executing _ | .executed _ => true
  | .arrived | .checked | .refused | .finished _ => false

def isExecuting : Phase → Bool
  | .executing _ => true
  | _ => false

def isFinished : Phase → Bool
  | .finished _ => true
  | _ => false

end Phase

/-- The atomic steps of the handler of the call `c`, on `running_` and its own phase. -/
inductive AgentService.Handles (svc : AgentService) (c : Incoming RunTaskRequest) :
    UInt32 → Phase → UInt32 → Phase → Prop
  | reject {n : UInt32} {st : Status} (hcheck : svc.check c = some st) :
      Handles svc c n .arrived n (.finished (.error st))
  | accept {n : UInt32} (hcheck : svc.check c = none) : Handles svc c n .arrived n .checked
  | grant {n : UInt32} (hfree : n < svc.opts.slots) :
      Handles svc c n .checked (n + 1) .admitted
  | refuse {n : UInt32} (hfull : svc.opts.slots ≤ n) :
      Handles svc c n .checked (n + 1) .refused
  | undo {n : UInt32} : Handles svc c n .refused (n - 1) (.finished (.error atLimit))
  | launch {n : UInt32} : Handles svc c n .admitted n (.executing (svc.runSpec c.request))
  /-- The command comes to its end, in any way. -/
  | exit {n : UInt32} {spec : RunSpec} (out : RunOutput) :
      Handles svc c n (.executing spec) n (.executed out)
  | release {n : UInt32} {out : RunOutput} :
      Handles svc c n (.executed out) (n - 1) (.finished (.ok out.toReply))

end Dtest
