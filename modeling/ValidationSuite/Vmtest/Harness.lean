import Mathlib.Data.Finset.SDiff
import Mathlib.Data.Rat.Defs
import Mathlib.Data.UInt
import ValidationSuite.Library.ByteString
import ValidationSuite.Library.Exceptional

/-!
# The VM test harness

`vmtest/src/tests.cpp` and the class `Domain` of `vmtest/src/virt.cpp`: the context that keeps one
guest for several tests, the test cases, and the loop that runs them. Libvirt, the guests, `qemu-img`
and the clock are an environment that answers each call as it likes; between two calls guests may
stop by themselves.
-/

namespace Vmtest

open ByteString

inductive DomState where
  | noState
  | running
  | blocked
  | paused
  | shuttingDown
  | shutOff
  | crashed
  | pmSuspended
  | gone
  deriving DecidableEq

def DomState.toByteString : DomState → ByteString
  | .noState => lit "nostate"
  | .running => lit "running"
  | .blocked => lit "blocked"
  | .paused => lit "paused"
  | .shuttingDown => lit "shutting-down"
  | .shutOff => lit "shut-off"
  | .crashed => lit "crashed"
  | .pmSuspended => lit "pm-suspended"
  | .gone => lit "gone"

structure Config where
  vcpus : ℕ := 2
  memMib : ℕ := 1024
  bootTimeoutS : ℤ := 180
  shutdownTimeoutS : ℤ := 90
  iterations : ℤ := 0
  filter : ByteString := []

inductive Outcome where
  | passed
  | failed
  | skipped
  deriving DecidableEq

structure TestResult where
  suite : ByteString
  name : ByteString
  outcome : Outcome := .passed
  message : ByteString := []
  seconds : ℚ := 0
  deriving DecidableEq

/-- The exceptions the harness meets, by their classes, with what they say. -/
inductive Failure where
  | skipTest (what : ByteString)
  | testFailure (what : ByteString)
  | virtError (what : ByteString)
  | otherError (what : ByteString)

def Failure.what : Failure → ByteString
  | .skipTest what | .testFailure what | .virtError what | .otherError what => what

structure ExecResult where
  exited : Bool := false
  exitCode : ℤ := -1
  out : ByteString := []
  err : ByteString := []

/-- A domain, by the number of its creation. -/
abbrev DomainId := ℕ

/-- An overlay disk, by the number in the name of its file. -/
abbrev Overlay := UInt32

/-- What happens at the `n`-th call into the world outside. -/
structure Env where
  /-- the guests that have stopped by themselves since the call before -/
  stops : ℕ → Finset DomainId := fun _ => ∅
  /-- the error of `virConnectOpen`, if it fails; likewise for the calls that return nothing -/
  connect : ℕ → Option ByteString := fun _ => none
  qemuImg : ℕ → ℤ := fun _ => 0
  create : ℕ → Option ByteString := fun _ => none
  state : ℕ → Except ByteString DomState := fun _ => .ok .running
  /-- does the call `require` of `t_boot_and_agent` evaluate its message first? -/
  messageFirst : Bool := false
  destroy : ℕ → Option ByteString := fun _ => none
  suspend : ℕ → Option ByteString := fun _ => none
  resume : ℕ → Option ByteString := fun _ => none
  shutdown : ℕ → Option ByteString := fun _ => none
  vcpus : ℕ → Except ByteString ℕ := fun _ => .ok 2
  agent : ℕ → Option ByteString := fun _ => none
  exec : ℕ → Except Failure ExecResult := fun _ => .ok {}
  /-- how often a condition is polled again before the deadline -/
  polls : ℕ → ℕ := fun _ => 0
  /-- how long the test case took that ends before the call, in seconds -/
  elapsed : ℕ → ℚ := fun _ => 0

/-- What there is between two test cases. -/
structure Boundary where
  running : Finset DomainId
  overlays : Finset Overlay
  vm : Option DomainId
  vmOverlay : Option Overlay
  silent : Finset DomainId
  stopped : Finset DomainId

/-- The guests and overlays of the harness, and the members of `Context`. The local variable
`overlay` of a soak iteration is here too, as it outlives an exception. The members after it are a
history that no modelled function reads. -/
structure World where
  calls : ℕ := 0
  created : ℕ := 0
  running : Finset DomainId := ∅
  overlays : Finset Overlay := ∅
  connected : Bool := false
  vm : Option DomainId := none
  vmOverlay : Option Overlay := none
  nextId : UInt32 := 0
  soakOverlay : Option Overlay := none
  /-- which overlay a domain runs from -/
  disk : DomainId → Option Overlay := fun _ => none
  /-- the guests whose agent did not answer after they were created -/
  silent : Finset DomainId := ∅
  /-- the guests that have stopped by themselves -/
  stopped : Finset DomainId := ∅
  boundaries : List Boundary := []
  /-- the overlays removed, and the domain held in `vm_` at that time -/
  removals : List (Overlay × Option DomainId) := []
  /-- the overlays there were after each change -/
  overlayLog : List (Finset Overlay) := []

/-- The variables that hold the path of an overlay. -/
inductive OverlayVar where
  | vmOverlay
  | soakOverlay

def World.store (w : World) (x : OverlayVar) (overlay : Overlay) : World :=
  match x with
  | .vmOverlay => { w with vmOverlay := some overlay }
  | .soakOverlay => { w with soakOverlay := some overlay }

def World.load (w : World) : OverlayVar → Option Overlay
  | .vmOverlay => w.vmOverlay
  | .soakOverlay => w.soakOverlay

abbrev Harness (α : Type) := Exceptional World Failure α

variable (env : Env) (cfg : Config)

/-! ### Calls into the world outside -/

/-- One call passes; guests may have stopped. -/
def World.advance (w : World) : World :=
  { w with
    calls := w.calls + 1
    running := w.running \ env.stops w.calls
    stopped := w.stopped ∪ w.running ∩ env.stops w.calls }

/-- What `answer` says about the next call. -/
def call {α : Type} (answer : ℕ → α) : Harness α := fun w => (.ok (answer w.calls), w.advance env)

/-- A call that fails with the error `answer` says, after a text of its own. -/
def attempt (what : String) (answer : ℕ → Option ByteString) : Harness Unit := do
  match ← call env answer with
  | none => pure ()
  | some error => throw (.virtError (lit what ++ lit ": " ++ error))

def require (cond : Bool) (msg : ByteString) : Harness Unit :=
  if cond then pure () else throw (.testFailure msg)

def requireEq (actual expected : ℤ) (what : ByteString) : Harness Unit :=
  require (actual == expected)
    (what ++ lit ": expected " ++ ofInt expected ++ lit ", got " ++ ofInt actual)

/-- Poll until the condition holds, or until it has been polled `n` times more. -/
def pollUntil (pred : Harness Bool) : ℕ → Harness Bool
  | 0 => pred
  | n + 1 => do
    if ← pred then return true
    pollUntil pred n

def waitUntil (pred : Harness Bool) : Harness Bool := do
  let n ← call env env.polls
  pollUntil pred n

namespace Domain

/-- A guest that runs is in any state but gone and shut off; one that does not is in one of
these. -/
def state (vm : DomainId) : Harness DomState := fun w =>
  let alive := decide (vm ∈ (w.advance env).running)
  match env.state w.calls with
  | .error error =>
    (.error (.virtError (lit "virDomainGetState failed: " ++ error)), w.advance env)
  | .ok st =>
    let stopped := st == .gone || st == .shutOff
    (.ok (if alive then (if stopped then .running else st) else (if stopped then st else .gone)),
      w.advance env)

def suspend (_ : DomainId) : Harness Unit := attempt env "suspend failed" env.suspend

def resume (_ : DomainId) : Harness Unit := attempt env "resume failed" env.resume

def shutdown (_ : DomainId) : Harness Unit := attempt env "shutdown failed" env.shutdown

def destroy (vm : DomainId) : Harness Unit := do
  attempt env "destroy failed" env.destroy
  modify fun w => { w with running := w.running.erase vm }

def vcpus (_ : DomainId) : Harness ℕ := do
  match ← call env env.vcpus with
  | .ok n => return n
  | .error error => throw (.virtError (lit "virDomainGetInfo failed: " ++ error))

def agentCommand (_ : DomainId) : Harness Unit :=
  attempt env "guest agent command failed" env.agent

/-- The domain that is created runs from the overlay. -/
def createTransient (overlay : Overlay) : Harness DomainId := do
  attempt env "failed to start domain" env.create
  let w ← get
  set { w with
    created := w.created + 1
    running := insert w.created w.running
    disk := Function.update w.disk w.created (some overlay) }
  return w.created

end Domain

def agentAlive (vm : DomainId) : Harness Bool :=
  tryCatch (do Domain.agentCommand env vm; return true) fun _ => return false

def stateBecomes (vm : DomainId) (want : DomState) : Harness Bool :=
  waitUntil env do return (← Domain.state env vm) == want

/-- Run a script in the guest: a few agent commands, any of which may fail. -/
def guestSh (_ : DomainId) : Harness ExecResult := do
  match ← call env env.exec with
  | .ok res => return res
  | .error failure => throw failure

/-! ### The context -/

/-- History: the agent of the guest did not answer. -/
def markSilent (vm : DomainId) : Harness Unit :=
  modify fun w => { w with silent := insert vm w.silent }

namespace Context

def connection : Harness Unit := do
  if !(← get).connected then
    attempt env "cannot connect" env.connect
    modify fun w => { w with connected := true }

def removeFile (path : Option Overlay) : Harness Unit :=
  match path with
  | none => pure ()
  | some overlay => modify fun w =>
    { w with
      overlays := w.overlays.erase overlay
      removals := w.removals ++ [(overlay, w.vm)]
      overlayLog := w.overlayLog ++ [w.overlays.erase overlay] }

def makeOverlay (id : UInt32) : Harness Overlay := do
  let rc ← call env env.qemuImg
  if rc = 127 then throw (.testFailure (lit "qemu-img not found in PATH (install qemu-utils)"))
  else if rc ≠ 0 then
    throw (.testFailure (lit "qemu-img create failed (rc=" ++ ofInt rc ++
      lit "); check --image and --work-dir"))
  else
    modify fun w =>
      { w with
        overlays := insert id w.overlays
        overlayLog := w.overlayLog ++ [insert id w.overlays] }
    return id

def waitForAgent (vm : DomainId) : Harness Unit := do
  let up ← waitUntil env (agentAlive env vm)
  if up then pure ()
  else
    markSilent vm
    throw (.testFailure (lit "guest agent did not answer within " ++ ofInt cfg.bootTimeoutS ++
      lit "s (is qemu-guest-agent installed and enabled in the image?)"))

/-- `overlayOut` says into which variable of the caller the path of the overlay goes. -/
def bootFreshVm (overlayOut : OverlayVar) : Harness DomainId := do
  modify fun w => { w with nextId := w.nextId + 1 }
  let overlay ← makeOverlay env (← get).nextId
  modify (·.store overlayOut overlay)
  tryCatch
    (do
      connection env
      let vm ← Domain.createTransient env overlay
      waitForAgent env cfg vm
      return vm)
    fun e => do
      removeFile (some overlay)
      throw e

def destroyUnlessGone (vm : DomainId) : Harness Unit := do
  let st ← Domain.state env vm
  if st ≠ .gone ∧ st ≠ .shutOff then Domain.destroy env vm

/-- The part of `release_vm` that is about `vm_`. -/
def dropVm : Harness Unit := do
  match (← get).vm with
  | none => pure ()
  | some vm =>
    tryCatch (destroyUnlessGone env vm) fun _ => pure ()
    modify fun w => { w with vm := none }

def releaseVm : Harness Unit := do
  dropVm env
  removeFile (← get).vmOverlay
  modify fun w => { w with vmOverlay := none }

def bootSharedVm : Harness DomainId := do
  releaseVm env
  let vm ← bootFreshVm env cfg .vmOverlay
  modify fun w => { w with vm := some vm }
  return vm

/-- A handle that `vm_` holds is valid: it was moved there from a domain just created. -/
def ensureVm : Harness DomainId := do
  match (← get).vm with
  | none => bootSharedVm env cfg
  | some vm =>
    if (← Domain.state env vm) = .gone then bootSharedVm env cfg else return vm

end Context

/-! ### The test cases -/

open Context

def tBootAndAgent : Harness Unit := do
  let vm ← ensureVm env cfg
  -- one call for each argument; the standard leaves their order to the compiler
  let first ← Domain.state env vm
  let second ← Domain.state env vm
  require ((if env.messageFirst then second else first) == .running)
    (lit "domain is not running after boot: " ++
      (if env.messageFirst then first else second).toByteString)
  require (← agentAlive env vm) (lit "guest agent stopped answering")
  requireEq (← Domain.vcpus env vm) cfg.vcpus (lit "vCPU count reported by libvirt")

def tPauseResume : Harness Unit := do
  let vm ← ensureVm env cfg
  Domain.suspend env vm
  require (← stateBecomes env vm .paused) (lit "domain did not reach 'paused'")
  Domain.resume env vm
  require (← stateBecomes env vm .running) (lit "domain did not return to 'running'")
  require (← waitUntil env (agentAlive env vm)) (lit "guest agent unreachable 30s after resume")

/-- `std::stoi` and `std::stol`, for a result of at most `bits` bits. -/
def parseInt (what : String) (bits : ℕ) (s : ByteString) : Harness ℤ :=
  match integer? s with
  | none => throw (.otherError (lit what))
  | some n =>
    if -2 ^ (bits - 1) ≤ n ∧ n < 2 ^ (bits - 1) then pure n else throw (.otherError (lit what))

def tVcpuCount : Harness Unit := do
  let vm ← ensureVm env cfg
  let r ← guestSh env vm
  requireEq r.exitCode 0 (lit "nproc exit code")
  requireEq (← parseInt "stoi" 32 r.out) cfg.vcpus (lit "vCPUs visible inside the guest")

def tMemory : Harness Unit := do
  let vm ← ensureVm env cfg
  let r ← guestSh env vm
  requireEq r.exitCode 0 (lit "meminfo read exit code")
  let guestKib ← parseInt "stol" 64 r.out
  let configuredKib : ℤ := cfg.memMib * 1024
  require (guestKib ≤ configuredKib)
    (lit "guest reports more memory than configured (" ++ ofInt guestKib ++ lit " kiB)")
  -- a negative number may be too large for the multiplication
  require (Int.bmod (guestKib * 100) (2 ^ 64) ≥ configuredKib * 70)
    (lit "guest reports less than 70% of configured memory (" ++ ofInt guestKib ++ lit " kiB)")

def tHypervisorFlag : Harness Unit := do
  let vm ← ensureVm env cfg
  let r ← guestSh env vm
  requireEq r.exitCode 0 (lit "cpuinfo probe exit code")
  require ((lit "yes").isPrefixOf r.out) (lit "guest CPU does not advertise the 'hypervisor' flag")

def tExitCode : Harness Unit := do
  let vm ← ensureVm env cfg
  let r ← guestSh env vm
  require r.exited (lit "command did not finish")
  requireEq r.exitCode 7 (lit "exit code propagated through the guest agent")

def tStdoutCapture : Harness Unit := do
  let vm ← ensureVm env cfg
  let r ← guestSh env vm
  requireEq r.exitCode 0 (lit "exit code")
  require (r.out == lit "hello-vmtest") (lit "stdout mismatch: '" ++ r.out ++ lit "'")
  require (r.err == lit "oops") (lit "stderr mismatch: '" ++ r.err ++ lit "'")

def tGracefulShutdown : Harness Unit := do
  let vm ← ensureVm env cfg
  Domain.shutdown env vm
  let stopped ← waitUntil env do
    let st ← Domain.state env vm
    return st == .gone || st == .shutOff
  require stopped
    (lit "guest did not shut down within " ++ ofInt cfg.shutdownTimeoutS ++ lit "s")
  releaseVm env

/-- Is the domain gone, in time, or at least shut off? -/
def hasStopped (vm : DomainId) : Harness Bool := do
  if ← stateBecomes env vm .gone then return true
  else return (← Domain.state env vm) == .shutOff

/-- The body of the loop of `t_boot_destroy_soak` inside its `try`. -/
def soakGuest (i : ℕ) : Harness Unit := do
  let vm ← bootFreshVm env cfg .soakOverlay
  let alive ← agentAlive env vm
  if !alive then markSilent vm
  require alive (lit "iteration " ++ ofNat i ++ lit ": guest agent not alive")
  Domain.destroy env vm
  require (← hasStopped env vm)
    (lit "iteration " ++ ofNat i ++ lit ": domain still present after destroy")

def soakIteration (i : ℕ) : Harness Unit := do
  modify fun w => { w with soakOverlay := none }
  tryCatch (soakGuest env cfg i) fun e => do
    removeFile (← get).soakOverlay
    throw (.testFailure (lit "iteration " ++ ofNat i ++ lit "/" ++ ofInt cfg.iterations ++
      lit ": " ++ e.what))
  removeFile (← get).soakOverlay

def soakLoop : List ℕ → Harness Unit
  | [] => pure ()
  | i :: is => do
    soakIteration env cfg i
    soakLoop is

def tBootDestroySoak : Harness Unit := do
  if cfg.iterations ≤ 0 then
    throw (.skipTest (lit "pass --iterations N to enable the soak test"))
  releaseVm env
  soakLoop env cfg (List.range' 1 cfg.iterations.toNat)

structure TestCase where
  suite : ByteString
  name : ByteString
  fn : Harness Unit

def buildTests : List TestCase :=
  [⟨lit "lifecycle", lit "boot_and_agent_ping", tBootAndAgent env cfg⟩,
   ⟨lit "lifecycle", lit "pause_resume", tPauseResume env cfg⟩,
   ⟨lit "guest", lit "vcpu_count_matches", tVcpuCount env cfg⟩,
   ⟨lit "guest", lit "memory_matches", tMemory env cfg⟩,
   ⟨lit "guest", lit "hypervisor_cpu_flag", tHypervisorFlag env cfg⟩,
   ⟨lit "guest", lit "exit_code_propagates", tExitCode env cfg⟩,
   ⟨lit "guest", lit "stdout_stderr_capture", tStdoutCapture env cfg⟩,
   ⟨lit "lifecycle", lit "graceful_shutdown", tGracefulShutdown env cfg⟩,
   ⟨lit "stress", lit "boot_destroy_soak", tBootDestroySoak env cfg⟩]

/-! ### Running them -/

def matchesFilter (t : TestCase) (filter : ByteString) : Bool :=
  filter.isEmpty || (t.suite ++ lit "." ++ t.name).hasInfix filter

/-- History: a boundary between two test cases. -/
def boundary : Harness Unit := modify fun w =>
  let b := ⟨w.running, w.overlays, w.vm, w.vmOverlay, w.silent, w.stopped⟩
  { w with boundaries := w.boundaries ++ [b] }

def runTest (t : TestCase) : Harness TestResult := do
  let r : TestResult ← tryCatch
    (do
      t.fn
      return { suite := t.suite, name := t.name })
    fun e => match e with
    | .skipTest what =>
      return { suite := t.suite, name := t.name, outcome := .skipped, message := what }
    | e => return { suite := t.suite, name := t.name, outcome := .failed, message := e.what }
  return { r with seconds := env.elapsed (← get).calls }

def runLoop : List TestCase → Harness (List TestResult)
  | [] => pure []
  | t :: ts =>
    if matchesFilter t cfg.filter then do
      let r ← runTest env t
      boundary
      return r :: (← runLoop ts)
    else runLoop ts

def runTests (tests : List TestCase) : Harness (List TestResult) := do
  boundary
  let results ← runLoop env cfg tests
  releaseVm env
  return results

end Vmtest
