import ValidationSuite.Dtest.Rpc
import ValidationSuite.Dtest.Scheduler.Basic

/-!
# The executor of the controller

`GrpcExecutor` of `dtest/src/grpc_executor.cpp`: what it makes of an agent's description, which
request it makes of a task, and how it reads the answer. Deadlines and the measured time are
parameters: when an RPC fails is up to the network.
-/

namespace Dtest

open ByteString

namespace GrpcExecutor

/-- The metadata of every call, for the token of the executor. -/
def metadata (token : ByteString) : List (ByteString × ByteString) :=
  if token.isEmpty then [] else [(lit "authorization", lit "Bearer " ++ token)]

/-- What `connect` makes of the answer of `GetInfo`: the agent, or the text of the error. -/
def connect (address : ByteString) : Except Status InfoReply → Except ByteString AgentInfo
  | .error st => .error
    ((if st.code = .deadlineExceeded then lit "unreachable" else lit "rejected") ++ lit ": " ++
      st.message)
  | .ok info => .ok
    { address := address
      hostname := info.hostname
      slots := if info.slots = 0 then 1 else info.slots
      labels := info.labels }

/-- The request for a task. The timeout is converted in 32 bits. -/
def request (task : Task) : RunTaskRequest where
  taskId := task.name
  argv := task.argv
  env := task.env
  timeoutMs := UInt32.ofInt task.timeoutS * 1000

end GrpcExecutor

/-- The codes that stand for an unusable agent, or an unusable path to it. -/
def StatusCode.isInfrastructure : StatusCode → Bool
  | .unavailable | .deadlineExceeded | .unauthenticated | .cancelled | .internal | .unimplemented
  | .unknown => true
  | _ => false

namespace GrpcExecutor

/-- The result when `run` knows no stub for the agent. -/
def noConnection (agent : AgentInfo) : AttemptResult where
  status := .agentError
  message := lit "no connection to " ++ agent.address

/-- Append `extra` to `message`, after a semicolon if there is a message. -/
def andAlso (message extra : ByteString) : ByteString :=
  message ++ (if message.isEmpty then [] else lit "; ") ++ extra

/-- The part of `run` after the RPC, which took `elapsed` seconds. -/
def attemptResult (elapsed : ℚ) : Except Status RunTaskReply → AttemptResult
  | .error st =>
    { status := if st.code.isInfrastructure then .agentError else .failed
      message := st.message
      seconds := elapsed }
  | .ok rep =>
    let message := if rep.outputTruncated then andAlso rep.message (lit "output truncated")
      else rep.message
    let res : AttemptResult :=
      { exitCode := rep.exitCode
        out := rep.stdoutData
        err := rep.stderrData
        message := message
        seconds := if rep.durationMs > 0 then rep.durationMs.toNat / 1000 else elapsed }
    match rep.outcome with
    | .exited => { res with status := if rep.exitCode = 0 then .passed else .failed }
    | .signaled =>
      { res with
        status := .failed
        message := lit "killed by signal " ++ ofInt rep.termSignal ++
          (if message.isEmpty then [] else lit "; " ++ message) }
    | .timedOut => { res with status := .timedOut }
    | .launchFailed | .unspecified | .unrecognized _ =>
      { res with
        status := .failed
        message := if message.isEmpty then lit "agent could not launch the command" else message }

/-- Only a failed RPC counts as an outage. -/
lemma attemptResult_agentError_iff (elapsed : ℚ) (answer : Except Status RunTaskReply) :
    (attemptResult elapsed answer).status = .agentError ↔
      ∃ st, answer = .error st ∧ st.code.isInfrastructure = true := by
  rcases answer with st | rep
  · cases h : st.code.isInfrastructure <;> simp [attemptResult, h]
  · cases h : rep.outcome <;> simp [attemptResult, h]
    split_ifs <;> simp

lemma slots_of_connect {address : ByteString} {answer : Except Status InfoReply}
    {agent : AgentInfo} (h : connect address answer = .ok agent) :
    ∃ info, answer = .ok info ∧ agent.address = address ∧
      agent.slots = if info.slots = 0 then 1 else info.slots := by
  rcases answer with st | info
  · cases h
  · obtain rfl := Except.ok.inj h
    exact ⟨info, rfl, rfl, rfl⟩

end GrpcExecutor

end Dtest
