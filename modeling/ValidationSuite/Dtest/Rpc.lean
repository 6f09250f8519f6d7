import ValidationSuite.Library.ByteString
import Mathlib.Data.Int.Notation

/-!
# Messages

The status of an RPC, the messages of `dtest/proto/dtest.proto`, and what goes into and comes out
of `run_process` (`dtest/include/dtest/process.hpp`).
-/

namespace Dtest

/-- The codes of `grpc::StatusCode` other than `OK`. -/
inductive StatusCode where
  | cancelled
  | unknown
  | invalidArgument
  | deadlineExceeded
  | notFound
  | alreadyExists
  | permissionDenied
  | resourceExhausted
  | failedPrecondition
  | aborted
  | outOfRange
  | unimplemented
  | internal
  | unavailable
  | dataLoss
  | unauthenticated
  deriving DecidableEq

/-- A `grpc::Status` that is not `OK`. -/
structure Status where
  code : StatusCode
  message : ByteString := []
  deriving DecidableEq

structure InfoReply where
  hostname : ByteString := []
  cpus : UInt32 := 0
  slots : UInt32 := 0
  labels : List ByteString := []
  version : ByteString := []
  deriving DecidableEq

structure RunTaskRequest where
  taskId : ByteString := []
  argv : List ByteString := []
  env : List (ByteString × ByteString) := []
  timeoutMs : UInt32 := 0
  deriving DecidableEq

/-- `RunTaskReply::Outcome`, an open enumeration on the wire. -/
inductive Outcome where
  | unspecified
  | exited
  | signaled
  | timedOut
  | launchFailed
  | unrecognized (n : ℤ)
  deriving DecidableEq

structure RunTaskReply where
  outcome : Outcome := .unspecified
  exitCode : ℤ := 0
  termSignal : ℤ := 0
  stdoutData : ByteString := []
  stderrData : ByteString := []
  outputTruncated : Bool := false
  durationMs : UInt32 := 0
  message : ByteString := []
  deriving DecidableEq

/-! ### Running a command -/

structure RunSpec where
  argv : List ByteString
  env : List (ByteString × ByteString)
  timeoutMs : ℕ
  maxOutputBytes : ℕ
  deriving DecidableEq

inductive RunOutcome where
  | exited
  | signaled
  | timedOut
  | launchFailed
  deriving DecidableEq

structure RunOutput where
  outcome : RunOutcome := .launchFailed
  exitCode : ℤ := -1
  termSignal : ℤ := 0
  out : ByteString := []
  err : ByteString := []
  truncated : Bool := false
  durationMs : ℕ := 0
  message : ByteString := []
  deriving DecidableEq

end Dtest
