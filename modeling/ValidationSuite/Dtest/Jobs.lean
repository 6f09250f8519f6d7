import ValidationSuite.Library.ByteString

/-!
# Tasks and labels

The tasks of a job file and the matching of a task's requirements against an agent's labels
(`dtest/include/dtest/jobs.hpp`, `dtest/src/jobs.cpp`).
-/

namespace Dtest

open ByteString

/-- One task. `retries` is the number of extra attempts after a failure. The environment lists the
pairs of a `std::map` in increasing key order. -/
structure Task where
  name : ByteString := []
  argv : List ByteString := []
  env : List (ByteString × ByteString) := []
  timeoutS : ℤ := 60
  retries : ℤ := 0
  needs : List ByteString := []
  deriving DecidableEq

/-- Does the label `l` meet the requirement `req`? With a `=` the two must be equal; without, the
label is `req` alone or `req` with any value. -/
def labelMeets (req l : ByteString) : Bool :=
  if req.contains '='.toNat.toUInt8 then l == req
  else l == req || (req ++ lit "=").isPrefixOf l

/-- True if `agentLabels` satisfies every requirement. -/
def labelsSatisfy (agentLabels needs : List ByteString) : Bool :=
  needs.all fun req => agentLabels.any fun l => labelMeets req l

end Dtest
