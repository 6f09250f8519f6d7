import ValidationSuite.Library.ByteString

/-!
# The allow list

`dtest/include/dtest/policy.hpp` and `dtest/src/policy.cpp`. Canonicalising a path asks the file
system, so `canonical` is a parameter.
-/

namespace Dtest

open ByteString

/-- What an agent is willing to execute. -/
structure Policy where
  allow : List ByteString := []
  allowAny : Bool := false
  deriving DecidableEq

def slash : UInt8 := '/'.toNat.toUInt8

/-- Does the entry `entry` of the allow list cover the canonical path `target`? -/
def entryAllows (canonical : ByteString → ByteString) (target entry : ByteString) : Bool :=
  if entry.isEmpty then false
  else
    let allowed := canonical entry
    if entry.getLast? == some slash then
      let dir := if allowed.getLast? == some slash then allowed else allowed ++ [slash]
      decide (dir.length < target.length) && dir.isPrefixOf target
    else target == allowed

/-- The empty string if `argv0` may run, otherwise the reason it was refused. -/
def checkCommand (canonical : ByteString → ByteString) (policy : Policy) (argv0 : ByteString) :
    ByteString :=
  if policy.allowAny then []
  else if argv0.head? != some slash then
    lit "command must be an absolute path (got '" ++ argv0 ++ lit "')"
  else if policy.allow.any (entryAllows canonical (canonical argv0)) then []
  else lit "command '" ++ argv0 ++ lit "' is not permitted by this agent's allow list"

end Dtest
