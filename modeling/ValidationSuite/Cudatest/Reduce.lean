import ValidationSuite.Cudatest.Strided
import ValidationSuite.Library.Atomics

/-!
# The sum of an array

The reduction kernel of `cudatest/src/kernels.cu` with its launcher, and the reference of
`cudatest/src/reference.cpp`. Each thread sums what it comes across; the threads of a block then add
their sums up in shared memory, half of them to the other half, until one is left, which is added to
the result.
-/

namespace Cudatest.Reduce

open Simt

/-- A block, with `threadIdx.x`. -/
abbrev Thread (grid block : ℕ) := Fin grid × Fin block

/-- The array and the result in global memory, and the sums of the threads of each block in shared
memory. -/
inductive Loc (grid : ℕ) where
  | input (i : ℤ)
  | out
  | partials (block : Fin grid) (i : ℕ)
  deriving DecidableEq

variable {grid block : ℕ}

abbrev Value : Loc grid → Type
  | .input _ => UInt32
  | .out => UInt64
  | .partials _ _ => UInt64

instance : ∀ l : Loc grid, Word (Value l)
  | .input _ => inferInstanceAs (Word UInt32)
  | .out => inferInstanceAs (Word UInt64)
  | .partials _ _ => inferInstanceAs (Word UInt64)

abbrev Memory (grid : ℕ) := ∀ l : Loc grid, Value l

abbrev Op (grid block : ℕ) := Atomic (Thread grid block) (Loc grid) Value

abbrev Kernel (grid block : ℕ) (α : Type) := Prog (Op grid block) Atomic.Res α

/-- `in[i]`. -/
def loadInput (i : ℤ) : Kernel grid block UInt32 := fetch (Loc.input i)

def loadPartial (b : Fin grid) (i : ℕ) : Kernel grid block UInt64 := fetch (Loc.partials b i)

def storePartial (b : Fin grid) (i : ℕ) (v : UInt64) : Kernel grid block Unit :=
  put (Loc.partials b i) v

/-- `v += in[i]`. -/
def addInput (i : ℤ) (v : UInt64) : Kernel grid block UInt64 := do
  let a ← loadInput i
  return v + a.toUInt64

/-- `if (threadIdx.x < s) partial[threadIdx.x] += partial[threadIdx.x + s];`. -/
def halve (t : Thread grid block) (s : ℕ) : Kernel grid block Unit :=
  if t.2 < s then do
    let b ← loadPartial t.1 (t.2 + s)
    let a ← loadPartial t.1 t.2
    storePartial t.1 t.2 (a + b)
  else pure ()

/-- The loop over `s`. -/
def tree (t : Thread grid block) (s : ℕ) : Kernel grid block Unit :=
  if h : 0 < s then do
    halve t s
    syncthreads
    tree t (s / 2)
  else pure ()
termination_by s
decreasing_by exact Nat.div_lt_self h (by decide)

/-- `if (threadIdx.x == 0) atomicAdd(out, partial[0]);`. -/
def addResult (t : Thread grid block) : Kernel grid block Unit :=
  if (t.2 : ℕ) = 0 then do
    let v ← loadPartial t.1 0
    atomicAdd t Loc.out v
  else pure ()

def reduceSumKernel (n : ℤ) (t : Thread grid block) : Kernel grid block Unit := do
  let v ← strided n (start t) (grid * block) addInput 0
  storePartial t.1 t.2 v
  syncthreads
  tree t (block / 2)
  addResult t

/-- What `cudaMemsetAsync` does. -/
def memset (m : Memory grid) : Memory grid := Function.update m .out 0

/-- The runs of the kernel on a grid, after the result has been cleared. -/
def run (n : ℤ) (m : Memory grid) :
    Transition.LTS
      (State (Thread grid block) (Fin grid) (Op grid block) Atomic.Res (Memory grid))
      (Label (Thread grid block) (Fin grid)) :=
  atomicGrid Prod.fst (memset m) (reduceSumKernel n)

def cpuReduceSum (input : ℤ → UInt32) (n : ℤ) : UInt64 :=
  forLt n (fun i s => s + (input i).toUInt64) 0

end Cudatest.Reduce
