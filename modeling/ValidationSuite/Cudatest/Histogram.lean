import ValidationSuite.Cudatest.Strided
import ValidationSuite.Library.Atomics

/-!
# The histogram of an array

The histogram kernel of `cudatest/src/kernels.cu`, and the reference of `cudatest/src/reference.cpp`.
A block clears counters of its own in shared memory, counts what its threads come across, and adds
the counters to the bins.
-/

namespace Cudatest.Histogram

open Simt

/-- A block, with `threadIdx.x`. -/
abbrev Thread (grid block : ℕ) := Fin grid × Fin block

/-- The array and the bins in global memory, and the counters of each block in shared memory. -/
inductive Loc (grid : ℕ) where
  | input (i : ℤ)
  | bins (i : ℤ)
  | locals (block : Fin grid) (i : ℤ)
  deriving DecidableEq

variable {grid block : ℕ}

abbrev Value : Loc grid → Type
  | .input _ => UInt8
  | .bins _ => UInt32
  | .locals _ _ => UInt32

instance : ∀ l : Loc grid, Word (Value l)
  | .input _ => inferInstanceAs (Word UInt8)
  | .bins _ => inferInstanceAs (Word UInt32)
  | .locals _ _ => inferInstanceAs (Word UInt32)

abbrev Memory (grid : ℕ) := ∀ l : Loc grid, Value l

abbrev Op (grid block : ℕ) := Atomic (Thread grid block) (Loc grid) Value

abbrev Kernel (grid block : ℕ) (α : Type) := Prog (Op grid block) Atomic.Res α

def loadInput (i : ℤ) : Kernel grid block UInt8 := fetch (Loc.input i)

def loadLocal (b : Fin grid) (i : ℤ) : Kernel grid block UInt32 := fetch (Loc.locals b i)

/-- `local[i] = 0;`. -/
def clear (b : Fin grid) (i : ℤ) : Kernel grid block Unit := put (Loc.locals b i) 0

/-- `atomicAdd(&local[in[i]], 1u);`. -/
def count (t : Thread grid block) (i : ℤ) : Kernel grid block Unit := do
  let c ← loadInput i
  atomicAdd t (Loc.locals t.1 c.toNat) 1

/-- `if (local[i]) atomicAdd(&bins[i], local[i]);`. -/
def flush (t : Thread grid block) (i : ℤ) : Kernel grid block Unit := do
  let v ← loadLocal t.1 i
  if v ≠ 0 then do
    let v ← loadLocal t.1 i
    atomicAdd t (Loc.bins i) v
  else pure ()

def histogram256Kernel (n : ℤ) (t : Thread grid block) : Kernel grid block Unit := do
  strided 256 t.2 block (fun i _ => clear t.1 i) ()
  syncthreads
  strided n (start t) (grid * block) (fun i _ => count t i) ()
  syncthreads
  strided 256 t.2 block (fun i _ => flush t i) ()

/-- What `cudaMemsetAsync` does. -/
def memset (m : Memory grid) : Memory grid
  | .bins i => if 0 ≤ i ∧ i < 256 then 0 else m (.bins i)
  | .input i => m (.input i)
  | .locals b i => m (.locals b i)

/-- The runs of the kernel on a grid, after the bins have been cleared. -/
def run (n : ℤ) (m : Memory grid) :
    Transition.LTS
      (State (Thread grid block) (Fin grid) (Op grid block) Atomic.Res (Memory grid))
      (Label (Thread grid block) (Fin grid)) :=
  atomicGrid Prod.fst (memset m) (histogram256Kernel n)

def cpuHistogram256 (input : ℤ → UInt8) (n : ℤ) : ℕ → UInt32 :=
  forLt n (fun i bins =>
    Function.update bins (input i).toNat (bins (input i).toNat + 1)) fun _ => 0

end Cudatest.Histogram
