import ValidationSuite.Cudatest.GemmProperties

/-!
# The transposed matrix

The transpose kernel of `cudatest/src/kernels.cu` with its launcher, and the reference of
`cudatest/src/reference.cpp`. A block of 32 by 8 threads takes a tile of 32 by 32 elements in four
passes, through shared memory, where rows and columns change places. The elements are anything.
-/

namespace Cudatest.Transpose

open Simt

abbrev kTransTile : ℕ := 32

abbrev kTransRows : ℕ := 8

/-- `null`: is one of the matrices a null pointer? -/
def launchTranspose (null : Bool) (rows cols : ℤ) : Launch :=
  if rows < 0 ∨ cols < 0 ∨ 0 < rows ∧ 0 < cols ∧ null then .invalidValue
  else if rows = 0 ∨ cols = 0 then .success
  else launchGrid (gridDim cols kTransTile) (gridDim rows kTransTile)

/-- A block, with `threadIdx.x` and `threadIdx.y`. -/
abbrev Thread (x y : ℕ) := Block x y × (Fin kTransTile × Fin kTransRows)

/-- The matrices in global memory and the tile of each block in shared memory. -/
inductive Loc (x y : ℕ) where
  | input (i : ℤ)
  | output (i : ℤ)
  | tile (block : Block x y) (r c : ℕ)
  deriving DecidableEq

variable {E : Type} {x y : ℕ}

abbrev Memory (E : Type) (x y : ℕ) := Loc x y → E

abbrev Op (E : Type) (x y : ℕ) := Access (Loc x y) fun _ => E

abbrev Kernel (E : Type) (x y : ℕ) (α : Type) := Prog (Op E x y) Access.Res α

/-- The place of a thread, in the direction of the given coordinates of its block and its own. -/
def place (block thread : ℕ) : ℤ := int32 (block * kTransTile + thread)

/-- `x` and `y + j` of the first loop. -/
def inCol (t : Thread x y) : ℤ := place t.1.1 t.2.1

def inRow (t : Thread x y) (j : ℕ) : ℤ := int32 (place t.1.2 t.2.2 + j)

/-- `x` and `y + j` of the second loop: the coordinates of the block have changed places. -/
def outCol (t : Thread x y) : ℤ := place t.1.2 t.2.1

def outRow (t : Thread x y) (j : ℕ) : ℤ := int32 (place t.1.1 t.2.2 + j)

def loadE (l : Loc x y) : Kernel E x y E := load l

def storeE (l : Loc x y) (v : E) : Kernel E x y Unit := store l v

variable (rows cols : ℤ)

/-- The pass of the first loop at `j`. -/
def loadPass (t : Thread x y) (j : ℕ) : Kernel E x y Unit :=
  if inCol t < cols ∧ inRow t j < rows then do
    let v ← loadE (.input (flat (inRow t j) cols (inCol t)))
    storeE (.tile t.1 (t.2.2 + j) t.2.1) v
  else pure ()

/-- The pass of the second loop at `j`. -/
def storePass (t : Thread x y) (j : ℕ) : Kernel E x y Unit :=
  if outCol t < rows ∧ outRow t j < cols then do
    let v ← loadE (.tile t.1 t.2.1 (t.2.2 + j))
    storeE (.output (flat (outRow t j) rows (outCol t))) v
  else pure ()

/-- `for (int j = 0; j < kTransTile; j += kTransRows)`. -/
def passes (pass : ℕ → Kernel E x y Unit) : Kernel E x y Unit :=
  loop (fun p _ => pass (p * kTransRows)) 0 (kTransTile / kTransRows) ()

def transposeKernel (t : Thread x y) : Kernel E x y Unit := do
  passes (loadPass rows cols t)
  syncthreads
  passes (storePass rows cols t)

/-- The runs of the kernel on a grid. -/
def run (m : Memory E x y) :
    Transition.LTS (State (Thread x y) (Block x y) (Op E x y) Access.Res (Memory E x y))
      (Label (Thread x y) (Block x y)) :=
  grid Access.exec Prod.fst m (transposeKernel rows cols)

/-- The thread reads the input, uses the tile of its block, which is 32 by 33, and writes the
output. -/
def InBounds (b : Block x y) : Op E x y → Prop
  | .load (.input i) | .store (.output i) _ => 0 ≤ i ∧ i < rows * cols
  | .load (.tile b' r c) | .store (.tile b' r c) _ => b' = b ∧ r < kTransTile ∧ c < kTransTile + 1
  | .load (.output _) | .store (.input _) _ => False

def cpuTranspose (input output : ℤ → E) : ℤ → E :=
  forLt rows (fun r output =>
    forLt cols (fun c output =>
      Function.update output (flat c rows r) (input (flat r cols c))) output) output

end Cudatest.Transpose
