import Mathlib.Algebra.Ring.Defs
import Mathlib.Data.Int.Notation
import ValidationSuite.Library.Simt

/-!
# Matrix products

The two GEMM kernels of `cudatest/src/kernels.cu` with their launchers, and the reference of
`cudatest/src/reference.cpp`. Indices are 32-bit integers; the elements are those of a semiring.
-/

namespace Cudatest

open Simt

/-- The `int` with the 32 low bits of `n`. -/
def int32 (n : ℤ) : ℤ := n.bmod (2 ^ 32)

abbrev kTile : ℕ := 16

/-! ### Launches -/

/-- What comes of a launch: a grid of blocks, or none. -/
inductive Launch where
  | invalidValue
  /-- nothing to do -/
  | success
  /-- more blocks than CUDA admits -/
  | invalidConfiguration
  | grid (x y : ℕ)
  deriving DecidableEq

/-- `gridDim.x`, where there is a grid. -/
def Launch.x : Launch → ℕ
  | .grid x _ => x
  | .invalidValue | .success | .invalidConfiguration => 0

def Launch.y : Launch → ℕ
  | .grid _ y => y
  | .invalidValue | .success | .invalidConfiguration => 0

/-- The launch of a grid of `x` by `y` blocks. -/
def launchGrid (x y : ℕ) : Launch :=
  if 2 ^ 31 - 1 < x ∨ 65535 < y then .invalidConfiguration else .grid x y

/-- The number of tiles that cover `n` rows or columns, as an entry of a `dim3`, which is
unsigned. -/
def gridDim (n : ℤ) (tile : ℕ) : ℕ := ((int32 (n + tile - 1)).tdiv tile % 2 ^ 32).toNat

/-- `null`: is one of the matrices a null pointer? -/
def badGemmArgs (null : Bool) (M N K : ℤ) : Bool := null || M < 0 || N < 0 || K < 0

/-- The number of tiles that a loop over `n` columns goes through. -/
def tiles (n : ℤ) : ℕ := ((int32 (n + kTile - 1)).tdiv kTile).toNat

def launchGemm (null : Bool) (M N K : ℤ) : Launch :=
  if badGemmArgs null M N K then .invalidValue
  else if M = 0 ∨ N = 0 then .success
  else launchGrid (gridDim N kTile) (gridDim M kTile)

def launchGemmNaive (null : Bool) (M N K : ℤ) : Launch := launchGemm null M N K

def launchGemmTiled (null : Bool) (M N K : ℤ) : Launch := launchGemm null M N K

/-! ### Kernels -/

/-- `blockIdx.x` and `blockIdx.y`. -/
abbrev Block (x y : ℕ) := Fin x × Fin y

/-- A block, with `threadIdx.x` and `threadIdx.y`. -/
abbrev Thread (x y : ℕ) := Block x y × (Fin kTile × Fin kTile)

/-- The matrices in global memory and the tiles of each block in shared memory. -/
inductive Loc (x y : ℕ) where
  | A (i : ℤ)
  | B (i : ℤ)
  | C (i : ℤ)
  | As (block : Block x y) (r c : ℕ)
  | Bs (block : Block x y) (r c : ℕ)
  deriving DecidableEq

variable {R : Type} [Semiring R] {x y : ℕ}

abbrev Memory (R : Type) (x y : ℕ) := Loc x y → R

abbrev Op (R : Type) (x y : ℕ) := Access (Loc x y) fun _ => R

abbrev Kernel (R : Type) (x y : ℕ) (α : Type) := Prog (Op R x y) Access.Res α

/-- The index of the element at `r` and `c` in a matrix of the given width. -/
def flat (r width c : ℤ) : ℤ := int32 (int32 (r * width) + c)

def row (t : Thread x y) : ℤ := int32 (t.1.2 * kTile + t.2.2)

def col (t : Thread x y) : ℤ := int32 (t.1.1 * kTile + t.2.1)

def loadR (l : Loc x y) : Kernel R x y R := load l

def storeR (l : Loc x y) (v : R) : Kernel R x y Unit := store l v

variable (M N K : ℤ)

/-- One step of the naive sum. -/
def naiveStep (t : Thread x y) (k : ℕ) (acc : R) : Kernel R x y R := do
  let a ← loadR (.A (flat (row t) K k))
  let b ← loadR (.B (flat k N (col t)))
  return acc + a * b

def gemmNaiveKernel (t : Thread x y) : Kernel R x y Unit :=
  if M ≤ row t ∨ N ≤ col t then pure ()
  else do
    let acc ← loop (naiveStep N K t) 0 K.toNat 0
    storeR (.C (flat (row t) N (col t))) acc

/-- The element, or zero outside the matrix. -/
def loadOrZero (inside : Prop) [Decidable inside] (l : Loc x y) : Kernel R x y R :=
  if inside then loadR l else pure 0

/-- Each thread of a block loads one element of the tiles of `A` and `B`. -/
def loadTiles (t : Thread x y) (i : ℕ) : Kernel R x y Unit := do
  let ak := int32 (int32 (i * kTile) + t.2.1)
  let bk := int32 (int32 (i * kTile) + t.2.2)
  let a ← loadOrZero (row t < M ∧ ak < K) (.A (flat (row t) K ak))
  storeR (.As t.1 t.2.2 t.2.1) a
  let b ← loadOrZero (bk < K ∧ col t < N) (.B (flat bk N (col t)))
  storeR (.Bs t.1 t.2.2 t.2.1) b

def tileStep (t : Thread x y) (k : ℕ) (acc : R) : Kernel R x y R := do
  let a ← loadR (.As t.1 t.2.2 k)
  let b ← loadR (.Bs t.1 k t.2.1)
  return acc + a * b

/-- The body of the loop over the tiles after its first barrier. -/
def useTiles (t : Thread x y) (acc : R) : Kernel R x y R := do
  let acc ← loop (tileStep t) 0 kTile acc
  syncthreads
  return acc

def tile (t : Thread x y) (i : ℕ) (acc : R) : Kernel R x y R := do
  loadTiles M N K t i
  syncthreads
  useTiles t acc

def storeResult (t : Thread x y) (acc : R) : Kernel R x y Unit :=
  if row t < M ∧ col t < N then storeR (.C (flat (row t) N (col t))) acc else pure ()

def gemmTiledKernel (t : Thread x y) : Kernel R x y Unit := do
  let acc ← loop (tile M N K t) 0 (tiles K) 0
  storeResult M N t acc

/-- The runs of a kernel on a grid. -/
def runKernel (kernel : Thread x y → Kernel R x y Unit) (m : Memory R x y) :
    Transition.LTS (State (Thread x y) (Block x y) (Op R x y) Access.Res (Memory R x y))
      (Label (Thread x y) (Block x y)) :=
  grid Access.exec Prod.fst m kernel

/-! ### The reference -/

/-- `for (int i = 0; i < n; ++i)`. -/
def forLt {α : Type} (n : ℤ) (body : ℕ → α → α) (a : α) : α :=
  (List.range n.toNat).foldl (fun a i => body i a) a

def cpuGemm (A B C : ℤ → R) : ℤ → R :=
  forLt M (fun i C =>
    forLt N (fun j C =>
      Function.update C (flat i N j)
        (forLt K (fun k acc => acc + A (flat i K k) * B (flat k N j)) 0)) C) C

end Cudatest
