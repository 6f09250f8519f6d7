import ValidationSuite.Library.Simt

/-!
# PTX

A thread that executes PTX instructions on its registers and on global memory: loads of parameters
and special registers, integer arithmetic on 32 and 64 bits, comparisons, guarded jumps, and
accesses to 32-bit words. The instructions are named by their opcodes and types.
-/

namespace Ptx

open Simt

/-- The special registers of a grid with one dimension. -/
inductive Special where
  | ctaidX
  | ntidX
  | tidX
  deriving DecidableEq

/-- `r`, `rd` and `p` registers are given by their numbers, the destination first. -/
inductive Instr where
  | ldParamU64 (rd param : ℕ)
  | ldParamU32 (r param : ℕ)
  | movU32 (r : ℕ) (s : Special)
  | madLoS32 (r a b c : ℕ)
  | setpGeU32 (p a b : ℕ)
  | cvtaToGlobalU64 (rd a : ℕ)
  | mulWideU32 (rd a : ℕ) (imm : UInt32)
  | addS64 (rd a b : ℕ)
  | addS32 (r a : ℕ) (imm : UInt32)
  | ldGlobalU32 (r addr : ℕ)
  | stGlobalU32 (addr r : ℕ)
  /-- `@%p bra l` -/
  | braIf (p : ℕ) (l : String)
  | label (l : String)
  | ret
  deriving DecidableEq

/-- What the launch gives a thread. -/
structure Launch where
  param64 : ℕ → UInt64
  param32 : ℕ → UInt32
  special : Special → UInt32

structure Registers where
  p : ℕ → Bool := fun _ => false
  r : ℕ → UInt32 := fun _ => 0
  rd : ℕ → UInt64 := fun _ => 0

namespace Registers

def setP (s : Registers) (i : ℕ) (v : Bool) : Registers := { s with p := Function.update s.p i v }

def setR (s : Registers) (i : ℕ) (v : UInt32) : Registers := { s with r := Function.update s.r i v }

def setRd (s : Registers) (i : ℕ) (v : UInt64) : Registers :=
  { s with rd := Function.update s.rd i v }

end Registers

/-- Accesses to global memory, word by word, under the addresses of their first bytes. -/
abbrev Op := Access UInt64 fun _ => UInt32

abbrev Kernel (α : Type) := Prog Op Access.Res α

variable (code : List Instr) (launch : Launch)

/-- The place of a label. -/
def target (l : String) : ℕ := code.findIdx (· = .label l)

/-- What comes after an instruction: the next one, with the registers, or the end. -/
def step (pc : ℕ) (s : Registers) : Instr → Kernel (Option (ℕ × Registers))
  | .ldParamU64 rd param => pure (some (pc + 1, s.setRd rd (launch.param64 param)))
  | .ldParamU32 r param => pure (some (pc + 1, s.setR r (launch.param32 param)))
  | .movU32 r x => pure (some (pc + 1, s.setR r (launch.special x)))
  | .madLoS32 r a b c => pure (some (pc + 1, s.setR r (s.r a * s.r b + s.r c)))
  | .setpGeU32 p a b => pure (some (pc + 1, s.setP p (s.r b ≤ s.r a)))
  | .cvtaToGlobalU64 rd a => pure (some (pc + 1, s.setRd rd (s.rd a)))
  | .mulWideU32 rd a imm => pure (some (pc + 1, s.setRd rd ((s.r a).toUInt64 * imm.toUInt64)))
  | .addS64 rd a b => pure (some (pc + 1, s.setRd rd (s.rd a + s.rd b)))
  | .addS32 r a imm => pure (some (pc + 1, s.setR r (s.r a + imm)))
  | .ldGlobalU32 r addr => do return some (pc + 1, s.setR r (← load (s.rd addr)))
  | .stGlobalU32 addr r => do
    store (s.rd addr) (s.r r)
    return some (pc + 1, s)
  | .braIf p l => pure (some (if s.p p then target code l else pc + 1, s))
  | .label _ => pure (some (pc + 1, s))
  | .ret => pure none

/-- At most so many instructions, from the place `pc` on. -/
def run : ℕ → ℕ → Registers → Kernel Unit
  | 0, _, _ => pure ()
  | fuel + 1, pc, s =>
    match code[pc]? with
    | none => pure ()
    | some i => do
      match ← step code launch pc s i with
      | none => pure ()
      | some (pc, s) => run fuel pc s

end Ptx
