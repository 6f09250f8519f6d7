import ValidationSuite.Dtest.Rpc
import ValidationSuite.Library.Descriptors
import ValidationSuite.Library.Pool

/-!
# Running a command

`run_process` of `dtest/src/process.cpp` in its system calls on descriptors: the three pipes, `fork`,
what the child does up to its `exec`, and what the caller closes on each way out. Any number of calls
run at the same time on the threads of the agent and share its descriptor table; each child has a
copy of it. What the supervising loop reads and how the command ends is taken as given.
-/

namespace Dtest.Process

open ByteString Descriptors Transition

/-! ### Descriptors -/

/-- `out_pipe`, `err_pipe` and `exec_pipe`. -/
inductive Stream where
  | out
  | err
  | exec
  deriving DecidableEq

/-- What a descriptor refers to: an end of a pipe of the `call`th call of `run_process`, or something
else. -/
inductive File where
  | other (n : ℕ)
  | devNull
  | readEnd (call : ℕ) (pipe : Stream)
  | writeEnd (call : ℕ) (pipe : Stream)
  deriving DecidableEq

/-- The call whose pipe it is. -/
def File.call? : File → Option ℕ
  | .other _ | .devNull => none
  | .readEnd call _ | .writeEnd call _ => some call

/-- The two descriptors of a pipe. -/
structure Pipe where
  rd : Handle File
  wr : Handle File

def Pipe.handles (p : Pipe) : List (Handle File) := [p.rd, p.wr]

structure Pipes where
  out : Pipe
  err : Pipe
  exec : Pipe

def Pipes.handles (p : Pipes) : List (Handle File) :=
  p.out.handles ++ p.err.handles ++ p.exec.handles

/-- What `pipe()` returns for the pipe `s` of the `i`th call. -/
def newPipe (t : Table File) (i : ℕ) (s : Stream) : Pipe where
  rd := (t.lowest, ⟨.readEnd i s, false⟩)
  wr := ((t.add ⟨.readEnd i s, false⟩).lowest, ⟨.writeEnd i s, false⟩)

/-- A descriptor after `fcntl(fd, F_SETFD, FD_CLOEXEC)`. -/
def markHandle (h : Handle File) : Handle File := (h.1, { h.2 with cloexec := true })

/-! ### What the system says -/

inductive WaitStatus where
  | exited (code : ℤ)
  | signaled (signal : ℤ)

/-- What the loop over `read_ready` and the code after it learn of the command. -/
structure Supervision where
  out : ByteString := []
  err : ByteString := []
  truncated : Bool := false
  timedOut : Bool := false
  status : WaitStatus := .exited 0

/-- How the system calls of one call of `run_process` turn out: an `errno` where one fails. -/
structure Outcomes where
  pipe : Stream → Option ℤ := fun _ => none
  fork : Option ℤ := none
  /-- whether the child can open `/dev/null` -/
  devNull : Bool := true
  exec : Option ℤ := none
  /-- whether the read of `exec_pipe` fails, other than with `EINTR` -/
  readFails : Bool := false
  supervision : Supervision := {}
  durationMs : ℕ := 0

/-! ### The child -/

inductive ChildOp where
  | nullStdin
  | dup2 (old new : ℕ)
  | close (n : ℕ)
  deriving DecidableEq

/-- `/dev/null` becomes the standard input, if it can be opened. -/
def ChildOp.run (o : Outcomes) : ChildOp → Table File → Table File
  | .nullStdin, t => if o.devNull then (t.add ⟨.devNull, false⟩).dup2 t.lowest 0 else t
  | .dup2 old new, t => t.dup2 old new
  | .close n, t => t.close n

inductive ChildPhase where
  /-- before `exec`, with these calls to make -/
  | setup (ops : List ChildOp)
  /-- `exec` has failed -/
  | failed (errno : ℤ)
  /-- has written the `errno` -/
  | dying
  /-- the command runs -/
  | command
  | exited
  deriving DecidableEq

/-- The child of a call. Its table is also the one of the processes that descend from its command. -/
structure Child where
  phase : ChildPhase
  fds : Table File
  /-- `exec_pipe[1]` -/
  status : ℕ

/-- Has it got past its `exec`? -/
def Child.settled (c : Child) : Prop := c.phase = .command ∨ c.phase = .exited

/-- The processes of a command can duplicate and close what they have, and open other files. -/
def Inherits (t t' : Table File) : Prop :=
  ∀ n d, t'.get n = some d →
    d.file.call? = none ∨ ∃ m e, t.get m = some e ∧ e.file = d.file

/-- What may be left of its descriptors once the child is gone: a command has descendants. -/
def Child.Leaves (c : Child) (t : Table File) : Prop :=
  match c.phase with
  | .command | .exited => Inherits c.fds t
  | .setup _ | .failed _ | .dying => t = {}

/-- What the child does between `fork` and `exec`. -/
def childOps (p : Pipes) : List ChildOp :=
  [.nullStdin, .dup2 p.out.wr.1 1, .dup2 p.err.wr.1 2,
    .close p.out.rd.1, .close p.err.rd.1, .close p.exec.rd.1]

/-! ### The caller -/

/-- How far a call of `run_process` has got in its caller, with its local variables. -/
inductive Phase where
  | started
  | piped (out : Pipe)
  | piped2 (out err : Pipe)
  /-- `exec_pipe[1]` does not have `FD_CLOEXEC` yet -/
  | unmarked (p : Pipes)
  | marked (p : Pipes)
  /-- `fork` has failed, with these descriptors to close -/
  | abandoning (todo : List (Handle File)) (r : RunOutput)
  /-- with these write ends to close before `exec_pipe` is read -/
  | forked (p : Pipes) (todo : List (Handle File))
  /-- has read this `errno`, or none -/
  | answered (p : Pipes) (errno : Option ℤ)
  /-- waits for the child that could not `exec` -/
  | reaping (p : Pipes) (errno : ℤ)
  | launched (p : Pipes)
  | outMarked (p : Pipes)
  | supervising (p : Pipes)
  /-- has waited for the child, with these descriptors to close -/
  | closing (todo : List (Handle File)) (r : RunOutput)
  /-- has returned, and left these descriptors open -/
  | returned (r : RunOutput) (left : List (Handle File))

/-- The descriptors that the call has open in the agent. -/
def Phase.owned : Phase → List (Handle File)
  | .started => []
  | .piped out => out.handles
  | .piped2 out err => out.handles ++ err.handles
  | .unmarked p | .marked p => p.handles
  | .abandoning todo _ | .closing todo _ => todo
  | .forked p todo => todo ++ [p.exec.rd, p.out.rd, p.err.rd]
  | .answered p _ => [p.exec.rd, p.out.rd, p.err.rd]
  | .reaping p _ | .launched p | .outMarked p | .supervising p => [p.out.rd, p.err.rd]
  | .returned _ left => left

/-- The table of the agent, the children by their calls, and what is in the `exec_pipe`s. -/
structure World where
  fds : Table File
  child : ℕ → Option Child := fun _ => none
  status : ℕ → Option ℤ := fun _ => none

/-- Some process has the file open. -/
def World.Holds (w : World) (f : File) : Prop :=
  (∃ n d, w.fds.get n = some d ∧ d.file = f) ∨
    ∃ j c n d, w.child j = some c ∧ c.fds.get n = some d ∧ d.file = f

def World.setChild (w : World) (i : ℕ) (c : Child) : World :=
  { w with child := Function.update w.child i (some c) }

/-! ### What a call returns -/

/-- The first check of `run_process`. -/
def emptyArgv (spec : RunSpec) : Bool :=
  match spec.argv with
  | [] => true
  | argv0 :: _ => argv0.isEmpty

variable (strerror : ℤ → ByteString) (spec : RunSpec) (o : Outcomes)

def failure (message : ByteString) : RunOutput :=
  { message := message, durationMs := o.durationMs }

def pipeFailed (errno : ℤ) : RunOutput := failure o (lit "pipe failed: " ++ strerror errno)

def forkFailed (errno : ℤ) : RunOutput := failure o (lit "fork failed: " ++ strerror errno)

def cannotExecute (errno : ℤ) : RunOutput :=
  failure o (lit "cannot execute '" ++ spec.argv.headD [] ++ lit "': " ++ strerror errno)

/-- The output of a command that was launched. -/
def supervised : RunOutput :=
  let v := o.supervision
  let r : RunOutput :=
    { out := v.out, err := v.err, truncated := v.truncated, durationMs := o.durationMs }
  if v.timedOut then
    { r with
      outcome := .timedOut
      message := lit "exceeded timeout of " ++ ofNat spec.timeoutMs ++ lit " ms" }
  else match v.status with
    | .exited code => { r with outcome := .exited, exitCode := code }
    | .signaled signal => { r with outcome := .signaled, termSignal := signal }

/-! ### The steps -/

/-- The steps of the `i`th call in its caller. -/
inductive CallerStep (i : ℕ) : World → Phase → World → Phase → Prop
  | refuse {w : World} (hargv : emptyArgv spec = true) :
      CallerStep i w .started w (.returned (failure o (lit "empty argv")) [])
  | pipeOut {w : World} (hargv : emptyArgv spec = false) (hpipe : o.pipe .out = none) :
      CallerStep i w .started { w with fds := w.fds.pipe (.readEnd i .out) (.writeEnd i .out) }
        (.piped (newPipe w.fds i .out))
  | pipeOutFails {w : World} {e : ℤ} (hargv : emptyArgv spec = false)
      (hpipe : o.pipe .out = some e) :
      CallerStep i w .started w (.returned (pipeFailed strerror o e) [])
  | pipeErr {w : World} {out : Pipe} (hpipe : o.pipe .err = none) :
      CallerStep i w (.piped out) { w with fds := w.fds.pipe (.readEnd i .err) (.writeEnd i .err) }
        (.piped2 out (newPipe w.fds i .err))
  | pipeErrFails {w : World} {out : Pipe} {e : ℤ} (hpipe : o.pipe .err = some e) :
      CallerStep i w (.piped out) w (.returned (pipeFailed strerror o e) out.handles)
  | pipeExec {w : World} {out err : Pipe} (hpipe : o.pipe .exec = none) :
      CallerStep i w (.piped2 out err)
        { w with fds := w.fds.pipe (.readEnd i .exec) (.writeEnd i .exec) }
        (.unmarked ⟨out, err, newPipe w.fds i .exec⟩)
  | pipeExecFails {w : World} {out err : Pipe} {e : ℤ} (hpipe : o.pipe .exec = some e) :
      CallerStep i w (.piped2 out err) w
        (.returned (pipeFailed strerror o e) (out.handles ++ err.handles))
  | mark {w : World} {p : Pipes} :
      CallerStep i w (.unmarked p) { w with fds := w.fds.mark p.exec.wr.1 }
        (.marked { p with exec.wr := markHandle p.exec.wr })
  | fork {w : World} {p : Pipes} (hfork : o.fork = none) :
      CallerStep i w (.marked p) (w.setChild i ⟨.setup (childOps p), w.fds, p.exec.wr.1⟩)
        (.forked p [p.out.wr, p.err.wr, p.exec.wr])
  | forkFails {w : World} {p : Pipes} {e : ℤ} (hfork : o.fork = some e) :
      CallerStep i w (.marked p) w (.abandoning p.handles (forkFailed strerror o e))
  | abandon {w : World} {h : Handle File} {todo : List (Handle File)} {r : RunOutput} :
      CallerStep i w (.abandoning (h :: todo) r) { w with fds := w.fds.close h.1 }
        (.abandoning todo r)
  | abandoned {w : World} {r : RunOutput} :
      CallerStep i w (.abandoning [] r) w (.returned r [])
  | closeWrite {w : World} {p : Pipes} {h : Handle File} {todo : List (Handle File)} :
      CallerStep i w (.forked p (h :: todo)) { w with fds := w.fds.close h.1 } (.forked p todo)
  | readErrno {w : World} {p : Pipes} {e : ℤ} (hstatus : w.status i = some e) :
      CallerStep i w (.forked p []) w (.answered p (some e))
  /-- No data, and nobody can write any. -/
  | readEof {w : World} {p : Pipes} (hstatus : w.status i = none)
      (heof : ¬ w.Holds (.writeEnd i .exec)) : CallerStep i w (.forked p []) w (.answered p none)
  | readFails {w : World} {p : Pipes} (hread : o.readFails = true) :
      CallerStep i w (.forked p []) w (.answered p none)
  | closeStatus {w : World} {p : Pipes} :
      CallerStep i w (.answered p none) { w with fds := w.fds.close p.exec.rd.1 } (.launched p)
  | closeErrno {w : World} {p : Pipes} {e : ℤ} :
      CallerStep i w (.answered p (some e)) { w with fds := w.fds.close p.exec.rd.1 }
        (.reaping p e)
  | reap {w : World} {p : Pipes} {e : ℤ} {c : Child} (hc : w.child i = some c)
      (hexited : c.phase = .exited) :
      CallerStep i w (.reaping p e) w
        (.closing [p.out.rd, p.err.rd] (cannotExecute strerror spec o e))
  | markOut {w : World} {p : Pipes} :
      CallerStep i w (.launched p) { w with fds := w.fds.mark p.out.rd.1 }
        (.outMarked { p with out.rd := markHandle p.out.rd })
  | markErr {w : World} {p : Pipes} :
      CallerStep i w (.outMarked p) { w with fds := w.fds.mark p.err.rd.1 }
        (.supervising { p with err.rd := markHandle p.err.rd })
  /-- The loop ends, the group is killed and the child reaped. -/
  | supervise {w : World} {p : Pipes} {c : Child} {fds : Table File} (hc : w.child i = some c)
      (hfds : c.Leaves fds) :
      CallerStep i w (.supervising p) (w.setChild i { c with phase := .exited, fds := fds })
        (.closing [p.out.rd, p.err.rd] (supervised spec o))
  | close {w : World} {h : Handle File} {todo : List (Handle File)} {r : RunOutput} :
      CallerStep i w (.closing (h :: todo) r) { w with fds := w.fds.close h.1 } (.closing todo r)
  | finish {w : World} {r : RunOutput} : CallerStep i w (.closing [] r) w (.returned r [])

/-- The steps of the child of the `i`th call. -/
inductive ChildStep (i : ℕ) : World → World → Prop
  | op {w : World} {c : Child} {op : ChildOp} {ops : List ChildOp} (hc : w.child i = some c)
      (hphase : c.phase = .setup (op :: ops)) :
      ChildStep i w (w.setChild i { c with phase := .setup ops, fds := op.run o c.fds })
  | exec {w : World} {c : Child} (hc : w.child i = some c) (hphase : c.phase = .setup [])
      (hexec : o.exec = none) :
      ChildStep i w (w.setChild i { c with phase := .command, fds := c.fds.exec })
  | execFails {w : World} {c : Child} {e : ℤ} (hc : w.child i = some c)
      (hphase : c.phase = .setup []) (hexec : o.exec = some e) :
      ChildStep i w (w.setChild i { c with phase := .failed e })
  /-- The `errno` goes where `exec_pipe[1]` leads. -/
  | write {w : World} {c : Child} {e : ℤ} (hc : w.child i = some c) (hphase : c.phase = .failed e) :
      ChildStep i w
        { w.setChild i { c with phase := .dying } with
          status :=
            if (c.fds.get c.status).map Entry.file = some (.writeEnd i .exec) then
              Function.update w.status i (some e)
            else w.status }
  | die {w : World} {c : Child} (hc : w.child i = some c) (hphase : c.phase = .dying) :
      ChildStep i w (w.setChild i { c with phase := .exited, fds := {} })
  /-- The command, and what descends from it, goes about its business. -/
  | command {w : World} {c : Child} {phase : ChildPhase} {fds : Table File}
      (hc : w.child i = some c) (hphase : c.settled) (hfds : Inherits c.fds fds)
      (hnext : phase = c.phase ∨ phase = .exited) :
      ChildStep i w (w.setChild i { c with phase := phase, fds := fds })

/-- A call of `run_process`. -/
structure Run where
  spec : RunSpec
  outcomes : Outcomes := {}
  phase : Phase := .started

/-- Calls of `run_process` on the threads of an agent that has the files `init` open. -/
def processes (init : Table ℕ) : System World Run where
  init w := w = { fds := init.map .other }
  enter x := x.phase = .started
  act i w x w' x' :=
    (∃ phase, CallerStep strerror x.spec x.outcomes i w x.phase w' phase ∧
        x' = { x with phase := phase }) ∨
      ChildStep x.outcomes i w w' ∧ x' = x

/-! ### Single steps -/

section Steps

variable {strerror} {init : Table ℕ} {w w' : World} {procs : List Run} {x : Run} {ph : Phase}

variable (strerror init) in
lemma pool_start : (processes strerror init).lts.Reachable ⟨{ fds := init.map .other }, []⟩ :=
  .init ⟨rfl, rfl⟩

lemma pool_enter (h : (processes strerror init).lts.Reachable ⟨w, procs⟩) (spec : RunSpec)
    (o : Outcomes) :
    (processes strerror init).lts.Reachable ⟨w, procs ++ [{ spec := spec, outcomes := o }]⟩ :=
  h.step (l := .enter) (.enter rfl)

/-- The caller of the call `i`. -/
lemma pool_caller (i : ℕ) (h : (processes strerror init).lts.Reachable ⟨w, procs⟩)
    (hi : procs[i]? = some x)
    (hstep : CallerStep strerror x.spec x.outcomes i w x.phase w' ph) :
    (processes strerror init).lts.Reachable ⟨w', procs.set i { x with phase := ph }⟩ :=
  h.step (l := .act i) (.act hi (.inl ⟨ph, hstep, rfl⟩))

/-- Its child. -/
lemma pool_child (i : ℕ) (h : (processes strerror init).lts.Reachable ⟨w, procs⟩)
    (hi : procs[i]? = some x) (hstep : ChildStep x.outcomes i w w') :
    (processes strerror init).lts.Reachable ⟨w', procs.set i x⟩ :=
  h.step (l := .act i) (.act hi (.inr ⟨hstep, rfl⟩))

end Steps

end Dtest.Process
