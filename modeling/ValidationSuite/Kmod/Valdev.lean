import ValidationSuite.Library.ByteString
import ValidationSuite.Library.Pool
import ValidationSuite.Library.SparseFile
import Mathlib.Data.Int.Basic

/-!
# The device

`struct valdev_state` and the file operations of `kmod/valdev.c`, cut at the points where another
client can get in between. A section under `vd.lock` is one step; the user copies are steps of their
own. Values of type `loff_t` are integers, those of type `size_t` and `u32` naturals, and where the
driver converts or adds them the result is reduced to the width of its type.
-/

namespace Kmod

open Transition SparseFile

/-! ### Numbers -/

/-- `VALDEV_BUF_SIZE`. -/
def bufSize : ℕ := 4096

/-- `VALDEV_ABI_VERSION`. -/
def abiVersion : UInt32 := (1 : UInt32) <<< 16 ||| 0

/-- The conversion to `size_t`. -/
def toSize (x : ℤ) : ℕ := (x % 2 ^ 64).toNat

/-- The conversion to `loff_t`. -/
def toLoff (x : ℤ) : ℤ := (x + 2 ^ 63) % 2 ^ 64 - 2 ^ 63

/-- The conversion to `u32`. -/
def toU32 (x : ℤ) : ℕ := (x % 2 ^ 32).toNat

/-- The command number `_IOC(dir, VALDEV_IOC_MAGIC, nr, size)`. -/
def ioc (dir nr size : UInt32) : UInt32 :=
  dir <<< 30 ||| size <<< 16 ||| 'V'.toNat.toUInt32 <<< 8 ||| nr

def iocGetVersion : UInt32 := ioc 2 1 4

def iocAddCounter : UInt32 := ioc 3 2 8

def iocReset : UInt32 := ioc 0 3 0

def iocGetStats : UInt32 := ioc 2 4 24

inductive Errno where
  | efault
  | enospc
  | enomem
  | einval
  | enotty
  deriving DecidableEq

/-- `struct valdev_stats`. -/
structure ValdevStats where
  counter : UInt64 := 0
  opens : UInt64 := 0
  bufLen : ℕ := 0
  reserved : ℕ := 0
  deriving DecidableEq

/-! ### The state -/

/-- `struct valdev_state`, without its lock. -/
structure Valdev where
  buf : ByteString := List.replicate bufSize 0
  len : ℕ := 0
  counter : UInt64 := 0
  opens : UInt64 := 0
  deriving DecidableEq

namespace Valdev

variable (v : Valdev)

/-- `count` and the snapshot in `valdev_read`. -/
def clamp (pos : ℤ) (count : ℕ) : ℕ := min count (toSize (v.len - toSize pos))

def kmemdup (pos : ℤ) (count : ℕ) : ByteString := slice pos.toNat count v.buf

/-- The section of `valdev_write`: the copy, and the offset after it. -/
def memcpy (pos : ℤ) (tmp : ByteString) : Valdev × ℤ :=
  let v := { v with buf := splice pos.toNat tmp v.buf }
  let pos := toLoff (pos + tmp.length)
  (if pos > v.len then { v with len := toU32 pos } else v, pos)

def addCounter (delta : UInt64) : Valdev := { v with counter := v.counter + delta }

def reset : Valdev := { v with counter := 0, len := 0, buf := List.replicate bufSize 0 }

end Valdev

/-! ### What the sections do, as requests -/

/-- What a section under `vd.lock` is asked for. -/
inductive Request where
  | read (pos : ℤ) (count : ℕ)
  | write (pos : ℤ) (data : ByteString)
  | add (delta : UInt64)
  | reset
  | stat
  | length
  deriving DecidableEq

/-- What it answers. -/
inductive Response where
  | bytes (data : ByteString)
  | count (n : ℕ)
  | counter (c : UInt64)
  | done
  | stat (c : UInt64) (n : ℕ)
  | length (n : ℕ)
  | noSpace
  deriving DecidableEq

/-- The elements of `buf` that a copy touches. -/
structure Access where
  offset : ℤ
  size : ℕ
  deriving DecidableEq

/-- An entry of the log: a section of the call number `call`. -/
structure Entry where
  call : ℕ
  request : Request
  response : Response
  deriving DecidableEq

/-- The device, with the accesses to `buf` and the sections so far as history variables. -/
structure Store where
  dev : Valdev := {}
  accesses : List Access := []
  log : List Entry := []

def Store.withDev (s : Store) (dev : Valdev) : Store := { s with dev := dev }

def Store.touch (s : Store) (offset : ℤ) (size : ℕ) : Store :=
  { s with accesses := s.accesses ++ [⟨offset, size⟩] }

/-! ### Calls -/

/-- A system call on the device. The data of a write and the argument of an `ioctl` are what the
copy from user space reads, if it succeeds. -/
inductive Op where
  | open
  | read (count : ℕ)
  | write (data : ByteString)
  | llseek (off : ℤ) (whence : ℤ)
  | ioctl (cmd : UInt32) (arg : UInt64)
  deriving DecidableEq

/-- What a call that succeeds returns or copies out. -/
inductive Value where
  | done
  | read (ret : ℕ) (data : ByteString)
  | written (n : ℕ)
  | offset (pos : ℤ)
  | version (n : UInt32)
  | counter (c : UInt64)
  | stats (st : ValdevStats)
  deriving DecidableEq

/-- How far a call has come. -/
inductive Phase where
  | entered
  /-- `valdev_read` after its section -/
  | snapped (count : ℕ) (snap : ByteString)
  /-- `valdev_write` after `memdup_user` -/
  | staged (tmp : ByteString)
  /-- `VALDEV_IOC_ADD_COUNTER` after the copy-in -/
  | loaded (delta : UInt64)
  /-- and after its section -/
  | added (value : UInt64)
  /-- `VALDEV_IOC_GET_STATS` after its section -/
  | sampled (counter : UInt64) (bufLen : ℕ)
  /-- and after reading `opens` -/
  | gathered (st : ValdevStats)
  /-- `valdev_llseek` with its base -/
  | based (base off : ℤ)
  | returned (ret : Except Errno Value)

/-- A call: its own copy of the file offset, at first `start`; the number of bytes each of the
user copies leaves uncopied, and whether its allocation succeeds; and its section, once it is
through it, as a history variable. -/
structure Call where
  op : Op
  start : ℤ
  inLeft : ℕ := 0
  outLeft : ℕ := 0
  alloc : Bool := true
  pos : ℤ := start
  phase : Phase := .entered
  entry : Option (Request × Response) := none

namespace Call

variable (x : Call)

def finish (ret : Except Errno Value) : Call := { x with phase := .returned ret }

/-- `copy_to_user`, as the last thing a call does. -/
def copyOut (value : Value) : Call :=
  x.finish (if x.outLeft ≠ 0 then .error .efault else .ok value)

def goto (phase : Phase) : Call := { x with phase := phase }

def moveTo (pos : ℤ) : Call := { x with pos := pos }

/-- The section of the call. -/
def applied (request : Request) (response : Response) : Call :=
  { x with entry := some (request, response) }

@[simp] lemma phase_finish (ret : Except Errno Value) : (x.finish ret).phase = .returned ret := rfl

@[simp] lemma phase_goto (phase : Phase) : (x.goto phase).phase = phase := rfl

end Call

def Store.record (s : Store) (i : ℕ) (request : Request) (response : Response) : Store :=
  { s with log := s.log ++ [⟨i, request, response⟩] }

/-- The kernel's `vfs_setpos`, from the offset of the file, the new offset and the largest allowed
one: what it returns, and the offset of the file after it. -/
structure VfsSetpos where
  run : ℤ → ℤ → ℤ → Except Errno ℤ × ℤ
  invalid : ∀ fpos offset maxsize, offset < 0 ∨ maxsize < offset →
    run fpos offset maxsize = (.error .einval, fpos)
  valid : ∀ fpos offset maxsize, 0 ≤ offset → offset ≤ maxsize →
    run fpos offset maxsize = (.ok offset, offset)

/-! ### The operations -/

variable (setpos : VfsSetpos) (i : ℕ) (s : Store) (x : Call)

/-- `valdev_read` up to its `mutex_unlock`. -/
def readSection (count : ℕ) : Store × Call :=
  if count = 0 then (s, x.finish (.ok (.read 0 [])))
  else if x.pos < 0 ∨ x.pos ≥ s.dev.len then
    (s.record i (.read x.start count) (.bytes []),
      (x.applied (.read x.start count) (.bytes [])).finish (.ok (.read 0 [])))
  else
    let n := s.dev.clamp x.pos count
    if x.alloc then
      let snap := s.dev.kmemdup x.pos n
      ((s.touch x.pos n).record i (.read x.start count) (.bytes snap),
        (x.applied (.read x.start count) (.bytes snap)).goto (.snapped n snap))
    else (s, x.finish (.error .enomem))

/-- The rest of `valdev_read`. -/
def readCopyOut (count : ℕ) (snap : ByteString) : Call :=
  if x.outLeft ≠ 0 then x.finish (.error .efault)
  else (x.moveTo (toLoff (x.pos + count))).finish (.ok (.read count snap))

/-- `valdev_write` up to its `mutex_lock`, with `memdup_user`. -/
def writeStage (data : ByteString) : Call :=
  if data.length = 0 then x.finish (.ok (.written 0))
  else if x.pos < 0 ∨ x.pos ≥ bufSize then x.finish (.error .enospc)
  else
    let n := min data.length (toSize (bufSize - toSize x.pos))
    if x.alloc then
      if x.inLeft ≠ 0 then x.finish (.error .efault) else x.goto (.staged (data.take n))
    else x.finish (.error .enomem)

/-- The rest of `valdev_write`. -/
def writeSection (data tmp : ByteString) : Store × Call :=
  let (dev, pos) := s.dev.memcpy x.pos tmp
  (((s.withDev dev).touch x.pos tmp.length).record i (.write x.start data) (.count tmp.length),
    ((x.applied (.write x.start data) (.count tmp.length)).moveTo pos).finish
      (.ok (.written tmp.length)))

/-- `valdev_ioctl` up to its first section or user copy. -/
def ioctlEnter (cmd : UInt32) (arg : UInt64) : Store × Call :=
  if cmd = iocGetVersion then (s, x.copyOut (.version abiVersion))
  else if cmd = iocAddCounter then
    (s, if x.inLeft ≠ 0 then x.finish (.error .efault) else x.goto (.loaded arg))
  else if cmd = iocReset then
    (((s.withDev s.dev.reset).touch 0 bufSize).record i .reset .done,
      (x.applied .reset .done).finish (.ok .done))
  else if cmd = iocGetStats then
    (s.record i .stat (.stat s.dev.counter s.dev.len),
      (x.applied .stat (.stat s.dev.counter s.dev.len)).goto
        (.sampled s.dev.counter s.dev.len))
  else (s, x.finish (.error .enotty))

/-- The section of `VALDEV_IOC_ADD_COUNTER`. -/
def addSection (delta : UInt64) : Store × Call :=
  let dev := s.dev.addCounter delta
  ((s.withDev dev).record i (.add delta) (.counter dev.counter),
    (x.applied (.add delta) (.counter dev.counter)).goto (.added dev.counter))

/-- `valdev_llseek` up to its `check_add_overflow`. -/
def llseekBase (off whence : ℤ) : Store × Call :=
  if whence = 0 then (s, x.goto (.based 0 off))
  else if whence = 1 then (s, x.goto (.based x.pos off))
  else if whence = 2 then
    (s.record i .length (.length s.dev.len),
      (x.applied .length (.length s.dev.len)).goto (.based s.dev.len off))
  else (s, x.finish (.error .einval))

/-- The rest of `valdev_llseek`. -/
def llseekSet (base off : ℤ) : Call :=
  if toLoff (base + off) ≠ base + off then x.finish (.error .einval)
  else
    let (ret, pos) := setpos.run x.pos (toLoff (base + off)) bufSize
    (x.moveTo pos).finish (ret.map .offset)

/-- The next step of the call number `i`, if it has not returned. -/
def step : Option (Store × Call) :=
  match x.phase, x.op with
  | .entered, .open =>
    some (s.withDev { s.dev with opens := s.dev.opens + 1 }, x.finish (.ok .done))
  | .entered, .read count => some (readSection i s x count)
  | .snapped count snap, _ => some (s, readCopyOut x count snap)
  | .entered, .write data => some (s, writeStage x data)
  | .staged tmp, .write data => some (writeSection i s x data tmp)
  | .entered, .ioctl cmd arg => some (ioctlEnter i s x cmd arg)
  | .loaded delta, _ => some (addSection i s x delta)
  | .added value, _ => some (s, x.copyOut (.counter value))
  | .sampled counter bufLen, _ =>
    some (s, x.goto (.gathered { counter := counter, opens := s.dev.opens, bufLen := bufLen }))
  | .gathered st, _ => some (s, x.copyOut (.stats st))
  | .entered, .llseek off whence => some (llseekBase i s x off whence)
  | .based base off, _ => some (s, llseekSet setpos x base off)
  | _, _ => none

/-- The clients of the device: any number of calls, each with any arguments, any offset and any
success of its copies and its allocation. -/
def valdev : System Store Call where
  init s := s = {}
  enter x := x.phase = .entered ∧ x.pos = x.start ∧ x.entry = none
  act i s x s' x' := step setpos i s x = some (s', x')

end Kmod
