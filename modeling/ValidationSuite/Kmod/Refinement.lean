import ValidationSuite.Kmod.Valdev
import ValidationSuite.Library.Sequential

/-!
# The device as a file with a counter

What the device is for: a file of at most `bufSize` bytes, sparse, and a counter that wraps. The
sections of the driver, in the order in which they take `vd.lock`, do to the device what the
sequential object does to such a file, and answer what it answers.
-/

namespace Kmod

open Transition SparseFile

/-! ### The sequential object -/

structure CounterFile where
  bytes : ByteString := []
  counter : UInt64 := 0
  length_le : bytes.length ≤ bufSize := by decide

namespace CounterFile

lemma length_write_le (f : CounterFile) {pos : ℤ} (hpos : 0 ≤ pos ∧ pos < bufSize)
    (data : ByteString) :
    (write 0 pos.toNat (data.take (bufSize - pos.toNat)) f.bytes).length ≤ bufSize := by
  have hle := f.length_le
  rw [length_write, List.length_take]
  omega

/-- How the file answers a request. A write is cut at the capacity. -/
def apply (f : CounterFile) : Request → CounterFile × Response
  | .read pos count => (f, .bytes (if pos < 0 then [] else slice pos.toNat count f.bytes))
  | .write pos data =>
    if h : 0 ≤ pos ∧ pos < bufSize then
      ({ f with
          bytes := write 0 pos.toNat (data.take (bufSize - pos.toNat)) f.bytes
          length_le := f.length_write_le h data },
        .count (data.take (bufSize - pos.toNat)).length)
    else (f, .noSpace)
  | .add delta => ({ f with counter := f.counter + delta }, .counter (f.counter + delta))
  | .reset => ({}, .done)
  | .stat => (f, .stat f.counter f.bytes.length)
  | .length => (f, .length f.bytes.length)

/-- The sequential object, at first empty. -/
def object : SeqObject CounterFile Request Response where
  init := {}
  apply := apply

end CounterFile

/-- The device `v` shows the file `f`: its bytes, and nothing but zeros behind them. -/
structure Represents (v : Valdev) (f : CounterFile) : Prop where
  buf_eq : v.buf = padded 0 bufSize f.bytes
  len_eq : v.len = f.bytes.length
  counter_eq : v.counter = f.counter

lemma represents_init : Represents {} {} :=
  ⟨padded_nil.symm, rfl, rfl⟩

/-! ### Arithmetic of the bounds -/

lemma toSize_of_nonneg {x : ℤ} (h : 0 ≤ x) (hx : x < 2 ^ 64) : (toSize x : ℤ) = x := by
  rw [toSize, Int.emod_eq_of_lt h hx, Int.toNat_of_nonneg h]

lemma toLoff_of_small {x : ℤ} (h : 0 ≤ x) (hx : x < 2 ^ 63) : toLoff x = x := by
  rw [toLoff, Int.emod_eq_of_lt (by omega) (by omega)]
  omega

lemma toU32_of_small {x : ℤ} (h : 0 ≤ x) (hx : x < 2 ^ 32) : (toU32 x : ℤ) = x := by
  rw [toU32, Int.emod_eq_of_lt h hx, Int.toNat_of_nonneg h]

/-- What is left of `n` from an offset within it, as the driver computes it. -/
lemma toSize_sub {n : ℕ} {pos : ℤ} (h : 0 ≤ pos) (hpos : pos < n) (hn : n ≤ bufSize) :
    toSize (n - toSize pos) = n - pos.toNat := by
  have hb : bufSize = 4096 := rfl
  have h1 := toSize_of_nonneg h (by omega)
  have h2 : (toSize (n - toSize pos) : ℤ) = n - toSize pos :=
    toSize_of_nonneg (by omega) (by omega)
  omega

/-! ### The sections -/

namespace Represents

variable {v : Valdev} {f : CounterFile}

lemma len_le (h : Represents v f) : v.len ≤ bufSize := by
  rw [h.len_eq]
  exact f.length_le

lemma clamp_eq (h : Represents v f) {pos : ℤ} (hpos : 0 ≤ pos) (hlt : pos < v.len) (count : ℕ) :
    v.clamp pos count = min count (f.bytes.length - pos.toNat) := by
  rw [Valdev.clamp, toSize_sub hpos hlt h.len_le, h.len_eq]

/-- The snapshot of a read is the slice of the file. -/
lemma kmemdup_eq (h : Represents v f) {pos : ℤ} (hpos : 0 ≤ pos) (hlt : pos < v.len) (count : ℕ) :
    v.kmemdup pos (v.clamp pos count) = slice pos.toNat count f.bytes := by
  rw [h.clamp_eq hpos hlt, Valdev.kmemdup, h.buf_eq, slice_padded, slice_min]
  have := h.len_eq
  omega

lemma apply_write {pos : ℤ} (hpos : 0 ≤ pos ∧ pos < bufSize) (data : ByteString) :
    (f.apply (.write pos data)).1.bytes =
        write 0 pos.toNat (data.take (bufSize - pos.toNat)) f.bytes ∧
      (f.apply (.write pos data)).1.counter = f.counter ∧
      (f.apply (.write pos data)).2 = .count (data.take (bufSize - pos.toNat)).length := by
  simp only [CounterFile.apply, dif_pos hpos, and_self]

/-- The copy of a write is the write to the file. -/
lemma memcpy (h : Represents v f) {pos : ℤ} (hpos : 0 ≤ pos ∧ pos < bufSize) (data : ByteString)
    {tmp : ByteString} (htmp : tmp = data.take (bufSize - pos.toNat)) :
    Represents (v.memcpy pos tmp).1 (f.apply (.write pos data)).1 ∧
      (v.memcpy pos tmp).2 = pos + tmp.length := by
  have hb : bufSize = 4096 := rfl
  obtain ⟨hbytes, hcounter, _⟩ := apply_write (f := f) hpos data
  rw [← htmp] at hbytes
  have hend : pos.toNat + tmp.length ≤ bufSize := by
    rw [htmp, List.length_take]
    omega
  have hloff : toLoff (pos + tmp.length) = pos + tmp.length :=
    toLoff_of_small (by omega) (by omega)
  have hbuf : splice pos.toNat tmp v.buf =
      padded 0 bufSize (f.apply (.write pos data)).1.bytes := by
    rw [h.buf_eq, splice_padded f.length_le hend, hbytes]
  have hlen : (f.apply (.write pos data)).1.bytes.length =
      max f.bytes.length (pos.toNat + tmp.length) := by
    rw [hbytes, length_write]
  have hold := h.len_eq
  refine ⟨?_, hloff⟩
  simp only [Valdev.memcpy, hloff]
  split_ifs with hgrow
  · refine ⟨hbuf, ?_, h.counter_eq.trans hcounter.symm⟩
    have hnew := toU32_of_small (x := pos + tmp.length) (by omega) (by omega)
    show toU32 _ = _
    omega
  · refine ⟨hbuf, ?_, h.counter_eq.trans hcounter.symm⟩
    show v.len = _
    omega

lemma addCounter (h : Represents v f) (delta : UInt64) :
    Represents (v.addCounter delta) (f.apply (.add delta)).1 :=
  ⟨h.buf_eq, h.len_eq, congrArg (· + delta) h.counter_eq⟩

lemma reset (v : Valdev) (f : CounterFile) : Represents v.reset (f.apply .reset).1 :=
  ⟨padded_nil.symm, rfl, rfl⟩

lemma opened (h : Represents v f) (n : UInt64) : Represents { v with opens := n } f :=
  ⟨h.buf_eq, h.len_eq, h.counter_eq⟩

end Represents

/-! ### What a call returns -/

namespace Call

variable (x : Call)

/-- The base of a seek: zero, the offset of the file, or the length, which takes a section. -/
def SeeksFrom (whence base : ℤ) : Prop :=
  whence = 0 ∧ base = 0 ∧ x.entry = none ∨
    whence = 1 ∧ base = x.start ∧ x.entry = none ∨
      whence = 2 ∧ ∃ n : ℕ, base = n ∧ x.entry = some (.length, .length n)

/-- The call returns `value`, which is what its section has answered, and moves its offset
accordingly. -/
def SucceedsWith (value : Value) : Prop :=
  match x.op with
  | .open => value = .done ∧ x.pos = x.start ∧ x.entry = none
  | .read count =>
    count = 0 ∧ value = .read 0 [] ∧ x.pos = x.start ∧ x.entry = none ∨
      ∃ data, x.entry = some (.read x.start count, .bytes data) ∧
        value = .read data.length data ∧ x.pos = x.start + data.length ∧
        (data ≠ [] → 0 ≤ x.pos ∧ x.pos ≤ bufSize)
  | .write data =>
    data = [] ∧ value = .written 0 ∧ x.pos = x.start ∧ x.entry = none ∨
      ∃ n : ℕ, x.entry = some (.write x.start data, .count n) ∧ value = .written n ∧
        x.pos = x.start + n ∧ 0 ≤ x.pos ∧ x.pos ≤ bufSize
  | .llseek off whence =>
    ∃ base, x.SeeksFrom whence base ∧ value = .offset (base + off) ∧ x.pos = base + off ∧
      0 ≤ x.pos ∧ x.pos ≤ bufSize
  | .ioctl cmd arg =>
    x.pos = x.start ∧
      (cmd = iocGetVersion ∧ value = .version abiVersion ∧ x.entry = none ∨
        (cmd = iocAddCounter ∧ ∃ c, value = .counter c ∧
          x.entry = some (.add arg, .counter c)) ∨
        cmd = iocReset ∧ value = .done ∧ x.entry = some (.reset, .done) ∨
        cmd = iocGetStats ∧ ∃ st, value = .stats st ∧
          x.entry = some (.stat, .stat st.counter st.bufLen))

/-- The call fails with `e`, for one of the reasons it has to. -/
def FailsWith (e : Errno) : Prop :=
  x.pos = x.start ∧
  match x.op with
  | .open => False
  | .read count => count ≠ 0 ∧
    (e = .enomem ∧ x.alloc = false ∧ x.entry = none ∨
      e = .efault ∧ x.outLeft ≠ 0 ∧ ∃ data, x.entry = some (.read x.start count, .bytes data))
  | .write data => data ≠ [] ∧ x.entry = none ∧
    (e = .enospc ∧ ¬ (0 ≤ x.start ∧ x.start < bufSize) ∨
      (0 ≤ x.start ∧ x.start < bufSize) ∧
        (e = .enomem ∧ x.alloc = false ∨ e = .efault ∧ x.inLeft ≠ 0))
  | .llseek off whence => e = .einval ∧
    ((whence ≠ 0 ∧ whence ≠ 1 ∧ whence ≠ 2) ∧ x.entry = none ∨
      ∃ base, x.SeeksFrom whence base ∧ ¬ (0 ≤ base + off ∧ base + off ≤ bufSize))
  | .ioctl cmd arg =>
    cmd = iocGetVersion ∧ e = .efault ∧ x.outLeft ≠ 0 ∧ x.entry = none ∨
      (cmd = iocAddCounter ∧ e = .efault ∧
        (x.inLeft ≠ 0 ∧ x.entry = none ∨
          x.inLeft = 0 ∧ x.outLeft ≠ 0 ∧ ∃ c, x.entry = some (.add arg, .counter c))) ∨
      (cmd = iocGetStats ∧ e = .efault ∧ x.outLeft ≠ 0 ∧
        ∃ c n, x.entry = some (.stat, .stat c n)) ∨
      (cmd ≠ iocGetVersion ∧ cmd ≠ iocAddCounter ∧ cmd ≠ iocReset ∧ cmd ≠ iocGetStats) ∧
        e = .enotty ∧ x.entry = none

/-- What is true of a call, by how far it has come. -/
def Explained : Prop :=
  match x.phase with
  | .entered => x.pos = x.start ∧ x.entry = none
  | .snapped count snap => x.pos = x.start ∧ ∃ n, x.op = .read n ∧ n ≠ 0 ∧
    x.entry = some (.read x.start n, .bytes snap) ∧ count = snap.length ∧ 0 ≤ x.start ∧
    x.start + count ≤ bufSize
  | .staged tmp => x.pos = x.start ∧ x.entry = none ∧ ∃ data, x.op = .write data ∧ data ≠ [] ∧
    (0 ≤ x.start ∧ x.start < bufSize) ∧ tmp = data.take (bufSize - x.start.toNat)
  | .loaded delta => x.pos = x.start ∧ x.entry = none ∧ x.op = .ioctl iocAddCounter delta ∧
    x.inLeft = 0
  | .added value => x.pos = x.start ∧ x.inLeft = 0 ∧ ∃ delta, x.op = .ioctl iocAddCounter delta ∧
    x.entry = some (.add delta, .counter value)
  | .sampled c n => x.pos = x.start ∧ ∃ arg, x.op = .ioctl iocGetStats arg ∧
    x.entry = some (.stat, .stat c n)
  | .gathered st => x.pos = x.start ∧ ∃ arg, x.op = .ioctl iocGetStats arg ∧
    x.entry = some (.stat, .stat st.counter st.bufLen)
  | .based base off => x.pos = x.start ∧ ∃ whence, x.op = .llseek off whence ∧
    x.SeeksFrom whence base
  | .returned (.ok value) => x.SucceedsWith value
  | .returned (.error e) => x.FailsWith e

variable {x}

lemma Explained.of_entered (hx : x.Explained) (hphase : x.phase = .entered) :
    x.pos = x.start ∧ x.entry = none := by
  simpa only [Explained, hphase] using hx

lemma Explained.of_ok (hx : x.Explained) {value : Value}
    (hphase : x.phase = .returned (.ok value)) : x.SucceedsWith value := by
  simpa only [Explained, hphase] using hx

lemma Explained.of_error (hx : x.Explained) {e : Errno}
    (hphase : x.phase = .returned (.error e)) : x.FailsWith e := by
  simpa only [Explained, hphase] using hx

end Call

/-- The device shows the file that the log explains, and no copy has left the buffer. -/
structure Store.Sound (s : Store) (f : CounterFile) : Prop where
  shows : Represents s.dev f
  explains : CounterFile.object.Explains (s.log.map fun e => (e.request, e.response)) f
  in_bounds : ∀ a ∈ s.accesses, 0 ≤ a.offset ∧ a.offset + a.size ≤ bufSize

namespace Store.Sound

variable {s : Store} {f : CounterFile}

/-- A section that does what the file does. -/
lemma record (h : s.Sound f) (request : Request) {v : Valdev} {response : Response}
    (hv : Represents v (f.apply request).1) (hresponse : response = (f.apply request).2) (i : ℕ) :
    ((s.withDev v).record i request response).Sound (f.apply request).1 where
  shows := hv
  explains := by
    have h := h.explains.concat request
    simp only [Store.record, Store.withDev, List.map_append, List.map_cons, List.map_nil, hresponse]
    exact h
  in_bounds := h.in_bounds

lemma touch (h : s.Sound f) {offset : ℤ} {size : ℕ} (hoffset : 0 ≤ offset)
    (hend : offset + size ≤ bufSize) : (s.touch offset size).Sound f where
  shows := h.shows
  explains := h.explains
  in_bounds a ha := by
    rcases List.mem_append.mp ha with ha | ha
    · exact h.in_bounds a ha
    · obtain rfl := List.mem_singleton.mp ha
      exact ⟨hoffset, hend⟩

end Store.Sound

/-! ### The steps of a call -/

/-- What a call does in a step, by how far it has come. -/
inductive Stepped (setpos : VfsSetpos) (i : ℕ) (s : Store) (x : Call) : Store → Call → Prop
  | opened (hphase : x.phase = .entered) (hop : x.op = .open) :
      Stepped setpos i s x (s.withDev { s.dev with opens := s.dev.opens + 1 })
        (x.finish (.ok .done))
  | read {count : ℕ} (hphase : x.phase = .entered) (hop : x.op = .read count) :
      Stepped setpos i s x (readSection i s x count).1 (readSection i s x count).2
  | snapped {count : ℕ} {snap : ByteString} (hphase : x.phase = .snapped count snap) :
      Stepped setpos i s x s (readCopyOut x count snap)
  | write {data : ByteString} (hphase : x.phase = .entered) (hop : x.op = .write data) :
      Stepped setpos i s x s (writeStage x data)
  | staged {data tmp : ByteString} (hphase : x.phase = .staged tmp) (hop : x.op = .write data) :
      Stepped setpos i s x (writeSection i s x data tmp).1 (writeSection i s x data tmp).2
  | ioctl {cmd : UInt32} {arg : UInt64} (hphase : x.phase = .entered)
      (hop : x.op = .ioctl cmd arg) :
      Stepped setpos i s x (ioctlEnter i s x cmd arg).1 (ioctlEnter i s x cmd arg).2
  | loaded {delta : UInt64} (hphase : x.phase = .loaded delta) :
      Stepped setpos i s x (addSection i s x delta).1 (addSection i s x delta).2
  | added {value : UInt64} (hphase : x.phase = .added value) :
      Stepped setpos i s x s (x.copyOut (.counter value))
  | sampled {c : UInt64} {n : ℕ} (hphase : x.phase = .sampled c n) :
      Stepped setpos i s x s
        (x.goto (.gathered { counter := c, opens := s.dev.opens, bufLen := n }))
  | gathered {st : ValdevStats} (hphase : x.phase = .gathered st) :
      Stepped setpos i s x s (x.copyOut (.stats st))
  | llseek {off whence : ℤ} (hphase : x.phase = .entered) (hop : x.op = .llseek off whence) :
      Stepped setpos i s x (llseekBase i s x off whence).1 (llseekBase i s x off whence).2
  | based {base off : ℤ} (hphase : x.phase = .based base off) :
      Stepped setpos i s x s (llseekSet setpos x base off)

lemma Stepped.of_step_eq {setpos : VfsSetpos} {i : ℕ} {s : Store} {x : Call} {p : Store × Call}
    (h : step setpos i s x = some p) : Stepped setpos i s x p.1 p.2 := by
  unfold step at h
  split at h
  all_goals cases h
  · next hphase hop => exact .opened hphase hop
  · next hphase hop => exact .read hphase hop
  · next hphase => exact .snapped hphase
  · next hphase hop => exact .write hphase hop
  · next hphase hop => exact .staged hphase hop
  · next hphase hop => exact .ioctl hphase hop
  · next hphase => exact .loaded hphase
  · next hphase => exact .added hphase
  · next hphase => exact .sampled hphase
  · next hphase => exact .gathered hphase
  · next hphase hop => exact .llseek hphase hop
  · next hphase => exact .based hphase

lemma Stepped.of_step {setpos : VfsSetpos} {i : ℕ} {s s' : Store} {x x' : Call}
    (h : step setpos i s x = some (s', x')) : Stepped setpos i s x s' x' :=
  of_step_eq h

/-! ### The operations -/

section Operations

variable {setpos : VfsSetpos} {i : ℕ} {s : Store} {x : Call} {f : CounterFile}

lemma readSection_sound (hs : s.Sound f) {count : ℕ} (hop : x.op = .read count)
    (hpos : x.pos = x.start) (hentry : x.entry = none) :
    ∃ f', (readSection i s x count).1.Sound f' ∧ (readSection i s x count).2.Explained := by
  simp only [readSection]
  split_ifs with h0 hend halloc
  · exact ⟨f, hs, by simp [Call.finish, Call.Explained, Call.SucceedsWith, hop, h0, hpos, hentry]⟩
  · -- at or behind the end, or before the beginning, the slice is empty
    have hempty : Response.bytes [] = (f.apply (.read x.start count)).2 := by
      have hlen := hs.shows.len_eq
      simp only [CounterFile.apply]
      split_ifs with hneg
      · rfl
      · rw [slice_of_le]
        omega
    refine ⟨_, hs.record (.read x.start count) (v := s.dev) hs.shows hempty i, ?_⟩
    simp [Call.applied, Call.finish, Call.Explained, Call.SucceedsWith, hop, hpos]
  · have hge : 0 ≤ x.pos := by omega
    have hlt : x.pos < s.dev.len := by omega
    have hsnap := hs.shows.kmemdup_eq hge hlt count
    have hclamp := hs.shows.clamp_eq hge hlt count
    have hlen : (s.dev.kmemdup x.pos (s.dev.clamp x.pos count)).length =
        s.dev.clamp x.pos count := by
      rw [hsnap, length_slice, hclamp]
    have hend : x.pos + s.dev.clamp x.pos count ≤ bufSize := by
      have hle := f.length_le
      have heq := hs.shows.len_eq
      omega
    have hresponse : Response.bytes (s.dev.kmemdup x.pos (s.dev.clamp x.pos count)) =
        (f.apply (.read x.start count)).2 := by
      rw [hsnap, hpos]
      simp only [CounterFile.apply, if_neg (show ¬ x.start < 0 by omega)]
    refine ⟨_, (hs.touch hge hend).record (.read x.start count) (v := s.dev) hs.shows hresponse i,
      ?_⟩
    exact ⟨hpos, count, hop, h0, rfl, hlen.symm, hpos ▸ hge, hpos ▸ hend⟩
  · exact ⟨f, hs, by simp_all [Call.finish, Call.Explained, Call.FailsWith]⟩

lemma readCopyOut_explained {count : ℕ} {snap : ByteString} (hx : x.Explained)
    (hphase : x.phase = .snapped count snap) : (readCopyOut x count snap).Explained := by
  simp only [Call.Explained, hphase] at hx
  obtain ⟨hpos, n, hop, hn, hentry, rfl, hge, hend⟩ := hx
  have hb : bufSize = 4096 := rfl
  have hloff : toLoff (x.pos + snap.length) = x.start + snap.length := by
    rw [hpos]
    exact toLoff_of_small (by omega) (by omega)
  simp only [readCopyOut]
  split_ifs with hleft
  · simp [Call.finish, Call.Explained, Call.FailsWith, hop, hpos, hn, hleft, hentry]
  · rw [hloff]
    simp only [Call.moveTo, Call.finish, Call.Explained, Call.SucceedsWith, hop]
    right
    exact ⟨snap, hentry, rfl, rfl, fun _ => ⟨by omega, hend⟩⟩

lemma writeStage_explained {data : ByteString} (hop : x.op = .write data)
    (hpos : x.pos = x.start) (hentry : x.entry = none) : (writeStage x data).Explained := by
  simp only [writeStage]
  split_ifs with h0 hend halloc hleft
  · have hnil : data = [] := List.length_eq_zero_iff.mp h0
    simp [Call.finish, Call.Explained, Call.SucceedsWith, hop, hpos, hentry, hnil]
  · have hne : data ≠ [] := fun h => h0 (by simp [h])
    simp only [Call.finish, Call.Explained, Call.FailsWith, hop]
    refine ⟨hpos, hne, hentry, .inl ⟨trivial, ?_⟩⟩
    omega
  · have hne : data ≠ [] := fun h => h0 (by simp [h])
    simp only [Call.finish, Call.Explained, Call.FailsWith, hop]
    exact ⟨hpos, hne, hentry, .inr ⟨by omega, .inr ⟨trivial, hleft⟩⟩⟩
  · have hne : data ≠ [] := fun h => h0 (by simp [h])
    have hsub : toSize (bufSize - toSize x.pos) = bufSize - x.pos.toNat :=
      toSize_sub (by omega) (by omega) le_rfl
    have hrange : 0 ≤ x.start ∧ x.start < bufSize := by omega
    refine ⟨hpos, hentry, data, hop, hne, hrange, ?_⟩
    show data.take _ = data.take (bufSize - x.start.toNat)
    rw [hsub, hpos, Nat.min_comm, ← List.take_take, List.take_length]
  · have hne : data ≠ [] := fun h => h0 (by simp [h])
    simp only [Call.finish, Call.Explained, Call.FailsWith, hop]
    exact ⟨hpos, hne, hentry, .inr ⟨by omega, .inl ⟨trivial, by simpa using halloc⟩⟩⟩

lemma writeSection_sound (hs : s.Sound f) {data tmp : ByteString} (hx : x.Explained)
    (hphase : x.phase = .staged tmp) (hop : x.op = .write data) :
    ∃ f', (writeSection i s x data tmp).1.Sound f' ∧
      (writeSection i s x data tmp).2.Explained := by
  simp only [Call.Explained, hphase] at hx
  obtain ⟨hpos, hentry, data', hop', hne, hrange, htmp⟩ := hx
  rw [hop] at hop'
  obtain rfl := Op.write.inj hop'
  obtain ⟨hshows, hmove⟩ := hs.shows.memcpy hrange data htmp
  obtain ⟨_, _, hresponse⟩ := Represents.apply_write (f := f) hrange data
  have hend : x.start + tmp.length ≤ bufSize := by
    rw [htmp, List.length_take]
    omega
  simp only [writeSection, hpos]
  refine ⟨_, (hs.touch hrange.1 hend).record (.write x.start data) hshows ?_ i, ?_⟩
  · rw [hresponse, ← htmp]
  · simp only [Call.applied, Call.moveTo, Call.finish, Call.Explained, Call.SucceedsWith, hop]
    right
    exact ⟨tmp.length, rfl, rfl, hmove, by omega, by omega⟩

lemma copyOut_explained {value : Value} (hsucceeds : x.outLeft = 0 → x.SucceedsWith value)
    (hfails : x.outLeft ≠ 0 → x.FailsWith .efault) : (x.copyOut value).Explained := by
  simp only [Call.copyOut]
  split_ifs with hleft
  · exact hfails hleft
  · exact hsucceeds (not_not.mp hleft)

lemma ioctlEnter_sound (hs : s.Sound f) {cmd : UInt32} {arg : UInt64} (hop : x.op = .ioctl cmd arg)
    (hpos : x.pos = x.start) (hentry : x.entry = none) :
    ∃ f', (ioctlEnter i s x cmd arg).1.Sound f' ∧ (ioctlEnter i s x cmd arg).2.Explained := by
  simp only [ioctlEnter]
  split_ifs with hversion hadd hleft hreset hstats
  · refine ⟨f, hs, copyOut_explained ?_ ?_⟩
    · intro _
      simp [Call.SucceedsWith, hop, hpos, hentry, hversion]
    · intro hout
      simp [Call.FailsWith, hop, hpos, hentry, hversion, hout]
  · refine ⟨f, hs, ?_⟩
    show x.FailsWith .efault
    simp [Call.FailsWith, hop, hpos, hentry, hadd, hleft]
  · refine ⟨f, hs, hpos, hentry, ?_, not_not.mp hleft⟩
    show x.op = _
    rw [hop, hadd]
  · refine ⟨_, (hs.record .reset (Represents.reset s.dev f) rfl i).touch le_rfl le_rfl, ?_⟩
    show (x.applied .reset .done).SucceedsWith .done
    simp [Call.SucceedsWith, Call.applied, hop, hpos, hreset]
  · refine ⟨_, hs.record .stat (v := s.dev) hs.shows ?_ i, hpos, arg, ?_, rfl⟩
    · rw [hs.shows.counter_eq, hs.shows.len_eq]
      rfl
    · show x.op = _
      rw [hop, hstats]
  · refine ⟨f, hs, ?_⟩
    show x.FailsWith .enotty
    simp [Call.FailsWith, hop, hpos, hentry, hversion, hadd, hreset, hstats]

lemma addSection_sound (hs : s.Sound f) {delta : UInt64} (hx : x.Explained)
    (hphase : x.phase = .loaded delta) :
    ∃ f', (addSection i s x delta).1.Sound f' ∧ (addSection i s x delta).2.Explained := by
  simp only [Call.Explained, hphase] at hx
  obtain ⟨hpos, hentry, hop, hleft⟩ := hx
  refine ⟨_, hs.record (.add delta) (hs.shows.addCounter delta) ?_ i, hpos, hleft, delta, hop, rfl⟩
  show Response.counter (s.dev.counter + delta) = .counter (f.counter + delta)
  rw [hs.shows.counter_eq]

lemma added_explained {value : UInt64} (hx : x.Explained) (hphase : x.phase = .added value) :
    (x.copyOut (.counter value)).Explained := by
  simp only [Call.Explained, hphase] at hx
  obtain ⟨hpos, hleft, delta, hop, hentry⟩ := hx
  apply copyOut_explained
  · intro _
    simp [Call.SucceedsWith, hop, hpos, hentry]
  · intro hout
    simp [Call.FailsWith, hop, hpos, hentry, hleft, hout]

lemma gathered_explained {st : ValdevStats} (hx : x.Explained) (hphase : x.phase = .gathered st) :
    (x.copyOut (.stats st)).Explained := by
  simp only [Call.Explained, hphase] at hx
  obtain ⟨hpos, arg, hop, hentry⟩ := hx
  apply copyOut_explained
  · intro _
    simp [Call.SucceedsWith, hop, hpos, hentry]
  · intro hout
    simp [Call.FailsWith, hop, hpos, hentry, hout]

lemma llseekBase_sound (hs : s.Sound f) {off whence : ℤ} (hop : x.op = .llseek off whence)
    (hpos : x.pos = x.start) (hentry : x.entry = none) :
    ∃ f', (llseekBase i s x off whence).1.Sound f' ∧
      (llseekBase i s x off whence).2.Explained := by
  simp only [llseekBase]
  split_ifs with hset hcur hend
  · exact ⟨f, hs, hpos, whence, hop, .inl ⟨hset, rfl, hentry⟩⟩
  · exact ⟨f, hs, hpos, whence, hop, .inr (.inl ⟨hcur, hpos, hentry⟩)⟩
  · refine ⟨_, hs.record .length (v := s.dev) hs.shows ?_ i, hpos, whence, hop,
      .inr (.inr ⟨hend, s.dev.len, rfl, rfl⟩)⟩
    rw [hs.shows.len_eq]
    rfl
  · refine ⟨f, hs, ?_⟩
    show x.FailsWith .einval
    simp [Call.FailsWith, hop, hpos, hentry, hset, hcur, hend]

lemma llseekSet_explained {base off : ℤ} (hx : x.Explained) (hphase : x.phase = .based base off) :
    (llseekSet setpos x base off).Explained := by
  simp only [Call.Explained, hphase] at hx
  obtain ⟨hpos, whence, hop, hbase⟩ := hx
  have hb : bufSize = 4096 := rfl
  rw [llseekSet]
  split_ifs with hoverflow
  · show x.FailsWith .einval
    have hout : ¬ (0 ≤ base + off ∧ base + off ≤ bufSize) := fun h =>
      hoverflow (toLoff_of_small h.1 (by omega))
    simp only [Call.FailsWith, hop]
    exact ⟨hpos, trivial, .inr ⟨base, hbase, hout⟩⟩
  · rw [not_not.mp hoverflow]
    by_cases hrange : 0 ≤ base + off ∧ base + off ≤ bufSize
    · rw [setpos.valid _ _ _ hrange.1 hrange.2]
      show (x.moveTo (base + off)).SucceedsWith (.offset (base + off))
      simp only [Call.SucceedsWith, Call.moveTo, hop]
      exact ⟨base, hbase, rfl, rfl, hrange.1, hrange.2⟩
    · rw [setpos.invalid _ _ _ (by omega)]
      show (x.moveTo x.pos).FailsWith .einval
      simp only [Call.FailsWith, Call.moveTo, hop]
      exact ⟨hpos, trivial, .inr ⟨base, hbase, hrange⟩⟩

/-- No step of a call spoils what is true of the device or of the call. -/
theorem step_sound (hs : s.Sound f) (hx : x.Explained) {s' : Store} {x' : Call}
    (h : step setpos i s x = some (s', x')) : ∃ f', s'.Sound f' ∧ x'.Explained := by
  cases Stepped.of_step h with
  | opened hphase hop =>
    obtain ⟨hpos, hentry⟩ := hx.of_entered hphase
    refine ⟨f, ⟨hs.shows.opened _, hs.explains, hs.in_bounds⟩, ?_⟩
    show x.SucceedsWith .done
    simp [Call.SucceedsWith, hop, hpos, hentry]
  | read hphase hop =>
    obtain ⟨hpos, hentry⟩ := hx.of_entered hphase
    exact readSection_sound hs hop hpos hentry
  | snapped hphase => exact ⟨f, hs, readCopyOut_explained hx hphase⟩
  | write hphase hop =>
    obtain ⟨hpos, hentry⟩ := hx.of_entered hphase
    exact ⟨f, hs, writeStage_explained hop hpos hentry⟩
  | staged hphase hop => exact writeSection_sound hs hx hphase hop
  | ioctl hphase hop =>
    obtain ⟨hpos, hentry⟩ := hx.of_entered hphase
    exact ioctlEnter_sound hs hop hpos hentry
  | loaded hphase => exact addSection_sound hs hx hphase
  | added hphase => exact ⟨f, hs, added_explained hx hphase⟩
  | sampled hphase =>
    simp only [Call.Explained, hphase] at hx
    exact ⟨f, hs, hx⟩
  | gathered hphase => exact ⟨f, hs, gathered_explained hx hphase⟩
  | llseek hphase hop =>
    obtain ⟨hpos, hentry⟩ := hx.of_entered hphase
    exact llseekBase_sound hs hop hpos hentry
  | based hphase => exact ⟨f, hs, llseekSet_explained hx hphase⟩

end Operations

/-- In every state the device shows the file that the log explains, and every call is explained by
its section. -/
theorem valdev_sound {setpos : VfsSetpos} {s : Pool Store Call}
    (h : (valdev setpos).lts.Reachable s) :
    (∃ f, s.store.Sound f) ∧ ∀ x ∈ s.procs, x.Explained := by
  refine System.invariant (I := fun s : Store => ∃ f, s.Sound f) (J := Call.Explained) ?_ ?_ ?_ h
  · rintro s rfl
    exact ⟨{}, represents_init, CounterFile.object.explains_nil, by simp⟩
  · rintro x ⟨hphase, hpos, hentry⟩
    simpa only [Call.Explained, hphase] using And.intro hpos hentry
  · rintro i s x s' x' ⟨f, hs⟩ hx hstep
    obtain ⟨f', hs', hx'⟩ := step_sound hs hx hstep
    exact ⟨⟨f', hs'⟩, hx'⟩

/-! ### The log and the calls -/

section Log

variable {setpos : VfsSetpos} {i : ℕ} {s s' : Store} {x x' : Call}

/-- Either the step is no section and leaves the log alone, or it is the section of its call and
adds its entry. -/
def Logs (i : ℕ) (s : Store) (x : Call) (s' : Store) (x' : Call) : Prop :=
  s'.log = s.log ∧ x'.entry = x.entry ∨
    x.entry = none ∧ ∃ request response, x'.entry = some (request, response) ∧
      s'.log = s.log ++ [⟨i, request, response⟩]

lemma Call.copyOut_entry (value : Value) : (x.copyOut value).entry = x.entry := rfl

lemma readCopyOut_entry (count : ℕ) (snap : ByteString) :
    (readCopyOut x count snap).entry = x.entry := by
  simp only [readCopyOut]
  split_ifs <;> rfl

lemma writeStage_entry (data : ByteString) : (writeStage x data).entry = x.entry := by
  simp only [writeStage]
  split_ifs <;> rfl

lemma llseekSet_entry (base off : ℤ) : (llseekSet setpos x base off).entry = x.entry := by
  simp only [llseekSet]
  split_ifs <;> rfl

lemma readSection_logs (hentry : x.entry = none) (count : ℕ) :
    Logs i s x (readSection i s x count).1 (readSection i s x count).2 := by
  simp only [readSection]
  split_ifs
  · exact .inl ⟨rfl, rfl⟩
  · exact .inr ⟨hentry, _, _, rfl, rfl⟩
  · exact .inr ⟨hentry, _, _, rfl, rfl⟩
  · exact .inl ⟨rfl, rfl⟩

lemma ioctlEnter_logs (hentry : x.entry = none) (cmd : UInt32) (arg : UInt64) :
    Logs i s x (ioctlEnter i s x cmd arg).1 (ioctlEnter i s x cmd arg).2 := by
  simp only [ioctlEnter]
  split_ifs
  · exact .inl ⟨rfl, rfl⟩
  · exact .inl ⟨rfl, rfl⟩
  · exact .inl ⟨rfl, rfl⟩
  · exact .inr ⟨hentry, _, _, rfl, rfl⟩
  · exact .inr ⟨hentry, _, _, rfl, rfl⟩
  · exact .inl ⟨rfl, rfl⟩

lemma llseekBase_logs (hentry : x.entry = none) (off whence : ℤ) :
    Logs i s x (llseekBase i s x off whence).1 (llseekBase i s x off whence).2 := by
  simp only [llseekBase]
  split_ifs
  · exact .inl ⟨rfl, rfl⟩
  · exact .inl ⟨rfl, rfl⟩
  · exact .inr ⟨hentry, _, _, rfl, rfl⟩
  · exact .inl ⟨rfl, rfl⟩

lemma step_logs (hx : x.Explained) (h : step setpos i s x = some (s', x')) : Logs i s x s' x' := by
  cases Stepped.of_step h with
  | opened _ _ => exact .inl ⟨rfl, rfl⟩
  | read hphase _ => exact readSection_logs (hx.of_entered hphase).2 _
  | snapped _ => exact .inl ⟨rfl, readCopyOut_entry _ _⟩
  | write _ _ => exact .inl ⟨rfl, writeStage_entry _⟩
  | staged hphase _ =>
    obtain ⟨_, hentry, _⟩ := by simpa only [Call.Explained, hphase] using hx
    exact .inr ⟨hentry, _, _, rfl, rfl⟩
  | ioctl hphase _ => exact ioctlEnter_logs (hx.of_entered hphase).2 _ _
  | loaded hphase =>
    obtain ⟨_, hentry, _⟩ := by simpa only [Call.Explained, hphase] using hx
    exact .inr ⟨hentry, _, _, rfl, rfl⟩
  | added _ => exact .inl ⟨rfl, Call.copyOut_entry _⟩
  | sampled _ => exact .inl ⟨rfl, rfl⟩
  | gathered _ => exact .inl ⟨rfl, Call.copyOut_entry _⟩
  | llseek hphase _ => exact llseekBase_logs (hx.of_entered hphase).2 _ _
  | based _ => exact .inl ⟨rfl, llseekSet_entry _ _⟩

/-- The sections of the call number `i`. -/
def Store.entriesOf (s : Store) (i : ℕ) : List (Request × Response) :=
  (s.log.filter fun e => decide (e.call = i)).map fun e => (e.request, e.response)

/-- The log holds the sections of the calls, one for each call that is through its section. -/
structure LogOfCalls (s : Pool Store Call) : Prop where
  call_lt : ∀ e ∈ s.store.log, e.call < s.procs.length
  entries_eq : ∀ i x, s.procs[i]? = some x → s.store.entriesOf i = x.entry.toList

theorem logOfCalls {s : Pool Store Call} (h : (valdev setpos).lts.Reachable s) : LogOfCalls s := by
  have hlog : (∀ e ∈ s.store.log, e.call < s.procs.length) ∧
      ∀ (i : ℕ) (x : Call), s.procs[i]? = some x → s.store.entriesOf i = x.entry.toList := by
    refine System.log_of_procs Store.log Entry.call (fun e => (e.request, e.response))
      (fun x => x.entry.toList) ?_ ?_ ?_ h
    · rintro s rfl
      rfl
    · intro x hx
      rw [hx.2.2]
      rfl
    · intro s i x store x' hr hi hx
      rcases step_logs ((valdev_sound hr).2 x (List.mem_of_getElem? hi)) hx with
        ⟨hlog, hentry⟩ | ⟨hnone, request, response, hentry, hlog⟩
      · exact .inl ⟨hlog, congrArg Option.toList hentry⟩
      · refine .inr ⟨⟨i, request, response⟩, rfl, hlog, ?_⟩
        rw [hnone, hentry]
        rfl
  exact ⟨hlog.1, hlog.2⟩

end Log

/-- However its clients interleave, the device is a sparse file of at most `bufSize` bytes with a
counter that wraps. There is a file `f` that the requests of the log, given to the sequential
object one after the other, lead to with the responses of the log; the buffer shows its bytes and
zeros behind them; no copy leaves the buffer; the log holds one section for each call that is
through its section, and every call that has returned has returned what its section has answered,
or has failed for one of the reasons that `Call.FailsWith` allows. -/
theorem valdev_refines_file (setpos : VfsSetpos) (s : Pool Store Call)
    (h : (valdev setpos).lts.Reachable s) :
    (∃ f : CounterFile,
      CounterFile.object.run (s.store.log.map (·.request)) =
        (f, s.store.log.map (·.response)) ∧
      f.bytes = s.store.dev.buf.take s.store.dev.len ∧ f.counter = s.store.dev.counter) ∧
    (s.store.dev.len ≤ bufSize ∧ s.store.dev.buf.length = bufSize ∧
      ∀ i, s.store.dev.len ≤ i → i < bufSize → s.store.dev.buf[i]? = some 0) ∧
    (∀ a ∈ s.store.accesses, 0 ≤ a.offset ∧ a.offset + a.size ≤ bufSize) ∧
    ((∀ e ∈ s.store.log, e.call < s.procs.length) ∧
      ∀ i x, s.procs[i]? = some x → s.store.entriesOf i = x.entry.toList) ∧
    (∀ x ∈ s.procs, ∀ value, x.phase = .returned (.ok value) → x.SucceedsWith value) ∧
    ∀ x ∈ s.procs, ∀ e, x.phase = .returned (.error e) → x.FailsWith e := by
  obtain ⟨⟨f, hf⟩, hcalls⟩ := valdev_sound h
  obtain ⟨hlt, hentries⟩ := logOfCalls h
  have hbuf := hf.shows.buf_eq
  have hlen := hf.shows.len_eq
  refine ⟨⟨f, ?_, ?_, hf.shows.counter_eq.symm⟩, ⟨hf.shows.len_le, ?_, ?_⟩, hf.in_bounds,
    ⟨hlt, hentries⟩, fun x hx _ => (hcalls x hx).of_ok, fun x hx _ => (hcalls x hx).of_error⟩
  · have hexplains := hf.explains
    rw [SeqObject.Explains, List.map_map, List.map_map] at hexplains
    exact hexplains
  · rw [hbuf, hlen, padded, List.take_left]
  · rw [hbuf, length_padded f.length_le]
  · intro i hi hlt
    rw [hbuf]
    exact getElem?_padded (hlen ▸ hi) hlt

namespace Client

/-- `vfs_setpos`, as the kernel has it. -/
def setpos : VfsSetpos where
  run fpos offset maxsize :=
    if offset < 0 ∨ maxsize < offset then (.error .einval, fpos) else (.ok offset, offset)
  invalid _ _ _ h := if_pos h
  valid _ _ _ h h' := if_neg (by omega)

/-- Two bytes, written behind the end of the empty file. -/
def gapWrite : Call := { op := .write [1, 2], start := 3 }

lemma reachable_gapWrite :
    (valdev setpos).lts.Reachable
      ⟨(writeSection 0 {} (gapWrite.goto (.staged [1, 2])) [1, 2] [1, 2]).1,
        [(writeSection 0 {} (gapWrite.goto (.staged [1, 2])) [1, 2] [1, 2]).2]⟩ := by
  have hentered := LTS.Reachable.init (A := (valdev setpos).lts) (s := ⟨{}, []⟩) ⟨rfl, rfl⟩
    |>.step (.enter (x := gapWrite) ⟨rfl, rfl, rfl⟩)
  have hstaged : step setpos 0 {} gapWrite = some ({}, gapWrite.goto (.staged [1, 2])) := rfl
  exact (hentered.step (.act (i := 0) rfl hstaged)).step (.act (i := 0) rfl rfl)

end Client

/-- After the write, the file has a gap of three zeros. -/
theorem valdev_refines_file_gapWrite :
    ∃ s : Pool Store Call, (∀ i, 5 ≤ i → i < bufSize → s.store.dev.buf[i]? = some 0) ∧
      s.store.entriesOf 0 = [(.write 3 [1, 2], .count 2)] := by
  obtain ⟨_, ⟨_, _, hzero⟩, _, ⟨_, hentries⟩, _⟩ :=
    valdev_refines_file Client.setpos _ Client.reachable_gapWrite
  exact ⟨_, hzero, hentries 0 _ rfl⟩

end Kmod
