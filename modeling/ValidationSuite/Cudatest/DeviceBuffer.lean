import Mathlib.Data.Finset.Lattice.Fold
import Mathlib.Order.Lattice.Nat
import ValidationSuite.Library.ByteString
import ValidationSuite.Library.Ownership
import ValidationSuite.Library.Transition

/-!
# Device buffers

The class template `DeviceBuffer` of `cudatest/include/cudatest/device_buffer.hpp`: what programs do
that construct buffers, move them, fill and read them and destroy them, where any call of the
runtime may fail. `Var` are the variables of the program, `D` is the device. The number of bytes of
a buffer is a `size_t` and may wrap around.
-/

namespace Cudatest.DeviceBuffer

open ByteString Ownership Transition

/-- The elements, as they are in memory. -/
structure Layout (T : Type) where
  size : ℕ
  size_pos : 0 < size
  encode : T → ByteString
  decode : ByteString → T
  length_encode : ∀ x, (encode x).length = size
  decode_encode : ∀ x, decode (encode x) = x

/-! ### The runtime -/

/-- The calls of the runtime, each with its error code, which is 0 for `cudaSuccess`; the null
pointer is `none`. `live` and `content` say what there is in the memory of a device. -/
structure Runtime (D : Type) where
  live : D → Finset ℕ
  content : D → ℕ → ByteString
  cudaMalloc : ℕ → D → ℕ × Option ℕ × D
  cudaFree : ℕ → D → ℕ × D
  cudaMemcpyHostToDevice : Option ℕ → ByteString → D → ℕ × D
  cudaMemcpyDeviceToHost : Option ℕ → ℕ → D → ℕ × ByteString × D
  cudaMemset : Option ℕ → ℤ → ℕ → D → ℕ × D
  cudaGetErrorName : ℕ → ByteString
  cudaGetErrorString : ℕ → ByteString

namespace Runtime

variable {D : Type} (rt : Runtime D)

/-- Are there `length` bytes at `p` in an allocation? -/
def Within (d : D) (p : Option ℕ) (length : ℕ) : Prop :=
  length = 0 ∨ ∃ q ∈ p, q ∈ rt.live d ∧ length ≤ (rt.content d q).length

instance (d : D) (p : Option ℕ) (length : ℕ) : Decidable (rt.Within d p length) :=
  inferInstanceAs (Decidable (_ ∨ _))

structure Same (d d' : D) : Prop where
  live : rt.live d' = rt.live d
  content : ∀ q ∈ rt.live d, rt.content d' q = rt.content d q

/-- The bytes have been written at `p`; after an error it may be others. -/
structure Wrote (d : D) (p : Option ℕ) (bytes : ByteString) (code : ℕ) (d' : D) : Prop where
  live : rt.live d' = rt.live d
  others : ∀ q ∈ rt.live d, p ≠ some q → rt.content d' q = rt.content d q
  length : ∀ q ∈ rt.live d, (rt.content d' q).length = (rt.content d q).length
  written : code = 0 → ∀ q ∈ rt.live d, p = some q →
    rt.content d' q = bytes ++ (rt.content d q).drop bytes.length

/-- What is assumed of the runtime. About calls that reach beyond an allocation, or free what is
none, nothing is. An allocation that is freed is gone, also if the call reports the error of an
earlier one. -/
structure Documented : Prop where
  malloc_fails : ∀ length d, (rt.cudaMalloc length d).1 ≠ 0 →
    rt.Same d (rt.cudaMalloc length d).2.2
  malloc_null : ∀ length d, (rt.cudaMalloc length d).1 = 0 →
    (rt.cudaMalloc length d).2.1 = none → length = 0 ∧ rt.Same d (rt.cudaMalloc length d).2.2
  malloc : ∀ length d p, (rt.cudaMalloc length d).1 = 0 → (rt.cudaMalloc length d).2.1 = some p →
    p ∉ rt.live d ∧ rt.live (rt.cudaMalloc length d).2.2 = insert p (rt.live d) ∧
      (rt.content (rt.cudaMalloc length d).2.2 p).length = length ∧
      ∀ q ∈ rt.live d, rt.content (rt.cudaMalloc length d).2.2 q = rt.content d q
  free : ∀ d, ∀ p ∈ rt.live d, rt.live (rt.cudaFree p d).2 = (rt.live d).erase p ∧
    ∀ q ∈ rt.live d, q ≠ p → rt.content (rt.cudaFree p d).2 q = rt.content d q
  copyTo : ∀ d p bytes, rt.Within d p bytes.length →
    rt.Wrote d p bytes (rt.cudaMemcpyHostToDevice p bytes d).1
      (rt.cudaMemcpyHostToDevice p bytes d).2
  copyFrom : ∀ d p length, rt.Within d p length →
    rt.Same d (rt.cudaMemcpyDeviceToHost p length d).2.2 ∧
      ((rt.cudaMemcpyDeviceToHost p length d).1 = 0 → ∀ q, p = some q →
        (rt.cudaMemcpyDeviceToHost p length d).2.1 = (rt.content d q).take length)
  set : ∀ d p value length, rt.Within d p length →
    rt.Wrote d p (List.replicate length (UInt8.ofInt value)) (rt.cudaMemset p value length d).1
      (rt.cudaMemset p value length d).2

end Runtime

/-! ### The class -/

/-- The members `p_` and `n_`. -/
structure Buffer where
  p : Option ℕ := none
  n : ℕ := 0

/-- What a runtime must not be asked for: to free what is not allocated, or to reach beyond an
allocation. -/
inductive Fault where
  | free (p : ℕ)
  | access (p : Option ℕ) (length : ℕ)
  deriving DecidableEq

/-- The device, and the buffers the program has. The faults are a history. -/
structure Device (Var D : Type) where
  memory : D
  buffers : Var → Option Buffer := fun _ => none
  faults : List Fault := []

/-- A result or the text of an exception, and the device afterwards. -/
abbrev Result (Var D α : Type) := Except ByteString α × Device Var D

variable {Var D T : Type} [DecidableEq Var] (rt : Runtime D) (layout : Layout T)

/-- `cuda_check`, before something that is returned otherwise. -/
def cudaCheck {α : Type} (code : ℕ) (what : String) (x : α) (s : Device Var D) : Result Var D α :=
  if code = 0 then (.ok x, s)
  else
    (.error (lit what ++ lit ": " ++ rt.cudaGetErrorName code ++ lit " (" ++
      rt.cudaGetErrorString code ++ lit ")"), s)

/-- The number of bytes of `n` elements, as a `size_t`. -/
def bytes (n : ℕ) : ℕ := n * layout.size % 2 ^ 64

def Device.cudaMalloc (s : Device Var D) (length : ℕ) : Result Var D (Option ℕ) :=
  let res := rt.cudaMalloc length s.memory
  cudaCheck rt res.1 "cudaMalloc" res.2.1 { s with memory := res.2.2 }

/-- The error code is ignored. -/
def Device.cudaFree (s : Device Var D) (p : ℕ) : Device Var D :=
  { s with
    memory := (rt.cudaFree p s.memory).2
    faults := if p ∈ rt.live s.memory then s.faults else s.faults ++ [.free p] }

/-- A call that concerns `length` bytes at `p` has left the memory like this. -/
def Device.touch (s : Device Var D) (p : Option ℕ) (length : ℕ) (memory : D) : Device Var D :=
  { s with
    memory
    faults := if rt.Within s.memory p length then s.faults else s.faults ++ [.access p length] }

/-- The buffer of a variable. -/
def Device.get (s : Device Var D) (x : Var) : Buffer := (s.buffers x).getD {}

def Device.set (s : Device Var D) (x : Var) (b : Buffer) : Device Var D :=
  { s with buffers := Function.update s.buffers x (some b) }

def reset (x : Var) (s : Device Var D) : Device Var D :=
  match (s.get x).p with
  | none => s.set x {}
  | some p => (s.cudaFree rt p).set x {}

/-- The variable is no longer there. -/
def Device.drop (s : Device Var D) (x : Var) : Device Var D :=
  { s with buffers := Function.update s.buffers x none }

def destruct (x : Var) (s : Device Var D) : Device Var D := (reset rt x s).drop x

def construct (x : Var) (s : Device Var D) : Result Var D Unit := (.ok (), s.set x {})

/-- An exception leaves no object behind. -/
def constructSize (x : Var) (n : ℕ) (s : Device Var D) : Result Var D Unit :=
  if n = 0 then (.ok (), s.set x {})
  else match s.cudaMalloc rt (bytes layout n) with
    | (.ok p, s) => (.ok (), s.set x { p, n })
    | (.error e, s) => (.error e, s)

def upload (x : Var) (host : List T) (s : Device Var D) : Result Var D Unit :=
  if (s.get x).n < host.length then (.error (lit "upload larger than allocation"), s)
  else if host.isEmpty then (.ok (), s)
  else
    let source := host.flatMap layout.encode
    let res := rt.cudaMemcpyHostToDevice (s.get x).p source s.memory
    cudaCheck rt res.1 "H2D" () (s.touch rt (s.get x).p source.length res.2)

/-- The object is there when the constructor it delegates to has returned, so an exception after
that destroys it. -/
def constructFrom (x : Var) (host : List T) (s : Device Var D) : Result Var D Unit :=
  match constructSize rt layout x host.length s with
  | (.error e, s) => (.error e, s)
  | (.ok (), s) =>
    match upload rt layout x host s with
    | (.ok (), s) => (.ok (), s)
    | (.error e, s) => (.error e, destruct rt x s)

def moveConstruct (x y : Var) (s : Device Var D) : Result Var D Unit :=
  (.ok (), (s.set y {}).set x (s.get y))

def moveAssign (x y : Var) (s : Device Var D) : Result Var D Unit :=
  if x = y then (.ok (), s) else (.ok (), ((reset rt x s).set y {}).set x ((reset rt x s).get y))

/-- The bytes in pieces of the size of an element. -/
def chunks : ℕ → ByteString → List ByteString
  | 0, _ => []
  | n + 1, s => s.take layout.size :: chunks n (s.drop layout.size)

def download (x : Var) (s : Device Var D) : Result Var D (List T) :=
  -- the constructor of the vector
  if 2 ^ 63 ≤ (s.get x).n * layout.size then
    (.error (lit "cannot create std::vector larger than max_size()"), s)
  else if (s.get x).n = 0 then (.ok [], s)
  else
    let length := bytes layout (s.get x).n
    let res := rt.cudaMemcpyDeviceToHost (s.get x).p length s.memory
    cudaCheck rt res.1 "D2H" ((chunks layout (s.get x).n res.2.1).map layout.decode)
      (s.touch rt (s.get x).p length res.2.2)

def fillBytes (x : Var) (value : ℤ) (s : Device Var D) : Result Var D Unit :=
  if (s.get x).n = 0 then (.ok (), s)
  else
    let length := bytes layout (s.get x).n
    let res := rt.cudaMemset (s.get x).p value length s.memory
    cudaCheck rt res.1 "cudaMemset" () (s.touch rt (s.get x).p length res.2)

/-! ### Programs -/

inductive Op (Var T : Type) where
  | construct (x : Var)
  | constructSize (x : Var) (n : ℕ)
  | constructFrom (x : Var) (host : List T)
  | moveConstruct (x y : Var)
  | moveAssign (x y : Var)
  | upload (x : Var) (host : List T)
  | download (x : Var)
  | fillBytes (x : Var) (value : ℤ)
  | destruct (x : Var)

/-- What an operation returns, if it returns something. -/
def Op.run (s : Device Var D) : Op Var T → Result Var D (List T)
  | .construct x => Prod.map (Except.map fun _ => []) id (DeviceBuffer.construct x s)
  | .constructSize x n =>
    Prod.map (Except.map fun _ => []) id (DeviceBuffer.constructSize rt layout x n s)
  | .constructFrom x host =>
    Prod.map (Except.map fun _ => []) id (DeviceBuffer.constructFrom rt layout x host s)
  | .moveConstruct x y => Prod.map (Except.map fun _ => []) id (DeviceBuffer.moveConstruct x y s)
  | .moveAssign x y => Prod.map (Except.map fun _ => []) id (DeviceBuffer.moveAssign rt x y s)
  | .upload x host => Prod.map (Except.map fun _ => []) id (DeviceBuffer.upload rt layout x host s)
  | .download x => DeviceBuffer.download rt layout x s
  | .fillBytes x value =>
    Prod.map (Except.map fun _ => []) id (DeviceBuffer.fillBytes rt layout x value s)
  | .destruct x => (.ok [], DeviceBuffer.destruct rt x s)

/-- Is there a buffer in the variable? -/
def Device.Alive (s : Device Var D) (x : Var) : Prop := (s.buffers x).isSome = true

/-- A variable is constructed when it is not there, and used while it is. A vector has fewer than
`2 ^ 63` bytes. -/
def Op.Valid (s : Device Var D) : Op Var T → Prop
  | .construct x | .constructSize x _ => ¬s.Alive x
  | .constructFrom x host => ¬s.Alive x ∧ host.length * layout.size < 2 ^ 63
  | .moveConstruct x y => ¬s.Alive x ∧ s.Alive y
  | .moveAssign x y => s.Alive x ∧ s.Alive y
  | .upload x host => s.Alive x ∧ host.length * layout.size < 2 ^ 63
  | .download x | .fillBytes x _ | .destruct x => s.Alive x

/-- The runs of all programs, with what each operation has returned. -/
def program : LTS (Device Var D) (Op Var T × Except ByteString (List T)) where
  init s := ∃ d, rt.live d = ∅ ∧ s = { memory := d }
  step s l s' := l.1.Valid layout s ∧ l.1.run rt layout s = (l.2, s')

/-- An upload that is let through fits into what was allocated. -/
def Op.Safe (s : Device Var D) : Op Var T → Prop
  | .upload x host =>
    (s.get x).n < host.length ∨ host.length * layout.size ≤ bytes layout (s.get x).n
  | _ => True

/-- The number of bytes of a buffer that is constructed does not wrap around. -/
def Op.Fits : Op Var T → Prop
  | .constructSize _ n => n * layout.size < 2 ^ 64
  | _ => True

/-! ### Buffers as values -/

def Buffer.bytes (content : ℕ → ByteString) (b : Buffer) : ByteString := (b.p.map content).getD []

/-- The bytes of a buffer, if there is one. -/
def Device.value (s : Device Var D) (x : Var) : Option ByteString :=
  (s.buffers x).map (·.bytes (rt.content s.memory))

/-- What an operation means for variables that have bytes for their values. After an exception of
the runtime a buffer that was to be written has the bytes it had, or as many others. -/
def Op.Means (v : Var → Option ByteString) (r : Except ByteString (List T))
    (v' : Var → Option ByteString) : Op Var T → Prop
  | .construct x => v' = Function.update v x (some [])
  | .constructSize x n => match r with
    | .ok _ => ∃ b, b.length = DeviceBuffer.bytes layout n ∧ v' = Function.update v x (some b)
    | .error _ => v' = v
  | .constructFrom x host => match r with
    | .ok _ => v' = Function.update v x (some (host.flatMap layout.encode))
    | .error _ => v' = v
  | .moveConstruct x y => v' = Function.update (Function.update v y (some [])) x (v y)
  | .moveAssign x y =>
    v' = if x = y then v else Function.update (Function.update v y (some [])) x (v y)
  | .upload x host => ∃ old b, v x = some old ∧ b.length = old.length ∧
    v' = Function.update v x (some b) ∧ ∀ l, r = .ok l → host.length * layout.size ≤ old.length ∧
      b = host.flatMap layout.encode ++ old.drop (host.length * layout.size)
  | .download x => v' = v ∧ ∀ l, r = .ok l → ∃ b, v x = some b ∧
      l.length * layout.size = b.length ∧ ∀ host, b = host.flatMap layout.encode → l = host
  | .fillBytes x value => ∃ old b, v x = some old ∧ b.length = old.length ∧
    v' = Function.update v x (some b) ∧ ∀ l, r = .ok l →
      b = List.replicate old.length (UInt8.ofInt value)
  | .destruct x => v' = Function.update v x none

/-! ### The invariant -/

def Device.owner (s : Device Var D) (x : Var) : Option ℕ := (s.get x).p

/-- A buffer has the bytes that were asked for. -/
def Buffer.Sized (content : ℕ → ByteString) (b : Buffer) : Prop :=
  (b.bytes content).length = DeviceBuffer.bytes layout b.n

/-- Every allocation has one owner. -/
structure Inv (s : Device Var D) : Prop where
  unique : Unique s.owner (rt.live s.memory)
  sized : ∀ x, (s.get x).Sized layout (rt.content s.memory)
  faultless : s.faults = []

section Device

variable {rt layout} {s : Device Var D} {x y : Var}

lemma Device.get_set (s : Device Var D) (x y : Var) (b : Buffer) :
    (s.set x b).get y = if y = x then b else s.get y := by
  by_cases h : y = x
  · simp [get, set, h]
  · simp [get, set, h]

lemma Device.owner_set (s : Device Var D) (x : Var) (b : Buffer) :
    (s.set x b).owner = Function.update s.owner x b.p := by
  funext y
  rw [owner, get_set, Function.update_apply]
  split_ifs
  · rfl
  · rfl

lemma Device.value_set (s : Device Var D) (x : Var) (b : Buffer) :
    (s.set x b).value rt =
      Function.update (s.value rt) x (some (b.bytes (rt.content s.memory))) := by
  funext y
  by_cases h : y = x
  · simp [value, set, h]
  · simp [value, set, h]

lemma Device.get_drop (s : Device Var D) (x y : Var) :
    (s.drop x).get y = if y = x then {} else s.get y := by
  by_cases h : y = x
  · simp [get, drop, h]
  · simp [get, drop, h]

lemma Device.value_drop (s : Device Var D) (x : Var) :
    (s.drop x).value rt = Function.update (s.value rt) x none := by
  funext y
  by_cases h : y = x
  · simp [value, drop, h]
  · simp [value, drop, h]

omit [DecidableEq Var] in
lemma Device.get_of_not_alive (h : ¬s.Alive x) : s.get x = {} := by
  have hnone : s.buffers x = none := by simpa [Alive] using h
  rw [get, hnone]
  rfl

omit [DecidableEq Var] in
lemma Device.owner_of_not_alive (h : ¬s.Alive x) : s.owner x = none := by
  rw [owner, get_of_not_alive h]

omit [DecidableEq Var] in
lemma Device.value_of_alive (h : s.Alive x) :
    s.value rt x = some ((s.get x).bytes (rt.content s.memory)) := by
  obtain ⟨b, hb⟩ := Option.isSome_iff_exists.mp h
  rw [value, get, hb]
  rfl

omit [DecidableEq Var] in
lemma Device.alive_of_value {b : ByteString} (h : s.value rt x = some b) : s.Alive x := by
  have hsome : (s.value rt x).isSome = true := by rw [h, Option.isSome_some]
  rwa [value, Option.isSome_map] at hsome

omit [DecidableEq Var] in
lemma Device.value_congr {s' : Device Var D} {y : Var} (hbuffers : s'.buffers y = s.buffers y)
    (hcontent : ∀ p, s.owner y = some p → rt.content s'.memory p = rt.content s.memory p) :
    s'.value rt y = s.value rt y := by
  rw [value, value, hbuffers]
  cases hb : s.buffers y with
  | none => rfl
  | some b =>
    rw [Option.map_some, Option.map_some, Buffer.bytes, Buffer.bytes]
    cases hp : b.p with
    | none => rfl
    | some p =>
      have howner : s.owner y = some p := by
        rw [owner, get, hb, Option.getD_some, hp]
      rw [Option.map_some, Option.map_some, hcontent p howner]

/-- A variable is set, and the memory of the others is as it was. -/
lemma Device.value_set_of_others {s' : Device Var D} {x : Var} (b : Buffer)
    (hbuffers : s'.buffers = s.buffers) (hothers : ∀ y, y ≠ x → ∀ p, s.owner y = some p →
      rt.content s'.memory p = rt.content s.memory p) :
    (s'.set x b).value rt =
      Function.update (s.value rt) x (some (b.bytes (rt.content s'.memory))) := by
  rw [value_set]
  funext y
  by_cases hy : y = x
  · subst hy
    rw [Function.update_self, Function.update_self]
  · rw [Function.update_of_ne hy, Function.update_of_ne hy]
    exact value_congr (congrFun hbuffers y) (hothers y hy)

omit [DecidableEq Var] in
lemma bytes_congr {content content' : ℕ → ByteString} {b : Buffer}
    (h : ∀ p, b.p = some p → content' p = content p) : b.bytes content' = b.bytes content := by
  rw [Buffer.bytes, Buffer.bytes]
  cases hp : b.p with
  | none => rfl
  | some p => rw [Option.map_some, Option.map_some, h p hp]

lemma bytes_eq {n : ℕ} (h : n * layout.size < 2 ^ 64) : bytes layout n = n * layout.size :=
  Nat.mod_eq_of_lt h

lemma bytes_zero : bytes layout 0 = 0 := by
  rw [bytes, Nat.zero_mul]
  rfl

lemma sized_empty (content : ℕ → ByteString) : ({} : Buffer).Sized layout content := bytes_zero.symm

lemma length_flatMap_encode (host : List T) :
    (host.flatMap layout.encode).length = host.length * layout.size := by
  induction host with
  | nil => rw [List.flatMap_nil, List.length_nil, List.length_nil, Nat.zero_mul]
  | cons a host ih =>
    rw [List.flatMap_cons, List.length_append, layout.length_encode, ih, List.length_cons,
      Nat.succ_mul, Nat.add_comm]

lemma length_chunks (n : ℕ) (b : ByteString) : (chunks layout n b).length = n := by
  induction n generalizing b with
  | zero => rfl
  | succ n ih => rw [chunks, List.length_cons, ih]

/-- The elements of the bytes of elements. -/
lemma map_decode_chunks (host : List T) :
    (chunks layout host.length (host.flatMap layout.encode)).map layout.decode = host := by
  induction host with
  | nil => rfl
  | cons a host ih =>
    have hlength := layout.length_encode a
    rw [List.length_cons, List.flatMap_cons, chunks, List.take_left' hlength,
      List.drop_left' hlength, List.map_cons, layout.decode_encode, ih]

end Device

section Invariant

variable {rt layout} {s : Device Var D} {x y : Var}

/-- A buffer is put where it has what it says. -/
lemma inv_set {b : Buffer} (hu : Unique (Function.update s.owner x b.p) (rt.live s.memory))
    (hb : b.Sized layout (rt.content s.memory))
    (hother : ∀ y, y ≠ x → (s.get y).Sized layout (rt.content s.memory)) (hf : s.faults = []) :
    Inv rt layout (s.set x b) where
  unique := by
    rw [Device.owner_set]
    exact hu
  sized z := by
    rw [Device.get_set]
    split_ifs with hz
    · exact hb
    · exact hother z hz
  faultless := hf

/-- A variable without an allocation may be set to an empty buffer. -/
lemma Inv.set_empty (h : Inv rt layout s) (hx : s.owner x = none) : Inv rt layout (s.set x {}) := by
  refine inv_set ?_ (sized_empty _) (fun y _ => h.sized y) h.faultless
  rw [show ({} : Buffer).p = s.owner x from hx.symm, Function.update_eq_self]
  exact h.unique

omit [DecidableEq Var] in
/-- The memory of the buffers is as it was. -/
lemma Inv.same (h : Inv rt layout s) {d : D} (hd : rt.Same s.memory d) :
    Inv rt layout { s with memory := d } ∧
      Device.value rt { s with memory := d } = s.value rt := by
  have hcontent : ∀ y p, s.owner y = some p → rt.content d p = rt.content s.memory p :=
    fun y p hp => hd.content p (h.unique.mem hp)
  refine ⟨⟨?_, fun y => ?_, h.faultless⟩, ?_⟩
  · show Unique s.owner (rt.live d)
    rw [hd.live]
    exact h.unique
  · show (s.get y).Sized layout (rt.content d)
    rw [Buffer.Sized, bytes_congr (hcontent y)]
    exact h.sized y
  · funext y
    exact Device.value_congr rfl (hcontent y)

omit [DecidableEq Var] in
/-- The bytes of a buffer can be reached. -/
lemma Inv.within (h : Inv rt layout s) {length : ℕ} (hle : length ≤ bytes layout (s.get x).n) :
    rt.Within s.memory (s.get x).p length := by
  have hsized := h.sized x
  rw [Buffer.Sized, Buffer.bytes] at hsized
  cases hp : (s.get x).p with
  | none =>
    rw [hp] at hsized
    exact .inl (Nat.le_zero.mp (hle.trans_eq hsized.symm))
  | some p =>
    rw [hp] at hsized
    exact .inr ⟨p, rfl, h.unique.mem hp, hle.trans_eq hsized.symm⟩

/-- Bytes are written into a buffer, or, after an error, others. -/
lemma Inv.wrote (h : Inv rt layout s) (hx : s.Alive x) {data : ByteString} {code : ℕ} {d : D}
    (hlength : data.length ≤ bytes layout (s.get x).n)
    (hd : rt.Wrote s.memory (s.get x).p data code d) :
    Inv rt layout { s with memory := d } ∧
      ∃ old b, s.value rt x = some old ∧ old.length = bytes layout (s.get x).n ∧
        b.length = old.length ∧
        Device.value rt { s with memory := d } = Function.update (s.value rt) x (some b) ∧
        (code = 0 → b = data ++ old.drop data.length) := by
  have hothers : ∀ y, y ≠ x → ∀ p, s.owner y = some p →
      rt.content d p = rt.content s.memory p := by
    intro y hy p hp
    refine hd.others p (h.unique.mem hp) fun hxp => hy ?_
    exact h.unique.inj y x p hp hxp
  have hsame : ((s.get x).bytes (rt.content d)).length =
      ((s.get x).bytes (rt.content s.memory)).length := by
    rw [Buffer.bytes, Buffer.bytes]
    cases hp : (s.get x).p with
    | none => rfl
    | some p => exact hd.length p (h.unique.mem hp)
  refine ⟨⟨?_, fun y => ?_, h.faultless⟩, (s.get x).bytes (rt.content s.memory),
    (s.get x).bytes (rt.content d), Device.value_of_alive hx, h.sized x, hsame, ?_, fun hcode => ?_⟩
  · show Unique s.owner (rt.live d)
    rw [hd.live]
    exact h.unique
  · show (s.get y).Sized layout (rt.content d)
    by_cases hy : y = x
    · rw [hy, Buffer.Sized, hsame]
      exact h.sized x
    · rw [Buffer.Sized, bytes_congr (hothers y hy)]
      exact h.sized y
  · funext y
    by_cases hy : y = x
    · subst hy
      rw [Function.update_self]
      exact Device.value_of_alive (s := { s with memory := d }) hx
    · rw [Function.update_of_ne hy]
      exact Device.value_congr rfl (hothers y hy)
  · have hsized := h.sized x
    rw [Buffer.Sized] at hsized
    cases hp : (s.get x).p with
    | none =>
      simp only [Buffer.bytes, hp, Option.map_none, Option.getD_none, List.length_nil] at hsized ⊢
      obtain rfl := List.length_eq_zero_iff.mp (Nat.le_zero.mp (hlength.trans_eq hsized.symm))
      rfl
    | some p =>
      simp only [Buffer.bytes, hp, Option.map_some, Option.getD_some]
      exact hd.written hcode p (h.unique.mem hp) hp

end Invariant

/-! ### The operations -/

section Operations

variable {rt layout} {s s' : Device Var D} {x y : Var}

/-- After `reset` a buffer is empty, and the others are as they were. -/
lemma Inv.reset (hrt : rt.Documented) (h : Inv rt layout s) :
    Inv rt layout (reset rt x s) ∧ (DeviceBuffer.reset rt x s).owner x = none ∧
      (DeviceBuffer.reset rt x s).value rt = Function.update (s.value rt) x (some []) := by
  rw [DeviceBuffer.reset]
  cases hp : (s.get x).p with
  | none =>
    dsimp only
    refine ⟨h.set_empty hp, ?_, s.value_set x {}⟩
    rw [Device.owner_set, Function.update_self]
  | some p =>
    dsimp only
    obtain ⟨hlive, hcontent⟩ := hrt.free s.memory p (h.unique.mem hp)
    have hothers : ∀ y, y ≠ x → ∀ q, s.owner y = some q →
        rt.content (s.cudaFree rt p).memory q = rt.content s.memory q := by
      intro y hy q hq
      refine hcontent q (h.unique.mem hq) ?_
      rintro rfl
      exact hy (h.unique.inj y x q hq hp)
    refine ⟨inv_set ?_ (sized_empty _) (fun y hy => ?_) ?_, ?_, ?_⟩
    · show Unique (Function.update s.owner x none) (rt.live (rt.cudaFree p s.memory).2)
      rw [hlive]
      exact h.unique.release hp
    · show (s.get y).Sized layout (rt.content (s.cudaFree rt p).memory)
      rw [Buffer.Sized, bytes_congr (hothers y hy)]
      exact h.sized y
    · rw [Device.cudaFree, if_pos (h.unique.mem hp)]
      exact h.faultless
    · rw [Device.owner_set, Function.update_self]
    · exact Device.value_set_of_others {} rfl hothers

lemma Inv.drop (h : Inv rt layout s) (hx : s.owner x = none) : Inv rt layout (s.drop x) where
  unique := by
    have howner : (s.drop x).owner = s.owner := by
      funext y
      rw [Device.owner, Device.get_drop]
      split_ifs with hy
      · rw [hy, hx]
      · rfl
    rw [howner]
    exact h.unique
  sized y := by
    rw [Device.get_drop]
    split_ifs
    · exact sized_empty _
    · exact h.sized y
  faultless := h.faultless

lemma Inv.destruct (hrt : rt.Documented) (h : Inv rt layout s) :
    Inv rt layout (destruct rt x s) ∧
      (DeviceBuffer.destruct rt x s).value rt = Function.update (s.value rt) x none := by
  obtain ⟨hinv, hempty, hvalue⟩ := h.reset hrt (x := x)
  refine ⟨hinv.drop hempty, ?_⟩
  rw [DeviceBuffer.destruct, Device.value_drop, hvalue, Function.update_idem]

lemma Inv.construct (h : Inv rt layout s) (hx : ¬s.Alive x) :
    Inv rt layout (construct x s).2 ∧
      (DeviceBuffer.construct x s).2.value rt = Function.update (s.value rt) x (some []) :=
  ⟨h.set_empty (Device.owner_of_not_alive hx), s.value_set x {}⟩

/-- A buffer with an allocation of its own, or without one if it has no bytes. -/
lemma Inv.malloc (hrt : rt.Documented) (h : Inv rt layout s) (hx : s.owner x = none) {n : ℕ}
    (hcode : (rt.cudaMalloc (bytes layout n) s.memory).1 = 0) :
    Inv rt layout (Device.set { s with memory := (rt.cudaMalloc (bytes layout n) s.memory).2.2 } x
      { p := (rt.cudaMalloc (bytes layout n) s.memory).2.1, n }) ∧
      ∃ b, b.length = bytes layout n ∧
        Device.value rt (Device.set
          { s with memory := (rt.cudaMalloc (bytes layout n) s.memory).2.2 } x
          { p := (rt.cudaMalloc (bytes layout n) s.memory).2.1, n }) =
          Function.update (s.value rt) x (some b) := by
  cases hp : (rt.cudaMalloc (bytes layout n) s.memory).2.1 with
  | none =>
    obtain ⟨hzero, hsame⟩ := hrt.malloc_null _ _ hcode hp
    obtain ⟨hinv, hvalue⟩ := h.same hsame
    refine ⟨inv_set ?_ hzero.symm (fun y _ => hinv.sized y) hinv.faultless, [], hzero.symm, ?_⟩
    · show Unique (Function.update s.owner x none) _
      rw [← hx, Function.update_eq_self]
      exact hinv.unique
    · rw [Device.value_set, hvalue]
      rfl
  | some p =>
    obtain ⟨hfresh, hlive, hlength, hcontent⟩ := hrt.malloc _ _ p hcode hp
    have hothers : ∀ y q, s.owner y = some q →
        rt.content (rt.cudaMalloc (bytes layout n) s.memory).2.2 q = rt.content s.memory q :=
      fun y q hq => hcontent q (h.unique.mem hq)
    refine ⟨inv_set ?_ hlength (fun y _ => ?_) h.faultless, _, hlength, ?_⟩
    · show Unique (Function.update s.owner x (some p)) (rt.live _)
      rw [hlive]
      exact h.unique.acquire hx hfresh
    · show (s.get y).Sized layout (rt.content _)
      rw [Buffer.Sized, bytes_congr (hothers y)]
      exact h.sized y
    · exact Device.value_set_of_others _ rfl fun y _ => hothers y

lemma Inv.constructSize (hrt : rt.Documented) (h : Inv rt layout s) (hx : ¬s.Alive x) {n : ℕ}
    {r : Except ByteString Unit} (hrun : constructSize rt layout x n s = (r, s')) :
    Inv rt layout s' ∧ match r with
      | .ok _ => (s'.get x).n = n ∧ ∃ b, b.length = bytes layout n ∧
        s'.value rt = Function.update (s.value rt) x (some b)
      | .error _ => s'.value rt = s.value rt := by
  have howner := Device.owner_of_not_alive hx
  rw [DeviceBuffer.constructSize] at hrun
  split_ifs at hrun with hzero
  · obtain ⟨rfl, rfl⟩ := Prod.mk.inj hrun
    refine ⟨h.set_empty howner, ?_, [], ?_, s.value_set x {}⟩
    · rw [Device.get_set, if_pos rfl, hzero]
    · rw [hzero, bytes_zero]
      rfl
  · rw [Device.cudaMalloc, cudaCheck] at hrun
    split_ifs at hrun with hcode
    · obtain ⟨rfl, rfl⟩ := Prod.mk.inj hrun
      obtain ⟨hinv, hvalue⟩ := h.malloc hrt howner hcode
      refine ⟨hinv, ?_, hvalue⟩
      rw [Device.get_set, if_pos rfl]
    · obtain ⟨rfl, rfl⟩ := Prod.mk.inj hrun
      exact h.same (hrt.malloc_fails _ _ hcode)

omit [DecidableEq Var] in
/-- A check changes nothing, and says whether the call has succeeded. -/
lemma exists_of_cudaCheck {α : Type} {code : ℕ} {what : String} {a : α} {u : Device Var D}
    {r : Except ByteString α} (hrun : cudaCheck rt code what a u = (r, s')) :
    s' = u ∧ ∀ b, r = .ok b → code = 0 ∧ b = a := by
  rw [cudaCheck] at hrun
  split_ifs at hrun with hcode
  · obtain ⟨rfl, rfl⟩ := Prod.mk.inj hrun
    refine ⟨rfl, ?_⟩
    rintro _ ⟨⟩
    exact ⟨hcode, rfl⟩
  · obtain ⟨rfl, rfl⟩ := Prod.mk.inj hrun
    exact ⟨rfl, nofun⟩

omit [DecidableEq Var] in
lemma touch_of_within {p : Option ℕ} {length : ℕ} (h : rt.Within s.memory p length) (d : D) :
    s.touch rt p length d = { s with memory := d } := by
  rw [Device.touch, if_pos h]

lemma Inv.upload (hrt : rt.Documented) (h : Inv rt layout s) (hx : s.Alive x) {host : List T}
    (hsafe : (s.get x).n < host.length ∨ host.length * layout.size ≤ bytes layout (s.get x).n)
    {r : Except ByteString Unit} (hrun : upload rt layout x host s = (r, s')) :
    Inv rt layout s' ∧ ∃ old b, s.value rt x = some old ∧ b.length = old.length ∧
      s'.value rt = Function.update (s.value rt) x (some b) ∧ ∀ u, r = .ok u →
        host.length * layout.size ≤ old.length ∧
        b = host.flatMap layout.encode ++ old.drop (host.length * layout.size) := by
  have hold : s.value rt x = _ := Device.value_of_alive hx
  have hkept : s.value rt = Function.update (s.value rt) x
      (some ((s.get x).bytes (rt.content s.memory))) := by
    rw [← hold, Function.update_eq_self]
  rw [DeviceBuffer.upload] at hrun
  split_ifs at hrun with hlarge hempty
  · obtain ⟨rfl, rfl⟩ := Prod.mk.inj hrun
    exact ⟨h, _, _, hold, rfl, hkept, nofun⟩
  · obtain ⟨rfl, rfl⟩ := Prod.mk.inj hrun
    obtain rfl := List.isEmpty_iff.mp hempty
    refine ⟨h, _, _, hold, rfl, hkept, fun _ _ => ⟨Nat.zero_mul _ ▸ Nat.zero_le _, ?_⟩⟩
    rw [List.length_nil, Nat.zero_mul, List.drop_zero, List.flatMap_nil, List.nil_append]
  · have hlength : (host.flatMap layout.encode).length = _ := length_flatMap_encode host
    have hfit : (host.flatMap layout.encode).length ≤ bytes layout (s.get x).n :=
      hlength.trans_le (hsafe.resolve_left hlarge)
    have hwithin := h.within hfit
    obtain ⟨rfl, hok⟩ := exists_of_cudaCheck hrun
    rw [touch_of_within hwithin]
    obtain ⟨hinv, old, b, hvalue, hsize, hb, hvalue', hwritten⟩ :=
      h.wrote hx hfit (hrt.copyTo _ _ _ hwithin)
    refine ⟨hinv, old, b, hvalue, hb, hvalue', fun u hu => ?_⟩
    rw [hlength] at hfit hwritten
    exact ⟨hfit.trans_eq hsize.symm, hwritten (hok u hu).1⟩

lemma Inv.fillBytes (hrt : rt.Documented) (h : Inv rt layout s) (hx : s.Alive x) {value : ℤ}
    {r : Except ByteString Unit} (hrun : fillBytes rt layout x value s = (r, s')) :
    Inv rt layout s' ∧ ∃ old b, s.value rt x = some old ∧ b.length = old.length ∧
      s'.value rt = Function.update (s.value rt) x (some b) ∧ ∀ u, r = .ok u →
        b = List.replicate old.length (UInt8.ofInt value) := by
  rw [DeviceBuffer.fillBytes] at hrun
  split_ifs at hrun with hn
  · obtain ⟨rfl, rfl⟩ := Prod.mk.inj hrun
    have hold : s.value rt x = _ := Device.value_of_alive hx
    refine ⟨h, _, _, hold, rfl, ?_, fun _ _ => ?_⟩
    · rw [← hold, Function.update_eq_self]
    · have hsized := h.sized x
      rw [Buffer.Sized, hn, bytes_zero] at hsized
      rw [hsized]
      exact List.length_eq_zero_iff.mp hsized
  · have hwithin := h.within (x := x) (le_refl (bytes layout (s.get x).n))
    obtain ⟨rfl, hok⟩ := exists_of_cudaCheck hrun
    rw [touch_of_within hwithin]
    obtain ⟨hinv, old, b, hvalue, hsize, hb, hvalue', hwritten⟩ :=
      h.wrote hx List.length_replicate.le (hrt.set _ _ value _ hwithin)
    refine ⟨hinv, old, b, hvalue, hb, hvalue', fun u hu => ?_⟩
    rw [hwritten (hok u hu).1, List.length_replicate, ← hsize, List.drop_length, List.append_nil]

omit [DecidableEq Var] in
lemma Inv.download (hrt : rt.Documented) (h : Inv rt layout s) (hx : s.Alive x)
    {r : Except ByteString (List T)} (hrun : download rt layout x s = (r, s')) :
    Inv rt layout s' ∧ s'.value rt = s.value rt ∧ ∀ l, r = .ok l → ∃ b, s.value rt x = some b ∧
      l.length * layout.size = b.length ∧ ∀ host, b = host.flatMap layout.encode → l = host := by
  have hold : s.value rt x = _ := Device.value_of_alive hx
  have hsized := h.sized x
  rw [Buffer.Sized] at hsized
  rw [DeviceBuffer.download] at hrun
  split_ifs at hrun with hlarge hn
  · obtain ⟨rfl, rfl⟩ := Prod.mk.inj hrun
    exact ⟨h, rfl, nofun⟩
  · obtain ⟨rfl, rfl⟩ := Prod.mk.inj hrun
    refine ⟨h, rfl, ?_⟩
    rintro _ ⟨⟩
    rw [hn, bytes_zero] at hsized
    refine ⟨_, hold, by rw [hsized, List.length_nil, Nat.zero_mul], fun host hhost => ?_⟩
    rw [hhost, length_flatMap_encode, Nat.mul_eq_zero] at hsized
    exact (List.length_eq_zero_iff.mp (hsized.resolve_right layout.size_pos.ne')).symm
  · have hwithin := h.within (x := x) (le_refl (bytes layout (s.get x).n))
    have hbytes : bytes layout (s.get x).n = (s.get x).n * layout.size := bytes_eq (by omega)
    obtain ⟨hsame, hread⟩ := hrt.copyFrom _ _ _ hwithin
    obtain ⟨rfl, hok⟩ := exists_of_cudaCheck hrun
    rw [touch_of_within hwithin]
    obtain ⟨hinv, hvalue⟩ := h.same hsame
    refine ⟨hinv, hvalue, fun l hl => ⟨_, hold, ?_⟩⟩
    obtain ⟨hcode, rfl⟩ := hok l hl
    rw [hbytes] at hsized
    refine ⟨by rw [List.length_map, length_chunks, hsized], fun host hhost => ?_⟩
    have hcount : (s.get x).n = host.length := by
      rw [hhost, length_flatMap_encode] at hsized
      exact (Nat.eq_of_mul_eq_mul_right layout.size_pos hsized).symm
    -- a buffer with elements has bytes
    obtain ⟨p, hp⟩ : ∃ p, (s.get x).p = some p := by
      refine Option.ne_none_iff_exists'.mp fun hp => ?_
      rw [Buffer.bytes, hp] at hsized
      exact absurd hsized.symm (Nat.mul_ne_zero hn layout.size_pos.ne')
    have hbuffer : (s.get x).bytes (rt.content s.memory) = rt.content s.memory p := by
      rw [Buffer.bytes, hp]
      rfl
    rw [hread hcode p hp, ← hbuffer, hbytes, ← hsized, List.take_length, hcount, hhost,
      map_decode_chunks]

/-- The constructor it delegates to, and the upload; an exception of the latter destroys the
object. -/
lemma Inv.constructFrom (hrt : rt.Documented) (h : Inv rt layout s) (hx : ¬s.Alive x)
    {host : List T} (hhost : host.length * layout.size < 2 ^ 63) {r : Except ByteString Unit}
    (hrun : constructFrom rt layout x host s = (r, s')) :
    Inv rt layout s' ∧ match r with
      | .ok _ => s'.value rt = Function.update (s.value rt) x (some (host.flatMap layout.encode))
      | .error _ => s'.value rt = s.value rt := by
  have hnone : s.value rt x = none := by
    rw [Device.value, show s.buffers x = none by simpa [Device.Alive] using hx]
    rfl
  have hbytes : bytes layout host.length = host.length * layout.size := bytes_eq (by omega)
  rw [DeviceBuffer.constructFrom] at hrun
  cases hnew : DeviceBuffer.constructSize rt layout x host.length s with
  | mk res s₁ =>
    obtain ⟨hinv, hres⟩ := h.constructSize hrt hx hnew
    rw [hnew] at hrun
    cases res with
    | error e =>
      obtain ⟨rfl, rfl⟩ := Prod.mk.inj hrun
      exact ⟨hinv, hres⟩
    | ok u =>
      obtain ⟨hn, b, hb, hvalue⟩ := hres
      have hx₁ : s₁.value rt x = some b := by rw [hvalue, Function.update_self]
      dsimp only at hrun
      cases hup : DeviceBuffer.upload rt layout x host s₁ with
      | mk res s₂ =>
        have hsafe : (s₁.get x).n < host.length ∨
            host.length * layout.size ≤ bytes layout (s₁.get x).n := by
          rw [hn]
          exact .inr hbytes.ge
        obtain ⟨hinv₂, old, b₂, hold, -, hvalue₂, hok⟩ :=
          hinv.upload hrt (Device.alive_of_value hx₁) hsafe hup
        rw [hup] at hrun
        cases res with
        | error e =>
          obtain ⟨rfl, rfl⟩ := Prod.mk.inj hrun
          obtain ⟨hinv₃, hvalue₃⟩ := hinv₂.destruct hrt (x := x)
          refine ⟨hinv₃, ?_⟩
          rw [hvalue₃, hvalue₂, hvalue, Function.update_idem, Function.update_idem, ← hnone,
            Function.update_eq_self]
        | ok u =>
          obtain ⟨rfl, rfl⟩ := Prod.mk.inj hrun
          obtain ⟨-, rfl⟩ := hok u rfl
          obtain rfl : b = old := Option.some.inj (hx₁.symm.trans hold)
          refine ⟨hinv₂, ?_⟩
          rw [hvalue₂, hvalue, Function.update_idem, ← hbytes, ← hb, List.drop_length,
            List.append_nil]

/-- What one buffer takes over from another one. -/
lemma Inv.take (h : Inv rt layout s) (hx : s.owner x = none) (hxy : x ≠ y) (hy : s.Alive y) :
    Inv rt layout ((s.set y {}).set x (s.get y)) ∧ ((s.set y {}).set x (s.get y)).value rt =
      Function.update (Function.update (s.value rt) y (some [])) x (s.value rt y) := by
  refine ⟨inv_set ?_ (h.sized y) (fun z _ => ?_) h.faultless, ?_⟩
  · rw [Device.owner_set]
    exact h.unique.transfer hx hxy
  · rw [Device.get_set]
    split_ifs
    · exact sized_empty _
    · exact h.sized z
  · rw [Device.value_set, Device.value_set, Device.value_of_alive hy]
    rfl

lemma Inv.moveConstruct (h : Inv rt layout s) (hx : ¬s.Alive x) (hy : s.Alive y) :
    Inv rt layout (moveConstruct x y s).2 ∧ (DeviceBuffer.moveConstruct x y s).2.value rt =
      Function.update (Function.update (s.value rt) y (some [])) x (s.value rt y) := by
  refine h.take (Device.owner_of_not_alive hx) ?_ hy
  rintro rfl
  exact hx hy

lemma Inv.moveAssign (hrt : rt.Documented) (h : Inv rt layout s) (hy : s.Alive y) :
    Inv rt layout (moveAssign rt x y s).2 ∧ (DeviceBuffer.moveAssign rt x y s).2.value rt =
      if x = y then s.value rt
      else Function.update (Function.update (s.value rt) y (some [])) x (s.value rt y) := by
  rw [DeviceBuffer.moveAssign]
  split_ifs with hxy
  · exact ⟨h, rfl⟩
  · obtain ⟨hinv, hempty, hvalue⟩ := h.reset hrt (x := x)
    have hvy : (DeviceBuffer.reset rt x s).value rt y = s.value rt y := by
      rw [hvalue, Function.update_of_ne (Ne.symm hxy)]
    have halive : (DeviceBuffer.reset rt x s).Alive y :=
      Device.alive_of_value (hvy.trans (Device.value_of_alive hy))
    obtain ⟨htaken, htakenValue⟩ := hinv.take hempty hxy halive
    refine ⟨htaken, ?_⟩
    rw [htakenValue, hvy, hvalue, Function.update_comm hxy, Function.update_idem]

end Operations

/-! ### Programs -/

section Programs

variable {rt layout} {s s' : Device Var D}

omit [DecidableEq Var] in
/-- An operation that returns nothing. -/
lemma exists_of_map_eq {res : Result Var D Unit} {r : Except ByteString (List T)}
    (h : Prod.map (Except.map fun _ => []) id res = (r, s')) :
    ∃ r₀, res = (r₀, s') ∧ r = Except.map (fun _ => []) r₀ := by
  obtain ⟨r₀, s₀⟩ := res
  obtain ⟨rfl, rfl⟩ := Prod.mk.inj h
  exact ⟨r₀, rfl, rfl⟩

/-- Every safe operation keeps the invariant and does to the values what it means. -/
lemma Inv.step (hrt : rt.Documented) (h : Inv rt layout s) {op : Op Var T}
    (hvalid : op.Valid layout s) (hsafe : op.Safe layout s) {r : Except ByteString (List T)}
    (hrun : op.run rt layout s = (r, s')) :
    Inv rt layout s' ∧ op.Means layout (s.value rt) r (s'.value rt) := by
  cases op with
  | construct x =>
    obtain ⟨-, rfl⟩ := Prod.mk.inj hrun
    exact h.construct hvalid
  | constructSize x n =>
    obtain ⟨r₀, hres, rfl⟩ := exists_of_map_eq hrun
    obtain ⟨hinv, hmeans⟩ := h.constructSize hrt hvalid hres
    cases r₀ with
    | error e => exact ⟨hinv, hmeans⟩
    | ok u => exact ⟨hinv, hmeans.2⟩
  | constructFrom x host =>
    obtain ⟨r₀, hres, rfl⟩ := exists_of_map_eq hrun
    obtain ⟨hinv, hmeans⟩ := h.constructFrom hrt hvalid.1 hvalid.2 hres
    cases r₀ with
    | error e => exact ⟨hinv, hmeans⟩
    | ok u => exact ⟨hinv, hmeans⟩
  | moveConstruct x y =>
    obtain ⟨-, rfl⟩ := Prod.mk.inj hrun
    exact h.moveConstruct hvalid.1 hvalid.2
  | moveAssign x y =>
    obtain ⟨r₀, hres, rfl⟩ := exists_of_map_eq hrun
    obtain rfl : (DeviceBuffer.moveAssign rt x y s).2 = s' := congrArg Prod.snd hres
    exact h.moveAssign hrt hvalid.2
  | upload x host =>
    obtain ⟨r₀, hres, rfl⟩ := exists_of_map_eq hrun
    obtain ⟨hinv, old, b, hold, hb, hvalue, hok⟩ := h.upload hrt hvalid.1 hsafe hres
    refine ⟨hinv, old, b, hold, hb, hvalue, fun l hl => ?_⟩
    cases r₀ with
    | error e => cases hl
    | ok u => exact hok u rfl
  | download x => exact h.download hrt hvalid hrun
  | fillBytes x value =>
    obtain ⟨r₀, hres, rfl⟩ := exists_of_map_eq hrun
    obtain ⟨hinv, old, b, hold, hb, hvalue, hok⟩ := h.fillBytes hrt hvalid hres
    refine ⟨hinv, old, b, hold, hb, hvalue, fun l hl => ?_⟩
    cases r₀ with
    | error e => cases hl
    | ok u => exact hok u rfl
  | destruct x =>
    obtain ⟨-, rfl⟩ := Prod.mk.inj hrun
    exact h.destruct hrt

omit [DecidableEq Var] in
lemma inv_start {d : D} (hempty : rt.live d = ∅) :
    Inv rt layout ({ memory := d } : Device Var D) := by
  refine ⟨?_, fun _ => sized_empty _, rfl⟩
  show Unique (fun _ => none) (rt.live d)
  rw [hempty]
  exact Unique.empty

lemma inv_of_reachable (hrt : rt.Documented)
    (h : ((program rt layout).restrict fun s l => l.1.Safe layout s).Reachable s) :
    Inv rt layout s := by
  refine h.invariant ?_ fun s l s' _ hinv hstep =>
    (hinv.step hrt hstep.1.1 hstep.2 hstep.1.2).1
  rintro s ⟨d, hempty, rfl⟩
  exact inv_start hempty

/-! ### Sizes that do not wrap around -/

omit [DecidableEq Var] in
/-- The bytes of every buffer can be counted. -/
def Device.Counted (layout : Layout T) (s : Device Var D) : Prop :=
  ∀ x, (s.get x).n * layout.size < 2 ^ 64

lemma Device.Counted.set (h : s.Counted layout) (x : Var) {b : Buffer}
    (hb : b.n * layout.size < 2 ^ 64) : (s.set x b).Counted layout := by
  intro y
  rw [get_set]
  split_ifs
  · exact hb
  · exact h y

lemma counted_empty : ({} : Buffer).n * layout.size < 2 ^ 64 := by
  show 0 * layout.size < 2 ^ 64
  omega

lemma Device.Counted.reset (h : s.Counted layout) (x : Var) :
    (DeviceBuffer.reset rt x s).Counted layout := by
  rw [DeviceBuffer.reset]
  split
  · exact h.set x counted_empty
  · next p _ => exact Device.Counted.set (s := s.cudaFree rt p) h x counted_empty

lemma Device.Counted.destruct (h : s.Counted layout) (x : Var) :
    (DeviceBuffer.destruct rt x s).Counted layout := by
  intro y
  rw [DeviceBuffer.destruct, get_drop]
  split_ifs
  · exact counted_empty
  · exact h.reset x y

lemma Device.Counted.constructSize (h : s.Counted layout) (x : Var) {n : ℕ}
    (hn : n * layout.size < 2 ^ 64) :
    (DeviceBuffer.constructSize rt layout x n s).2.Counted layout := by
  rw [DeviceBuffer.constructSize]
  split_ifs with hzero
  · exact h.set x counted_empty
  · rw [Device.cudaMalloc, cudaCheck]
    split_ifs
    · exact Device.Counted.set (s := { s with memory := _ }) h x hn
    · exact h

omit [DecidableEq Var] in
lemma counted_cudaCheck {α : Type} {code : ℕ} {what : String} {a : α} (h : s.Counted layout) :
    (cudaCheck rt code what a s).2.Counted layout := by
  rw [cudaCheck]
  split_ifs
  · exact h
  · exact h

omit [DecidableEq Var] in
lemma Device.Counted.upload (h : s.Counted layout) (x : Var) (host : List T) :
    (DeviceBuffer.upload rt layout x host s).2.Counted layout := by
  rw [DeviceBuffer.upload]
  split_ifs
  · exact h
  · exact h
  · exact counted_cudaCheck h

lemma Device.Counted.constructFrom (h : s.Counted layout) (x : Var) {host : List T}
    (hhost : host.length * layout.size < 2 ^ 63) :
    (DeviceBuffer.constructFrom rt layout x host s).2.Counted layout := by
  have hnew : (DeviceBuffer.constructSize rt layout x host.length s).2.Counted layout :=
    h.constructSize x (by omega)
  rw [DeviceBuffer.constructFrom]
  rcases hres : DeviceBuffer.constructSize rt layout x host.length s with ⟨e | u, s₁⟩ <;>
    rw [hres] at hnew
  · exact hnew
  · have hup : (DeviceBuffer.upload rt layout x host s₁).2.Counted layout := hnew.upload x host
    dsimp only
    rcases hres₁ : DeviceBuffer.upload rt layout x host s₁ with ⟨e | u, s₂⟩ <;> rw [hres₁] at hup
    · exact hup.destruct x
    · exact hup

/-- No operation makes a buffer of another size than those there are, but a constructor. -/
lemma Device.Counted.step (h : s.Counted layout) {op : Op Var T} (hvalid : op.Valid layout s)
    (hfits : op.Fits layout) : (op.run rt layout s).2.Counted layout := by
  cases op with
  | construct x => exact h.set x counted_empty
  | constructSize x n => exact h.constructSize x hfits
  | constructFrom x host => exact h.constructFrom x hvalid.2
  | moveConstruct x y => exact (h.set y counted_empty).set x (h y)
  | moveAssign x y =>
    show (DeviceBuffer.moveAssign rt x y s).2.Counted layout
    rw [DeviceBuffer.moveAssign]
    split_ifs
    · exact h
    · exact ((h.reset x).set y counted_empty).set x (h.reset x y)
  | upload x host => exact h.upload x host
  | download x =>
    show (DeviceBuffer.download rt layout x s).2.Counted layout
    rw [DeviceBuffer.download]
    split_ifs
    · exact h
    · exact h
    · exact counted_cudaCheck h
  | fillBytes x value =>
    show (DeviceBuffer.fillBytes rt layout x value s).2.Counted layout
    rw [DeviceBuffer.fillBytes]
    split_ifs
    · exact h
    · exact counted_cudaCheck h
  | destruct x => exact h.destruct x

end Programs

/-! ### A runtime -/

/-- Allocations and their bytes, and how many calls there have been. -/
structure Heap where
  live : Finset ℕ := ∅
  content : ℕ → ByteString := fun _ => []
  calls : ℕ := 0

namespace Heap

def next (d : Heap) : ℕ := d.live.sup id + 1

lemma next_notMem (d : Heap) : d.next ∉ d.live := fun h =>
  Nat.not_succ_le_self _ (Finset.le_sup (f := id) h)

/-- Bytes are written at `p`, if there is no error. -/
def write (d : Heap) (code : ℕ) (p : Option ℕ) (data : ByteString) : ℕ × Heap :=
  (code, { d with
    calls := d.calls + 1
    content := if code = 0 then fun q =>
      if p = some q then data ++ (d.content q).drop data.length else d.content q
      else d.content })

/-- The heap as a runtime, with the codes of its calls. -/
def runtime (code : ℕ → ℕ) : Runtime Heap where
  live := live
  content := content
  cudaMalloc length d :=
    if code d.calls ≠ 0 then (code d.calls, none, { d with calls := d.calls + 1 })
    else if length = 0 then (0, none, { d with calls := d.calls + 1 })
    else (0, some d.next,
      { live := insert d.next d.live
        content := Function.update d.content d.next (List.replicate length 0xcd)
        calls := d.calls + 1 })
  cudaFree p d := (code d.calls, { d with live := d.live.erase p, calls := d.calls + 1 })
  cudaMemcpyHostToDevice p data d := d.write (code d.calls) p data
  cudaMemcpyDeviceToHost p length d :=
    (code d.calls, (p.map d.content).getD [] |>.take length, { d with calls := d.calls + 1 })
  cudaMemset p value length d :=
    d.write (code d.calls) p (List.replicate length (UInt8.ofInt value))
  cudaGetErrorName _ := lit "cudaErrorIllegalAddress"
  cudaGetErrorString _ := lit "an illegal memory access was encountered"

lemma wrote_write {code : ℕ → ℕ} {d : Heap} {p : Option ℕ} {data : ByteString}
    (h : (runtime code).Within d p data.length) (k : ℕ) :
    (runtime code).Wrote d p data (d.write k p data).1 (d.write k p data).2 where
  live := rfl
  others q _ hq := by
    by_cases hk : k = 0
    · simp [runtime, write, hk, hq]
    · simp [runtime, write, hk]
  length q _ := by
    by_cases hk : k = 0
    · by_cases hq : p = some q
      · rcases h with hzero | ⟨r, hr, -, hle⟩
        · simp [runtime, write, hk, hq, List.length_eq_zero_iff.mp hzero]
        · obtain rfl := Option.some.inj (hq.symm.trans hr)
          have hle' : data.length ≤ (d.content q).length := hle
          simp only [runtime, write, hk, hq, if_true, List.length_append, List.length_drop]
          omega
      · simp [runtime, write, hk, hq]
    · simp [runtime, write, hk]
  written hk q _ hq := by
    have hk' : k = 0 := hk
    simp [runtime, write, hk', hq]

/-- It is as documented. -/
lemma documented (code : ℕ → ℕ) : (runtime code).Documented where
  malloc_fails length d h := by
    by_cases hcode : code d.calls = 0
    · by_cases hlength : length = 0 <;> simp [runtime, hcode, hlength] at h
    · simp only [runtime, ne_eq, hcode, not_false_eq_true, if_true]
      exact ⟨rfl, fun _ _ => rfl⟩
  malloc_null length d hcode hp := by
    by_cases hzero : code d.calls = 0
    · by_cases hlength : length = 0
      · refine ⟨hlength, ?_⟩
        simp only [runtime, ne_eq, hzero, not_true, if_false, hlength, if_true]
        exact ⟨rfl, fun _ _ => rfl⟩
      · simp [runtime, hzero, hlength] at hp
    · simp [runtime, hzero] at hcode
  malloc length d p hcode hp := by
    by_cases hzero : code d.calls = 0
    · by_cases hlength : length = 0
      · simp [runtime, hzero, hlength] at hp
      · simp only [runtime, ne_eq, hzero, not_true, if_false, hlength, Option.some.injEq] at hp ⊢
        obtain rfl := hp
        refine ⟨d.next_notMem, rfl, by simp, fun q hq => ?_⟩
        refine Function.update_of_ne ?_ _ _
        rintro rfl
        exact d.next_notMem hq
    · simp [runtime, hzero] at hcode
  free d p hp := ⟨rfl, fun _ _ _ => rfl⟩
  copyTo d p data h := wrote_write h _
  copyFrom d p length h := by
    refine ⟨⟨rfl, fun _ _ => rfl⟩, fun _ q hq => ?_⟩
    simp [runtime, hq]
  set d p value length h := by
    refine wrote_write ?_ _
    rwa [List.length_replicate]

end Heap

/-- Bytes, as they are. -/
def Layout.byte : Layout UInt8 where
  size := 1
  size_pos := Nat.one_pos
  encode x := [x]
  decode s := s.headD 0
  length_encode _ := rfl
  decode_encode _ := rfl

/-- A runtime whose second call fails. -/
abbrev flaky : Runtime Heap := Heap.runtime fun n => if n = 1 then 700 else 0

/-- Elements of four bytes. -/
def Layout.word : Layout (UInt8 × UInt8 × UInt8 × UInt8) where
  size := 4
  size_pos := by decide
  encode x := [x.1, x.2.1, x.2.2.1, x.2.2.2]
  decode s := (s.getD 0 0, s.getD 1 0, s.getD 2 0, s.getD 3 0)
  length_encode _ := rfl
  decode_encode _ := rfl

/-- Of `2 ^ 62 + 1` elements four bytes are allocated, and two elements are let through. -/
example : (upload (Heap.runtime fun _ => 0) .word 0 [(1, 2, 3, 4), (5, 6, 7, 8)]
    (constructSize (Heap.runtime fun _ => 0) .word 0 (2 ^ 62 + 1)
      ({ memory := {} } : Device ℕ Heap)).2).2.faults = [.access (some 1) 8] := by
  decide +kernel

end Cudatest.DeviceBuffer
