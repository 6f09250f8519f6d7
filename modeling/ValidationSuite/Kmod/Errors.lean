import ValidationSuite.Kmod.Refinement

/-!
# Failing calls

A call that returns a negative errno should leave the data of the device and its own file offset as
they were. Every call does but one: `VALDEV_IOC_ADD_COUNTER` has added by the time it finds that it
cannot copy the sum out.
-/

namespace Kmod

open Transition

/-! ### The data of the device -/

/-- What a failing call has to leave alone; `opens` is not part of it. -/
structure Valdev.SameData (v v' : Valdev) : Prop where
  buf_eq : v'.buf = v.buf
  len_eq : v'.len = v.len
  counter_eq : v'.counter = v.counter

namespace Valdev.SameData

variable {v v' v'' : Valdev}

lemma refl (v : Valdev) : v.SameData v := ⟨rfl, rfl, rfl⟩

lemma trans (h : v.SameData v') (h' : v'.SameData v'') : v.SameData v'' :=
  ⟨h'.buf_eq.trans h.buf_eq, h'.len_eq.trans h.len_eq, h'.counter_eq.trans h.counter_eq⟩

lemma opened (v : Valdev) (n : UInt64) : v.SameData { v with opens := n } := ⟨rfl, rfl, rfl⟩

lemma addCounter_iff {delta : UInt64} : v.SameData (v.addCounter delta) ↔ delta = 0 := by
  constructor
  · intro h
    have hcounter : v.counter + delta = v.counter := h.counter_eq
    simpa using hcounter
  · rintro rfl
    exact ⟨rfl, rfl, UInt64.add_zero _⟩

end Valdev.SameData

/-- The requests whose section leaves the data alone, whatever it is. -/
def Request.Idle : Request → Prop
  | .read _ _ | .stat | .length => True
  | .add delta => delta = 0
  | .write _ _ | .reset => False

/-! ### The failing calls -/

namespace Call

variable {x : Call}

/-- `VALDEV_IOC_ADD_COUNTER` with something to add, whose argument can be read but not written. -/
def LosesSum (x : Call) : Prop :=
  x.inLeft = 0 ∧ x.outLeft ≠ 0 ∧ ∃ delta, delta ≠ 0 ∧ x.op = .ioctl iocAddCounter delta

/-- What the caller has handed in. -/
def args (x : Call) : Op × ℤ × ℕ × ℕ × Bool := (x.op, x.start, x.inLeft, x.outLeft, x.alloc)

lemma LosesSum.congr {y : Call} (h : y.args = x.args) (hy : y.LosesSum) : x.LosesSum := by
  simp only [args, Prod.mk.injEq] at h
  obtain ⟨hop, _, hin, hout, _⟩ := h
  rwa [LosesSum, ← hop, ← hin, ← hout]

lemma SeeksFrom.idle {whence base : ℤ} (h : x.SeeksFrom whence base) {request : Request}
    {response : Response} (hentry : x.entry = some (request, response)) : request.Idle := by
  rcases h with ⟨_, _, hnone⟩ | ⟨_, _, hnone⟩ | ⟨_, n, _, hsome⟩
  · rw [hentry] at hnone
    cases hnone
  · rw [hentry] at hnone
    cases hnone
  · rw [hentry] at hsome
    cases hsome
    exact trivial

/-- The section of a call that fails, if it has gone through one, has left the data alone. -/
lemma FailsWith.idle {e : Errno} (h : x.FailsWith e) (hloses : ¬ x.LosesSum) {request : Request}
    {response : Response} (hentry : x.entry = some (request, response)) : request.Idle := by
  obtain ⟨_, h⟩ := h
  cases hop : x.op with
  | «open» => simp only [hop] at h
  | read count =>
    simp only [hop, hentry] at h
    obtain ⟨_, ⟨_, _, hnone⟩ | ⟨_, _, _, hsome⟩⟩ := h
    · cases hnone
    · cases hsome
      exact trivial
  | write data =>
    simp only [hop, hentry] at h
    cases h.2.1
  | llseek off whence =>
    simp only [hop] at h
    obtain ⟨_, ⟨_, hnone⟩ | ⟨base, hbase, _⟩⟩ := h
    · rw [hentry] at hnone
      cases hnone
    · exact hbase.idle hentry
  | ioctl cmd arg =>
    simp only [hop, hentry] at h
    rcases h with ⟨_, _, _, hnone⟩ | ⟨rfl, _, hadd⟩ | ⟨_, _, _, _, _, hsome⟩ | ⟨_, _, hnone⟩
    · cases hnone
    · rcases hadd with ⟨_, hnone⟩ | ⟨hin, hout, _, hsome⟩
      · cases hnone
      · cases hsome
        by_contra harg
        exact hloses ⟨hin, hout, arg, harg, hop⟩
    · cases hsome
      exact trivial
    · cases hnone

end Call

/-! ### What a step changes -/

section Steps

variable {setpos : VfsSetpos} {i : ℕ} {s s' : Store} {x x' : Call}

/-- The step leaves the data alone, or it is a section whose request does not. -/
def Spares (s : Store) (s' : Store) (x' : Call) : Prop :=
  s.dev.SameData s'.dev ∨
    ∃ request response, x'.entry = some (request, response) ∧ ¬ request.Idle

lemma readSection_spares (count : ℕ) :
    Spares s (readSection i s x count).1 (readSection i s x count).2 := by
  left
  simp only [readSection]
  split_ifs <;> exact .refl _

lemma ioctlEnter_spares (cmd : UInt32) (arg : UInt64) :
    Spares s (ioctlEnter i s x cmd arg).1 (ioctlEnter i s x cmd arg).2 := by
  simp only [ioctlEnter]
  split_ifs
  · exact .inl (.refl _)
  · exact .inl (.refl _)
  · exact .inl (.refl _)
  · exact .inr ⟨_, _, rfl, id⟩
  · exact .inl (.refl _)
  · exact .inl (.refl _)

lemma addSection_spares (delta : UInt64) :
    Spares s (addSection i s x delta).1 (addSection i s x delta).2 := by
  rcases eq_or_ne delta 0 with hzero | hne
  · exact .inl (Valdev.SameData.addCounter_iff.mpr hzero)
  · exact .inr ⟨_, _, rfl, hne⟩

lemma llseekBase_spares (off whence : ℤ) :
    Spares s (llseekBase i s x off whence).1 (llseekBase i s x off whence).2 := by
  left
  simp only [llseekBase]
  split_ifs <;> exact .refl _

lemma step_spares (h : step setpos i s x = some (s', x')) : Spares s s' x' := by
  cases Stepped.of_step h with
  | opened _ _ => exact .inl (.opened _ _)
  | read _ _ => exact readSection_spares _
  | staged _ _ => exact .inr ⟨_, _, rfl, id⟩
  | ioctl _ _ => exact ioctlEnter_spares _ _
  | loaded _ => exact addSection_spares _
  | llseek _ _ => exact llseekBase_spares _ _
  | snapped _ => exact .inl (.refl _)
  | write _ _ => exact .inl (.refl _)
  | added _ => exact .inl (.refl _)
  | sampled _ => exact .inl (.refl _)
  | gathered _ => exact .inl (.refl _)
  | based _ => exact .inl (.refl _)

/-- No step changes what the caller has handed in. -/
lemma step_args (h : step setpos i s x = some (s', x')) : x'.args = x.args := by
  cases Stepped.of_step h with
  | read _ _ =>
    simp only [readSection]
    split_ifs <;> rfl
  | snapped _ =>
    simp only [readCopyOut]
    split_ifs <;> rfl
  | write _ _ =>
    simp only [writeStage]
    split_ifs <;> rfl
  | ioctl _ _ =>
    simp only [ioctlEnter]
    split_ifs <;> rfl
  | llseek _ _ =>
    simp only [llseekBase]
    split_ifs <;> rfl
  | based _ =>
    simp only [llseekSet]
    split_ifs <;> rfl
  | opened _ _ => rfl
  | staged _ _ => rfl
  | loaded _ => rfl
  | added _ => rfl
  | sampled _ => rfl
  | gathered _ => rfl

/-- A call keeps what it was called with, and its section. -/
def Call.Grows (x x' : Call) : Prop :=
  x'.args = x.args ∧ ∀ p, x.entry = some p → x'.entry = some p

lemma Call.Grows.refl (x : Call) : x.Grows x := ⟨rfl, fun _ h => h⟩

lemma Call.Grows.trans {x₁ x₂ : Call} (h : x.Grows x₁) (h' : x₁.Grows x₂) : x.Grows x₂ :=
  ⟨h'.1.trans h.1, fun p hp => h'.2 p (h.2 p hp)⟩

lemma step_grows (hx : x.Explained) (h : step setpos i s x = some (s', x')) : x.Grows x' := by
  refine ⟨step_args h, fun p hp => ?_⟩
  rcases step_logs hx h with ⟨_, hsame⟩ | ⟨hnone, _⟩
  · rw [hsame, hp]
  · rw [hp] at hnone
    cases hnone

lemma path_grows {s s' : Pool Store Call} {ls : List Pool.Label}
    (h : (valdev setpos).lts.Reachable s) (hp : (valdev setpos).lts.Path s ls s')
    (hi : s.procs[i]? = some x) : ∃ y, s'.procs[i]? = some y ∧ x.Grows y :=
  System.evolves Call.Grows.refl (fun _ _ _ => .trans)
    (fun _ _ y _ _ hr hy => step_grows ((valdev_sound hr).2 y (List.mem_of_getElem? hy))) h hp hi

/-! ### A call on its own -/

/-- The number of steps that a call has left, at most. -/
def Phase.stepsLeft : Phase → ℕ
  | .entered => 3
  | .loaded _ | .sampled _ _ => 2
  | .snapped _ _ | .staged _ | .added _ | .gathered _ | .based _ _ => 1
  | .returned _ => 0

/-- Every step brings a call closer to its return. -/
lemma step_stepsLeft (h : step setpos i s x = some (s', x')) :
    x'.phase.stepsLeft < x.phase.stepsLeft := by
  cases Stepped.of_step h with
  | opened hphase _ => simp [hphase, Phase.stepsLeft]
  | read hphase _ =>
    simp only [readSection]
    split_ifs <;> simp [hphase, Phase.stepsLeft]
  | snapped hphase =>
    simp only [readCopyOut]
    split_ifs <;> simp [hphase, Phase.stepsLeft]
  | write hphase _ =>
    simp only [writeStage]
    split_ifs <;> simp [hphase, Phase.stepsLeft]
  | staged hphase _ => simp [hphase, Phase.stepsLeft, writeSection]
  | ioctl hphase _ =>
    simp only [ioctlEnter]
    split_ifs <;> simp [hphase, Phase.stepsLeft, Call.copyOut]
  | loaded hphase => simp [hphase, Phase.stepsLeft, addSection]
  | added hphase => simp [hphase, Phase.stepsLeft, Call.copyOut]
  | sampled hphase => simp [hphase, Phase.stepsLeft]
  | gathered hphase => simp [hphase, Phase.stepsLeft, Call.copyOut]
  | llseek hphase _ =>
    simp only [llseekBase]
    split_ifs <;> simp [hphase, Phase.stepsLeft]
  | based hphase =>
    simp only [llseekSet]
    split_ifs <;> simp [hphase, Phase.stepsLeft]

/-- A call that has no next step has returned. -/
lemma returned_of_step_eq_none (hx : x.Explained) (h : step setpos i s x = none) :
    ∃ ret, x.phase = .returned ret := by
  cases hphase : x.phase with
  | returned ret => exact ⟨ret, rfl⟩
  | entered => cases hop : x.op <;> simp [step, hphase, hop] at h
  | staged tmp =>
    obtain ⟨_, _, data, hop, _⟩ := by simpa only [Call.Explained, hphase] using hx
    simp [step, hphase, hop] at h
  | snapped count snap => simp [step, hphase] at h
  | loaded delta => simp [step, hphase] at h
  | added value => simp [step, hphase] at h
  | sampled c n => simp [step, hphase] at h
  | gathered st => simp [step, hphase] at h
  | based base off => simp [step, hphase] at h

/-- The call `x` on its own from the store `s`, for at most `n` steps. -/
def runAlone (setpos : VfsSetpos) (i : ℕ) : ℕ → Store → Call → Store × Call
  | 0, s, x => (s, x)
  | n + 1, s, x =>
    match step setpos i s x with
    | none => (s, x)
    | some (s', x') => runAlone setpos i n s' x'

lemma Spares.head {s₁ s₂ : Store} {x₁ x₂ : Call} (h : Spares s s₁ x₁) (hgrows : x₁.Grows x₂)
    (h' : Spares s₁ s₂ x₂) : Spares s s₂ x₂ := by
  rcases h with hsame | ⟨request, response, hentry, hidle⟩
  · exact h'.imp_left hsame.trans
  · exact .inr ⟨request, response, hgrows.2 _ hentry, hidle⟩

/-- A call on its own stays explained, and leaves the data alone unless its section does not. -/
lemma runAlone_spec (n : ℕ) (hs : ∃ f, s.Sound f) (hx : x.Explained) :
    (runAlone setpos i n s x).2.Explained ∧ x.Grows (runAlone setpos i n s x).2 ∧
      Spares s (runAlone setpos i n s x).1 (runAlone setpos i n s x).2 := by
  induction n generalizing s x with
  | zero => exact ⟨hx, .refl x, .inl (.refl _)⟩
  | succ n ih =>
    rw [runAlone]
    split
    · exact ⟨hx, .refl x, .inl (.refl _)⟩
    · next s₁ x₁ hstep =>
      obtain ⟨f, hs⟩ := hs
      obtain ⟨f₁, hs₁, hx₁⟩ := step_sound hs hx hstep
      obtain ⟨hexplained, hgrows, hspares⟩ := ih ⟨f₁, hs₁⟩ hx₁
      exact ⟨hexplained, (step_grows hx hstep).trans hgrows,
        (step_spares hstep).head hgrows hspares⟩

/-- Given the steps it has left, a call on its own returns. -/
lemma runAlone_returns (n : ℕ) (hn : x.phase.stepsLeft ≤ n) (hs : ∃ f, s.Sound f)
    (hx : x.Explained) : ∃ ret, (runAlone setpos i n s x).2.phase = .returned ret := by
  induction n generalizing s x with
  | zero =>
    rw [runAlone]
    cases hstep : step setpos i s x with
    | none => exact returned_of_step_eq_none hx hstep
    | some p =>
      have hlt := step_stepsLeft hstep
      omega
  | succ n ih =>
    rw [runAlone]
    split
    · next hstep => exact returned_of_step_eq_none hx hstep
    · next s₁ x₁ hstep =>
      obtain ⟨f, hs⟩ := hs
      obtain ⟨f₁, hs₁, hx₁⟩ := step_sound hs hx hstep
      have hlt := step_stepsLeft hstep
      exact ih (by omega) ⟨f₁, hs₁⟩ hx₁

end Steps

/-! ### Failing and leaving the device as it was -/

/-- The call number `i`, on its own. -/
def syscall (setpos : VfsSetpos) (i : ℕ) (s : Store) (x : Call) : Store × Call :=
  runAlone setpos i 3 s x

/-- If the call number `i` fails, on its own from the store `s`, the data and its offset are as
before. -/
def LeavesAlone (setpos : VfsSetpos) (i : ℕ) (s : Store) (x : Call) : Prop :=
  ∀ e, (syscall setpos i s x).2.phase = .returned (.error e) →
    s.dev.SameData (syscall setpos i s x).1.dev ∧ (syscall setpos i s x).2.pos = x.start

/-- If the call number `i` fails, however the clients interleave from the state `s` on, none of its
own steps has changed the data, and its offset is as before. -/
def LeavesAmongOthers (setpos : VfsSetpos) (i : ℕ) (s : Pool Store Call) (x : Call) : Prop :=
  ∀ ls u u' ls' t y e, (valdev setpos).lts.Path s ls u →
    (valdev setpos).lts.step u (.act i) u' → (valdev setpos).lts.Path u' ls' t →
    t.procs[i]? = some y → y.phase = .returned (.error e) →
    u.store.dev.SameData u'.store.dev ∧ y.pos = x.start

section Failing

variable {setpos : VfsSetpos} {i : ℕ}

lemma leavesAlone {s : Store} {x : Call} (hs : ∃ f, s.Sound f) (hx : x.Explained)
    (hloses : ¬ x.LosesSum) : LeavesAlone setpos i s x := by
  intro e he
  have hspec : (syscall setpos i s x).2.Explained ∧ x.Grows (syscall setpos i s x).2 ∧
      Spares s (syscall setpos i s x).1 (syscall setpos i s x).2 := runAlone_spec 3 hs hx
  obtain ⟨hexplained, ⟨hargs, _⟩, hspares⟩ := hspec
  have hfails := hexplained.of_error he
  constructor
  · rcases hspares with hsame | ⟨request, response, hentry, hidle⟩
    · exact hsame
    · exact absurd (hfails.idle (fun h => hloses (h.congr hargs)) hentry) hidle
  · exact hfails.1.trans (congrArg (·.2.1) hargs)

lemma leavesAmongOthers {s : Pool Store Call} (h : (valdev setpos).lts.Reachable s) {x : Call}
    (hi : s.procs[i]? = some x) (hloses : ¬ x.LosesSum) : LeavesAmongOthers setpos i s x := by
  intro ls u u' ls' t y e hbefore hstep hafter hy he
  have hu' := (h.path hbefore).step hstep
  cases hstep with
  | @act _ z z' store hz hact =>
    obtain ⟨z₁, hz₁, hgrows⟩ := path_grows h hbefore hi
    obtain rfl := Option.some.inj (hz.symm.trans hz₁)
    have hlt := (List.getElem?_eq_some_iff.mp hz).1
    obtain ⟨y₁, hy₁, hgrows'⟩ := path_grows hu' hafter (List.getElem?_set_self hlt)
    obtain rfl := Option.some.inj (hy.symm.trans hy₁)
    have hargs : y.args = x.args := hgrows'.1.trans ((step_args hact).trans hgrows.1)
    have hfails := ((valdev_sound (hu'.path hafter)).2 y (List.mem_of_getElem? hy)).of_error he
    constructor
    · rcases step_spares hact with hsame | ⟨request, response, hentry, hidle⟩
      · exact hsame
      · exact absurd (hfails.idle (fun h => hloses (h.congr hargs)) (hgrows'.2 _ hentry)) hidle
    · exact hfails.1.trans (congrArg (·.2.1) hargs)

section LosesSum

variable {s : Store} {x : Call} {delta : UInt64}

lemma step_load (hphase : x.phase = .entered) (hop : x.op = .ioctl iocAddCounter delta)
    (hin : x.inLeft = 0) : step setpos i s x = some (s, x.goto (.loaded delta)) := by
  have hne : iocAddCounter ≠ iocGetVersion := by decide
  simp [step, hphase, hop, ioctlEnter, hne, hin]

lemma step_add : step setpos i s (x.goto (.loaded delta)) =
    some (addSection i s (x.goto (.loaded delta)) delta) := rfl

lemma step_fault (hout : x.outLeft ≠ 0) : step setpos i
    (addSection i s (x.goto (.loaded delta)) delta).1
    (addSection i s (x.goto (.loaded delta)) delta).2 =
      some ((addSection i s (x.goto (.loaded delta)) delta).1,
        (addSection i s (x.goto (.loaded delta)) delta).2.finish (.error .efault)) := by
  simp [step, addSection, Call.goto, Call.applied, Call.copyOut, hout]

lemma not_leavesAlone (hphase : x.phase = .entered) (hloses : x.LosesSum) :
    ¬ LeavesAlone setpos i s x := by
  obtain ⟨hin, hout, delta, hne, hop⟩ := hloses
  intro h
  have hrun : syscall setpos i s x =
      ((addSection i s (x.goto (.loaded delta)) delta).1,
        (addSection i s (x.goto (.loaded delta)) delta).2.finish (.error .efault)) := by
    simp only [syscall, runAlone, step_load hphase hop hin, step_add, step_fault hout]
  rw [LeavesAlone, hrun] at h
  exact hne (Valdev.SameData.addCounter_iff.mp (h .efault rfl).1)

lemma not_leavesAmongOthers {s : Pool Store Call} (hi : s.procs[i]? = some x)
    (hphase : x.phase = .entered) (hloses : x.LosesSum) : ¬ LeavesAmongOthers setpos i s x := by
  obtain ⟨hin, hout, delta, hne, hop⟩ := hloses
  intro h
  -- the other clients do nothing meanwhile
  have hself : ∀ (l : List Call) (y : Call), i < l.length → (l.set i y)[i]? = some y :=
    fun l y hlt => List.getElem?_set_self hlt
  have hlt := (List.getElem?_eq_some_iff.mp hi).1
  have hload := Pool.Step.act (Y := valdev setpos) hi (step_load hphase hop hin)
  have hloaded := hself s.procs (x.goto (.loaded delta)) hlt
  have hadd := Pool.Step.act (Y := valdev setpos)
    (s := ⟨s.store, s.procs.set i (x.goto (.loaded delta))⟩) hloaded step_add
  have hadded := hself (s.procs.set i (x.goto (.loaded delta)))
    (addSection i s.store (x.goto (.loaded delta)) delta).2 (by rwa [List.length_set])
  have hfault := Pool.Step.act (Y := valdev setpos)
    (s := ⟨(addSection i s.store (x.goto (.loaded delta)) delta).1, _⟩) hadded (step_fault hout)
  have hfaulted := hself _
    ((addSection i s.store (x.goto (.loaded delta)) delta).2.finish (.error .efault))
    ((List.getElem?_eq_some_iff.mp hadded).1)
  have hsame := (h _ _ _ _ _ _ .efault (.cons hload (.nil _)) hadd (.cons hfault (.nil _)) hfaulted
    rfl).1
  exact hne (Valdev.SameData.addCounter_iff.mp hsame)

end LosesSum

end Failing

/-- A call that comes to the device in any state that it can reach, with any arguments and any
success of its user copies and its allocation, returns if it is left alone. If it returns an error,
the data of the device and the file offset are as they were, alone and among other clients, just
when it is not a `VALDEV_IOC_ADD_COUNTER` of a nonzero number that copies it in and then cannot copy
the sum out. -/
theorem failing_call_leaves_device (setpos : VfsSetpos) (s : Pool Store Call)
    (h : (valdev setpos).lts.Reachable s) (x : Call) (hx : (valdev setpos).enter x) :
    (∃ ret, (syscall setpos s.procs.length s.store x).2.phase = .returned ret) ∧
    (LeavesAlone setpos s.procs.length s.store x ↔ ¬ x.LosesSum) ∧
    (LeavesAmongOthers setpos s.procs.length { s with procs := s.procs ++ [x] } x ↔
      ¬ x.LosesSum) := by
  have hs := (valdev_sound h).1
  have hentered : x.Explained := by
    simpa only [Call.Explained, hx.1] using hx.2
  have hi : (s.procs ++ [x])[s.procs.length]? = some x := List.getElem?_concat_length
  refine ⟨runAlone_returns 3 ?_ hs hentered, ⟨?_, leavesAlone hs hentered⟩,
    ⟨?_, leavesAmongOthers (h.step (.enter hx)) hi⟩⟩
  · rw [hx.1]
    exact le_rfl
  · intro hleaves hloses
    exact not_leavesAlone hx.1 hloses hleaves
  · intro hleaves hloses
    exact not_leavesAmongOthers hi hx.1 hloses hleaves

namespace Client

/-- An addition of five to a number that can be read but not written. -/
def addToReadOnly : Call :=
  { op := .ioctl iocAddCounter 5, start := 0, outLeft := 8 }

end Client

/-- The addition is there, and the call fails with `EFAULT`. -/
theorem add_fails_after_adding :
    (valdev Client.setpos).lts.Reachable ⟨{}, []⟩ ∧
      (valdev Client.setpos).enter Client.addToReadOnly ∧
      (syscall Client.setpos 0 {} Client.addToReadOnly).2.phase = .returned (.error .efault) ∧
      (syscall Client.setpos 0 {} Client.addToReadOnly).1.dev.counter = 5 ∧
      ¬ LeavesAlone Client.setpos 0 {} Client.addToReadOnly := by
  refine ⟨.init ⟨rfl, rfl⟩, ⟨rfl, rfl, rfl⟩, rfl, by decide, ?_⟩
  intro h
  exact absurd (h .efault rfl).1.counter_eq (by decide)

namespace Client

/-- A write to the beginning of the device, whose data cannot be read. -/
def badWrite : Call := { op := .write [9, 9], start := 0, inLeft := 2 }

def addFive : Call := { op := .ioctl iocAddCounter 5, start := 0 }

/-- Five has been added to the counter of a device with data. -/
lemma reachable_added : ∃ s : Pool Store Call,
    (valdev setpos).lts.Reachable s ∧ s.store.dev.counter = 5 ∧ s.store.dev.len = 5 := by
  have hadded := reachable_gapWrite
    |>.step (.enter (x := addFive) ⟨rfl, rfl, rfl⟩)
    |>.step (.act (i := 1) rfl rfl)
    |>.step (.act (i := 1) rfl rfl)
  exact ⟨_, hadded, by decide, by decide⟩

end Client

/-- A write whose data cannot be read fails, and leaves the data and the counter as they are. -/
theorem failing_call_leaves_device_badWrite :
    ∃ s : Pool Store Call, (valdev Client.setpos).lts.Reachable s ∧
      s.store.dev.counter = 5 ∧ s.store.dev.len = 5 ∧
      (syscall Client.setpos s.procs.length s.store Client.badWrite).2.phase =
        .returned (.error .efault) ∧
      s.store.dev.SameData
        (syscall Client.setpos s.procs.length s.store Client.badWrite).1.dev := by
  obtain ⟨s, hs, hcounter, hlen⟩ := Client.reachable_added
  obtain ⟨-, hleaves, -⟩ := failing_call_leaves_device Client.setpos s hs Client.badWrite
    ⟨rfl, rfl, rfl⟩
  have hfails : (syscall Client.setpos s.procs.length s.store Client.badWrite).2.phase =
      .returned (.error .efault) := rfl
  have halone : LeavesAlone Client.setpos s.procs.length s.store Client.badWrite := by
    refine hleaves.mpr ?_
    rintro ⟨_, _, _, _, hop⟩
    cases hop
  exact ⟨s, hs, hcounter, hlen, hfails, (halone .efault hfails).1⟩

end Kmod
