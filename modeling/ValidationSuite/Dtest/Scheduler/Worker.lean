import ValidationSuite.Dtest.Scheduler.Properties
import ValidationSuite.Library.Transition

/-!
# The worker threads

`Run::execute` starts one thread per agent slot, and each runs `Run::worker`. The threads share
the scheduling state under the mutex `mu_` and the condition variable `cv_`. A step is what one
thread does between two points where another can take over: it takes the mutex, it goes once
through the loop until it gives the mutex up, or `exec_.run` returns to it.
-/

namespace Dtest

open Transition

/-- One thread for each slot of each agent entry. -/
abbrev Worker (S : Scheduler) := (a : Entry S) × Fin (S.agents.get a).slots.toNat

/-- Where a thread stands. -/
inductive Pc (tasks : List Task) where
  /-- started, has not yet taken `mu_` -/
  | start
  /-- holds `mu_`, about to evaluate the condition of the loop -/
  | locked
  /-- blocked in `cv_.wait`, not notified -/
  | waiting
  /-- still in `cv_.wait`, but notified: it has to take `mu_` again -/
  | notified
  /-- in `exec_.run`, without `mu_` -/
  | calling (t : TaskId tasks)
  /-- left the loop -/
  | exited
  deriving DecidableEq

structure State (S : Scheduler) (tasks : List Task) where
  run : Run S tasks
  pc : Worker S → Pc tasks

/-- The steps, with the thread that takes them. -/
inductive Label (S : Scheduler) (tasks : List Task) where
  | acquire (w : Worker S)
  | wake (w : Worker S)
  | wait (w : Worker S)
  | call (w : Worker S) (t : TaskId tasks)
  | ret (w : Worker S) (t : TaskId tasks) (res : AttemptResult)
  | leave (w : Worker S)

variable {S : Scheduler} {tasks : List Task}

def Label.worker : Label S tasks → Worker S
  | .acquire w | .wake w | .wait w | .call w _ | .ret w _ _ | .leave w => w

/-- The condition of the loop of `worker`. -/
def Run.continues (r : Run S tasks) (a : Entry S) : Bool := decide (0 < r.remaining) && r.alive a

lemma Run.continues_iff (r : Run S tasks) (a : Entry S) :
    r.continues a = true ↔ 0 < r.remaining ∧ r.alive a = true := by
  simp [continues]

namespace State

variable (s : State S tasks)

/-- Before the threads start, `execute` has resolved what nobody can run. -/
def init : State S tasks where
  run := ({} : Run S tasks).resolveUnschedulable
  pc := fun _ => .start

/-- No thread holds `mu_`. -/
def MuFree : Prop := ∀ w, s.pc w ≠ .locked

/-- Every thread has left its loop, so `execute` can join them. -/
def Completed : Prop := ∀ w, s.pc w = .exited

def setPc (w : Worker S) (p : Pc tasks) : State S tasks :=
  { s with pc := Function.update s.pc w p }

/-- `cv_.notify_all()`. -/
def notifyAll : State S tasks :=
  { s with pc := fun w => if s.pc w = .waiting then .notified else s.pc w }

def withRun (r : Run S tasks) : State S tasks := { s with run := r }

instance : Decidable s.MuFree := inferInstanceAs (Decidable (∀ w, s.pc w ≠ .locked))

instance : Decidable s.Completed := inferInstanceAs (Decidable (∀ w, s.pc w = .exited))

@[simp] lemma setPc_run (w : Worker S) (p : Pc tasks) : (s.setPc w p).run = s.run := rfl

@[simp] lemma setPc_pc (w w' : Worker S) (p : Pc tasks) :
    (s.setPc w p).pc w' = if w' = w then p else s.pc w' := by
  simp [setPc, Function.update_apply]

@[simp] lemma notifyAll_run : s.notifyAll.run = s.run := rfl

@[simp] lemma withRun_run (r : Run S tasks) : (s.withRun r).run = r := rfl

@[simp] lemma withRun_pc (r : Run S tasks) : (s.withRun r).pc = s.pc := rfl

@[simp] lemma withRun_notifyAll_run (r : Run S tasks) : (s.withRun r).notifyAll.run = r := rfl

/-- Nobody sleeps through a notification. -/
@[simp] lemma notifyAll_pc_ne_waiting (w : Worker S) : s.notifyAll.pc w ≠ .waiting := by
  by_cases h : s.pc w = .waiting <;> simp [notifyAll, h]

end State

/-- The steps of the threads. `wait`, `call` and `leave` are the three ways through the loop of
`worker` from its condition to the point where `mu_` is released; `ret` is `lk.lock()` after
`exec_.run` and what follows up to the condition. -/
inductive Step : State S tasks → Label S tasks → State S tasks → Prop
  | acquire {s : State S tasks} (w : Worker S) (hfree : s.MuFree)
      (hpc : s.pc w = .start ∨ s.pc w = .notified) :
      Step s (.acquire w) (s.setPc w .locked)
  /-- `cv_.wait` may also return without a notification. -/
  | wake {s : State S tasks} (w : Worker S) (hpc : s.pc w = .waiting) :
      Step s (.wake w) (s.setPc w .notified)
  | wait {s : State S tasks} (w : Worker S) (hpc : s.pc w = .locked)
      (hcond : s.run.continues w.1 = true) (hpick : s.run.pick w.1 = none) :
      Step s (.wait w) (s.setPc w .waiting)
  | call {s : State S tasks} (w : Worker S) (t : TaskId tasks) (hpc : s.pc w = .locked)
      (hcond : s.run.continues w.1 = true) (hpick : s.run.pick w.1 = some t) :
      Step s (.call w t) ((s.withRun (s.run.start w.1 t)).setPc w (.calling t))
  | ret {s : State S tasks} (w : Worker S) (t : TaskId tasks) (res : AttemptResult)
      (hfree : s.MuFree) (hpc : s.pc w = .calling t) :
      Step s (.ret w t res) ((s.withRun (s.run.record w.1 t res)).notifyAll.setPc w .locked)
  | leave {s : State S tasks} (w : Worker S) (hpc : s.pc w = .locked)
      (hcond : s.run.continues w.1 = false) :
      Step s (.leave w) (s.notifyAll.setPc w .exited)

/-- The step with a given label, if the state allows it. -/
def State.next (s : State S tasks) : Label S tasks → Option (State S tasks)
  | .acquire w =>
    if s.MuFree ∧ (s.pc w = .start ∨ s.pc w = .notified) then some (s.setPc w .locked) else none
  | .wake w => if s.pc w = .waiting then some (s.setPc w .notified) else none
  | .wait w =>
    if s.pc w = .locked ∧ s.run.continues w.1 = true ∧ s.run.pick w.1 = none then
      some (s.setPc w .waiting)
    else none
  | .call w t =>
    if s.pc w = .locked ∧ s.run.continues w.1 = true ∧ s.run.pick w.1 = some t then
      some ((s.withRun (s.run.start w.1 t)).setPc w (.calling t))
    else none
  | .ret w t res =>
    if s.MuFree ∧ s.pc w = .calling t then
      some ((s.withRun (s.run.record w.1 t res)).notifyAll.setPc w .locked)
    else none
  | .leave w =>
    if s.pc w = .locked ∧ s.run.continues w.1 = false then some (s.notifyAll.setPc w .exited)
    else none

namespace Step

variable {s s' : State S tasks} {l : Label S tasks} {w : Worker S}

/-- The step relation is the graph of `State.next`. -/
theorem iff_next : Step s l s' ↔ s.next l = some s' := by
  constructor
  · intro h
    cases h with
    | acquire w hfree hpc => exact if_pos ⟨hfree, hpc⟩
    | wake w hpc => exact if_pos hpc
    | wait w hpc hcond hpick => exact if_pos ⟨hpc, hcond, hpick⟩
    | call w t hpc hcond hpick => exact if_pos ⟨hpc, hcond, hpick⟩
    | ret w t res hfree hpc => exact if_pos ⟨hfree, hpc⟩
    | leave w hpc hcond => exact if_pos ⟨hpc, hcond⟩
  · intro h
    cases l with
    | acquire w =>
      obtain ⟨⟨hfree, hpc⟩, h⟩ := Option.ite_none_right_eq_some.mp h
      obtain rfl := Option.some.inj h
      exact .acquire w hfree hpc
    | wake w =>
      obtain ⟨hpc, h⟩ := Option.ite_none_right_eq_some.mp h
      obtain rfl := Option.some.inj h
      exact .wake w hpc
    | wait w =>
      obtain ⟨⟨hpc, hcond, hpick⟩, h⟩ := Option.ite_none_right_eq_some.mp h
      obtain rfl := Option.some.inj h
      exact .wait w hpc hcond hpick
    | call w t =>
      obtain ⟨⟨hpc, hcond, hpick⟩, h⟩ := Option.ite_none_right_eq_some.mp h
      obtain rfl := Option.some.inj h
      exact .call w t hpc hcond hpick
    | ret w t res =>
      obtain ⟨⟨hfree, hpc⟩, h⟩ := Option.ite_none_right_eq_some.mp h
      obtain rfl := Option.some.inj h
      exact .ret w t res hfree hpc
    | leave w =>
      obtain ⟨⟨hpc, hcond⟩, h⟩ := Option.ite_none_right_eq_some.mp h
      obtain rfl := Option.some.inj h
      exact .leave w hpc hcond

/-- A step moves no other thread, unless it wakes it up. -/
lemma pc_of_ne (h : Step s l s') (hw : w ≠ l.worker) :
    s'.pc w = s.pc w ∨ s.pc w = .waiting ∧ s'.pc w = .notified := by
  cases h with
  | acquire v _ _ => exact .inl (by simp_all [Label.worker])
  | wake v _ => exact .inl (by simp_all [Label.worker])
  | wait v _ _ _ => exact .inl (by simp_all [Label.worker])
  | call v t _ _ _ => exact .inl (by simp_all [Label.worker])
  | ret v t res _ _ =>
    simp only [Label.worker] at hw
    by_cases hv : s.pc w = .waiting <;> simp [hw, State.notifyAll, hv]
  | leave v _ _ =>
    simp only [Label.worker] at hw
    by_cases hv : s.pc w = .waiting <;> simp [hw, State.notifyAll, hv]

/-- Where another thread is that has not been woken up, it was before. -/
lemma pc_before (h : Step s l s') (hv : w ≠ l.worker) {p : Pc tasks} (hw : s'.pc w = p)
    (hp : p ≠ .notified) : s.pc w = p := by
  rcases h.pc_of_ne hv with hsame | ⟨_, hnotified⟩
  · exact hsame.symm.trans hw
  · exact absurd (hw.symm.trans hnotified) hp

/-- A thread holds the mutex after a step if it did before, or if the mutex was free. -/
lemma locked (h : Step s l s') (hw : s'.pc w = .locked) :
    s.pc w = .locked ∨ s.MuFree ∧ l.worker = w := by
  by_cases hv : w = l.worker
  · subst hv
    cases h <;> simp_all [Label.worker]
  · exact .inl (h.pc_before hv hw nofun)

/-- A thread is in `exec_.run` after a step if it was before, or if the step is its call. -/
lemma calling (h : Step s l s') {t : TaskId tasks} (hw : s'.pc w = .calling t) :
    s.pc w = .calling t ∨ l = .call w t := by
  by_cases hv : w = l.worker
  · subst hv
    cases h <;> simp_all [Label.worker]
  · exact .inl (h.pc_before hv hw nofun)

/-- A thread leaves `exec_.run` only when it returns. -/
lemma calling_of (h : Step s l s') {t : TaskId tasks} (hw : s.pc w = .calling t) :
    s'.pc w = .calling t ∨ ∃ res, l = .ret w t res := by
  by_cases hv : w = l.worker
  · subst hv
    cases h <;> simp_all [Label.worker]
  · rcases h.pc_of_ne hv with hp | ⟨hp, _⟩
    · exact .inl (hp.trans hw)
    · rw [hp] at hw
      cases hw

/-- A sleeping thread goes on sleeping or is notified. -/
lemma of_waiting (h : Step s l s') (hw : s.pc w = .waiting) :
    s'.pc w = .waiting ∨ s'.pc w = .notified := by
  by_cases hv : w = l.worker
  · subst hv
    cases h <;> simp_all [Label.worker]
  · rcases h.pc_of_ne hv with hp | ⟨_, hp⟩
    · exact .inl (hp.trans hw)
    · exact .inr hp

/-- An agent without work left never gets any again. -/
lemma continues_of (h : Step s l s') {a : Entry S} (ha : s'.run.continues a = true) :
    s.run.continues a = true := by
  cases h with
  | acquire _ _ _ => exact ha
  | wake _ _ => exact ha
  | wait _ _ _ _ => exact ha
  | leave _ _ => exact ha
  | call _ _ _ _ _ => exact ha
  | ret v t res _ _ =>
    rw [Run.continues_iff] at ha ⊢
    obtain ⟨hpos, hlive⟩ := ha
    exact ⟨lt_of_lt_of_le hpos (s.run.record_remaining_le v.1 t res),
      ((s.run.record_alive v.1 a t res).mp hlive).1⟩

/-- A thread has left its loop after a step if it had before, or if the step is its exit. -/
lemma exited (h : Step s l s') (hw : s'.pc w = .exited) :
    s.pc w = .exited ∨ s'.run.continues w.1 = false := by
  by_cases hv : w = l.worker
  · subst hv
    cases h <;> simp_all [Label.worker]
  · exact .inl (h.pc_before hv hw nofun)

end Step

/-- One run of the scheduler `S` on `tasks`, under any executor. -/
def workers (S : Scheduler) (tasks : List Task) : LTS (State S tasks) (Label S tasks) where
  init s := s = State.init
  step := Step

/-- The state a list of steps leads to, if they are possible in this order. -/
def State.follow (s : State S tasks) (ls : List (Label S tasks)) : Option (State S tasks) :=
  ls.foldlM State.next s

lemma State.path_of_follow {s s' : State S tasks} {ls : List (Label S tasks)}
    (h : s.follow ls = some s') : (workers S tasks).Path s ls s' := by
  induction ls generalizing s with
  | nil =>
    obtain rfl : s = s' := by simpa [follow] using h
    exact .nil s
  | cons l ls ih =>
    obtain ⟨u, hu, h⟩ := Option.bind_eq_some_iff.mp (by simpa [follow] using h)
    exact .cons (Step.iff_next.mpr hu) (ih h)

lemma State.reachable_of_follow {s : State S tasks} {ls : List (Label S tasks)}
    (h : State.init.follow ls = some s) : (workers S tasks).Reachable s :=
  LTS.Reachable.path (.init rfl) (path_of_follow h)

/-- A run that is possible, and a decidable property of the state it ends in. -/
lemma State.exists_follow (ls : List (Label S tasks)) (p : State S tasks → Prop) [DecidablePred p]
    (h : (State.init.follow ls).any (fun s => decide (p s)) = true) :
    ∃ s, State.init.follow ls = some s ∧ (workers S tasks).Reachable s ∧ p s := by
  obtain ⟨s, hs, hp⟩ := (Option.any_eq_true _ _).mp h
  exact ⟨s, hs, reachable_of_follow hs, of_decide_eq_true hp⟩

/-- The invariant rule for the scheduling state alone, which only the pick of a task and the result
of a call change. `A` is `workers S tasks`, or a restriction of it. -/
theorem State.run_invariant {A : LTS (State S tasks) (Label S tasks)}
    (hA : ∀ s l s', A.step s l s' → Step s l s') {I : Run S tasks → Prop}
    (hinit : ∀ s, A.init s → I s.run)
    (hcall : ∀ s w t s', A.Reachable s → A.step s (.call w t) s' → I s.run →
      I (s.run.start w.1 t))
    (hret : ∀ s w t res s', A.Reachable s → A.step s (.ret w t res) s' → s.pc w = .calling t →
      I s.run → I (s.run.record w.1 t res))
    {s : State S tasks} (h : A.Reachable s) : I s.run := by
  refine h.invariant (I := fun s => I s.run) hinit ?_
  intro s l s' hr ih hstep
  cases hA _ _ _ hstep with
  | acquire _ _ _ => exact ih
  | wake _ _ => exact ih
  | wait _ _ _ _ => exact ih
  | leave _ _ => exact ih
  | call w t _ _ _ => exact hcall s w t _ hr hstep ih
  | ret w t res _ hpc => exact hret s w t res _ hr hstep hpc ih

/-- A thread that has left its loop had a reason to, and still has it. -/
theorem State.stopped_of_exited {s : State S tasks} (h : (workers S tasks).Reachable s)
    {w : Worker S} (hw : s.pc w = .exited) : s.run.continues w.1 = false := by
  refine h.invariant (I := fun s => ∀ w, s.pc w = .exited → s.run.continues w.1 = false) ?_ ?_ w hw
  · rintro s rfl w hw
    cases hw
  · intro s l s' _ ih hs w hw
    rcases hs.exited hw with hex | hstop
    · by_contra hc
      have := hs.continues_of (Bool.not_eq_false _ |>.mp hc)
      rw [ih w hex] at this
      cases this
    · exact hstop

/-- Each agent entry has a thread. -/
def firstWorker (a : Entry S) : Worker S := ⟨a, 0, S.slots_pos _ (List.get_mem _ _)⟩

/-! ### A small fleet

Two agents, of which only the first has KVM and two slots, and two tasks that need KVM. -/

namespace Fleet

open ByteString

def hosts : List AgentInfo :=
  [{ address := lit "kvmhost", slots := 2, labels := [lit "kvm=true"] }, { address := lit "plain" }]

def vms : List Task :=
  [{ name := lit "vm1", argv := [lit "/bin/vm"], needs := [lit "kvm"] },
   { name := lit "vm2", argv := [lit "/bin/vm"], needs := [lit "kvm"] }]

abbrev scheduler : Scheduler := Scheduler.make hosts

/-- The threads of the two slots of `kvmhost`. -/
def kvm1 : Worker scheduler := ⟨⟨0, by decide⟩, ⟨0, by decide⟩⟩

def kvm2 : Worker scheduler := ⟨⟨0, by decide⟩, ⟨1, by decide⟩⟩

/-- The thread of `plain`. -/
def plain : Worker scheduler := ⟨⟨1, by decide⟩, ⟨0, by decide⟩⟩

def vm1 : TaskId vms := ⟨0, by decide⟩

def vm2 : TaskId vms := ⟨1, by decide⟩

def outage : AttemptResult := { status := .agentError, message := lit "connection refused" }

/-- Both slots of `kvmhost` are busy, `plain` sleeps, and then `kvmhost` goes away: its first slot
returns and retires it, its second slot returns after that. -/
def outageRun : List (Label scheduler vms) :=
  [.acquire kvm1, .call kvm1 vm1, .acquire kvm2, .call kvm2 vm2, .acquire plain, .wait plain,
   .ret kvm1 vm1 outage, .leave kvm1, .acquire plain, .wait plain,
   .ret kvm2 vm2 outage, .leave kvm2, .acquire plain, .wait plain]

end Fleet

end Dtest
