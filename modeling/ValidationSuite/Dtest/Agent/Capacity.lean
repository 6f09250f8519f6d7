import ValidationSuite.Dtest.Agent.Basic
import ValidationSuite.Library.Pool

/-!
# The capacity of an agent

Any number of `RunTask` handlers of one agent, interleaved at their atomic steps. A handler adds
itself to `running_` before it knows whether there is a slot, so `running_` counts the refused ones
too until they have undone it. As long as the counter does not wrap, the admitted handlers are no
more than the slots.
-/

namespace Dtest

open Transition ByteString

/-- A `RunTask` call and how far its handler has come. -/
structure Handler where
  call : Incoming RunTaskRequest
  phase : Phase := .arrived

/-- The handlers of a service, over `running_`. -/
def AgentService.requests (svc : AgentService) : System UInt32 Handler where
  init n := n = 0
  enter x := x.phase = .arrived
  act _ n x n' x' := x'.call = x.call ∧ svc.Handles x.call n x.phase n' x'.phase

/-- The handlers between their `fetch_add` and their `fetch_sub`. -/
def counted (x : Handler) : Bool := x.phase.counted

/-- The handlers that have a slot. -/
def holding (x : Handler) : Bool := x.phase.holdsSlot

/-- The handlers whose commands are executing. -/
def executing (x : Handler) : Bool := x.phase.isExecuting

namespace AgentService.Handles

variable {svc : AgentService} {c : Incoming RunTaskRequest} {n n' : UInt32} {p p' : Phase}

/-- What a step does to `running_` is what it does to the number of counted handlers. -/
lemma counted (h : svc.Handles c n p n' p') :
    n' + UInt32.ofNat p.counted.toNat = n + UInt32.ofNat p'.counted.toNat := by
  cases h <;> simp [Phase.counted]

/-- If `running_` was a number of handlers, up to its width, it still is after a step that changes
this number by its own handler. -/
lemma running_eq (h : svc.Handles c n p n' p') {k k' : ℕ} (hn : n = UInt32.ofNat k)
    (hk : k' + p.counted.toNat = k + p'.counted.toNat) : n' = UInt32.ofNat k' := by
  have hstep := h.counted
  rw [hn, ← UInt32.ofNat_add, ← hk, UInt32.ofNat_add] at hstep
  exact UInt32.add_left_inj _ |>.mp hstep

/-- A handler only gets a slot while `running_` is below the limit. -/
lemma lt_slots (h : svc.Handles c n p n' p') (hp : p.holdsSlot = false)
    (hp' : p'.holdsSlot = true) : n < svc.opts.slots := by
  cases h with
  | grant hfree => exact hfree
  | reject _ => cases hp'
  | accept _ => cases hp'
  | refuse _ => cases hp'
  | undo => cases hp'
  | release => cases hp'
  | launch => cases hp
  | exit _ => cases hp

/-- Nobody but a handler past its checks adds itself. -/
lemma checked_of_counted (h : svc.Handles c n p n' p') (hp : p.counted = false)
    (hp' : p'.counted = true) : p = .checked := by
  cases h <;> simp_all [Phase.counted]

/-- A handler that fails a check goes straight back. -/
lemma of_check_eq_some (h : svc.Handles c n p n' p') {st : Status} (hcheck : svc.check c = some st)
    (hp : p = .arrived ∨ p = .finished (.error st)) :
    n' = n ∧ p' = .finished (.error st) := by
  rcases hp with rfl | rfl
  · cases h with
    | reject hst =>
      rw [hcheck] at hst
      obtain rfl := Option.some.inj hst
      exact ⟨rfl, rfl⟩
    | accept hst =>
      rw [hcheck] at hst
      cases hst
  · cases h

end AgentService.Handles

namespace AgentService

variable {svc : AgentService} {s s' : Pool UInt32 Handler} {l : Pool.Label}

/-- `running_` counts, up to the width of the counter, the handlers between their `fetch_add` and
their `fetch_sub`. -/
theorem store_eq (h : svc.requests.lts.Reachable s) :
    s.store = UInt32.ofNat (s.count counted) := by
  refine h.invariant (I := fun s => s.store = UInt32.ofNat (s.count counted)) ?_ ?_
  · rintro ⟨_, _⟩ ⟨rfl, rfl⟩
    rfl
  · intro s l s' _ ih hs
    cases hs with
    | enter hx =>
      rw [Pool.count_enter, ih, show counted _ = false from congrArg Phase.counted hx]
      rfl
    | @act i x x' store hi hx => exact hx.2.running_eq ih (Pool.count_act counted hi x' store)

/-- The step does not take the number of counted handlers to the width of `running_`. -/
def Roomy (s : Pool UInt32 Handler) : Pool.Label → Prop
  | .enter => True
  | .act i => ∀ x, s.procs[i]? = some x → x.phase = .checked → s.count counted + 1 < 2 ^ 32

/-- As long as `running_` does not wrap, it counts the handlers between their `fetch_add` and their
`fetch_sub`, and they hold no more slots than there are. -/
structure WithinCapacity (svc : AgentService) (s : Pool UInt32 Handler) : Prop where
  count_lt : s.count counted < 2 ^ 32
  holding_le : s.count holding ≤ svc.opts.slots.toNat

lemma store_toNat (h : svc.requests.lts.Reachable s) (hlt : s.count counted < 2 ^ 32) :
    s.store.toNat = s.count counted := by
  rw [store_eq h, UInt32.toNat_ofNat', Nat.mod_eq_of_lt hlt]

lemma counted_of_holding (x : Handler) (hx : holding x = true) : counted x = true := by
  cases h : x.phase <;> simp_all [holding, counted, Phase.holdsSlot, Phase.counted]

lemma holding_le_counted (s : Pool UInt32 Handler) : s.count holding ≤ s.count counted :=
  Pool.count_le_count counted_of_holding s

lemma WithinCapacity.step (hr : svc.requests.lts.Reachable s) (h : svc.WithinCapacity s)
    (hs : Pool.Step svc.requests s l s') (hroomy : Roomy s l) : svc.WithinCapacity s' := by
  cases hs with
  | @enter x hx =>
    have hphase : x.phase = .arrived := hx
    constructor
    · simpa [counted, hphase, Phase.counted] using h.count_lt
    · simpa [holding, hphase, Phase.holdsSlot] using h.holding_le
  | @act i x x' store hi hx =>
    have hcount := Pool.count_act counted hi x' store
    have hhold := Pool.count_act holding hi x' store
    obtain ⟨hlt, hle⟩ := h
    constructor
    · by_cases hnew : counted x = false ∧ counted x' = true
      · have hnext := hroomy x hi (hx.2.checked_of_counted hnew.1 hnew.2)
        rw [hnew.1, hnew.2] at hcount
        simp only [Bool.toNat_false, Bool.toNat_true] at hcount
        omega
      · have hle' : (counted x').toNat ≤ (counted x).toNat := by
          cases hp : counted x <;> cases hp' : counted x' <;> simp_all
        omega
    · by_cases hnew : holding x = false ∧ holding x' = true
      · -- a new slot: `running_` was below the limit, and so were the holders
        have hfree : s.store.toNat < svc.opts.slots.toNat :=
          UInt32.lt_iff_toNat_lt.mp (hx.2.lt_slots hnew.1 hnew.2)
        rw [store_toNat hr hlt] at hfree
        have hbelow := holding_le_counted s
        rw [hnew.1, hnew.2] at hhold
        simp only [Bool.toNat_false, Bool.toNat_true] at hhold
        omega
      · have hle' : (holding x').toNat ≤ (holding x).toNat := by
          cases hp : holding x <;> cases hp' : holding x' <;> simp_all
        omega

theorem withinCapacity (h : (svc.requests.lts.restrict Roomy).Reachable s) :
    svc.WithinCapacity s := by
  refine h.invariant (I := svc.WithinCapacity) ?_ ?_
  · rintro ⟨_, _⟩ ⟨_, rfl⟩
    exact ⟨by simp, by simp⟩
  · rintro s l s' hr ih ⟨hs, hroomy⟩
    exact ih.step hr.of_restrict hs hroomy

/-- A handler that fails a check has done nothing yet, or has returned its status. -/
theorem of_check_eq_some (h : svc.requests.lts.Reachable s) {x : Handler} (hx : x ∈ s.procs)
    {st : Status} (hcheck : svc.check x.call = some st) :
    x.phase = .arrived ∨ x.phase = .finished (.error st) := by
  have hall := System.invariant (I := fun _ => True)
    (J := fun x : Handler => ∀ st, svc.check x.call = some st →
      x.phase = .arrived ∨ x.phase = .finished (.error st)) (fun _ _ => trivial)
    (fun x hx _ _ => .inl hx) ?_ h
  · exact hall.2 x hx st hcheck
  · rintro _ n x n' x' _ ih ⟨hcall, hx⟩
    refine ⟨trivial, ?_⟩
    intro st hst
    rw [hcall] at hst
    exact .inr (hx.of_check_eq_some hst (ih st hst)).2

/-- Its command does not run, and its steps leave `running_` alone. -/
lemma idle_of_check_eq_some (h : svc.requests.lts.Reachable s) {i : ℕ} {x : Handler}
    (hi : s.procs[i]? = some x) {st : Status} (hcheck : svc.check x.call = some st) :
    (executing x = false ∧ counted x = false) ∧
      ∀ s', Pool.Step svc.requests s (.act i) s' → s'.store = s.store := by
  have hphase := of_check_eq_some h (List.mem_of_getElem? hi) hcheck
  constructor
  · rcases hphase with hp | hp <;>
      simp [executing, counted, hp, Phase.isExecuting, Phase.counted]
  · intro s' hs
    cases hs with
    | @act i y y' store hi' hy =>
      rw [hi] at hi'
      obtain rfl := Option.some.inj hi'
      exact (hy.2.of_check_eq_some hcheck hphase).1

/-- The handler that has come last takes a step. -/
lemma act_last {n n' : UInt32} {l : List Handler} {c : Incoming RunTaskRequest} (p p' : Phase)
    (h : svc.Handles c n p n' p') :
    Pool.Step svc.requests ⟨n, l ++ [⟨c, p⟩]⟩ (.act l.length) ⟨n', l ++ [⟨c, p'⟩]⟩ := by
  have hact : svc.requests.act l.length n ⟨c, p⟩ n' ⟨c, p'⟩ := ⟨rfl, h⟩
  have hlast : (l ++ [⟨c, p⟩])[l.length]? = some (⟨c, p⟩ : Handler) := by simp
  have hstep := Pool.Step.act (Y := svc.requests) (s := ⟨n, l ++ [⟨c, p⟩]⟩) hlast hact
  simpa using hstep

end AgentService

/-- An agent never runs more commands than it has slots and never leaks capacity, however its
handlers interleave, as long as `running_` is wide enough to count them. -/
theorem agent_never_oversubscribed (opts : Options) (gethostname : Option ByteString) :
    let svc := AgentService.make opts gethostname
    (∀ s, (svc.requests.lts.restrict AgentService.Roomy).Reachable s →
      s.count executing ≤ max opts.slots.toNat 1 ∧ s.store.toNat = s.count counted ∧
        ∀ x ∈ s.procs, counted x = true → 0 < s.store.toNat) ∧
    (∀ s, svc.requests.lts.Reachable s → ∀ i x st, s.procs[i]? = some x →
      svc.check x.call = some st → (executing x = false ∧ counted x = false) ∧
        ∀ s', Pool.Step svc.requests s (.act i) s' → s'.store = s.store) ∧
    (∀ s, svc.requests.lts.Reachable s → (∀ x ∈ s.procs, x.phase.isFinished = true) →
      s.store = 0) := by
  intro svc
  refine ⟨?_, ?_, ?_⟩
  · intro s h
    obtain ⟨hlt, hle⟩ := AgentService.withinCapacity h
    have hstore := AgentService.store_toNat h.of_restrict hlt
    refine ⟨?_, hstore, ?_⟩
    · rw [← AgentService.make_slots opts gethostname]
      refine le_trans (Pool.count_le_count ?_ s) hle
      intro x
      cases hx : x.phase <;> simp [executing, holding, hx, Phase.isExecuting, Phase.holdsSlot]
    · intro x hx hcounted
      rw [hstore]
      exact List.countP_pos_iff.mpr ⟨x, hx, hcounted⟩
  · intro s h i x st hi hcheck
    exact AgentService.idle_of_check_eq_some h hi hcheck
  · intro s h hall
    have hnone : s.count counted = 0 := by
      refine Pool.count_eq_zero fun x hx => ?_
      have hfin := hall x hx
      cases hp : x.phase <;> simp_all [counted, Phase.counted, Phase.isFinished]
    rw [AgentService.store_eq h, hnone]
    rfl

/-! ### A crowd -/

namespace Crowd

/-- A service with one slot that lets everybody run anything. -/
def opts : Options := { policy := { allowAny := true } }

abbrev svc : AgentService := AgentService.make opts none

def call : Incoming RunTaskRequest :=
  { request := { argv := [lit "/bin/sleep"], timeoutMs := 1000 } }

def runs : Handler := ⟨call, .executing (svc.runSpec call.request)⟩

def waits : Handler := ⟨call, .refused⟩

variable {n : UInt32} {l : List Handler}

lemma enter : svc.requests.enter ⟨call, .arrived⟩ := rfl

/-- Another handler arrives and passes its checks. -/
lemma arrive (h : svc.requests.lts.Reachable ⟨n, l⟩) :
    svc.requests.lts.Reachable ⟨n, l ++ [⟨call, .checked⟩]⟩ :=
  (h.step (.enter enter)).step (AgentService.act_last .arrived .checked (.accept (by decide)))

lemma refuse (h : svc.requests.lts.Reachable ⟨n, l⟩) (hn : n ≠ 0) :
    svc.requests.lts.Reachable ⟨n + 1, l ++ [waits]⟩ := by
  refine (arrive h).step (AgentService.act_last .checked .refused (.refuse ?_))
  rw [UInt32.le_iff_toNat_le]
  exact Nat.one_le_iff_ne_zero.mpr fun h0 => hn (UInt32.toNat_inj.mp h0)

lemma execute (h : svc.requests.lts.Reachable ⟨0, l⟩) :
    svc.requests.lts.Reachable ⟨1, l ++ [runs]⟩ :=
  ((arrive h).step (AgentService.act_last .checked .admitted (.grant (by decide)))).step
    (AgentService.act_last .admitted _ .launch)

/-- One command runs, and `k` handlers are about to find out that they have no slot. -/
lemma reachable (k : ℕ) (hk : k < 2 ^ 32) :
    svc.requests.lts.Reachable ⟨UInt32.ofNat (k + 1), runs :: List.replicate k waits⟩ := by
  induction k with
  | zero => exact execute (l := []) (.init ⟨rfl, rfl⟩)
  | succ k ih =>
    have hne : UInt32.ofNat (k + 1) ≠ 0 := by
      intro h0
      have h0 := congrArg UInt32.toNat h0
      rw [UInt32.toNat_ofNat', Nat.mod_eq_of_lt hk] at h0
      simp at h0
    have hnext := refuse (ih (by omega)) hne
    rw [← UInt32.ofNat_one, ← UInt32.ofNat_add] at hnext
    rwa [List.replicate_succ', ← List.cons_append]

lemma count_executing (k : ℕ) :
    (⟨n, runs :: List.replicate k waits ++ [runs]⟩ : Pool UInt32 Handler).count executing = 2 := by
  simp [Pool.count, executing, runs, waits, Phase.isExecuting, List.countP_cons,
    List.countP_replicate]

lemma count_counted (k : ℕ) :
    (⟨n, runs :: List.replicate k waits ++ [runs]⟩ : Pool UInt32 Handler).count counted =
      k + 2 := by
  simp [Pool.count, counted, runs, waits, Phase.counted, List.countP_cons,
    List.countP_replicate]

/-- Once the counter has wrapped, the slot is given away a second time. -/
lemma oversubscribed {k : ℕ} (hk : k + 1 = 2 ^ 32) :
    svc.requests.lts.Reachable ⟨1, runs :: List.replicate k waits ++ [runs]⟩ := by
  have hwrap : UInt32.ofNat (k + 1) = 0 := by
    rw [hk]
    exact UInt32.toNat_inj.mp (by simp)
  have h := reachable k (by omega)
  rw [hwrap] at h
  exact execute h

end Crowd

/-- With 2^32 - 1 handlers refused at the same time, `running_` is back at zero, and the next one
gets the slot that is taken. -/
theorem agent_oversubscribed_by_crowd :
    ∃ s, Crowd.svc.requests.lts.Reachable s ∧
      ¬ s.count executing ≤ max Crowd.opts.slots.toNat 1 ∧ s.store.toNat ≠ s.count counted := by
  obtain ⟨k, hk⟩ : ∃ k, k + 1 = 2 ^ 32 := ⟨2 ^ 32 - 1, by omega⟩
  refine ⟨_, Crowd.oversubscribed hk, ?_, ?_⟩
  · rw [Crowd.count_executing]
    decide
  · rw [Crowd.count_counted, show (1 : UInt32).toNat = 1 from rfl]
    omega

/-- One command runs on the only slot, and `running_` also counts a request that is being refused. -/
theorem agent_never_oversubscribed_refused :
    (⟨2, [Crowd.runs, Crowd.waits]⟩ : Pool UInt32 Handler).count executing ≤
        max Crowd.opts.slots.toNat 1 ∧
      (2 : UInt32).toNat =
        (⟨2, [Crowd.runs, Crowd.waits]⟩ : Pool UInt32 Handler).count counted := by
  have h := LTS.Reachable.init (A := Crowd.svc.requests.lts.restrict AgentService.Roomy)
      (s := ⟨0, []⟩) ⟨rfl, rfl⟩
    |>.step ⟨.enter Crowd.enter, trivial⟩
    |>.step ⟨AgentService.act_last (l := []) .arrived .checked (.accept (by decide)),
      fun _ _ _ => by decide⟩
    |>.step ⟨AgentService.act_last (l := []) .checked .admitted (.grant (by decide)),
      fun _ _ _ => by decide⟩
    |>.step ⟨AgentService.act_last (l := []) .admitted _ .launch, fun _ _ _ => by decide⟩
    |>.step ⟨.enter Crowd.enter, trivial⟩
    |>.step ⟨AgentService.act_last (l := [Crowd.runs]) .arrived .checked (.accept (by decide)),
      fun _ _ _ => by decide⟩
    |>.step ⟨AgentService.act_last (l := [Crowd.runs]) .checked .refused (.refuse (by decide)),
      fun _ _ _ => by decide⟩
  obtain ⟨hle, hcount, -⟩ := (agent_never_oversubscribed Crowd.opts none).1 _ h
  exact ⟨hle, hcount⟩

end Dtest
