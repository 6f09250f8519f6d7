import ValidationSuite.Dtest.Agent.Capacity

/-!
# Refused requests

A request is refused when it finds `running_` at the limit, and `running_` counts the refused
requests too until they have undone their increment. As long as no command gives its slot back in
between, whoever is refused finds all slots taken. When one does, a request can be refused although
a slot is free: another one that has been refused and has not undone its increment is enough.
-/

namespace Dtest

open Transition ByteString

namespace AgentService

variable {svc : AgentService} {s s' : Pool UInt32 Handler} {past : List (Pool UInt32 Handler)}
  {i : ℕ}

/-- The `i`th request has arrived and is not answered. -/
def InProgress (i : ℕ) (s : Pool UInt32 Handler) : Prop :=
  ∃ x, s.procs[i]? = some x ∧ x.phase.isFinished = false

/-- The `i`th request is answered with `RESOURCE_EXHAUSTED`. -/
def TurnedAway (i : ℕ) (s : Pool UInt32 Handler) : Prop :=
  ∃ x, s.procs[i]? = some x ∧ x.phase = .finished (.error atLimit)

/-- The step is no `fetch_sub` of a command that is through while a refused request has not done its
own yet. -/
def Orderly (s : Pool UInt32 Handler) : Pool.Label → Prop
  | .enter => True
  | .act i => ∀ x out, s.procs[i]? = some x → x.phase = .executed out →
      ∀ y ∈ s.procs, y.phase ≠ .refused

/-- While a refused request has not undone its `fetch_add`, no slot is free. -/
def Occupied (svc : AgentService) (s : Pool UInt32 Handler) : Prop :=
  (∃ y ∈ s.procs, y.phase = .refused) → svc.opts.slots.toNat ≤ s.count holding

/-- There was an instant in the past at which the `i`th request was in progress and no slot was
free. -/
def SawFull (svc : AgentService) (past : List (Pool UInt32 Handler)) (i : ℕ) : Prop :=
  ∃ u ∈ past, InProgress i u ∧ svc.opts.slots.toNat ≤ u.count holding

lemma SawFull.mono {past' : List (Pool UInt32 Handler)} (h : svc.SawFull past i) :
    svc.SawFull (past ++ past') i := by
  obtain ⟨u, hu, hprogress, hfull⟩ := h
  exact ⟨u, List.mem_append_left _ hu, hprogress, hfull⟩

/-- How a handler comes to be turned away. -/
lemma Handles.of_turned {c : Incoming RunTaskRequest} {n n' : UInt32} {p p' : Phase}
    (h : svc.Handles c n p n' p') (hp' : p' = .refused ∨ p' = .finished (.error atLimit)) :
    (p = .checked ∧ svc.opts.slots ≤ n) ∨ p = .refused := by
  cases h with
  | refuse hfull => exact .inl ⟨rfl, hfull⟩
  | undo => exact .inr rfl
  | @reject st hcheck =>
    have hst : st = atLimit := by simpa using hp'
    exact absurd (congrArg Status.code hst) (svc.code_of_check hcheck)
  | accept _ => simp at hp'
  | grant _ => simp at hp'
  | launch => simp at hp'
  | exit _ => simp at hp'
  | release => simp at hp'

lemma store_toNat_le (h : svc.requests.lts.Reachable s) : s.store.toNat ≤ s.count counted := by
  rw [store_eq h, UInt32.toNat_ofNat']
  exact Nat.mod_le _ _

lemma counted_eq_holding (hnone : ¬ ∃ y ∈ s.procs, y.phase = .refused) :
    s.count counted = s.count holding := by
  apply List.countP_congr
  intro x hx
  have hphase : x.phase ≠ .refused := fun hrefused => hnone ⟨x, hx, hrefused⟩
  cases hp : x.phase <;> simp_all [counted, holding, Phase.counted, Phase.holdsSlot]

/-- Whoever finds `running_` at the limit finds all slots taken: the requests it counts hold them,
or one of them is refused. -/
lemma Occupied.full (hr : svc.requests.lts.Reachable s) (h : svc.Occupied s)
    (hlimit : svc.opts.slots ≤ s.store) : svc.opts.slots.toNat ≤ s.count holding := by
  by_cases hrefused : ∃ y ∈ s.procs, y.phase = .refused
  · exact h hrefused
  · have hstore := UInt32.le_iff_toNat_le.mp hlimit
    rw [← counted_eq_holding hrefused]
    exact hstore.trans (store_toNat_le hr)

lemma Occupied.step {l : Pool.Label} (hr : svc.requests.lts.Reachable s) (h : svc.Occupied s)
    (hs : Pool.Step svc.requests s l s') (horderly : Orderly s l) : svc.Occupied s' := by
  cases hs with
  | @enter x hx =>
    have hphase : x.phase = .arrived := hx
    rintro ⟨y, hy, hrefused⟩
    rw [Pool.count_enter]
    rcases List.mem_append.mp hy with hy | hy
    · exact (h ⟨y, hy, hrefused⟩).trans (Nat.le_add_right _ _)
    · obtain rfl := List.mem_singleton.mp hy
      rw [hphase] at hrefused
      cases hrefused
  | @act i x x' store hi hx =>
    have hcount := Pool.count_act holding hi x' store
    -- the steps that leave nobody refused who was not before, and give no slot back
    have hkeeps : x'.phase ≠ .refused → (holding x).toNat ≤ (holding x').toNat →
        svc.Occupied ⟨store, s.procs.set i x'⟩ := by
      rintro hphase hle ⟨y, hy, hrefused⟩
      rcases Pool.of_mem_set hy with rfl | ⟨j, -, hj⟩
      · exact absurd hrefused hphase
      · have hfull := h ⟨y, List.mem_of_getElem? hj, hrefused⟩
        omega
    obtain ⟨c, p⟩ := x
    obtain ⟨c', p'⟩ := x'
    cases hx.2 with
    | reject _ => exact hkeeps nofun le_rfl
    | accept _ => exact hkeeps nofun le_rfl
    | grant _ => exact hkeeps nofun (Nat.zero_le _)
    | undo => exact hkeeps nofun le_rfl
    | launch => exact hkeeps nofun le_rfl
    | exit _ => exact hkeeps nofun le_rfl
    | refuse hlimit =>
      intro _
      have hfull := h.full hr hlimit
      exact hfull.trans hcount.ge
    | @release out =>
      -- nobody is refused when a slot is given back
      rintro ⟨y, hy, hrefused⟩
      rcases Pool.of_mem_set hy with rfl | ⟨j, -, hj⟩
      · cases hrefused
      · exact absurd hrefused (horderly _ _ hi rfl y (List.mem_of_getElem? hj))

theorem occupied (h : (svc.requests.lts.restrict Orderly).Reachable s) : svc.Occupied s := by
  refine h.invariant (I := svc.Occupied) ?_ ?_
  · rintro ⟨_, _⟩ ⟨_, rfl⟩ ⟨y, hy, -⟩
    cases hy
  · rintro s l s' hr ih ⟨hs, horderly⟩
    exact ih.step hr.of_restrict hs horderly

/-- In an orderly run, whoever is refused has found all slots taken. -/
theorem sawFull (h : (svc.requests.lts.restrict Orderly).Execution past s) :
    ∀ i x, s.procs[i]? = some x → x.phase = .refused ∨ x.phase = .finished (.error atLimit) →
      svc.SawFull past i := by
  induction h with
  | @init s hinit =>
    intro i x hi
    rw [hinit.2] at hi
    cases hi
  | @step past s s' l hpast hs ih =>
    obtain ⟨hs, -⟩ := hs
    intro i x hi hx
    cases hs with
    | @enter y hy =>
      rcases Pool.of_getElem?_concat hi with hi | ⟨-, rfl⟩
      · exact (ih i x hi hx).mono
      · have hphase : x.phase = .arrived := hy
        simp [hphase] at hx
    | @act j y y' store hj hy =>
      rcases Pool.of_getElem?_set hi with ⟨rfl, rfl⟩ | ⟨-, hi⟩
      · rcases hy.2.of_turned hx with ⟨hchecked, hlimit⟩ | hrefused
        · have hr := hpast.reachable
          have hfull := (occupied hr).full hr.of_restrict hlimit
          exact ⟨s, by simp, ⟨y, hj, by rw [hchecked]; rfl⟩, hfull⟩
        · exact (ih i y hj (.inl hrefused)).mono
      · exact (ih i x hi hx).mono

/-! ### Where a slot is given back too early -/

lemma Handles.check_of_checked {c : Incoming RunTaskRequest} {n n' : UInt32} {p p' : Phase}
    (h : svc.Handles c n p n' p') (hp' : p' = .checked ∨ p' = .refused) :
    svc.check c = none ∨ p = .checked := by
  cases h with
  | accept hcheck => exact .inl hcheck
  | refuse _ => exact .inr rfl
  | reject _ => simp at hp'
  | grant _ => simp at hp'
  | undo => simp at hp'
  | launch => simp at hp'
  | exit _ => simp at hp'
  | release => simp at hp'

/-- A handler that is past its checks has passed them. -/
lemma check_of_checked (h : svc.requests.lts.Reachable s) {x : Handler} (hx : x ∈ s.procs)
    (hphase : x.phase = .checked ∨ x.phase = .refused) : svc.check x.call = none := by
  have hall := System.invariant (I := fun _ => True)
    (J := fun x : Handler => x.phase = .checked ∨ x.phase = .refused → svc.check x.call = none)
    (fun _ _ => trivial) ?_ ?_ h
  · exact hall.2 x hx hphase
  · intro x (hx : x.phase = .arrived) hphase
    rw [hx] at hphase
    simp at hphase
  · rintro _ n x n' x' _ ih ⟨hcall, hx⟩
    refine ⟨trivial, fun hphase => ?_⟩
    rw [hcall]
    exact (hx.check_of_checked hphase).elim id fun hchecked => ih (.inl hchecked)

lemma length_le_step {l : Pool.Label} (hs : Pool.Step svc.requests s l s') :
    s.procs.length ≤ s'.procs.length := by
  cases hs with
  | enter _ => simp
  | act _ _ => simp

/-- While `running_` is at the limit, a request that comes and is answered at once is turned away,
whatever the number of slots taken. -/
lemma turned_away_at_once (h : svc.requests.lts.Execution past s) {c : Incoming RunTaskRequest}
    (hcheck : svc.check c = none) (hlimit : svc.opts.slots ≤ s.store) :
    ∃ past' s', svc.requests.lts.Execution (past ++ past') s' ∧ TurnedAway s.procs.length s' ∧
      ∀ u ∈ past ++ past', InProgress s.procs.length u → u.count holding = s.count holding := by
  obtain ⟨n, l⟩ := s
  have hnew : svc.requests.enter ⟨c, .arrived⟩ := rfl
  have hrun := h.step (.enter hnew)
    |>.step (act_last _ _ (.accept hcheck))
    |>.step (act_last _ _ (.refuse hlimit))
    |>.step (act_last _ _ .undo)
  rw [List.append_assoc, List.append_assoc, List.append_assoc] at hrun
  refine ⟨_, _, hrun, ⟨⟨c, .finished (.error atLimit)⟩, by simp, rfl⟩, ?_⟩
  rintro u hu ⟨x, hi, -⟩
  rcases List.mem_append.mp hu with hu | hu
  · have hlen := h.le_of_mem (f := fun s => s.procs.length) (fun _ _ _ => length_le_step) hu
    rw [List.getElem?_eq_none hlen] at hi
    cases hi
  · have hsame : ∀ (store : UInt32) (p : Phase), p.holdsSlot = false →
        (⟨store, l ++ [⟨c, p⟩]⟩ : Pool UInt32 Handler).count holding =
          (⟨n, l⟩ : Pool UInt32 Handler).count holding := by
      intro store p hp
      simp [Pool.count, holding, hp]
    simp only [List.cons_append, List.nil_append, List.mem_cons, List.not_mem_nil, or_false] at hu
    rcases hu with rfl | rfl | rfl | rfl
    · rfl
    · exact hsame _ _ rfl
    · exact hsame _ _ rfl
    · exact hsame _ _ rfl

/-- As long as `running_` does not wrap, a slot that is given back while somebody is refused is free
for nobody: `running_` is still at the limit. -/
lemma limit_of_disorder (h : (svc.requests.lts.restrict Orderly).Reachable s)
    (hroomy : (svc.requests.lts.restrict Roomy).Reachable s) {l : Pool.Label}
    (hs : Pool.Step svc.requests s l s') (hdisorder : ¬ Orderly s l) :
    svc.opts.slots ≤ s'.store ∧ s'.count holding < svc.opts.slots.toNat ∧
      ∃ y ∈ s.procs, y.phase = .refused := by
  cases hs with
  | enter _ => exact absurd trivial hdisorder
  | @act i x x' store hi hx =>
    simp only [Orderly, not_forall, not_not] at hdisorder
    obtain ⟨x₀, out, hi', hphase, y, hy, hrefused⟩ := hdisorder
    obtain rfl := Option.some.inj (hi.symm.trans hi')
    obtain ⟨c, p⟩ := x
    obtain ⟨c', p'⟩ := x'
    obtain rfl : p = .executed out := hphase
    have hr' : svc.requests.lts.Reachable ⟨store, s.procs.set i ⟨c', p'⟩⟩ :=
      h.of_restrict.step (.act hi hx)
    have hfull := occupied h ⟨y, hy, hrefused⟩
    obtain ⟨hlt, hle⟩ := withinCapacity hroomy
    have hcount := Pool.count_act counted hi ⟨c', p'⟩ store
    have hhold := Pool.count_act holding hi ⟨c', p'⟩ store
    cases hx.2 with
    | release =>
      simp only [counted, holding, Phase.counted, Phase.holdsSlot, Bool.toNat_true,
        Bool.toNat_false] at hcount hhold
      -- the refused one is counted, and holds no slot
      have hmem : y ∈ s.procs.set i ⟨c', .finished (.ok out.toReply)⟩ := by
        obtain ⟨j, hj⟩ := List.mem_iff_getElem?.mp hy
        have hne : i ≠ j := by
          rintro rfl
          obtain rfl := Option.some.inj (hi.symm.trans hj)
          cases hrefused
        exact List.mem_of_getElem? ((List.getElem?_set_ne hne).trans hj)
      have hless := Pool.count_lt_count (p := holding) (q := counted) (s := ⟨s.store - 1, _⟩)
        counted_of_holding hmem (by simp [counted, hrefused, Phase.counted])
        (by simp [holding, hrefused, Phase.holdsSlot])
      refine ⟨?_, by omega, y, hy, hrefused⟩
      rw [UInt32.le_iff_toNat_le, store_toNat hr' (by omega)]
      omega

end AgentService

/-- Along every run in which no command gives its slot back while a refused request has not undone
its `fetch_add`, a request that is answered with `RESOURCE_EXHAUSTED` has been in progress while all
slots were taken. And where a run does that for the first time, before `running_` has wrapped, a
request that comes next is turned away while a slot is free. -/
theorem refused_only_at_capacity (opts : Options) (gethostname : Option ByteString) :
    let svc := AgentService.make opts gethostname
    (∀ past s, (svc.requests.lts.restrict AgentService.Orderly).Execution past s →
      ∀ i, AgentService.TurnedAway i s →
        ∃ u ∈ past, AgentService.InProgress i u ∧ max opts.slots.toNat 1 ≤ u.count holding) ∧
    (∀ past s l s',
      (svc.requests.lts.restrict fun u l =>
        AgentService.Orderly u l ∧ AgentService.Roomy u l).Execution past s →
      svc.requests.lts.step s l s' → ¬ AgentService.Orderly s l →
      ∃ past' s'' i, svc.requests.lts.Execution (past ++ [s] ++ past') s'' ∧
        AgentService.TurnedAway i s'' ∧
          ∀ u ∈ past ++ [s] ++ past', AgentService.InProgress i u →
            u.count holding < max opts.slots.toNat 1) := by
  intro svc
  have hslots : svc.opts.slots.toNat = max opts.slots.toNat 1 :=
    AgentService.make_slots opts gethostname
  rw [← hslots]
  constructor
  · rintro past s h i ⟨x, hi, hx⟩
    exact AgentService.sawFull h i x hi (.inr hx)
  · intro past s l s' h hs hdisorder
    have horderly : (svc.requests.lts.restrict AgentService.Orderly).Reachable s :=
      h.reachable.restrict_mono fun _ _ _ _ hstep => hstep.2.1
    have hroomy : (svc.requests.lts.restrict AgentService.Roomy).Reachable s :=
      h.reachable.restrict_mono fun _ _ _ _ hstep => hstep.2.2
    obtain ⟨hlimit, hfree, y, hy, hrefused⟩ :=
      AgentService.limit_of_disorder horderly hroomy hs hdisorder
    have hcheck := AgentService.check_of_checked horderly.of_restrict hy (.inr hrefused)
    obtain ⟨past', s'', hrun, haway, hcount⟩ :=
      AgentService.turned_away_at_once (h.of_restrict.step hs) hcheck hlimit
    refine ⟨past', s'', _, hrun, haway, ?_⟩
    intro u hu hprogress
    rw [hcount u hu hprogress]
    exact hfree

namespace Crowd

/-- A request is refused and has not undone its increment, and the command that had the only slot
is through. -/
lemma reachable_leftover :
    svc.requests.lts.Reachable ⟨1, [⟨call, .finished (.ok ({} : RunOutput).toReply)⟩, waits]⟩ := by
  have hrefused : svc.requests.lts.Reachable ⟨2, [runs, waits]⟩ :=
    refuse (n := 1) (l := [runs]) (reachable 0 (by decide)) (by decide)
  have hexit : svc.requests.act 0 2 runs 2 ⟨call, .executed {}⟩ := ⟨rfl, .exit {}⟩
  have hrelease : svc.requests.act 0 2 ⟨call, .executed {}⟩ 1
      ⟨call, .finished (.ok ({} : RunOutput).toReply)⟩ := ⟨rfl, .release⟩
  exact (hrefused.step (.act (i := 0) rfl hexit)).step (.act (i := 0) rfl hrelease)

end Crowd

/-- With one slot, a request can be refused while no command is running, for no other reason than a
request that was refused before it. -/
theorem refused_with_free_slot :
    ¬ ∀ past s, Crowd.svc.requests.lts.Execution past s → ∀ i, AgentService.TurnedAway i s →
      ∃ u ∈ past, AgentService.InProgress i u ∧
        max Crowd.opts.slots.toNat 1 ≤ u.count holding := by
  intro hall
  obtain ⟨past, hpast⟩ := Crowd.reachable_leftover.exists_execution
  obtain ⟨past', s', hrun, haway, hcount⟩ :=
    AgentService.turned_away_at_once hpast (c := Crowd.call) (by decide) (by decide)
  obtain ⟨u, hu, hprogress, hfull⟩ := hall _ _ hrun _ haway
  rw [hcount u hu hprogress] at hfull
  revert hfull
  decide

namespace Crowd

variable {p p' : Phase} {n' : UInt32}

abbrev orderly : LTS (Pool UInt32 Handler) Pool.Label :=
  svc.requests.lts.restrict AgentService.Orderly

/-- The handler that has come last takes a step that gives no slot back. -/
lemma orderly_last (h : ∃ past, orderly.Execution past ⟨n, l ++ [⟨call, p⟩]⟩)
    (hs : svc.Handles call n p n' p') (hp : ∀ out, p ≠ .executed out) :
    ∃ past, orderly.Execution past ⟨n', l ++ [⟨call, p'⟩]⟩ := by
  obtain ⟨past, h⟩ := h
  refine ⟨_, h.step ⟨AgentService.act_last p p' hs, ?_⟩⟩
  intro x out hx hout
  have hlast : (l ++ [⟨call, p⟩])[l.length]? = some (⟨call, p⟩ : Handler) := by simp
  obtain rfl := Option.some.inj (hlast.symm.trans hx)
  exact absurd hout (hp out)

/-- Another handler arrives, passes its checks and does its `fetch_add`. -/
lemma orderly_arrive (h : ∃ past, orderly.Execution past ⟨n, l⟩)
    (hs : svc.Handles call n .checked n' p) :
    ∃ past, orderly.Execution past ⟨n', l ++ [⟨call, p⟩]⟩ := by
  obtain ⟨past, h⟩ := h
  have hentered : ∃ past, orderly.Execution past ⟨n, l ++ [⟨call, .arrived⟩]⟩ :=
    ⟨_, h.step ⟨.enter enter, trivial⟩⟩
  exact orderly_last (orderly_last hentered (.accept (by decide)) nofun) hs nofun

def done : Handler := ⟨call, .finished (.ok ({} : RunOutput).toReply)⟩

def turnedAway : Handler := ⟨call, .finished (.error atLimit)⟩

/-- The only slot is taken, and a request is refused; then the slot is given back and taken again,
and the next request is refused. -/
lemma orderly_twice : ∃ past,
    orderly.Execution past ⟨1, [done, turnedAway, ⟨call, .admitted⟩, turnedAway]⟩ := by
  have hfirst : ∃ past, orderly.Execution past ⟨1, [⟨call, .executed {}⟩]⟩ := by
    have h : ∃ past, orderly.Execution past ⟨0, []⟩ := ⟨_, .init ⟨rfl, rfl⟩⟩
    have h := orderly_arrive h (.grant (by decide))
    have h := orderly_last (l := []) h .launch nofun
    exact orderly_last (l := []) h (.exit {}) nofun
  have hrefused := orderly_arrive hfirst (.refuse (by decide))
  have hundone : ∃ past, orderly.Execution past ⟨1, [⟨call, .executed {}⟩, turnedAway]⟩ :=
    orderly_last (l := [⟨call, .executed {}⟩]) hrefused .undo nofun
  have hreleased : ∃ past, orderly.Execution past ⟨0, [done, turnedAway]⟩ := by
    obtain ⟨past, h⟩ := hundone
    have hact : svc.requests.act 0 1 ⟨call, .executed {}⟩ 0 done := ⟨rfl, .release⟩
    refine ⟨_, h.step ⟨.act (i := 0) rfl hact, ?_⟩⟩
    -- the refused request is through
    rintro x out - - y hy
    rcases List.mem_cons.mp hy with rfl | hy
    · exact nofun
    · obtain rfl := List.mem_singleton.mp hy
      exact nofun
  have hagain := orderly_arrive hreleased (.grant (by decide))
  have hrefusedAgain := orderly_arrive hagain (.refuse (by decide))
  exact orderly_last (l := [done, turnedAway, ⟨call, .admitted⟩]) hrefusedAgain .undo nofun

end Crowd

/-- The second request that is refused has seen the slot taken, too. -/
theorem refused_only_at_capacity_twice :
    ∃ past s, (Crowd.svc.requests.lts.restrict AgentService.Orderly).Execution past s ∧
      AgentService.TurnedAway 3 s ∧ ∃ u ∈ past, AgentService.InProgress 3 u ∧
        max Crowd.opts.slots.toNat 1 ≤ u.count holding := by
  obtain ⟨past, h⟩ := Crowd.orderly_twice
  have haway : AgentService.TurnedAway 3 ⟨1, [Crowd.done, Crowd.turnedAway,
      ⟨Crowd.call, .admitted⟩, Crowd.turnedAway]⟩ := ⟨_, rfl, rfl⟩
  exact ⟨past, _, h, haway, (refused_only_at_capacity Crowd.opts none).1 _ _ h 3 haway⟩

end Dtest
