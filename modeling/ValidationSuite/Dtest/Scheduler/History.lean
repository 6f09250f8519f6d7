import ValidationSuite.Dtest.Scheduler.Bookkeeping

/-!
# The history of a run

What the steps of a run say about each task: on which agent entries it has been started, and which
of these attempts have returned with what result. The scheduling state remembers exactly that: the
recorded attempts, the set `tried`, and which agents are alive.
-/

namespace Dtest

open Transition

variable {S : Scheduler} {tasks : List Task}

/-- The agent entry on which the step starts the task `t`. -/
def Label.started (t : TaskId tasks) : Label S tasks → Option (Entry S)
  | .call w u => if u = t then some w.1 else none
  | .acquire _ | .wake _ | .wait _ | .ret _ _ _ | .leave _ => none

/-- The result of the task `t` that the step brings, with the agent entry it comes from. -/
def Label.returned (t : TaskId tasks) : Label S tasks → Option (Entry S × AttemptResult)
  | .ret w u res => if u = t then some (w.1, res) else none
  | .acquire _ | .wake _ | .wait _ | .call _ _ | .leave _ => none

/-- The agent entries on which the task `t` has been started, in order. -/
def startsOf (t : TaskId tasks) (ls : List (Label S tasks)) : List (Entry S) :=
  ls.filterMap (Label.started t)

/-- The attempts at the task `t` that have returned, in order. -/
def returnsOf (t : TaskId tasks) (ls : List (Label S tasks)) : List (Entry S × AttemptResult) :=
  ls.filterMap (Label.returned t)

section Lists

variable {t u : TaskId tasks} {ls : List (Label S tasks)} {l : Label S tasks} {a : Entry S}
  {w : Worker S} {res : AttemptResult}

lemma Label.started_eq_some : l.started t = some a ↔ ∃ w : Worker S, l = .call w t ∧ w.1 = a := by
  constructor
  · intro h
    cases l with
    | call w u =>
      obtain ⟨rfl, ha⟩ := Option.ite_none_right_eq_some.mp h
      exact ⟨w, rfl, Option.some.inj ha⟩
    | acquire _ => cases h
    | wake _ => cases h
    | wait _ => cases h
    | ret _ _ _ => cases h
    | leave _ => cases h
  · rintro ⟨w, rfl, rfl⟩
    exact if_pos rfl

lemma Label.returned_eq_some :
    l.returned t = some (a, res) ↔ ∃ w : Worker S, l = .ret w t res ∧ w.1 = a := by
  constructor
  · intro h
    cases l with
    | ret w u r =>
      obtain ⟨rfl, ha⟩ := Option.ite_none_right_eq_some.mp h
      obtain ⟨rfl, rfl⟩ := Prod.mk.inj (Option.some.inj ha)
      exact ⟨w, rfl, rfl⟩
    | acquire _ => cases h
    | wake _ => cases h
    | wait _ => cases h
    | call _ _ => cases h
    | leave _ => cases h
  · rintro ⟨w, rfl, rfl⟩
    exact if_pos rfl

lemma startsOf_concat : startsOf t (ls ++ [l]) = startsOf t ls ++ (l.started t).toList := by
  rw [startsOf, List.filterMap_append, List.filterMap_cons]
  cases l.started t <;> rfl

lemma returnsOf_concat : returnsOf t (ls ++ [l]) = returnsOf t ls ++ (l.returned t).toList := by
  rw [returnsOf, List.filterMap_append, List.filterMap_cons]
  cases l.returned t <;> rfl

lemma startsOf_call :
    startsOf t (ls ++ [.call w u]) = startsOf t ls ++ if u = t then [w.1] else [] := by
  rw [startsOf_concat, Label.started]
  split_ifs <;> rfl

lemma returnsOf_call : returnsOf t (ls ++ [.call w u]) = returnsOf t ls := by
  rw [returnsOf_concat, Label.returned, Option.toList_none, List.append_nil]

lemma startsOf_ret : startsOf t (ls ++ [.ret w u res]) = startsOf t ls := by
  rw [startsOf_concat, Label.started, Option.toList_none, List.append_nil]

lemma returnsOf_ret : returnsOf t (ls ++ [.ret w u res]) =
    returnsOf t ls ++ if u = t then [(w.1, res)] else [] := by
  rw [returnsOf_concat, Label.returned]
  split_ifs <;> rfl

lemma mem_startsOf : a ∈ startsOf t ls ↔ ∃ w : Worker S, .call w t ∈ ls ∧ w.1 = a := by
  rw [startsOf, List.mem_filterMap]
  constructor
  · rintro ⟨l, hl, hstarted⟩
    obtain ⟨w, rfl, ha⟩ := Label.started_eq_some.mp hstarted
    exact ⟨w, hl, ha⟩
  · rintro ⟨w, hw, ha⟩
    exact ⟨_, hw, Label.started_eq_some.mpr ⟨w, rfl, ha⟩⟩

lemma mem_returnsOf :
    (a, res) ∈ returnsOf t ls ↔ ∃ w : Worker S, .ret w t res ∈ ls ∧ w.1 = a := by
  rw [returnsOf, List.mem_filterMap]
  constructor
  · rintro ⟨l, hl, hreturned⟩
    obtain ⟨w, rfl, ha⟩ := Label.returned_eq_some.mp hreturned
    exact ⟨w, hl, ha⟩
  · rintro ⟨w, hw, ha⟩
    exact ⟨_, hw, Label.returned_eq_some.mpr ⟨w, rfl, ha⟩⟩

end Lists

namespace State

variable {s s' : State S tasks} {l : Label S tasks} {ls : List (Label S tasks)}

/-- The state remembers the run that has led to it. -/
structure Traced (s : State S tasks) (ls : List (Label S tasks)) : Prop where
  attempts_eq : ∀ t, (s.run.st t).attempts =
    (returnsOf t ls).map fun x => ⟨(S.agents.get x.1).address, x.2⟩
  tried_iff : ∀ t a, a ∈ (s.run.st t).tried ↔ a ∈ (returnsOf t ls).map (·.1)
  alive_iff : ∀ a, s.run.alive a = true ↔
    ∀ t res, (a, res) ∈ returnsOf t ls → res.status ≠ .agentError
  starts_idle : ∀ t, (s.run.st t).running = false → startsOf t ls = (returnsOf t ls).map (·.1)
  starts_busy : ∀ t w, s.pc w = .calling t → startsOf t ls = (returnsOf t ls).map (·.1) ++ [w.1]

/-- The steps between which nothing is called and nothing returns. -/
lemma Traced.quiet (h : s.Traced ls) (hrun : s'.run = s.run)
    (hstarted : ∀ t, l.started t = none) (hreturned : ∀ t, l.returned t = none)
    (hcalling : ∀ w t, s'.pc w = .calling t → s.pc w = .calling t) : s'.Traced (ls ++ [l]) := by
  have hstarts : ∀ t, startsOf t (ls ++ [l]) = startsOf t ls := fun t => by
    rw [startsOf_concat, hstarted, Option.toList_none, List.append_nil]
  have hreturns : ∀ t, returnsOf t (ls ++ [l]) = returnsOf t ls := fun t => by
    rw [returnsOf_concat, hreturned, Option.toList_none, List.append_nil]
  constructor
  · intro t
    rw [hrun, hreturns, h.attempts_eq]
  · intro t a
    rw [hrun, hreturns, h.tried_iff]
  · intro a
    simp only [hrun, hreturns, h.alive_iff]
  · intro t hidle
    rw [hstarts, hreturns, h.starts_idle t (hrun ▸ hidle)]
  · intro t w hw
    rw [hstarts, hreturns, h.starts_busy t w (hcalling w t hw)]

lemma Traced.call (h : s.Traced ls) (hth : s.Threads) {w : Worker S} {u : TaskId tasks}
    (hpick : s.run.pick w.1 = some u) :
    ((s.withRun (s.run.start w.1 u)).setPc w (.calling u)).Traced (ls ++ [.call w u]) := by
  have hidle : (s.run.st u).running = false := running_of_pick hpick
  constructor
  · intro t
    rw [returnsOf_call, ← h.attempts_eq]
    by_cases ht : t = u <;> simp [ht]
  · intro t a
    rw [returnsOf_call, ← h.tried_iff]
    by_cases ht : t = u <;> simp [ht]
  · intro a
    simp only [returnsOf_call, ← h.alive_iff, setPc_run, withRun_run, Run.start_alive]
  · intro t ht
    have hne : u ≠ t := by
      rintro rfl
      simp at ht
    rw [startsOf_call, returnsOf_call, if_neg hne, List.append_nil]
    exact h.starts_idle t (by simpa [hne.symm] using ht)
  · intro t v hv
    rw [startsOf_call, returnsOf_call]
    by_cases hvw : v = w
    · subst hvw
      obtain rfl : u = t := by simpa using hv
      rw [if_pos rfl, h.starts_idle u hidle]
    · have hv : s.pc v = .calling t := by simpa [hvw] using hv
      have hne : u ≠ t := by
        rintro rfl
        rw [(hth.running_iff u).mpr ⟨v, hv⟩] at hidle
        cases hidle
      rw [if_neg hne, List.append_nil, h.starts_busy t v hv]

lemma Traced.ret (h : s.Traced ls) (hth : s.Threads) {w : Worker S} {u : TaskId tasks}
    (hpc : s.pc w = .calling u) (res : AttemptResult) :
    ((s.withRun (s.run.record w.1 u res)).notifyAll.setPc w .locked).Traced
      (ls ++ [.ret w u res]) := by
  constructor
  · intro t
    rw [setPc_run, withRun_notifyAll_run, (s.run.record_memory _ _ _ _).1, Run.storeAttempt_st,
      returnsOf_ret, List.map_append, ← h.attempts_eq]
    by_cases ht : t = u
    · subst ht; simp
    · simp [ht, Ne.symm ht]
  · intro t a
    rw [setPc_run, withRun_notifyAll_run, (s.run.record_memory _ _ _ _).2, Run.storeAttempt_st,
      returnsOf_ret, List.map_append, List.mem_append, ← h.tried_iff]
    by_cases ht : t = u
    · subst ht; simp [or_comm]
    · simp [ht, Ne.symm ht]
  · intro a
    rw [setPc_run, withRun_notifyAll_run, Run.record_alive, h.alive_iff]
    simp only [returnsOf_ret, List.mem_append]
    constructor
    · rintro ⟨hbefore, hnow⟩ t r (hr | hr)
      · exact hbefore t r hr
      · split_ifs at hr with ht
        · obtain ⟨rfl, rfl⟩ := Prod.mk.inj (List.mem_singleton.mp hr)
          exact hnow rfl
        · cases hr
    · intro hall
      refine ⟨fun t r hr => hall t r (.inl hr), ?_⟩
      rintro rfl
      exact hall u res (.inr (by simp))
  · intro t ht
    rw [setPc_run, withRun_notifyAll_run, ← Bool.not_eq_true, Run.record_running] at ht
    rw [startsOf_ret, returnsOf_ret]
    by_cases hut : u = t
    · subst hut
      rw [if_pos rfl, List.map_append, h.starts_busy u w hpc]
      rfl
    · rw [if_neg hut, List.append_nil]
      exact h.starts_idle t (by simpa [Ne.symm hut] using ht)
  · intro t v hv
    have hvw : v ≠ w := by
      rintro rfl
      simp at hv
    have hv : s.pc v = .calling t := by
      by_cases hwait : s.pc v = .waiting
      · simp [hvw, notifyAll, hwait] at hv
      · simpa [hvw, notifyAll, hwait] using hv
    have hne : u ≠ t := by
      rintro rfl
      exact hvw (hth.calling_unique u v w hv hpc)
    rw [startsOf_ret, returnsOf_ret, if_neg hne, List.append_nil, h.starts_busy t v hv]

lemma Traced.step (h : s.Traced ls) (hth : s.Threads) (hs : Step s l s') :
    s'.Traced (ls ++ [l]) := by
  have hcalling : (∀ w t, l ≠ .call w t) → ∀ w t, s'.pc w = .calling t → s.pc w = .calling t :=
    fun hl w t hw => (hs.calling hw).resolve_right (hl w t)
  cases hs with
  | acquire _ _ _ => exact h.quiet rfl (fun _ => rfl) (fun _ => rfl) (hcalling nofun)
  | wake _ _ => exact h.quiet rfl (fun _ => rfl) (fun _ => rfl) (hcalling nofun)
  | wait _ _ _ _ => exact h.quiet rfl (fun _ => rfl) (fun _ => rfl) (hcalling nofun)
  | leave _ _ => exact h.quiet rfl (fun _ => rfl) (fun _ => rfl) (hcalling nofun)
  | call w u _ _ hpick => exact h.call hth hpick
  | ret w u res _ hpc => exact h.ret hth hpc res

lemma traced_init : (init : State S tasks).Traced [] := by
  have hst : ∀ t : TaskId tasks, ((init : State S tasks).run.st t).attempts = [] ∧
      ((init : State S tasks).run.st t).tried = ∅ := by
    intro t
    simp only [init, Run.resolveUnschedulable_st]
    split_ifs <;> exact ⟨rfl, rfl⟩
  constructor
  · exact fun t => (hst t).1
  · intro t a
    rw [(hst t).2]
    exact iff_of_false (Finset.notMem_empty a) List.not_mem_nil
  · intro a
    rw [init, Run.resolveUnschedulable_alive]
    exact iff_of_true rfl fun _ _ h => absurd h List.not_mem_nil
  · exact fun _ _ => rfl
  · intro t w hw
    cases hw

/-- The state a run leads to remembers the run. -/
theorem traced (h : (workers S tasks).Path .init ls s) : s.Traced ls := by
  refine h.invariant (I := fun s ls => s.Traced ls) traced_init ?_
  intro ls u l u' hpath ih hs
  exact ih.step (bookkeeping (LTS.Reachable.path (.init rfl) hpath)).2 hs

end State

end Dtest
