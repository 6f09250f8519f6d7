import ValidationSuite.Dtest.Scheduler.History

/-!
# Fresh agents for retries

A task is tried again on an agent that has had it before only when every live agent that is able to
run it has. The set `tried` is the set of the agents in the history of the task, so without outages
the first attempts at a task are on different agents, as many as there are.
-/

namespace Dtest

open Transition ByteString

variable {S : Scheduler} {tasks : List Task}

/-- The agent entries that are able to run the task. -/
def capableEntries (t : TaskId tasks) : Finset (Entry S) :=
  Finset.univ.filter fun a => able a t = true

/-- An agent that picks a task again leaves nobody fresh for it. -/
lemma Run.tried_of_pick {r : Run S tasks} {a : Entry S} {t : TaskId tasks}
    (hpick : r.pick a = some t) (htried : a ∈ (r.st t).tried) {b : Entry S}
    (halive : r.alive b = true) (hable : able b t = true) : b ∈ (r.st t).tried := by
  have hnone := ((r.eligible_iff a t).mp (eligible_of_pick r hpick)).2 htried
  by_contra hfresh
  have hne : b ≠ a := by
    rintro rfl
    exact hfresh htried
  rw [(r.hasFreshCandidate_iff t a).mpr ⟨b, hne, halive, hable, hfresh⟩] at hnone
  cases hnone

/-- The first `n` elements stay distinct, if an element comes up again only when there are `n`. -/
lemma nodup_take_concat {α : Type*} {l : List α} {a : α} {n : ℕ} (h : (l.take n).Nodup)
    (hagain : a ∈ l → n ≤ l.length) : ((l ++ [a]).take n).Nodup := by
  rcases le_or_gt n l.length with hn | hn
  · rwa [List.take_append_of_le_length hn]
  · rw [List.take_of_length_le hn.le] at h
    have hnew : a ∉ l := fun ha => absurd (hagain ha) (not_le.mpr hn)
    apply List.Nodup.sublist (List.take_sublist n _)
    exact List.nodup_append.mpr ⟨h, List.nodup_singleton a, by
      rintro b hb c hc rfl
      exact hnew (List.mem_singleton.mp hc ▸ hb)⟩

namespace State

variable {s s' : State S tasks} {l : Label S tasks} {ls : List (Label S tasks)}

/-- When a task is picked, every attempt at it has returned. -/
lemma starts_of_pick (h : s.Traced ls) {a : Entry S} {t : TaskId tasks}
    (hpick : s.run.pick a = some t) (b : Entry S) :
    b ∈ startsOf t ls ↔ b ∈ (s.run.st t).tried := by
  rw [h.starts_idle t (running_of_pick hpick), h.tried_iff]

/-- A task that is started again on an agent has been tried on all live agents able to run it. -/
lemma starts_of_again (h : s.Traced ls) {a : Entry S} {t : TaskId tasks}
    (hpick : s.run.pick a = some t) (hagain : a ∈ startsOf t ls) {b : Entry S}
    (halive : s.run.alive b = true) (hable : able b t = true) : b ∈ startsOf t ls := by
  rw [starts_of_pick h hpick] at hagain ⊢
  exact Run.tried_of_pick hpick hagain halive hable

/-- As long as no agent is retired, the first attempts at a task are on distinct agents. -/
theorem nodup_take_starts (h : (workers S tasks).Path .init ls s)
    (halive : ∀ a, s.run.alive a = true) (t : TaskId tasks) :
    ((startsOf t ls).take (capableEntries (S := S) t).card).Nodup := by
  refine h.invariant (I := fun s ls => (∀ a, s.run.alive a = true) →
    ((startsOf t ls).take (capableEntries (S := S) t).card).Nodup) ?_ ?_ halive
  · intro _
    rw [startsOf, List.filterMap_nil, List.take_nil]
    exact List.nodup_nil
  · intro ls u l u' hpath ih hs halive
    have hbefore : ∀ a, u.run.alive a = true := by
      intro a
      by_contra hdead
      have hlater := alive_step hs (Bool.not_eq_true _ |>.mp hdead)
      rw [halive a] at hlater
      cases hlater
    rw [startsOf_concat]
    cases hstarted : l.started t with
    | none => simpa using ih hbefore
    | some a =>
      refine nodup_take_concat (ih hbefore) fun hagain => ?_
      have htraced := traced hpath
      obtain ⟨w, rfl, rfl⟩ := Label.started_eq_some.mp hstarted
      cases hs with
      | call _ _ _ _ hpick =>
        have hsub : capableEntries t ⊆ (startsOf t ls).toFinset := fun b hb =>
          List.mem_toFinset.mpr (starts_of_again htraced hpick hagain (hbefore b)
            (Finset.mem_filter.mp hb).2)
        exact (Finset.card_le_card hsub).trans (List.toFinset_card_le _)

/-- The recorded attempts at a task are those started, up to one that is in flight. -/
lemma attempts_prefix (h : (workers S tasks).Path .init ls s) (t : TaskId tasks) :
    (s.run.st t).attempts.map (·.agent) <+:
      (startsOf t ls).map fun a => (S.agents.get a).address := by
  have htraced := traced h
  have hattempts : (s.run.st t).attempts.map (·.agent) =
      ((returnsOf t ls).map (·.1)).map fun a => (S.agents.get a).address := by
    rw [htraced.attempts_eq, List.map_map, List.map_map]
    rfl
  rw [hattempts]
  cases hrun : (s.run.st t).running with
  | false => rw [htraced.starts_idle t hrun]
  | true =>
    have hthreads := (bookkeeping (LTS.Reachable.path (.init rfl) h)).2
    obtain ⟨w, hw⟩ := (hthreads.running_iff t).mp hrun
    rw [htraced.starts_busy t w hw, List.map_append]
    exact List.prefix_append _ _

end State

/-- In every run: a task is started on an agent entry that has had it before only when all live
entries able to run it have had it; without retirements its first attempts are on distinct entries,
as many as are able to run it; and a pending task that a live entry is able to run is picked by
one. -/
theorem retries_prefer_fresh_agents (agents : List AgentInfo) (tasks : List Task)
    (ls : List (Label (Scheduler.make agents) tasks)) (s : State (Scheduler.make agents) tasks)
    (h : (workers (Scheduler.make agents) tasks).Path .init ls s) :
    (∀ w t s', Step s (.call w t) s' →
      (∃ v : Worker (Scheduler.make agents), .call v t ∈ ls ∧ v.1 = w.1) →
      ∀ b, s.run.alive b = true → able b t = true →
        ∃ (v : Worker (Scheduler.make agents)) (res : AttemptResult),
          .ret v t res ∈ ls ∧ v.1 = b) ∧
    ((∀ a, s.run.alive a = true) → ∀ t, ((startsOf t ls).take
      (min (startsOf t ls).length
        (capableEntries (S := Scheduler.make agents) t).card)).Nodup) ∧
    (∀ t, (s.run.st t).attempts.map (·.agent) <+:
      (startsOf t ls).map fun a => ((Scheduler.make agents).agents.get a).address) ∧
    (∀ t, (s.run.st t).done = false → (s.run.st t).running = false →
      (∃ a, able a t = true ∧ s.run.alive a = true) →
      ∃ b, s.run.alive b = true ∧ able b t = true ∧ s.run.eligible b t = true) := by
  have htraced := State.traced h
  refine ⟨?_, ?_, State.attempts_prefix h, ?_⟩
  · intro w t s' hs hagain b halive hable
    cases hs with
    | call _ _ _ _ hpick =>
      have hb := State.starts_of_again htraced hpick (mem_startsOf.mpr hagain) halive hable
      rw [htraced.starts_idle t (State.running_of_pick hpick)] at hb
      obtain ⟨⟨_, res⟩, hres, rfl⟩ := List.mem_map.mp hb
      obtain ⟨v, hv, hvb⟩ := mem_returnsOf.mp hres
      exact ⟨v, res, hv, hvb⟩
  · intro halive t
    rw [← List.take_take]
    exact (State.nodup_take_starts h halive t).sublist (List.take_sublist _ _)
  · rintro t hdone hrun ⟨a, hable, halive⟩
    obtain ⟨b, hb, heligible⟩ := s.run.exists_eligible hdone hrun hable halive
    exact ⟨b, hb, ((s.run.eligible_iff b t).mp heligible).1.2.2, heligible⟩

namespace Fleet

/-- A task that any agent can run, with a retry. -/
def flaky : List Task := [{ name := lit "flaky", argv := [lit "/bin/test"], retries := 1 }]

def test : TaskId flaky := ⟨0, by decide⟩

/-- The task fails on `kvmhost` and goes to `plain`. -/
def retryRun : List (Label scheduler flaky) :=
  [.acquire kvm1, .call kvm1 test, .acquire plain, .wait plain, .ret kvm1 test {}, .wait kvm1,
   .acquire plain, .call plain test]

end Fleet

theorem retries_prefer_fresh_agents_flaky :
    ∃ s : State Fleet.scheduler Fleet.flaky, State.init.follow Fleet.retryRun = some s ∧
      startsOf Fleet.test Fleet.retryRun = [Fleet.kvm1.1, Fleet.plain.1] ∧
      ((startsOf Fleet.test Fleet.retryRun).take (min (startsOf Fleet.test Fleet.retryRun).length
        (capableEntries (S := Fleet.scheduler) Fleet.test).card)).Nodup := by
  obtain ⟨s, hs, -, halive⟩ := State.exists_follow Fleet.retryRun
    (fun s => ∀ a, s.run.alive a = true) (by decide)
  obtain ⟨-, hdistinct, -⟩ := retries_prefer_fresh_agents Fleet.hosts Fleet.flaky Fleet.retryRun s
    (State.path_of_follow hs)
  exact ⟨s, hs, rfl, hdistinct halive Fleet.test⟩

end Dtest
