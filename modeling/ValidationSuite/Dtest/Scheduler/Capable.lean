import ValidationSuite.Dtest.Labels
import ValidationSuite.Dtest.Scheduler.History

/-!
# Tasks only run on capable agents

Whatever the interleaving, a task is only started on an agent whose labels satisfy its
requirements, key by key and value by value.
-/

namespace Dtest

open Transition ByteString

variable {S : Scheduler} {tasks : List Task}

lemma able_iff (a : Entry S) (t : TaskId tasks) :
    able a t = true ↔ Satisfies (S.agents.get a).labels (tasks.get t).needs :=
  labelsSatisfy_iff _ _

/-- A step that starts a task starts it where it can run. -/
lemma State.able_of_call {s s' : State S tasks} {ls : List (Label S tasks)}
    (h : (workers S tasks).Path s ls s') {w : Worker S} {t : TaskId tasks}
    (hcall : .call w t ∈ ls) : able w.1 t = true := by
  induction h with
  | nil s => cases hcall
  | cons hs _ ih =>
    rcases List.mem_cons.mp hcall with rfl | hcall
    · cases hs with
      | call _ _ _ _ hpick =>
        exact ((Run.eligible_iff _ _ _).mp (Run.eligible_of_pick _ hpick)).1.2.2
    · exact ih hcall

namespace State.Traced

variable {s : State S tasks} {ls : List (Label S tasks)}

/-- Every attempt in the history of a task has been started. -/
lemma returns_subset (h : s.Traced ls) (hth : s.Threads) (t : TaskId tasks) :
    (returnsOf t ls).map (·.1) ⊆ startsOf t ls := by
  cases hrun : (s.run.st t).running with
  | false =>
    rw [h.starts_idle t hrun]
    exact List.Subset.refl _
  | true =>
    obtain ⟨w, hw⟩ := (hth.running_iff t).mp hrun
    rw [h.starts_busy t w hw]
    exact List.subset_append_left _ _

lemma mem_startsOf_of_calling (h : s.Traced ls) {w : Worker S} {t : TaskId tasks}
    (hw : s.pc w = .calling t) : w.1 ∈ startsOf t ls := by
  rw [h.starts_busy t w hw]
  exact List.mem_append_right _ (List.mem_singleton_self _)

end State.Traced

/-- `labels_satisfy` compares keys and values, and in every run every attempt, recorded or in
flight, is on an agent whose labels satisfy the requirements of the task in this sense. -/
theorem tasks_run_on_capable_agents :
    (∀ agentLabels needs, labelsSatisfy agentLabels needs = true ↔
      Satisfies agentLabels needs) ∧
    ∀ (agents : List AgentInfo) (tasks : List Task)
      (ls : List (Label (Scheduler.make agents) tasks)) (s : State (Scheduler.make agents) tasks),
      (workers (Scheduler.make agents) tasks).Path .init ls s → ∀ t : TaskId tasks,
      (∀ a ∈ startsOf t ls,
        Satisfies ((Scheduler.make agents).agents.get a).labels (tasks.get t).needs) ∧
      ((s.run.st t).attempts = (returnsOf t ls).map
          (fun x => ⟨((Scheduler.make agents).agents.get x.1).address, x.2⟩) ∧
        ∀ x ∈ returnsOf t ls,
          Satisfies ((Scheduler.make agents).agents.get x.1).labels (tasks.get t).needs) ∧
      (∀ w, s.pc w = .calling t →
        Satisfies ((Scheduler.make agents).agents.get w.1).labels (tasks.get t).needs) ∧
      ((∀ a ∈ agents, ¬ Satisfies a.labels (tasks.get t).needs) →
        startsOf t ls = [] ∧ (s.run.st t).attempts = []) := by
  refine ⟨labelsSatisfy_iff, ?_⟩
  intro agents tasks ls s h t
  have htraced := State.traced h
  have hthreads := (State.bookkeeping (LTS.Reachable.path (.init rfl) h)).2
  have hstarts : ∀ a ∈ startsOf t ls,
      Satisfies ((Scheduler.make agents).agents.get a).labels (tasks.get t).needs := by
    intro a ha
    obtain ⟨w, hw, rfl⟩ := mem_startsOf.mp ha
    exact (able_iff _ _).mp (State.able_of_call h hw)
  refine ⟨hstarts, ⟨htraced.attempts_eq t, ?_⟩, ?_, ?_⟩
  · intro x hx
    exact hstarts x.1 (htraced.returns_subset hthreads t (List.mem_map_of_mem hx))
  · intro w hw
    exact hstarts w.1 (htraced.mem_startsOf_of_calling hw)
  · intro hnone
    have hempty : startsOf t ls = [] := by
      rw [List.eq_nil_iff_forall_not_mem]
      intro a ha
      obtain ⟨b, hb, hlabels⟩ := labels_get_make a
      refine hnone b (List.mem_of_getElem? hb) ?_
      rw [← hlabels]
      exact hstarts a ha
    have hreturns := htraced.returns_subset hthreads t
    rw [hempty, List.subset_nil, List.map_eq_nil_iff] at hreturns
    exact ⟨hempty, by rw [htraced.attempts_eq, hreturns, List.map_nil]⟩

/-- The attempts of the outage, on the agent with the label `kvm=true`. -/
theorem tasks_run_on_capable_agents_outage :
    ∃ s : State Fleet.scheduler Fleet.vms, State.init.follow Fleet.outageRun = some s ∧
      (s.run.st Fleet.vm2).attempts = [⟨lit "kvmhost", Fleet.outage⟩] ∧
      startsOf Fleet.vm2 Fleet.outageRun = [Fleet.kvm2.1] ∧
      Satisfies (Fleet.scheduler.agents.get Fleet.kvm2.1).labels
        (Fleet.vms.get Fleet.vm2).needs := by
  obtain ⟨s, hs, -, hattempts⟩ := State.exists_follow Fleet.outageRun
    (fun s => (s.run.st Fleet.vm2).attempts = [⟨lit "kvmhost", Fleet.outage⟩]) (by decide)
  have hall := tasks_run_on_capable_agents.2 Fleet.hosts Fleet.vms Fleet.outageRun s
    (State.path_of_follow hs) Fleet.vm2
  exact ⟨s, hs, hattempts, rfl, hall.1 Fleet.kvm2.1 (by decide)⟩

end Dtest
