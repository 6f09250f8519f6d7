import ValidationSuite.Dtest.Scheduler.Worker

/-!
# No wakeup is lost

A thread that sleeps in `cv_.wait` has nothing to do: its agent is alive, tasks remain, and `pick`
finds none of them. Every step that could give it work ends in `cv_.notify_all`; the one step that
changes the scheduling state without a notification, a call, only takes a task away.
-/

namespace Dtest

open Transition

variable {S : Scheduler} {tasks : List Task}

namespace Run

variable {r : Run S tasks}

/-- Starting a task makes nothing eligible. -/
lemma eligible_of_start {a b : Entry S} {t u : TaskId tasks}
    (h : (r.start b u).eligible a t = true) : r.eligible a t = true := by
  have hfresh : (r.start b u).hasFreshCandidate t a = r.hasFreshCandidate t a := by
    rw [Bool.eq_iff_iff, hasFreshCandidate_iff, hasFreshCandidate_iff]
    by_cases htu : t = u <;> simp [htu]
  rw [eligible_iff, hfresh] at h
  rw [eligible_iff]
  by_cases htu : t = u
  · simp [htu] at h
  · simpa [htu] using h

lemma pick_start_eq_none {a b : Entry S} {u : TaskId tasks} (h : r.pick a = none) :
    (r.start b u).pick a = none := by
  rw [pick_eq_none_iff] at h ⊢
  intro t
  by_contra ht
  have := eligible_of_start (Bool.not_eq_false _ |>.mp ht)
  rw [h t] at this
  cases this

end Run

namespace State

/-- What a sleeping thread can rely on. -/
def Idle (s : State S tasks) (w : Worker S) : Prop :=
  s.run.continues w.1 = true ∧ s.run.pick w.1 = none

lemma idle_step {s s' : State S tasks} {l : Label S tasks}
    (h : ∀ w, s.pc w = .waiting → s.Idle w) (hs : Step s l s') {w : Worker S}
    (hw : s'.pc w = .waiting) : s'.Idle w := by
  by_cases hv : w = l.worker
  · -- only `wait` puts its own thread to sleep, after a `pick` that failed
    subst hv
    cases hs with
    | wait v _ hcond hpick => exact ⟨hcond, hpick⟩
    | acquire v _ _ => simp [Label.worker] at hw
    | wake v _ => simp [Label.worker] at hw
    | call v t _ _ _ => simp [Label.worker] at hw
    | ret v t res _ _ => simp [Label.worker] at hw
    | leave v _ _ => simp [Label.worker] at hw
  · have hsleep : s.pc w = .waiting := by
      rcases hs.pc_of_ne hv with hp | ⟨hp, _⟩
      · rw [← hp, hw]
      · exact hp
    obtain ⟨hcond, hpick⟩ := h w hsleep
    cases hs with
    | acquire v _ _ => exact ⟨hcond, hpick⟩
    | wake v _ => exact ⟨hcond, hpick⟩
    | wait v _ _ _ => exact ⟨hcond, hpick⟩
    | call v t _ _ _ => exact ⟨hcond, Run.pick_start_eq_none hpick⟩
    | ret v t res _ _ =>
      simp only [Label.worker] at hv
      simp [hv] at hw
    | leave v _ _ =>
      simp only [Label.worker] at hv
      simp [hv] at hw

/-- In every state of every run, the threads asleep are idle. -/
theorem idle_of_waiting {s : State S tasks} (h : (workers S tasks).Reachable s) {w : Worker S}
    (hw : s.pc w = .waiting) : s.Idle w := by
  refine h.invariant (I := fun s => ∀ w, s.pc w = .waiting → s.Idle w) ?_ ?_ w hw
  · rintro s rfl w hw
    cases hw
  · intro s l s' _ ih hs w hw
    exact idle_step ih hs hw

end State

/-- In every state of every run, a thread that is blocked in `cv_.wait` and has not been notified
belongs to a live agent, tasks remain, and `pick` fails for its agent. So a step that gives a
sleeping thread a task, or a reason to leave its loop, also wakes it. -/
theorem no_wakeup_is_lost (agents : List AgentInfo) (tasks : List Task)
    (s : State (Scheduler.make agents) tasks)
    (h : (workers (Scheduler.make agents) tasks).Reachable s) :
    (∀ w, s.pc w = .waiting →
      s.run.alive w.1 = true ∧ 0 < s.run.remaining ∧ s.run.pick w.1 = none) ∧
    (∀ l s' w, Step s l s' → s.pc w = .waiting →
      s'.run.alive w.1 = false ∨ s'.run.remaining ≤ 0 ∨ s'.run.pick w.1 ≠ none →
      s'.pc w = .notified) := by
  have hidle : ∀ s' : State (Scheduler.make agents) tasks,
      (workers (Scheduler.make agents) tasks).Reachable s' → ∀ w, s'.pc w = .waiting →
      s'.run.alive w.1 = true ∧ 0 < s'.run.remaining ∧ s'.run.pick w.1 = none := by
    intro s' hs' w hw
    obtain ⟨hcond, hpick⟩ := State.idle_of_waiting hs' hw
    obtain ⟨hpos, hlive⟩ := (s'.run.continues_iff w.1).mp hcond
    exact ⟨hlive, hpos, hpick⟩
  refine ⟨hidle s h, ?_⟩
  intro l s' w hs hw hwork
  rcases hs.of_waiting hw with hw' | hw'
  · exfalso
    obtain ⟨hlive, hpos, hpick⟩ := hidle s' (h.step hs) w hw'
    rcases hwork with hdead | hnone | hsome
    · rw [hlive] at hdead
      cases hdead
    · omega
    · exact hsome hpick
  · exact hw'

/-- Both slots of `kvmhost` are busy, and `plain` sleeps. -/
theorem no_wakeup_is_lost_plain :
    ∃ s : State Fleet.scheduler Fleet.vms, State.init.follow (Fleet.outageRun.take 6) = some s ∧
      s.pc Fleet.plain = .waiting ∧ 0 < s.run.remaining ∧ s.run.pick Fleet.plain.1 = none := by
  obtain ⟨s, hs, hr, hw⟩ := State.exists_follow (Fleet.outageRun.take 6)
    (fun s => s.pc Fleet.plain = .waiting) (by decide)
  obtain ⟨_, hpos, hpick⟩ := (no_wakeup_is_lost Fleet.hosts Fleet.vms s hr).1 _ hw
  exact ⟨s, hs, hw, hpos, hpick⟩

end Dtest
