import ValidationSuite.Dtest.Scheduler.Basic

/-!
# What the operations of `Run` do

For each operation of the scheduling state: which tasks it touches, what it leaves alone, and, for
the two scans `pick` and `resolve_unschedulable`, what they find.
-/

namespace Dtest

variable {S : Scheduler} {tasks : List Task}

namespace Run

variable (r : Run S tasks)

/-! ### Frames -/

@[simp] lemma modify_st (t t' : TaskId tasks) (f : TaskState S → TaskState S) :
    (r.modify t f).st t' = if t' = t then f (r.st t') else r.st t' := by
  by_cases h : t' = t
  · subst h; simp [modify]
  · simp [modify, h]

@[simp] lemma modify_alive (t : TaskId tasks) (f : TaskState S → TaskState S) :
    (r.modify t f).alive = r.alive := rfl

@[simp] lemma modify_dead (t : TaskId tasks) (f : TaskState S → TaskState S) :
    (r.modify t f).dead = r.dead := rfl

@[simp] lemma modify_remaining (t : TaskId tasks) (f : TaskState S → TaskState S) :
    (r.modify t f).remaining = r.remaining := rfl

@[simp] lemma modify_events (t : TaskId tasks) (f : TaskState S → TaskState S) :
    (r.modify t f).events = r.events := rfl

@[simp] lemma log_st (e : Event S tasks) : (r.log e).st = r.st := rfl

@[simp] lemma log_alive (e : Event S tasks) : (r.log e).alive = r.alive := rfl

@[simp] lemma log_dead (e : Event S tasks) : (r.log e).dead = r.dead := rfl

@[simp] lemma log_remaining (e : Event S tasks) : (r.log e).remaining = r.remaining := rfl

@[simp] lemma log_events (e : Event S tasks) : (r.log e).events = r.events ++ [e] := rfl

@[simp] lemma start_st (a : Entry S) (t t' : TaskId tasks) :
    (r.start a t).st t' = if t' = t then { r.st t' with running := true } else r.st t' := by
  simp [start]

@[simp] lemma start_alive (a : Entry S) (t : TaskId tasks) : (r.start a t).alive = r.alive := rfl

@[simp] lemma start_remaining (a : Entry S) (t : TaskId tasks) :
    (r.start a t).remaining = r.remaining := rfl

@[simp] lemma start_events (a : Entry S) (t : TaskId tasks) :
    (r.start a t).events = r.events ++ [.call a t] := rfl

@[simp] lemma finish_st (t t' : TaskId tasks) (f : FinalStatus) (msg : ByteString) :
    (r.finish t f msg).st t' =
      if t' = t then { r.st t' with done := true, final := f, message := msg } else r.st t' := by
  rw [← modify_st r t t' fun s => { s with done := true, final := f, message := msg }]
  rfl

@[simp] lemma finish_alive (t : TaskId tasks) (f : FinalStatus) (msg : ByteString) :
    (r.finish t f msg).alive = r.alive := rfl

@[simp] lemma finish_remaining (t : TaskId tasks) (f : FinalStatus) (msg : ByteString) :
    (r.finish t f msg).remaining = r.remaining - 1 := rfl

@[simp] lemma finish_events (t : TaskId tasks) (f : FinalStatus) (msg : ByteString) :
    (r.finish t f msg).events = r.events ++ [.finish t f] := rfl

@[simp] lemma storeAttempt_st (a : Entry S) (t t' : TaskId tasks) (res : AttemptResult) :
    (r.storeAttempt a t res).st t' = if t' = t then
      { r.st t' with
        running := false
        tried := insert a (r.st t').tried
        attempts := (r.st t').attempts ++ [⟨(S.agents.get a).address, res⟩] }
      else r.st t' := by
  simp [storeAttempt]

@[simp] lemma storeAttempt_alive (a : Entry S) (t : TaskId tasks) (res : AttemptResult) :
    (r.storeAttempt a t res).alive = r.alive := rfl

@[simp] lemma storeAttempt_remaining (a : Entry S) (t : TaskId tasks) (res : AttemptResult) :
    (r.storeAttempt a t res).remaining = r.remaining := rfl

@[simp] lemma storeAttempt_events (a : Entry S) (t : TaskId tasks) (res : AttemptResult) :
    (r.storeAttempt a t res).events = r.events ++ [.ret a t res.status] := rfl

@[simp] lemma countFailure_st (t t' : TaskId tasks) :
    (r.countFailure t).st t' =
      if t' = t then { r.st t' with failures := (r.st t').failures + 1 } else r.st t' := by
  simp [countFailure]

@[simp] lemma countFailure_alive (t : TaskId tasks) : (r.countFailure t).alive = r.alive := rfl

@[simp] lemma countFailure_remaining (t : TaskId tasks) :
    (r.countFailure t).remaining = r.remaining := rfl

@[simp] lemma countFailure_events (t : TaskId tasks) : (r.countFailure t).events = r.events := rfl

@[simp] lemma retire_st (a : Entry S) : (r.retire a).st = r.st := rfl

@[simp] lemma retire_alive (a b : Entry S) :
    (r.retire a).alive b = if b = a then false else r.alive b := by
  simp [retire, Function.update_apply]

@[simp] lemma retire_dead (a : Entry S) :
    (r.retire a).dead = r.dead ++ [(S.agents.get a).address] := rfl

@[simp] lemma storeAttempt_dead (a : Entry S) (t : TaskId tasks) (res : AttemptResult) :
    (r.storeAttempt a t res).dead = r.dead := rfl

@[simp] lemma retire_remaining (a : Entry S) : (r.retire a).remaining = r.remaining := rfl

@[simp] lemma retire_events (a : Entry S) : (r.retire a).events = r.events ++ [.retire a] := rfl

/-! ### The scans -/

lemma hasFreshCandidate_iff (t : TaskId tasks) (a : Entry S) :
    r.hasFreshCandidate t a = true ↔
      ∃ b, b ≠ a ∧ r.alive b = true ∧ able b t = true ∧ b ∉ (r.st t).tried := by
  simp [hasFreshCandidate, List.any_eq_true, and_assoc]

lemma eligible_iff (a : Entry S) (t : TaskId tasks) :
    r.eligible a t = true ↔
      ((r.st t).done = false ∧ (r.st t).running = false ∧ able a t = true) ∧
        (a ∈ (r.st t).tried → r.hasFreshCandidate t a = false) := by
  simp [eligible, and_assoc, imp_iff_not_or]

lemma anyLiveCapable_iff (t : TaskId tasks) :
    r.anyLiveCapable t = true ↔ ∃ a, able a t = true ∧ r.alive a = true := by
  simp [anyLiveCapable, List.any_eq_true]

lemma pick_eq_none_iff (a : Entry S) : r.pick a = none ↔ ∀ t, r.eligible a t = false := by
  simp [pick, List.find?_eq_none]

lemma eligible_of_pick {a : Entry S} {t : TaskId tasks} (h : r.pick a = some t) :
    r.eligible a t = true := List.find?_some h

/-- A pending task with a live capable agent is eligible for one of them: the preference for a
fresh agent never makes every agent decline. -/
lemma exists_eligible {t : TaskId tasks} (hdone : (r.st t).done = false)
    (hrun : (r.st t).running = false) {a : Entry S} (hable : able a t = true)
    (hlive : r.alive a = true) : ∃ b, r.alive b = true ∧ r.eligible b t = true := by
  by_cases hfresh : r.hasFreshCandidate t a = true
  · obtain ⟨b, _, hb, hbt, hnew⟩ := (r.hasFreshCandidate_iff t a).mp hfresh
    exact ⟨b, hb, (r.eligible_iff b t).mpr ⟨⟨hdone, hrun, hbt⟩, fun h => absurd h hnew⟩⟩
  · exact ⟨a, hlive, (r.eligible_iff a t).mpr
      ⟨⟨hdone, hrun, hable⟩, fun _ => by simpa using hfresh⟩⟩

/-! ### Resolving what nobody can run -/

/-- A pending task that no live agent can run. -/
def Stranded (t : TaskId tasks) : Prop :=
  (r.st t).done = false ∧ (r.st t).running = false ∧ r.anyLiveCapable t = false

instance (t : TaskId tasks) : Decidable (r.Stranded t) :=
  inferInstanceAs (Decidable (_ ∧ _ ∧ _))

/-- What is left of a task once it has been resolved as unschedulable. -/
def resolved (t : TaskId tasks) : TaskState S :=
  { r.st t with
    done := true
    final := .unschedulable
    message := unschedulableMessage (r.anyCapable t) (tasks.get t).needs }

lemma resolveTask_of_stranded {t : TaskId tasks} (h : r.Stranded t) :
    r.resolveTask t =
      r.finish t .unschedulable (unschedulableMessage (r.anyCapable t) (tasks.get t).needs) := by
  obtain ⟨hd, hr, hl⟩ := h
  simp [resolveTask, hd, hr, hl]

lemma resolveTask_of_not_stranded {t : TaskId tasks} (h : ¬ r.Stranded t) :
    r.resolveTask t = r := by
  simp only [resolveTask]
  split_ifs with h1 h2
  · rfl
  · rfl
  · refine absurd ⟨?_, ?_, ?_⟩ h <;> simp_all

@[simp] lemma resolveTask_alive (t : TaskId tasks) : (r.resolveTask t).alive = r.alive := by
  by_cases h : r.Stranded t
  · simp [r.resolveTask_of_stranded h]
  · rw [r.resolveTask_of_not_stranded h]

lemma resolveTask_st (t t' : TaskId tasks) :
    (r.resolveTask t).st t' = if t' = t ∧ r.Stranded t' then r.resolved t' else r.st t' := by
  by_cases h : r.Stranded t
  · rw [r.resolveTask_of_stranded h, finish_st]
    by_cases htt : t' = t
    · subst htt; simp [h, resolved]
    · simp [htt]
  · rw [r.resolveTask_of_not_stranded h, if_neg]
    rintro ⟨rfl, h'⟩
    exact h h'

lemma stranded_congr {r r' : Run S tasks} {t : TaskId tasks} (hst : r'.st t = r.st t)
    (halive : r'.alive = r.alive) : r'.Stranded t ↔ r.Stranded t := by
  simp [Stranded, anyLiveCapable, hst, halive]

lemma foldl_resolveTask_st (l : List (TaskId tasks)) (hl : l.Nodup) (t : TaskId tasks) :
    (l.foldl resolveTask r).st t = if t ∈ l ∧ r.Stranded t then r.resolved t else r.st t := by
  induction l generalizing r with
  | nil => simp
  | cons u l ih =>
    obtain ⟨hu, hl⟩ := List.nodup_cons.mp hl
    rw [List.foldl_cons, ih _ hl]
    by_cases htu : t = u
    · subst htu
      simp [hu, resolveTask_st]
    · have hst : (r.resolveTask u).st t = r.st t := by simp [resolveTask_st, htu]
      have hres : (r.resolveTask u).resolved t = r.resolved t := by
        simp [resolved, hst, anyCapable]
      simp only [stranded_congr hst (r.resolveTask_alive u), hres, hst, List.mem_cons, htu,
        false_or]

/-- The loop of `resolve_unschedulable` touches exactly the stranded tasks. -/
lemma resolveUnschedulable_st (t : TaskId tasks) :
    r.resolveUnschedulable.st t = if r.Stranded t then r.resolved t else r.st t := by
  simp [resolveUnschedulable, foldl_resolveTask_st r _ (List.nodup_finRange _)]

/-- What holds of `r` and is kept by finishing a stranded task holds once
`resolve_unschedulable` is through. -/
theorem resolveUnschedulable_induction {P : Run S tasks → Prop} (h : P r)
    (hfinish : ∀ r t msg, P r → r.Stranded t → P (r.finish t .unschedulable msg)) :
    P r.resolveUnschedulable := by
  refine List.foldlRecOn _ resolveTask h fun r' h' t _ => ?_
  by_cases hs : r'.Stranded t
  · rw [r'.resolveTask_of_stranded hs]
    exact hfinish _ _ _ h' hs
  · rwa [r'.resolveTask_of_not_stranded hs]

@[simp] lemma resolveUnschedulable_alive : r.resolveUnschedulable.alive = r.alive :=
  r.resolveUnschedulable_induction (P := fun r' => r'.alive = r.alive) rfl
    fun r' t msg h _ => by rw [finish_alive, h]

@[simp] lemma resolveUnschedulable_dead : r.resolveUnschedulable.dead = r.dead :=
  r.resolveUnschedulable_induction (P := fun r' => r'.dead = r.dead) rfl
    fun _ _ _ h _ => h

/-- Afterwards no task is stranded. -/
lemma not_stranded_resolveUnschedulable (t : TaskId tasks) :
    ¬ r.resolveUnschedulable.Stranded t := by
  intro h
  by_cases hs : r.Stranded t
  · have hd := h.1
    simp [resolveUnschedulable_st, hs, resolved] at hd
  · refine hs ((stranded_congr ?_ r.resolveUnschedulable_alive).mp h)
    simp [resolveUnschedulable_st, hs]

/-! ### Recording a result -/

/-- The ways through the part of `worker` that follows `exec_.run`. -/
inductive Recorded (a : Entry S) (t : TaskId tasks) (res : AttemptResult) : Run S tasks → Prop
  /-- the task has passed -/
  | passed (hstatus : res.status = .passed) :
      Recorded a t res ((r.storeAttempt a t res).finish t .passed)
  /-- a failure, and no retry is left -/
  | exhausted (hstatus : res.status.isFailure = true)
      (hfail : (tasks.get t).retries < (r.st t).failures + 1) :
      Recorded a t res
        (((r.storeAttempt a t res).countFailure t).finish t res.status.verdict)
  /-- a failure, and the task is put back -/
  | requeued (hstatus : res.status.isFailure = true)
      (hfail : (r.st t).failures + 1 ≤ (tasks.get t).retries) :
      Recorded a t res ((r.storeAttempt a t res).countFailure t)
  /-- the first outage of the agent -/
  | retired (hstatus : res.status = .agentError) (halive : r.alive a = true) :
      Recorded a t res ((r.storeAttempt a t res).retire a).resolveUnschedulable
  /-- an outage of an agent that is already retired -/
  | again (hstatus : res.status = .agentError) (halive : r.alive a = false) :
      Recorded a t res (r.storeAttempt a t res)

theorem Recorded.of_record (a : Entry S) (t : TaskId tasks) (res : AttemptResult) :
    r.Recorded a t res (r.record a t res) := by
  have hcount : (((r.storeAttempt a t res).countFailure t).st t).failures
      = (r.st t).failures + 1 := by simp
  rcases hs : res.status with _ | _ | _ | _
  · simpa [record, hs] using Recorded.passed (r := r) (a := a) (t := t) hs
  · have hf : res.status.isFailure = true := by rw [hs]; rfl
    rcases lt_or_ge (tasks.get t).retries ((r.st t).failures + 1) with h | h
    · simpa only [record, hs, hcount, gt_iff_lt, if_pos h, reduceCtorEq, if_false,
        AttemptStatus.verdict] using
        Recorded.exhausted (a := a) hf h
    · simpa only [record, hs, hcount, gt_iff_lt, if_neg (not_lt.mpr h)] using
        Recorded.requeued (a := a) hf h
  · have hf : res.status.isFailure = true := by rw [hs]; rfl
    rcases lt_or_ge (tasks.get t).retries ((r.st t).failures + 1) with h | h
    · simpa only [record, hs, hcount, gt_iff_lt, if_pos h, if_true, AttemptStatus.verdict] using
        Recorded.exhausted (a := a) hf h
    · simpa only [record, hs, hcount, gt_iff_lt, if_neg (not_lt.mpr h)] using
        Recorded.requeued (a := a) hf h
  · cases ha : r.alive a
    · simpa [record, hs, ha] using Recorded.again (r := r) (t := t) hs ha
    · simpa [record, hs, ha] using Recorded.retired (r := r) (t := t) hs ha

/-- A worker that records a result only ever retires its own agent. -/
lemma record_alive (a b : Entry S) (t : TaskId tasks) (res : AttemptResult) :
    (r.record a t res).alive b = true ↔
      r.alive b = true ∧ (b = a → res.status ≠ .agentError) := by
  have h := Recorded.of_record r a t res
  generalize r.record a t res = r' at h ⊢
  cases h with
  | passed hs => simp [hs]
  | exhausted hs _ => cases h : res.status <;> simp_all [AttemptStatus.isFailure]
  | requeued hs _ => cases h : res.status <;> simp_all [AttemptStatus.isFailure]
  | retired hs _ => by_cases hb : b = a <;> simp [hs, hb]
  | again hs ha => by_cases hb : b = a <;> simp [hs, hb, ha]

lemma resolveUnschedulable_remaining_le :
    r.resolveUnschedulable.remaining ≤ r.remaining :=
  r.resolveUnschedulable_induction (P := fun r' => r'.remaining ≤ r.remaining) le_rfl
    fun r' t msg h _ => by rw [finish_remaining]; omega

lemma record_remaining_le (a : Entry S) (t : TaskId tasks) (res : AttemptResult) :
    (r.record a t res).remaining ≤ r.remaining := by
  have h := Recorded.of_record r a t res
  generalize r.record a t res = r' at h ⊢
  cases h with
  | passed _ => simp
  | exhausted _ _ => simp
  | requeued _ _ => simp
  | again _ _ => simp
  | retired _ _ => exact resolveUnschedulable_remaining_le _

/-- What recording an attempt at `t` does to another task: nothing, unless the agent is retired
and leaves it stranded. -/
lemma record_st_of_ne (a : Entry S) {t t' : TaskId tasks} (res : AttemptResult) (h : t' ≠ t) :
    (r.record a t res).st t' = r.st t' ∨
      ((r.record a t res).st t' = r.resolved t' ∧
        (r.st t').done = false ∧ (r.st t').running = false ∧
        ∀ b, able b t' = true → (r.record a t res).alive b = false) := by
  have hrec := Recorded.of_record r a t res
  generalize r.record a t res = r' at hrec ⊢
  cases hrec with
  | passed _ => simp [h]
  | exhausted _ _ => simp [h]
  | requeued _ _ => simp [h]
  | again _ _ => simp [h]
  | retired _ _ =>
    have hst : ((r.storeAttempt a t res).retire a).st t' = r.st t' := by simp [h]
    rw [resolveUnschedulable_st]
    split_ifs with hs
    · refine .inr ⟨?_, ?_, ?_, ?_⟩
      · rw [resolved, hst]; rfl
      · rw [← hst]; exact hs.1
      · rw [← hst]; exact hs.2.1
      · intro b hb
        rw [resolveUnschedulable_alive]
        by_contra hlive
        have hlive := ((r.storeAttempt a t res).retire a).anyLiveCapable_iff t' |>.mpr
          ⟨b, hb, by simpa using hlive⟩
        rw [hs.2.2] at hlive
        cases hlive
    · exact .inl hst

/-- What is remembered of the attempts is what has been stored. -/
lemma record_memory (a : Entry S) (t u : TaskId tasks) (res : AttemptResult) :
    ((r.record a t res).st u).attempts = ((r.storeAttempt a t res).st u).attempts ∧
      ((r.record a t res).st u).tried = ((r.storeAttempt a t res).st u).tried := by
  have hrec := Recorded.of_record r a t res
  generalize r.record a t res = r' at hrec ⊢
  cases hrec with
  | passed _ => by_cases h : u = t <;> simp [h]
  | exhausted _ _ => by_cases h : u = t <;> simp [h]
  | requeued _ _ => by_cases h : u = t <;> simp [h]
  | again _ _ => exact ⟨rfl, rfl⟩
  | retired _ _ =>
    rw [resolveUnschedulable_st]
    split_ifs
    · exact ⟨rfl, rfl⟩
    · exact ⟨rfl, rfl⟩

lemma record_running (a : Entry S) (t t' : TaskId tasks) (res : AttemptResult) :
    ((r.record a t res).st t').running = true ↔ t' ≠ t ∧ (r.st t').running = true := by
  by_cases h : t' = t
  · subst h
    have hrec := Recorded.of_record r a t' res
    generalize r.record a t' res = r' at hrec ⊢
    cases hrec with
    | passed _ => simp
    | exhausted _ _ => simp
    | requeued _ _ => simp
    | again _ _ => simp
    | retired _ _ =>
      rw [resolveUnschedulable_st]
      split_ifs <;> simp [resolved]
  · rcases r.record_st_of_ne a res h with hst | ⟨hst, _, hrun, _⟩
    · simp [hst, h]
    · simp [hst, resolved, hrun]

end Run

/-! ### The agents of a scheduler -/

/-- The constructor of the scheduler leaves the labels alone. -/
lemma labels_make (agents : List AgentInfo) :
    (Scheduler.make agents).agents.map (·.labels) = agents.map (·.labels) := by
  simp only [Scheduler.make, List.map_map]
  refine List.map_congr_left fun a _ => ?_
  simp only [Function.comp_apply]
  split_ifs <;> rfl

lemma labels_get_make {agents : List AgentInfo} (a : Entry (Scheduler.make agents)) :
    ∃ b, agents[(a : ℕ)]? = some b ∧
      ((Scheduler.make agents).agents.get a).labels = b.labels := by
  have hget : ((Scheduler.make agents).agents.map (·.labels))[(a : ℕ)]? =
      some ((Scheduler.make agents).agents.get a).labels := by
    simp
  rw [labels_make, List.getElem?_map, Option.map_eq_some_iff] at hget
  obtain ⟨b, hb, hlabels⟩ := hget
  exact ⟨b, hb, hlabels.symm⟩

/-- The entry of the `i`th agent. -/
lemma exists_entry {agents : List AgentInfo} {i : ℕ} {b : AgentInfo} (h : agents[i]? = some b) :
    ∃ a : Entry (Scheduler.make agents), (a : ℕ) = i ∧
      ((Scheduler.make agents).agents.get a).labels = b.labels := by
  obtain ⟨hi, rfl⟩ := List.getElem?_eq_some_iff.mp h
  let a : Entry (Scheduler.make agents) := ⟨i, by simpa [Scheduler.make] using hi⟩
  obtain ⟨b, hb, hlabels⟩ := labels_get_make a
  rw [h] at hb
  obtain rfl := Option.some.inj hb
  exact ⟨a, rfl, hlabels⟩

end Dtest
