import Mathlib.Order.Monotone.Basic
import ValidationSuite.Dtest.Process.Output

/-!
# Whether the supervision ends

A call of `drain` returns when a `read` brings neither data nor `EINTR`. Nothing in its loop bounds
the number of reads, so a command that never stops writing keeps `run_process` in `drain`, and
neither its exit nor the deadline is looked at again. The supervision is only as good as the pauses
of the command.
-/

namespace Dtest.Process.Output

variable {env : Env} {limit : ℕ} {i : ℕ} {site : Site} {ch : Channel}

lemma ReadResult.not_busy_of_closes {r : ReadResult} (h : r.closes = true) :
    r.isBusy = false := by
  cases r <;> simp_all [closes, isBusy]

/-! ### Single steps -/

lemma run_visit (h : (run env limit i).stage = .visit site ch) :
    run env limit (i + 1) = (run env limit i).goto
      (if ((run env limit i).capture ch).isOpen then .drain site ch else site.next ch) := by
  rw [run, State.step, h]

lemma run_drain (h : (run env limit i).stage = .drain site ch) :
    run env limit (i + 1) = (run env limit i).drainTurn env limit site ch := by
  rw [run, State.step, h]

namespace State

variable {s : State}

@[simp] lemma drainTurn_reads (ch' : Channel) :
    ((s.drainTurn env limit site ch).capture ch').reads =
      (s.capture ch').reads + if ch' = ch then 1 else 0 := by
  have hturned := Turned.of_drainTurn env limit s site ch
  generalize s.drainTurn env limit site ch = s' at hturned ⊢
  by_cases h : ch' = ch
  · subst h
    cases hturned <;> simp
  · cases hturned <;> simp [h]

/-- A turn stays in `drain` as long as the reads are busy. -/
lemma drainTurn_stage (h : s.stage = .drain site ch) :
    (s.drainTurn env limit site ch).stage =
      if (env.read ch (s.capture ch).reads).isBusy then .drain site ch else site.next ch := by
  have hturned := Turned.of_drainTurn env limit s site ch
  generalize s.drainTurn env limit site ch = s' at hturned ⊢
  cases hturned with
  | data hread => simp [hread, ReadResult.isBusy, h]
  | eintr hread => simp [hread, ReadResult.isBusy, h]
  | eagain hread => simp [hread, ReadResult.isBusy]
  | closes hclosed _ => simp [ReadResult.not_busy_of_closes hclosed]

/-- A channel is closed by the drains of the two loops. -/
lemma drainTurn_isOpen (ch' : Channel) :
    ((s.drainTurn env limit site ch).capture ch').isOpen =
      if ch' = ch ∧ (env.read ch (s.capture ch).reads).closes = true then
        (s.capture ch').isOpen && site == .final
      else (s.capture ch').isOpen := by
  have hturned := Turned.of_drainTurn env limit s site ch
  generalize s.drainTurn env limit site ch = s' at hturned ⊢
  by_cases h : ch' = ch
  · subst h
    cases hturned with
    | data hread => simp [hread, ReadResult.closes]
    | eintr hread => simp [hread, ReadResult.closes]
    | eagain hread => simp [hread, ReadResult.closes]
    | closes hclosed _ => simp [hclosed]
  · cases hturned <;> simp [h]

lemma step_reads_le (ch : Channel) :
    (s.capture ch).reads ≤ ((s.step env limit).capture ch).reads := by
  unfold step
  cases s.stage with
  | visit site ch' => exact le_rfl
  | drain site ch' =>
    rw [drainTurn_reads]
    exact Nat.le_add_right _ _
  | hasExited site => exact le_rfl
  | deadline =>
    dsimp only
    split_ifs <;> exact le_rfl
  | graceOver => exact le_rfl
  | done => exact le_rfl

end State

lemma reads_mono (ch : Channel) : Monotone fun i => ((run env limit i).capture ch).reads :=
  monotone_nat_of_le_succ fun _ => State.step_reads_le ch

/-! ### One call of `drain` -/

/-- A call of `drain` returns once a read is not busy. -/
lemma leaves_drain {k : ℕ} (h : (run env limit i).stage = .drain site ch)
    (hk : ((run env limit i).capture ch).reads ≤ k) (hpause : (env.read ch k).isBusy = false) :
    ∃ j, i < j ∧ (run env limit j).stage = site.next ch := by
  -- the induction is on the reads left until the pause
  induction hleft : k - ((run env limit i).capture ch).reads generalizing i with
  | zero =>
    have hnow : ((run env limit i).capture ch).reads = k := by omega
    refine ⟨i + 1, Nat.lt_succ_self i, ?_⟩
    rw [run_drain h, State.drainTurn_stage h, hnow, hpause]
    rfl
  | succ left ih =>
    have hstage : (run env limit (i + 1)).stage =
        if (env.read ch ((run env limit i).capture ch).reads).isBusy then .drain site ch
        else site.next ch := by
      rw [run_drain h, State.drainTurn_stage h]
    cases hbusy : (env.read ch ((run env limit i).capture ch).reads).isBusy with
    | false =>
      rw [hbusy] at hstage
      exact ⟨i + 1, Nat.lt_succ_self i, hstage⟩
    | true =>
      rw [hbusy] at hstage
      have hreads : ((run env limit (i + 1)).capture ch).reads =
          ((run env limit i).capture ch).reads + 1 := by
        rw [run_drain h, State.drainTurn_reads, if_pos rfl]
      obtain ⟨j, hj, hnext⟩ := ih hstage (by omega) (by omega)
      exact ⟨j, by omega, hnext⟩

/-- It does not return while all reads are busy. -/
lemma stays_in_drain (h : (run env limit i).stage = .drain site ch)
    (hbusy : ∀ k, ((run env limit i).capture ch).reads ≤ k → (env.read ch k).isBusy = true) {j : ℕ}
    (hj : i ≤ j) : (run env limit j).stage = .drain site ch := by
  induction j, hj using Nat.le_induction with
  | base => exact h
  | succ j hj ih =>
    rw [run_drain ih, State.drainTurn_stage ih, hbusy _ (reads_mono ch hj), if_pos rfl]

/-! ### Rounds -/

/-- Every call of `drain` returns; each round of the two loops gets to `has_exited`, and in the main
loop to the deadline unless the command has exited; and the last drain is over at some time. -/
structure Supervises (env : Env) (limit : ℕ) : Prop where
  drain_returns : ∀ i site ch, (run env limit i).stage = .drain site ch →
    ∃ j, i < j ∧ (run env limit j).stage = site.next ch
  round_ends : ∀ i site, (run env limit i).stage = .visit site .out →
    ∃ j, i < j ∧ (run env limit j).stage = site.rest
  deadline_seen : ∀ i, (run env limit i).stage = .hasExited .loop →
    env.exited (run env limit i).asked = false → (run env limit (i + 1)).stage = .deadline

section

variable (hdrain : ∀ i site ch, (run env limit i).stage = .drain site ch →
  ∃ j, i < j ∧ (run env limit j).stage = site.next ch)

include hdrain

lemma leaves_visit (hi : (run env limit i).stage = .visit site ch) :
    ∃ j, i < j ∧ (run env limit j).stage = site.next ch := by
  have hnext := congrArg State.stage (run_visit hi)
  rw [State.goto_stage] at hnext
  split_ifs at hnext
  · obtain ⟨j, hj, hstage⟩ := hdrain _ _ _ hnext
    exact ⟨j, by omega, hstage⟩
  · exact ⟨i + 1, Nat.lt_succ_self i, hnext⟩

/-- With the drains, the whole round ends. -/
lemma Supervises.of_drains : Supervises env limit := by
  refine ⟨hdrain, ?_, ?_⟩
  · intro i site hi
    obtain ⟨j, hj, hstage⟩ := leaves_visit hdrain hi
    obtain ⟨k, hk, hrest⟩ := leaves_visit hdrain hstage
    exact ⟨k, hj.trans hk, hrest⟩
  · intro i hi hlives
    rw [run, State.step, hi]
    simp [hlives]

end

/-- The reads pause again and again, unless the stream is over or broken. -/
def Pauses (read : ℕ → ReadResult) : Prop :=
  ∀ n, (∀ k < n, (read k).closes = false) → ∃ k, n ≤ k ∧ (read k).isBusy = false

/-! ### Pauses are enough -/

/-- Is `drain` going to be called on the channel again? -/
def Stage.due : Stage → Channel → Bool
  | .visit .final .err, ch | .drain .final .err, ch => ch == .err
  | .done, _ => false
  | _, _ => true

lemma due_of_next {ch' : Channel} (h : (site.next ch).due ch' = true) :
    (Stage.visit site ch).due ch' = true ∧ (Stage.drain site ch).due ch' = true := by
  cases site <;> cases ch <;> cases ch' <;> simp_all [Site.next, Site.rest, Stage.due]

/-- Once drained for the last time, a channel is not due any more. -/
lemma not_due_next (ch : Channel) : (Site.final.next ch).due ch = false := by
  cases ch <;> rfl

/-- A channel that is open, and due, has not been closed by a read. -/
def Fresh (env : Env) (s : State) : Prop :=
  ∀ ch, s.stage.due ch = true → (s.capture ch).isOpen = true ∨ (∃ site, s.stage = .drain site ch) →
    ∀ k < (s.capture ch).reads, (env.read ch k).closes = false

lemma next_ne_drain (site site' : Site) (ch ch' : Channel) : site.next ch ≠ .drain site' ch' := by
  cases site <;> cases ch <;> exact nofun

namespace Fresh

variable {s : State}

lemma drainTurn (h : Fresh env s) (hs : s.stage = .drain site ch) :
    Fresh env (s.drainTurn env limit site ch) := by
  intro ch' hdue hopen k hk
  rw [State.drainTurn_stage hs] at hdue hopen
  rw [State.drainTurn_isOpen] at hopen
  rw [State.drainTurn_reads] at hk
  have hdue' : s.stage.due ch' = true := by
    rw [hs]
    split_ifs at hdue
    · exact hdue
    · exact (due_of_next hdue).2
  by_cases hch : ch' = ch
  · subst hch
    rcases Nat.lt_succ_iff_lt_or_eq.mp (by simpa using hk) with hk | rfl
    · exact h ch' hdue' (.inr ⟨site, hs⟩) k hk
    · -- the read of this turn: had it closed the channel, `drain` would have been left
      by_contra hclosed
      have hclosed := Bool.not_eq_false _ |>.mp hclosed
      rw [ReadResult.not_busy_of_closes hclosed] at hdue hopen
      rcases hopen with hopen | ⟨site', hstage⟩
      · rw [if_pos ⟨rfl, hclosed⟩, Bool.and_eq_true, beq_iff_eq] at hopen
        obtain ⟨-, rfl⟩ := hopen
        rw [if_neg Bool.false_ne_true, not_due_next] at hdue
        cases hdue
      · exact next_ne_drain _ _ _ _ hstage
  · rw [if_neg hch, Nat.add_zero] at hk
    rw [if_neg fun hclosed => hch hclosed.1] at hopen
    refine h ch' hdue' ?_ k hk
    rcases hopen with hopen | ⟨site', hstage⟩
    · exact .inl hopen
    · split_ifs at hstage
      · obtain ⟨-, rfl⟩ := Stage.drain.inj hstage
        exact absurd rfl hch
      · exact absurd hstage (next_ne_drain _ _ _ _)

/-- A step that reads nothing. -/
lemma quiet (h : Fresh env s) {s' : State} (hcapture : s'.capture = s.capture)
    (hdue : ∀ ch, s'.stage.due ch = true → s.stage.due ch = true)
    (hdrain : ∀ site ch, s'.stage = .drain site ch → (s.capture ch).isOpen = true) :
    Fresh env s' := by
  intro ch hdue' hopen
  rw [hcapture] at hopen ⊢
  refine h ch (hdue ch hdue') (.inl ?_)
  rcases hopen with hopen | ⟨site, hstage⟩
  · exact hopen
  · exact hdrain site ch hstage

lemma step (h : Fresh env s) : Fresh env (s.step env limit) := by
  unfold State.step
  cases hs : s.stage with
  | visit site ch =>
    refine h.quiet rfl ?_ ?_
    · intro ch' hdue
      rw [State.goto_stage] at hdue
      rw [hs]
      split_ifs at hdue
      · cases site <;> cases ch <;> exact hdue
      · exact (due_of_next hdue).1
    · intro site' ch' hstage
      rw [State.goto_stage] at hstage
      split_ifs at hstage with hopen
      · obtain ⟨-, rfl⟩ := Stage.drain.inj hstage
        exact hopen
      · exact absurd hstage (next_ne_drain _ _ _ _)
  | drain site ch => exact h.drainTurn hs
  | hasExited site =>
    refine h.quiet rfl (fun ch _ => by rw [hs]; rfl) ?_
    intro site' ch' hstage
    rw [State.goto_stage] at hstage
    split_ifs at hstage
    cases site <;> cases hstage
  | deadline =>
    dsimp only
    split_ifs
    · exact h.quiet rfl (fun ch _ => by rw [hs]; rfl) nofun
    · exact h.quiet rfl (fun ch _ => by rw [hs]; rfl) nofun
  | graceOver =>
    refine h.quiet rfl (fun ch _ => by rw [hs]; rfl) ?_
    intro site' ch' hstage
    rw [State.goto_stage] at hstage
    split_ifs at hstage
  | done => exact h

lemma run (i : ℕ) : Fresh env (run env limit i) := by
  induction i with
  | zero =>
    intro ch _ _ k hk
    cases hk
  | succ i ih => exact ih.step

end Fresh

/-- Channels that pause are enough for the supervision. -/
lemma supervises_of_pauses (h : ∀ ch, Pauses (env.read ch)) : Supervises env limit := by
  refine Supervises.of_drains fun i site ch hi => ?_
  have hdue : (run env limit i).stage.due ch = true := by
    rw [hi]
    cases site <;> cases ch <;> rfl
  obtain ⟨k, hk, hpause⟩ := h ch _ (Fresh.run i ch hdue (.inr ⟨site, hi⟩))
  exact leaves_drain hi hk hpause

/-! ### Pauses are needed -/

/-- The command does not exit, and the deadline is far away. -/
def patient (read : Channel → ℕ → ReadResult) : Env where
  read := read
  exited _ := false
  late _ := false

section Needed

variable {read : Channel → ℕ → ReadResult}

/-- In the main loop, with the channel open. -/
structure Looping (ch : Channel) (s : State) : Prop where
  stage : (∃ ch', s.stage = .visit .loop ch' ∨ s.stage = .drain .loop ch') ∨
    s.stage = .hasExited .loop ∨ s.stage = .deadline
  isOpen : (s.capture ch).isOpen = true

/-- The main loop is not left with a channel that is never closed. -/
lemma looping (hopen : ∀ k, (read ch k).closes = false) (i : ℕ) :
    Looping ch (run (patient read) limit i) := by
  induction i with
  | zero => exact ⟨.inl ⟨.out, .inl rfl⟩, rfl⟩
  | succ i ih =>
    obtain ⟨⟨ch', hs | hs⟩ | hs | hs, hisOpen⟩ := ih
    · rw [run_visit hs]
      refine ⟨?_, hisOpen⟩
      rw [State.goto_stage]
      split_ifs
      · exact .inl ⟨ch', .inr rfl⟩
      · cases ch' with
        | out => exact .inl ⟨.err, .inl rfl⟩
        | err => exact .inr (.inl rfl)
    · rw [run_drain hs]
      constructor
      · rw [State.drainTurn_stage hs]
        split_ifs
        · exact .inl ⟨ch', .inr rfl⟩
        · cases ch' with
          | out => exact .inl ⟨.err, .inl rfl⟩
          | err => exact .inr (.inl rfl)
      · rw [State.drainTurn_isOpen, if_neg]
        · exact hisOpen
        · rintro ⟨rfl, hcloses⟩
          exact Bool.false_ne_true ((hopen _).symm.trans hcloses)
    · rw [run, State.step, hs]
      exact ⟨.inr (.inr rfl), hisOpen⟩
    · rw [run, State.step, hs]
      exact ⟨.inl ⟨.out, .inl rfl⟩, hisOpen⟩

variable (h : Supervises (patient read) limit) (hopen : ∀ k, (read ch k).closes = false)

include h hopen

/-- Each round is followed by another one. -/
lemma next_round (i : ℕ) :
    ∃ j, i ≤ j ∧ (run (patient read) limit j).stage = .visit .loop .out := by
  have hexited : ∀ {i}, (run (patient read) limit i).stage = .hasExited .loop →
      ∃ j, i ≤ j ∧ (run (patient read) limit j).stage = .visit .loop .out := by
    intro i hi
    have hdeadline := h.deadline_seen i hi rfl
    refine ⟨i + 2, by omega, ?_⟩
    rw [run, State.step, hdeadline]
    rfl
  have hvisit : ∀ {i ch'}, (run (patient read) limit i).stage = .visit .loop ch' →
      ∃ j, i ≤ j ∧ (run (patient read) limit j).stage = .visit .loop .out := by
    intro i ch' hi
    cases ch' with
    | out => exact ⟨i, le_rfl, hi⟩
    | err =>
      obtain ⟨j, hj, hstage⟩ := leaves_visit h.drain_returns hi
      obtain ⟨k, hk, hround⟩ := hexited hstage
      exact ⟨k, by omega, hround⟩
  have hlooping : Looping ch (run (patient read) limit i) := looping hopen i
  obtain ⟨ch', hi | hi⟩ | hi | hi := hlooping.stage
  · exact hvisit hi
  · obtain ⟨j, hj, hstage⟩ := h.drain_returns _ _ _ hi
    obtain ⟨k, hk, hround⟩ : ∃ k, j ≤ k ∧
        (run (patient read) limit k).stage = .visit .loop .out := by
      cases ch' with
      | out => exact hvisit hstage
      | err => exact hexited hstage
    exact ⟨k, by omega, hround⟩
  · exact hexited hi
  · refine ⟨i + 1, by omega, ?_⟩
    rw [run, State.step, hi]
    rfl

/-- In each round the channel is drained. -/
lemma next_drain (i : ℕ) :
    ∃ j, i ≤ j ∧ (run (patient read) limit j).stage = .drain .loop ch := by
  have hdrain : ∀ {i}, (run (patient read) limit i).stage = .visit .loop ch →
      (run (patient read) limit (i + 1)).stage = .drain .loop ch := by
    intro i hi
    rw [run_visit hi, if_pos (looping hopen i).isOpen, State.goto_stage]
  obtain ⟨j, hj, hround⟩ := next_round h hopen i
  cases ch with
  | out => exact ⟨j + 1, by omega, hdrain hround⟩
  | err =>
    obtain ⟨k, hk, hstage⟩ := leaves_visit h.drain_returns hround
    exact ⟨k + 1, by omega, hdrain hstage⟩

/-- So there is no end of the reads. -/
lemma reads_unbounded (m : ℕ) : ∃ i, m ≤ ((run (patient read) limit i).capture ch).reads ∧
    (run (patient read) limit i).stage = .drain .loop ch := by
  induction m with
  | zero =>
    obtain ⟨i, -, hi⟩ := next_drain h hopen 0
    exact ⟨i, Nat.zero_le _, hi⟩
  | succ m ih =>
    obtain ⟨i, hm, hi⟩ := ih
    obtain ⟨j, hj, hstage⟩ := next_drain h hopen (i + 1)
    refine ⟨j, ?_, hstage⟩
    calc m + 1 ≤ ((run (patient read) limit i).capture ch).reads + 1 := Nat.succ_le_succ hm
      _ = ((run (patient read) limit (i + 1)).capture ch).reads := by
        rw [run_drain hi, State.drainTurn_reads, if_pos rfl]
      _ ≤ ((run (patient read) limit j).capture ch).reads := reads_mono ch hj

end Needed

/-- Channels that pause are necessary, too. -/
lemma pauses_of_supervises {read : Channel → ℕ → ReadResult}
    (h : Supervises (patient read) limit) (ch : Channel) : Pauses (read ch) := by
  intro n hn
  by_contra hbusy
  push Not at hbusy
  simp only [ne_eq, Bool.not_eq_false] at hbusy
  have hopen : ∀ k, (read ch k).closes = false := by
    intro k
    rcases Nat.lt_or_ge k n with hk | hk
    · exact hn k hk
    · by_contra hcloses
      have hcloses := Bool.not_eq_false _ |>.mp hcloses
      exact Bool.false_ne_true
        ((ReadResult.not_busy_of_closes hcloses).symm.trans (hbusy k hk))
  obtain ⟨i, hreads, hi⟩ := reads_unbounded h hopen n
  obtain ⟨j, hj, hleft⟩ := h.drain_returns i _ _ hi
  have hstays := stays_in_drain hi (fun k hk => hbusy k (hreads.trans hk)) hj.le
  exact next_ne_drain _ _ _ _ (hleft.symm.trans hstays)

/-- With the given results of the reads, whatever the command does otherwise and whatever the clock
says: every call of `drain` returns, and each round of the supervision gets to `has_exited` and to
the deadline, if and only if both channels pause again and again until they are closed. -/
theorem supervised_iff_pauses (read : Channel → ℕ → ReadResult) (limit : ℕ) :
    (∀ exited late, Supervises { read := read, exited := exited, late := late } limit) ↔
      ∀ ch, Pauses (read ch) :=
  ⟨fun h => pauses_of_supervises (h _ _), fun h _ _ => supervises_of_pauses h⟩

/-- A command that writes without a pause is not supervised. -/
theorem endless_writer_unsupervised :
    ¬ ∀ (read : Channel → ℕ → ReadResult) (limit : ℕ) (exited late : ℕ → Bool),
      Supervises { read := read, exited := exited, late := late } limit := by
  intro h
  have hpauses := pauses_of_supervises
    (h (fun _ _ => .data ⟨[0x79, 0x0a], by decide, by decide⟩) 4096 _ _) .out
  obtain ⟨k, -, hbusy⟩ := hpauses 0 nofun
  cases hbusy

end Dtest.Process.Output
