import ValidationSuite.Dtest.Process.Ownership

/-!
# Descriptors left open

A call of `run_process` closes what it has opened on every way out but one: where the first pipe is
there and a later one cannot be made, it returns with the descriptors of the pipes made so far.
-/

namespace Dtest.Process

open ByteString Descriptors Transition

variable {strerror : ℤ → ByteString} {init : Table ℕ} {s : Pool World Run}

/-- The first `pipe()` succeeds, the second or the third fails. -/
def Run.Strands (x : Run) : Prop :=
  emptyArgv x.spec = false ∧ x.outcomes.pipe .out = none ∧
    (x.outcomes.pipe .err ≠ none ∨ x.outcomes.pipe .exec ≠ none)

/-- What the phase of a call says about its system calls so far. -/
def Run.Tracked (x : Run) : Prop :=
  match x.phase with
  | .started => True
  | .piped _ => emptyArgv x.spec = false ∧ x.outcomes.pipe .out = none
  | .piped2 _ _ => emptyArgv x.spec = false ∧ x.outcomes.pipe .out = none ∧
      x.outcomes.pipe .err = none
  | .returned _ left => left = [] ↔ ¬ x.Strands
  | .unmarked _ | .marked _ | .abandoning _ _ | .forked _ _ | .answered _ _ | .reaping _ _
  | .launched _ | .outMarked _ | .supervising _ | .closing _ _ => ¬ x.Strands

/-- A call that has closed everything has left nothing open, as it should. -/
lemma tracked_of_not_strands {x : Run} (h : ¬ x.Strands) (r : RunOutput) :
    Run.Tracked { x with phase := .returned r [] } :=
  iff_of_true rfl h

/-- A call that returns with the descriptors of a pipe had one pipe and could not make a later. -/
lemma tracked_of_strands {x : Run} (h : x.Strands) (r : RunOutput) {left : List (Handle File)}
    (hleft : left ≠ []) : Run.Tracked { x with phase := .returned r left } :=
  iff_of_false hleft (not_not.mpr h)

lemma Run.Tracked.step {x : Run} {i : ℕ} {w w' : World} {phase : Phase} (h : x.Tracked)
    (hstep : CallerStep strerror x.spec x.outcomes i w x.phase w' phase) :
    Run.Tracked { x with phase := phase } := by
  obtain ⟨spec, o, ph⟩ := x
  dsimp only at hstep
  cases hstep with
  | refuse hargv =>
    refine tracked_of_not_strands (x := ⟨spec, o, .started⟩) (fun hs => ?_) _
    exact Bool.false_ne_true (hs.1.symm.trans hargv)
  | pipeOut hargv hpipe => exact ⟨hargv, hpipe⟩
  | pipeOutFails hargv hpipe =>
    refine tracked_of_not_strands (x := ⟨spec, o, .started⟩) (fun hs => ?_) _
    exact Option.some_ne_none _ (hpipe.symm.trans hs.2.1)
  | pipeErr hpipe => exact ⟨h.1, h.2, hpipe⟩
  | @pipeErrFails out _ hpipe =>
    refine tracked_of_strands (x := ⟨spec, o, .piped out⟩) ⟨h.1, h.2, .inl ?_⟩ _ nofun
    exact hpipe ▸ Option.some_ne_none _
  | pipeExec hpipe => exact fun hs => hs.2.2.elim (fun he => he h.2.2) fun he => he hpipe
  | @pipeExecFails out err _ hpipe =>
    refine tracked_of_strands (x := ⟨spec, o, .piped2 out err⟩) ⟨h.1, h.2.1, .inr ?_⟩ _ nofun
    exact hpipe ▸ Option.some_ne_none _
  | abandoned => exact iff_of_true rfl h
  | finish => exact iff_of_true rfl h
  | mark | fork | forkFails | abandon | closeWrite | readErrno | readEof | readFails | closeStatus
  | closeErrno | reap | markOut | markErr | supervise | close => exact h

lemma tracked (h : (processes strerror init).lts.Reachable s) : ∀ x ∈ s.procs, x.Tracked := by
  refine (System.invariant (I := fun _ => True) (fun _ _ => trivial) (fun x hx => ?_)
    (fun i w x w' x' _ hx hact => ⟨trivial, ?_⟩) h).2
  · obtain ⟨spec, o, ph⟩ := x
    obtain rfl : ph = .started := hx
    trivial
  · rcases hact with ⟨ph, hcaller, rfl⟩ | ⟨-, rfl⟩
    · exact hx.step hcaller
    · exact hx

/-- When every call has returned, the agent has open what it had at first if and only if no call was
left with a pipe it had made when it could not make the next. -/
theorem opened_eq_iff (h : (processes strerror init).lts.Reachable s)
    (hreturned : ∀ x ∈ s.procs, ∃ r left, x.phase = .returned r left) :
    s.store.fds.opened = init.opened ↔ ∀ x ∈ s.procs, ¬ x.Strands := by
  have hbooked := booked h
  have hleft : ∀ x ∈ s.procs, x.phase.owned = [] ↔ ¬ x.Strands := by
    intro x hx
    have htracked := tracked h x hx
    obtain ⟨r, left, hphase⟩ := hreturned x hx
    rw [Run.Tracked, hphase] at htracked
    rw [hphase]
    exact htracked
  rw [← Table.opened_map File.other init]
  constructor
  · intro heq x hx
    rw [← hleft x hx, List.eq_nil_iff_forall_not_mem]
    rintro ⟨n, d⟩ hmem
    obtain ⟨i, hi⟩ := List.mem_iff_getElem?.mp hx
    have hget := (hbooked.owns i x hi).get _ hmem
    -- the number would have been open at first, for something else
    obtain ⟨e, he⟩ := Table.exists_of_mem_opened (heq ▸ Table.mem_opened_of_get hget)
    obtain rfl : d = e := Option.some.inj (hget.symm.trans (hbooked.init n e he))
    have hcall := (hbooked.owns i x hi).call _ hmem
    exact Option.some_ne_none i (hcall.symm.trans (call?_of_get_map he))
  · intro hnone
    ext n
    constructor
    · intro hn
      obtain ⟨d, hd⟩ := Table.exists_of_mem_opened hn
      rcases hbooked.back n d hd with hinit | ⟨i, x, hi, hmem⟩
      · exact Table.mem_opened_of_get hinit
      · have hx := List.mem_of_getElem? hi
        rw [(hleft x hx).mpr (hnone x hx)] at hmem
        exact absurd hmem List.not_mem_nil
    · intro hn
      obtain ⟨d, hd⟩ := Table.exists_of_mem_opened hn
      exact Table.mem_opened_of_get (hbooked.init n d hd)

/-! ### Single calls -/

/-- A table with the three standard streams. -/
def stdio : Table ℕ := ⟨[some ⟨0, false⟩, some ⟨1, false⟩, some ⟨2, false⟩]⟩

/-- `/bin/true`, with a timeout of a minute. -/
def trueSpec : RunSpec := ⟨[lit "/bin/true"], [], 60000, 1048576⟩

variable (strerror init) in
/-- A call that cannot `fork` closes its six descriptors. -/
lemma fork_fails_run :
    ∃ w r, (processes strerror init).lts.Reachable
      ⟨w, [⟨trueSpec, { fork := some 11 }, .returned r []⟩]⟩ := by
  have h := pool_enter (pool_start strerror init) trueSpec { fork := some 11 }
  have h := pool_caller 0 h rfl (.pipeOut rfl rfl)
  have h := pool_caller 0 h rfl (.pipeErr rfl)
  have h := pool_caller 0 h rfl (.pipeExec rfl)
  have h := pool_caller 0 h rfl .mark
  have h := pool_caller 0 h rfl (.forkFails rfl)
  have h := pool_caller 0 h rfl .abandon
  have h := pool_caller 0 h rfl .abandon
  have h := pool_caller 0 h rfl .abandon
  have h := pool_caller 0 h rfl .abandon
  have h := pool_caller 0 h rfl .abandon
  have h := pool_caller 0 h rfl .abandon
  exact ⟨_, _, pool_caller 0 h rfl .abandoned⟩

/-- The call that cannot `fork`. -/
theorem opened_eq_fork_fails :
    ∃ s, (processes (fun _ => []) stdio).lts.Reachable s ∧
      (s.store.fds.opened = stdio.opened ↔ ∀ x ∈ s.procs, ¬ x.Strands) := by
  obtain ⟨w, r, h⟩ := fork_fails_run (fun _ => []) stdio
  exact ⟨_, h, opened_eq_iff h (List.forall_mem_singleton.mpr ⟨r, [], rfl⟩)⟩

/-- A call that can make one pipe, but no second one, leaves two descriptors open. -/
theorem pipe_stranded :
    ∃ s, (processes (fun _ => []) stdio).lts.Reachable s ∧
      (∀ x ∈ s.procs, ∃ r left, x.phase = .returned r left) ∧
      s.store.fds.opened ≠ stdio.opened := by
  have h := pool_enter (pool_start (fun _ => []) stdio) trueSpec
    { pipe := fun | .out => none | .err | .exec => some 24 }
  have h := pool_caller 0 h rfl (.pipeOut rfl rfl)
  have h := pool_caller 0 h rfl (.pipeErrFails rfl)
  refine ⟨_, h, List.forall_mem_singleton.mpr ⟨_, _, rfl⟩, fun heq => ?_⟩
  have hmem : 3 ∈ stdio.opened := by
    rw [← heq]
    rfl
  exact Bool.false_ne_true hmem

end Dtest.Process
