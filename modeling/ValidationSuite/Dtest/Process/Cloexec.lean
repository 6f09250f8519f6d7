import ValidationSuite.Dtest.Process.Conserve

/-!
# Who holds the write end of an exec pipe

A call learns from the end of its `exec_pipe` that its child has got past `exec`, so nobody else may
hold the write end. A child copies the whole table of the agent, and its `exec` closes what has
`FD_CLOEXEC`: the write end of another call has it unless that call is just between `pipe` and
`fcntl`.
-/

namespace Dtest.Process

open ByteString Descriptors Transition

variable {strerror : ℤ → ByteString} {spec : RunSpec} {o : Outcomes} {i : ℕ} {init : Table ℕ}
  {s : Pool World Run}

/-- Is it the write end of an `exec_pipe`? -/
def File.isStatus : File → Bool
  | .writeEnd _ .exec => true
  | .writeEnd _ .out | .writeEnd _ .err | .readEnd _ _ | .other _ | .devNull => false

lemma File.isStatus_of_call? {f : File} (h : f.call? = none) : f.isStatus = false := by
  cases f with
  | other n => rfl
  | devNull => rfl
  | readEnd call pipe => cases h
  | writeEnd call pipe => cases h

/-- None of the descriptors is such a write end. -/
def NoStatus (l : List (Handle File)) : Prop := ∀ h ∈ l, h.2.file.isStatus = false

/-- Such a write end has `FD_CLOEXEC`. -/
def Flagged (l : List (Handle File)) : Prop :=
  ∀ h ∈ l, h.2.file.isStatus = true → h.2.cloexec = true

section Handles

variable {h : Handle File} {l l' : List (Handle File)}

lemma NoStatus.flagged (hl : NoStatus l) : Flagged l := fun x hx hs =>
  absurd (hs.symm.trans (hl x hx)) Bool.true_eq_false.mp

lemma noStatus_nil : NoStatus [] := nofun

lemma noStatus_cons : NoStatus (h :: l) ↔ h.2.file.isStatus = false ∧ NoStatus l :=
  List.forall_mem_cons

lemma noStatus_append : NoStatus (l ++ l') ↔ NoStatus l ∧ NoStatus l' := List.forall_mem_append

lemma Flagged.tail (hl : Flagged (h :: l)) : Flagged l := fun x hx =>
  hl x (List.mem_cons_of_mem _ hx)

lemma noStatus_newPipe (t : Table File) {p : Stream} (hp : p ≠ .exec) :
    NoStatus (newPipe t i p).handles := by
  refine noStatus_cons.mpr ⟨rfl, noStatus_cons.mpr ⟨?_, noStatus_nil⟩⟩
  cases p with
  | out => rfl
  | err => rfl
  | exec => exact absurd rfl hp

end Handles

/-! ### The descriptors of a call -/

/-- The handles of the pipes but `exec_pipe[1]`. -/
def Pipes.others (p : Pipes) : List (Handle File) :=
  p.out.handles ++ p.err.handles ++ [p.exec.rd]

/-- A call has the write end of its `exec_pipe` from its third `pipe` to the third `close`, with the
flag from `fcntl` on. -/
def Phase.Guarded : Phase → Prop
  | .unmarked p => NoStatus p.others
  | .marked p => NoStatus p.others ∧ p.exec.wr.2.cloexec = true
  | .abandoning todo _ => Flagged todo
  | .forked p todo => Flagged todo ∧ NoStatus [p.exec.rd, p.out.rd, p.err.rd]
  | .started => True
  | .piped out => NoStatus out.handles
  | .piped2 out err => NoStatus (out.handles ++ err.handles)
  | .answered p _ => NoStatus [p.exec.rd, p.out.rd, p.err.rd]
  | .reaping p _ | .launched p | .outMarked p | .supervising p => NoStatus [p.out.rd, p.err.rd]
  | .closing todo _ => NoStatus todo
  | .returned _ left => NoStatus left

/-- Has the call closed `exec_pipe[1]` after its `fork`, or returned? -/
def Phase.ClosedStatus : Phase → Prop
  | .forked _ todo => todo = []
  | .answered _ _ | .reaping _ _ | .launched _ | .outMarked _ | .supervising _ | .closing _ _
  | .returned _ _ => True
  | .started | .piped _ | .piped2 _ _ | .unmarked _ | .marked _ | .abandoning _ _ => False

lemma Phase.Guarded.noStatus {ph : Phase} (h : ph.Guarded) (hclosed : ph.ClosedStatus) :
    NoStatus ph.owned := by
  cases ph with
  | forked p todo =>
    obtain rfl : todo = [] := hclosed
    exact h.2
  | answered | reaping | launched | outMarked | supervising | closing | returned => exact h
  | started | piped | piped2 | unmarked | marked | abandoning => exact hclosed.elim

lemma flagged_handles {p : Pipes} (hothers : NoStatus p.others)
    (hmarked : p.exec.wr.2.cloexec = true) : Flagged p.handles := by
  have hhandles : p.handles = p.others ++ [p.exec.wr] := rfl
  rw [hhandles]
  intro x hx hs
  rcases List.mem_append.mp hx with hx | hx
  · exact hothers.flagged x hx hs
  · obtain rfl := List.mem_singleton.mp hx
    exact hmarked

lemma Phase.Guarded.flagged {ph : Phase} (h : ph.Guarded) (hmarked : ∀ p, ph ≠ .unmarked p) :
    Flagged ph.owned := by
  cases ph with
  | unmarked p => exact absurd rfl (hmarked p)
  | started => exact nofun
  | marked p => exact flagged_handles h.1 h.2
  | abandoning => exact h
  | forked p todo =>
    intro x hx
    rcases List.mem_append.mp hx with hx | hx
    · exact h.1 x hx
    · exact h.2.flagged x hx
  | piped | piped2 | answered | reaping | launched | outMarked | supervising | closing
  | returned => exact NoStatus.flagged h

lemma Phase.Guarded.step {w w' : World} {ph ph' : Phase} (h : ph.Guarded)
    (hstep : CallerStep strerror spec o i w ph w' ph') : ph'.Guarded := by
  cases hstep with
  | refuse | pipeOutFails | abandoned | finish => exact noStatus_nil
  | pipeErrFails | pipeExecFails => exact h
  | pipeOut => exact noStatus_newPipe _ nofun
  | pipeErr => exact noStatus_append.mpr ⟨h, noStatus_newPipe _ nofun⟩
  | pipeExec => exact noStatus_append.mpr ⟨h, noStatus_cons.mpr ⟨rfl, noStatus_nil⟩⟩
  | mark => exact ⟨h, rfl⟩
  | @fork p =>
    have hflagged := flagged_handles h.1 h.2
    have hperm := handles_perm p
    refine ⟨fun x hx => hflagged x (hperm.mem_iff.mpr (List.mem_append_left _ hx)), ?_⟩
    refine fun x hx => h.1 x ?_
    simp only [List.mem_cons, List.not_mem_nil, or_false] at hx
    rcases hx with rfl | rfl | rfl <;> simp [Pipes.others, Pipe.handles]
  | forkFails => exact flagged_handles h.1 h.2
  | abandon => exact Flagged.tail h
  | closeWrite => exact ⟨h.1.tail, h.2⟩
  | readErrno | readEof | readFails => exact h.2
  | closeStatus | closeErrno => exact (noStatus_cons.mp h).2
  | reap | supervise => exact h
  | markOut =>
    obtain ⟨hout, herr⟩ := noStatus_cons.mp h
    exact noStatus_cons.mpr ⟨hout, herr⟩
  | markErr =>
    obtain ⟨hout, herr⟩ := noStatus_cons.mp h
    obtain ⟨herr, -⟩ := noStatus_cons.mp herr
    exact noStatus_cons.mpr ⟨hout, noStatus_cons.mpr ⟨herr, noStatus_nil⟩⟩
  | close => exact (noStatus_cons.mp h).2

lemma guarded (h : (processes strerror init).lts.Reachable s) :
    ∀ x ∈ s.procs, x.phase.Guarded := by
  refine (System.invariant (I := fun _ => True) (fun _ _ => trivial) (fun x hx => ?_)
    (fun i w x w' x' _ hx hact => ⟨trivial, ?_⟩) h).2
  · rw [show x.phase = .started from hx]
    trivial
  · rcases hact with ⟨ph, hcaller, rfl⟩ | ⟨-, rfl⟩
    · exact hx.step hcaller
    · exact hx

/-! ### The agent -/

/-- A descriptor of the agent that refers to the pipe of a call is among those of the call. -/
lemma Booked.owner (h : Booked init s) (call : ℕ) {n : ℕ} {d : Descriptors.Entry File}
    (hn : s.store.fds.get n = some d) (hcall : d.file.call? = some call) :
    ∃ x, s.procs[call]? = some x ∧ (n, d) ∈ x.phase.owned := by
  rcases h.back n d hn with hinit | ⟨j, x, hj, hmem⟩
  · exact absurd (hcall.symm.trans (call?_of_get_map hinit)) (Option.some_ne_none call)
  · obtain rfl : call = j := Option.some.inj (hcall.symm.trans ((h.owns j x hj).call _ hmem))
    exact ⟨x, hj, hmem⟩

lemma exists_call?_of_isStatus {f : File} (h : f.isStatus = true) : ∃ call, f.call? = some call := by
  cases f with
  | writeEnd call pipe => exact ⟨call, rfl⟩
  | other | devNull | readEnd => cases h

/-- While no call is between `pipe` and `fcntl`, every write end has the flag. -/
lemma flagged_agent (h : (processes strerror init).lts.Reachable s)
    (hmarked : ∀ x ∈ s.procs, ∀ p, x.phase ≠ .unmarked p) {n : ℕ} {d : Descriptors.Entry File}
    (hn : s.store.fds.get n = some d) (hs : d.file.isStatus = true) : d.cloexec = true := by
  obtain ⟨call, hcall⟩ := exists_call?_of_isStatus hs
  obtain ⟨x, hx, hmem⟩ := (booked h).owner call hn hcall
  have hin := List.mem_of_getElem? hx
  exact (guarded h x hin).flagged (hmarked x hin) _ hmem hs

/-! ### The children -/

/-- What a child may have of write ends of `exec_pipe`s: before its `exec`, only such as `exec`
closes. -/
def Child.Guarded (c : Child) : Prop :=
  match c.phase with
  | .setup ops =>
    (∀ n d, c.fds.get n = some d → d.file.isStatus = true → d.cloexec = true) ∧
      ∀ old new, .dup2 old new ∈ ops → ∀ d, c.fds.get old = some d → d.file.isStatus = false
  | .failed _ | .dying => True
  | .command | .exited => ∀ n d, c.fds.get n = some d → d.file.isStatus = false

/-- What its processes make of a table without such write ends has none. -/
lemma Inherits.noStatus {t t' : Table File} (h : Inherits t t')
    (ht : ∀ n d, t.get n = some d → d.file.isStatus = false) (n : ℕ) (d : Descriptors.Entry File)
    (hn : t'.get n = some d) : d.file.isStatus = false := by
  rcases h n d hn with hcall | ⟨m, e, hm, heq⟩
  · exact File.isStatus_of_call? hcall
  · exact heq ▸ ht m e hm

/-- What is open after a call of the child was open before, or is no such write end, if `dup2` does
not copy one. -/
lemma ChildOp.back {op : ChildOp} {t : Table File} {n : ℕ} {d : Descriptors.Entry File}
    (hdup : ∀ old new, op = .dup2 old new → ∀ d, t.get old = some d → d.file.isStatus = false)
    (hn : (op.run o t).get n = some d) : t.get n = some d ∨ d.file.isStatus = false := by
  cases op with
  | nullStdin =>
    rw [ChildOp.run] at hn
    split_ifs at hn
    · rcases Table.of_get_dup2 hn with hn | ⟨e, he, rfl⟩
      · rcases Table.of_get_add hn with ⟨-, rfl⟩ | hn
        · exact .inr rfl
        · exact .inl hn
      · rw [Table.get_add_lowest] at he
        obtain rfl := Option.some.inj he
        exact .inr rfl
    · exact .inl hn
  | dup2 old new =>
    rcases Table.of_get_dup2 hn with hn | ⟨e, he, rfl⟩
    · exact .inl hn
    · exact .inr (hdup old new rfl e he)
  | close m => exact .inl (Table.of_get_close hn).2

lemma Child.Guarded.op {c : Child} {op : ChildOp} {ops : List ChildOp} (h : c.Guarded)
    (hphase : c.phase = .setup (op :: ops)) :
    Child.Guarded { c with phase := .setup ops, fds := op.run o c.fds } := by
  rw [Child.Guarded, hphase] at h
  obtain ⟨hflag, hdup⟩ := h
  have hop : ∀ old new, op = .dup2 old new → ∀ d, c.fds.get old = some d →
      d.file.isStatus = false := by
    rintro old new rfl
    exact hdup old new List.mem_cons_self
  refine ⟨fun n d hn hs => ?_, fun old new hmem d hn => ?_⟩
  · rcases ChildOp.back hop hn with hn | hno
    · exact hflag n d hn hs
    · exact absurd (hs.symm.trans hno) Bool.true_eq_false.mp
  · rcases ChildOp.back hop hn with hn | hno
    · exact hdup old new (List.mem_cons_of_mem _ hmem) d hn
    · exact hno

/-- `exec` closes the write ends, as they have the flag. -/
lemma Child.Guarded.exec {c : Child} (h : c.Guarded) (hphase : c.phase = .setup []) :
    Child.Guarded { c with phase := .command, fds := c.fds.exec } := by
  rw [Child.Guarded, hphase] at h
  intro n d hn
  obtain ⟨hn, hflag⟩ := Table.of_get_exec hn
  rw [← Bool.not_eq_true]
  intro hs
  exact absurd (hflag.symm.trans (h.1 n d hn hs)) Bool.false_ne_true

lemma Child.Guarded.of_settled {c : Child} (h : c.Guarded) (hc : c.settled) (n : ℕ)
    (d : Descriptors.Entry File) (hn : c.fds.get n = some d) : d.file.isStatus = false := by
  rw [Child.Guarded] at h
  rcases hc with hphase | hphase <;> rw [hphase] at h <;> exact h n d hn

lemma Child.Guarded.leaves {c : Child} {t : Table File} (h : c.Guarded) (ht : c.Leaves t) :
    Child.Guarded { c with phase := .exited, fds := t } := by
  rw [Child.Leaves] at ht
  cases hphase : c.phase with
  | command =>
    rw [hphase] at ht
    exact ht.noStatus (h.of_settled (.inl hphase))
  | exited =>
    rw [hphase] at ht
    exact ht.noStatus (h.of_settled (.inr hphase))
  | setup | failed | dying =>
    rw [hphase] at ht
    obtain rfl : t = {} := ht
    exact nofun

/-! ### Runs in which forks keep apart -/

def World.Guarded (w : World) : Prop := ∀ j c, w.child j = some c → c.Guarded

lemma World.Guarded.setChild {w : World} {c : Child} (h : w.Guarded) (hc : c.Guarded) :
    (w.setChild i c).Guarded := by
  intro j c' hj
  simp only [World.setChild, Function.update_apply] at hj
  split_ifs at hj
  · exact Option.some.inj hj ▸ hc
  · exact h j c' hj

lemma World.Guarded.childStep {w w' : World} (h : w.Guarded) (hstep : ChildStep o i w w') :
    w'.Guarded := by
  cases hstep with
  | op hc hphase => exact h.setChild ((h _ _ hc).op hphase)
  | exec hc hphase => exact h.setChild ((h _ _ hc).exec hphase)
  | execFails => exact h.setChild trivial
  | @write c _ hc hphase =>
    have hw : (w.setChild i { c with phase := .dying }).Guarded := h.setChild trivial
    exact hw
  | die => exact h.setChild nofun
  | @command c phase fds hc hphase hfds hnext =>
    have hsettled : phase = .command ∨ phase = .exited := by
      rcases hnext with rfl | rfl
      · exact hphase
      · exact .inr rfl
    apply h.setChild
    rcases hsettled with rfl | rfl
    · exact hfds.noStatus ((h _ _ hc).of_settled hphase)
    · exact hfds.noStatus ((h _ _ hc).of_settled hphase)

/-- The child of a `fork` has no write end without the flag, if the agent has none. -/
lemma guarded_fork {t : Table File} {p : Pipes}
    (hflag : ∀ n d, t.get n = some d → d.file.isStatus = true → d.cloexec = true)
    (howns : Owns i t p.handles) (hothers : NoStatus p.others) (status : ℕ) :
    Child.Guarded ⟨.setup (childOps p), t, status⟩ := by
  refine ⟨hflag, fun old new hmem d hd => ?_⟩
  have hends : p.out.wr ∈ p.others ∧ p.err.wr ∈ p.others := by simp [Pipes.others, Pipe.handles]
  have hhandles : ∀ h ∈ p.others, h ∈ p.handles := fun h hh => List.mem_append_left [p.exec.wr] hh
  simp only [childOps, List.mem_cons, List.not_mem_nil, or_false, reduceCtorEq, false_or,
    ChildOp.dup2.injEq] at hmem
  rcases hmem with ⟨rfl, -⟩ | ⟨rfl, -⟩
  · rw [howns.get _ (hhandles _ hends.1)] at hd
    exact Option.some.inj hd ▸ hothers _ hends.1
  · rw [howns.get _ (hhandles _ hends.2)] at hd
    exact Option.some.inj hd ▸ hothers _ hends.2

/-- Of the steps of a caller, only `fork` and reaping the child change one. -/
lemma World.Guarded.callerStep {w w' : World} {ph ph' : Phase} (h : w.Guarded)
    (hfork : ∀ p, ph = .marked p → o.fork = none →
      Child.Guarded ⟨.setup (childOps p), w.fds, p.exec.wr.1⟩)
    (hstep : CallerStep strerror spec o i w ph w' ph') : w'.Guarded := by
  cases hstep with
  | fork hok => exact h.setChild (hfork _ rfl hok)
  | supervise hc hfds => exact h.setChild ((h _ _ hc).leaves hfds)
  | _ => exact h

/-- No call forks while another is between its third `pipe` and `fcntl`. -/
def ForksApart (s : Pool World Run) (l : Pool.Label) : Prop :=
  ∀ i x p, l = .act i → s.procs[i]? = some x → x.phase = .marked p → x.outcomes.fork = none →
    ∀ y ∈ s.procs, ∀ q, y.phase ≠ .unmarked q

theorem guarded_children
    (h : ((processes strerror init).lts.restrict ForksApart).Reachable s) : s.store.Guarded := by
  refine h.invariant (I := fun s => s.store.Guarded) ?_ ?_
  · rintro s ⟨hs, -⟩
    rw [show s.store = _ from hs]
    exact nofun
  · rintro s l s' hr ih ⟨hs, hapart⟩
    have hreach := hr.of_restrict
    cases hs with
    | enter => exact ih
    | @act i x x' w' hi hx =>
      rcases hx with ⟨ph, hcaller, -⟩ | ⟨hchild, -⟩
      · refine ih.callerStep (fun p hp hok => ?_) hcaller
        have howns := (booked hreach).owns i x hi
        have hguarded := guarded hreach x (List.mem_of_getElem? hi)
        rw [hp] at howns hguarded
        have hmarked := hapart i x p rfl hi hp hok
        exact guarded_fork (fun n d => flagged_agent hreach hmarked) howns hguarded.1 _
      · exact ih.childStep hchild

/-- In a run in which no call forks while another is between its third `pipe` and `fcntl`: once a
call has closed the write end of its `exec_pipe`, and the children have got past `exec`, nobody holds
it, and the call's read of the pipe returns. -/
theorem status_not_held
    (h : ((processes strerror init).lts.restrict ForksApart).Reachable s) {x : Run}
    (hi : s.procs[i]? = some x) (hclosed : x.phase.ClosedStatus)
    (hsettled : ∀ j c, s.store.child j = some c → c.settled) :
    ¬ s.store.Holds (.writeEnd i .exec) ∧ ∀ p, x.phase = .forked p [] →
      ∃ errno, CallerStep strerror x.spec x.outcomes i s.store x.phase s.store
        (.answered p errno) := by
  have hreach := h.of_restrict
  have hfree : ¬ s.store.Holds (.writeEnd i .exec) := by
    rintro (⟨n, d, hn, hfile⟩ | ⟨j, c, n, d, hj, hn, hfile⟩)
    · obtain ⟨y, hy, hmem⟩ := (booked hreach).owner i hn (by rw [hfile]; rfl)
      obtain rfl : x = y := Option.some.inj (hi.symm.trans hy)
      have hno := (guarded hreach x (List.mem_of_getElem? hi)).noStatus hclosed _ hmem
      rw [hfile] at hno
      cases hno
    · have hno := (guarded_children h j c hj).of_settled (hsettled j c hj) n d hn
      rw [hfile] at hno
      cases hno
  refine ⟨hfree, fun p hp => ?_⟩
  rw [hp]
  cases hstatus : s.store.status i with
  | none => exact ⟨none, .readEof hstatus hfree⟩
  | some e => exact ⟨some e, .readErrno hstatus⟩

/-! ### Two calls -/

section Apart

variable {w w' : World} {procs : List Run} {x : Run} {ph : Phase}

def Phase.isMarked : Phase → Bool
  | .marked _ => true
  | _ => false

def Phase.isUnmarked : Phase → Bool
  | .unmarked _ => true
  | _ => false

/-- A call does not fork now, or no other is between its third `pipe` and `fcntl`. -/
def MayStep (procs : List Run) (x : Run) : Prop :=
  (x.phase.isMarked && procs.any (·.phase.isUnmarked)) = false

lemma MayStep.forksApart {i : ℕ} (hi : procs[i]? = some x) (h : MayStep procs x) :
    ForksApart ⟨w, procs⟩ (.act i) := by
  rintro j y p hj hy hp - z hz q hq
  obtain rfl : i = j := Pool.Label.act.inj hj
  obtain rfl := Option.some.inj (hi.symm.trans hy)
  have hany : procs.any (·.phase.isUnmarked) = true :=
    List.any_eq_true.mpr ⟨z, hz, by rw [hq]; rfl⟩
  rw [MayStep, hp, hany] at h
  cases h

lemma apart_enter (h : ((processes strerror init).lts.restrict ForksApart).Reachable ⟨w, procs⟩)
    (spec : RunSpec) (o : Outcomes) : ((processes strerror init).lts.restrict ForksApart).Reachable
      ⟨w, procs ++ [{ spec := spec, outcomes := o }]⟩ :=
  h.step (l := .enter) ⟨.enter rfl, fun _ _ _ hl => nomatch hl⟩

lemma apart_caller (i : ℕ)
    (h : ((processes strerror init).lts.restrict ForksApart).Reachable ⟨w, procs⟩)
    (hi : procs[i]? = some x) (hstep : CallerStep strerror x.spec x.outcomes i w x.phase w' ph)
    (hapart : MayStep procs x) : ((processes strerror init).lts.restrict ForksApart).Reachable
      ⟨w', procs.set i { x with phase := ph }⟩ :=
  h.step (l := .act i) ⟨.act hi (.inl ⟨ph, hstep, rfl⟩), hapart.forksApart hi⟩

lemma apart_child (i : ℕ)
    (h : ((processes strerror init).lts.restrict ForksApart).Reachable ⟨w, procs⟩)
    (hi : procs[i]? = some x) (hstep : ChildStep x.outcomes i w w') (hapart : MayStep procs x) :
    ((processes strerror init).lts.restrict ForksApart).Reachable ⟨w', procs.set i x⟩ :=
  h.step (l := .act i) ⟨.act hi (.inr ⟨hstep, rfl⟩), hapart.forksApart hi⟩

end Apart

/-- The second call forks while the first has its `exec_pipe` open, but after its `fcntl`; its
command runs, and does not keep the first from its read. -/
theorem status_not_held_twoCalls :
    ∃ s p, ((processes (fun _ => []) stdio).lts.restrict ForksApart).Reachable s ∧
      s.procs[0]? = some ⟨trueSpec, {}, .forked p []⟩ ∧
      (∃ c, s.store.child 1 = some c ∧ c.phase = .command) ∧
      ¬ s.store.Holds (.writeEnd 0 .exec) ∧ ∀ q, Phase.forked p [] = .forked q [] →
        ∃ errno, CallerStep (fun _ => []) trueSpec {} 0 s.store (.forked p []) s.store
          (.answered q errno) := by
  have h : ((processes (fun _ => []) stdio).lts.restrict ForksApart).Reachable
      ⟨{ fds := stdio.map .other }, []⟩ := .init ⟨rfl, rfl⟩
  have h := apart_enter h trueSpec {}
  have h := apart_enter h trueSpec {}
  have h := apart_caller 0 h rfl (.pipeOut rfl rfl) rfl
  have h := apart_caller 0 h rfl (.pipeErr rfl) rfl
  have h := apart_caller 1 h rfl (.pipeOut rfl rfl) rfl
  have h := apart_caller 0 h rfl (.pipeExec rfl) rfl
  have h := apart_caller 1 h rfl (.pipeErr rfl) rfl
  have h := apart_caller 0 h rfl .mark rfl
  have h := apart_caller 1 h rfl (.pipeExec rfl) rfl
  have h := apart_caller 1 h rfl .mark rfl
  have h := apart_caller 1 h rfl (.fork rfl) rfl
  have h := apart_child 1 h rfl (.op rfl rfl) rfl
  have h := apart_child 1 h rfl (.op rfl rfl) rfl
  have h := apart_child 1 h rfl (.op rfl rfl) rfl
  have h := apart_child 1 h rfl (.op rfl rfl) rfl
  have h := apart_child 1 h rfl (.op rfl rfl) rfl
  have h := apart_child 1 h rfl (.op rfl rfl) rfl
  have h := apart_child 1 h rfl (.exec rfl rfl rfl) rfl
  have h := apart_caller 0 h rfl (.fork rfl) rfl
  have h := apart_child 0 h rfl (.op rfl rfl) rfl
  have h := apart_child 0 h rfl (.op rfl rfl) rfl
  have h := apart_child 0 h rfl (.op rfl rfl) rfl
  have h := apart_child 0 h rfl (.op rfl rfl) rfl
  have h := apart_child 0 h rfl (.op rfl rfl) rfl
  have h := apart_child 0 h rfl (.op rfl rfl) rfl
  have h := apart_child 0 h rfl (.exec rfl rfl rfl) rfl
  have h := apart_caller 0 h rfl .closeWrite rfl
  have h := apart_caller 0 h rfl .closeWrite rfl
  have h := apart_caller 0 h rfl .closeWrite rfl
  refine ⟨_, _, h, rfl, ⟨_, rfl, rfl⟩,
    status_not_held (x := ⟨trueSpec, {}, .forked _ []⟩) h rfl rfl ?_⟩
  rintro (_ | _ | j) c hj
  · exact .inl (Option.some.inj hj ▸ rfl)
  · exact .inl (Option.some.inj hj ▸ rfl)
  · cases hj

/-- The second call forks while the first is between `pipe` and `fcntl`: the command of the second
holds the write end of the first, and the first cannot get past its read. -/
theorem status_held :
    ∃ s p, (processes (fun _ => []) stdio).lts.Reachable s ∧
      s.procs[0]? = some ⟨trueSpec, {}, .forked p []⟩ ∧
      (∀ j c, s.store.child j = some c → c.settled) ∧ s.store.Holds (.writeEnd 0 .exec) ∧
      ¬ ∃ w' ph, CallerStep (fun _ => []) trueSpec {} 0 s.store (.forked p []) w' ph := by
  have h := pool_enter (pool_start (fun _ => []) stdio) trueSpec {}
  have h := pool_enter h trueSpec {}
  have h := pool_caller 0 h rfl (.pipeOut rfl rfl)
  have h := pool_caller 0 h rfl (.pipeErr rfl)
  have h := pool_caller 0 h rfl (.pipeExec rfl)
  have h := pool_caller 1 h rfl (.pipeOut rfl rfl)
  have h := pool_caller 1 h rfl (.pipeErr rfl)
  have h := pool_caller 1 h rfl (.pipeExec rfl)
  have h := pool_caller 1 h rfl .mark
  have h := pool_caller 1 h rfl (.fork rfl)
  have h := pool_child 1 h rfl (.op rfl rfl)
  have h := pool_child 1 h rfl (.op rfl rfl)
  have h := pool_child 1 h rfl (.op rfl rfl)
  have h := pool_child 1 h rfl (.op rfl rfl)
  have h := pool_child 1 h rfl (.op rfl rfl)
  have h := pool_child 1 h rfl (.op rfl rfl)
  have h := pool_child 1 h rfl (.exec rfl rfl rfl)
  have h := pool_caller 0 h rfl .mark
  have h := pool_caller 0 h rfl (.fork rfl)
  have h := pool_child 0 h rfl (.op rfl rfl)
  have h := pool_child 0 h rfl (.op rfl rfl)
  have h := pool_child 0 h rfl (.op rfl rfl)
  have h := pool_child 0 h rfl (.op rfl rfl)
  have h := pool_child 0 h rfl (.op rfl rfl)
  have h := pool_child 0 h rfl (.op rfl rfl)
  have h := pool_child 0 h rfl (.exec rfl rfl rfl)
  have h := pool_caller 0 h rfl .closeWrite
  have h := pool_caller 0 h rfl .closeWrite
  have h := pool_caller 0 h rfl .closeWrite
  refine ⟨_, _, h, rfl, ?_, ?_, ?_⟩
  · rintro (_ | _ | j) c hj
    · exact .inl (Option.some.inj hj ▸ rfl)
    · exact .inl (Option.some.inj hj ▸ rfl)
    · cases hj
  · exact .inr ⟨1, _, 8, _, rfl, rfl, rfl⟩
  · rintro ⟨w', ph, hstep⟩
    cases hstep with
    | readErrno hstatus => cases hstatus
    | readEof hstatus heof => exact heof (.inr ⟨1, _, 8, _, rfl, rfl, rfl⟩)
    | readFails hread => cases hread

end Dtest.Process
