import ValidationSuite.Kmod.Errors

/-!
# The statistics

`VALDEV_IOC_GET_STATS` reads the counter and the length in one section and `opens` after it. The
three values belong together unless the device has been opened in between with a counter or a length
that was already another one.
-/

namespace Kmod

open Transition

variable {setpos : VfsSetpos} {i : ℕ} {past : List (Pool Store Call)} {s s' : Pool Store Call}

/-- The device shows the statistics. -/
def Valdev.Shows (v : Valdev) (st : ValdevStats) : Prop :=
  v.counter = st.counter ∧ v.opens = st.opens ∧ v.len = st.bufLen

/-- The `i`th call has been made and has not returned. -/
def InProgress (i : ℕ) (s : Pool Store Call) : Prop :=
  ∃ x, s.procs[i]? = some x ∧ ∀ ret, x.phase ≠ .returned ret

/-- The `i`th call has returned the statistics. -/
def ReturnsStats (i : ℕ) (st : ValdevStats) (s : Pool Store Call) : Prop :=
  ∃ x, s.procs[i]? = some x ∧ x.phase = .returned (.ok (.stats st))

/-- There was an instant at which the call was in progress and the device showed the statistics. -/
def SawStats (past : List (Pool Store Call)) (i : ℕ) (st : ValdevStats) : Prop :=
  ∃ u ∈ past, InProgress i u ∧ u.store.dev.Shows st

/-- The step does not count an open while the counter or the length is no longer what a call has
read that is going to read `opens` and to return it. -/
def Unmixed (s : Pool Store Call) : Pool.Label → Prop
  | .enter => True
  | .act j => ∀ y, s.procs[j]? = some y → y.phase = .entered → y.op = .open →
      ∀ x ∈ s.procs, ∀ c n, x.phase = .sampled c n → x.outLeft = 0 →
        s.store.dev.counter = c ∧ s.store.dev.len = n

/-! ### What a step has to do with the statistics -/

def Phase.ofStats : Phase → Bool
  | .sampled _ _ | .gathered _ | .returned (.ok (.stats _)) => true
  | _ => false

inductive Gathers (s : Store) (x : Call) (s' : Store) (x' : Call) : Prop
  | opened (hphase : x.phase = .entered) (hop : x.op = .open)
      (hdev : s'.dev = { s.dev with opens := s.dev.opens + 1 }) (hother : x'.phase.ofStats = false)
  | sample (hphase : x.phase = .entered) (hdev : s'.dev = s.dev)
      (hphase' : x'.phase = .sampled s.dev.counter s.dev.len)
  | gather {c : UInt64} {n : ℕ} (hphase : x.phase = .sampled c n) (hstore : s' = s)
      (hphase' : x'.phase = .gathered { counter := c, opens := s.dev.opens, bufLen := n })
  | copyOut {st : ValdevStats} (hphase : x.phase = .gathered st) (hstore : s' = s)
      (hphase' : x'.phase = .returned (if x.outLeft ≠ 0 then .error .efault else .ok (.stats st)))
  | other (hopens : s'.dev.opens = s.dev.opens) (hother : x'.phase.ofStats = false)

section Steps

variable {t t' : Store} {x x' : Call}

lemma ioctlEnter_gathers (hphase : x.phase = .entered) (cmd : UInt32) (arg : UInt64) :
    Gathers t x (ioctlEnter i t x cmd arg).1 (ioctlEnter i t x cmd arg).2 := by
  simp only [ioctlEnter]
  split_ifs
  · refine .other rfl ?_
    simp only [Call.copyOut]
    split_ifs <;> rfl
  · exact .other rfl rfl
  · exact .other rfl rfl
  · exact .other rfl rfl
  · exact .sample hphase rfl rfl
  · exact .other rfl rfl

lemma gathers_step (h : step setpos i t x = some (t', x')) : Gathers t x t' x' := by
  cases Stepped.of_step h with
  | opened hphase hop => exact .opened hphase hop rfl rfl
  | ioctl hphase _ => exact ioctlEnter_gathers hphase _ _
  | sampled hphase => exact .gather hphase rfl rfl
  | gathered hphase => exact .copyOut hphase rfl rfl
  | read _ _ =>
    simp only [readSection]
    split_ifs <;> exact .other rfl rfl
  | snapped _ =>
    simp only [readCopyOut]
    split_ifs <;> exact .other rfl rfl
  | write _ _ =>
    simp only [writeStage]
    split_ifs <;> exact .other rfl rfl
  | staged _ _ =>
    refine .other ?_ rfl
    simp only [writeSection, Valdev.memcpy]
    split_ifs <;> rfl
  | loaded _ => exact .other rfl rfl
  | added _ =>
    refine .other rfl ?_
    simp only [Call.copyOut]
    split_ifs <;> rfl
  | llseek _ _ =>
    simp only [llseekBase]
    split_ifs <;> exact .other rfl rfl
  | based _ =>
    simp only [llseekSet]
    split_ifs
    · exact .other rfl rfl
    · refine .other rfl ?_
      cases (setpos.run x.pos (toLoff (_ + _)) bufSize).1 <;> rfl

end Steps

/-! ### Runs that do not mix -/

lemma SawStats.mono {st : ValdevStats} {past' : List (Pool Store Call)} (h : SawStats past i st) :
    SawStats (past ++ past') i st := by
  obtain ⟨u, hu, hprogress, hshows⟩ := h
  exact ⟨u, List.mem_append_left _ hu, hprogress, hshows⟩

/-- What a call knows of the statistics, they have been at some instant since it was made, with the
present value of `opens` before it has read that. -/
structure Informed (past : List (Pool Store Call)) (s : Pool Store Call) (i : ℕ) (x : Call) :
    Prop where
  sampled : ∀ c n, x.phase = .sampled c n → x.outLeft = 0 →
    SawStats (past ++ [s]) i { counter := c, opens := s.store.dev.opens, bufLen := n }
  gathered : ∀ st, x.phase = .gathered st → x.outLeft = 0 → SawStats (past ++ [s]) i st
  returned : ∀ st, x.phase = .returned (.ok (.stats st)) → SawStats past i st

namespace Informed

variable {x : Call}

lemma of_not_ofStats (h : x.phase.ofStats = false) : Informed past s i x where
  sampled c n hphase := by rw [hphase] at h; cases h
  gathered st hphase := by rw [hphase] at h; cases h
  returned st hphase := by rw [hphase] at h; cases h

lemma of_sampled {c : UInt64} {n : ℕ} (hphase : x.phase = .sampled c n)
    (hsaw : SawStats (past ++ [s]) i { counter := c, opens := s.store.dev.opens, bufLen := n }) :
    Informed past s i x where
  sampled c' n' hphase' _ := by
    obtain ⟨rfl, rfl⟩ := Phase.sampled.inj (hphase.symm.trans hphase')
    exact hsaw
  gathered st hphase' := by rw [hphase] at hphase'; cases hphase'
  returned st hphase' := by rw [hphase] at hphase'; cases hphase'

lemma of_gathered {st : ValdevStats} (hphase : x.phase = .gathered st)
    (hsaw : x.outLeft = 0 → SawStats (past ++ [s]) i st) : Informed past s i x where
  sampled c n hphase' := by rw [hphase] at hphase'; cases hphase'
  gathered st' hphase' hout := by
    obtain rfl := Phase.gathered.inj (hphase.symm.trans hphase')
    exact hsaw hout
  returned st' hphase' := by rw [hphase] at hphase'; cases hphase'

lemma of_returned {ret : Except Errno Value} (hphase : x.phase = .returned ret)
    (hsaw : ∀ st, ret = .ok (.stats st) → SawStats past i st) : Informed past s i x where
  sampled c n hphase' := by rw [hphase] at hphase'; cases hphase'
  gathered st hphase' := by rw [hphase] at hphase'; cases hphase'
  returned st hphase' := hsaw st (Phase.returned.inj (hphase.symm.trans hphase'))

/-- Where `opens` has not changed, what is known of a call stays. -/
lemma mono (h : Informed past s i x) (hopens : s'.store.dev.opens = s.store.dev.opens) :
    Informed (past ++ [s]) s' i x where
  sampled c n hphase hout := by
    rw [hopens]
    exact (h.sampled c n hphase hout).mono
  gathered st hphase hout := (h.gathered st hphase hout).mono
  returned st hphase := (h.returned st hphase).mono

/-- Where it has, the statistics are what the device shows now. -/
lemma mono_of_opened (h : Informed past s i x) (hi : s'.procs[i]? = some x)
    (hright : ∀ c n, x.phase = .sampled c n → x.outLeft = 0 →
      s'.store.dev.counter = c ∧ s'.store.dev.len = n) : Informed (past ++ [s]) s' i x where
  sampled c n hphase hout := by
    obtain ⟨hc, hn⟩ := hright c n hphase hout
    refine ⟨s', by simp, ⟨x, hi, ?_⟩, hc, rfl, hn⟩
    rw [hphase]
    exact nofun
  gathered st hphase hout := (h.gathered st hphase hout).mono
  returned st hphase := (h.returned st hphase).mono

/-- The call whose step it is. -/
lemma act {x' : Call} (h : Informed past s i x) (hi : s.procs[i]? = some x)
    (hstep : step setpos i s.store x = some (s'.store, x')) : Informed (past ++ [s]) s' i x' := by
  have hout : x'.outLeft = x.outLeft := congrArg (·.2.2.2.1) (step_args hstep)
  cases gathers_step hstep with
  | opened _ _ _ hother => exact .of_not_ofStats hother
  | other _ hother => exact .of_not_ofStats hother
  | sample hphase hdev hphase' =>
    have hprogress : InProgress i s := ⟨x, hi, by rw [hphase]; exact nofun⟩
    have hsaw : SawStats (past ++ [s]) i
        { counter := s.store.dev.counter, opens := s.store.dev.opens
          bufLen := s.store.dev.len } :=
      ⟨s, by simp, hprogress, rfl, rfl, rfl⟩
    apply of_sampled hphase'
    rw [hdev]
    exact hsaw.mono
  | @gather c n hphase hstore hphase' =>
    apply of_gathered hphase'
    intro hout'
    exact (h.sampled c n hphase (hout ▸ hout')).mono
  | @copyOut st hphase hstore hphase' =>
    apply of_returned hphase'
    intro st' hvalue
    split_ifs at hvalue with hleft
    obtain rfl : st = st' := by simpa using hvalue
    exact h.gathered st hphase (not_not.mp hleft)

end Informed

/-- In a run that does not mix, every call is informed. -/
theorem informed (h : ((valdev setpos).lts.restrict Unmixed).Execution past s) :
    ∀ i x, s.procs[i]? = some x → Informed past s i x := by
  induction h with
  | @init s hinit =>
    intro i x hi
    rw [hinit.2] at hi
    cases hi
  | @step past s s' l _ hs ih =>
    obtain ⟨hs, hright⟩ := hs
    intro i x hi
    cases hs with
    | @enter y hy =>
      rcases Pool.of_getElem?_concat hi with hi | ⟨-, rfl⟩
      · exact (ih i x hi).mono rfl
      · refine .of_not_ofStats ?_
        rw [hy.1]
        rfl
    | @act j y y' store hj hy =>
      rcases Pool.of_getElem?_set hi with ⟨rfl, rfl⟩ | ⟨-, hold⟩
      · exact (ih i y hj).act hj hy
      · cases gathers_step hy with
        | opened hphase hop hdev _ =>
          apply (ih i x hold).mono_of_opened hi
          dsimp only
          rw [hdev]
          exact hright y hj hphase hop x (List.mem_of_getElem? hold)
        | sample _ hdev _ =>
          apply (ih i x hold).mono
          dsimp only
          rw [hdev]
        | gather _ hstore _ => exact (ih i x hold).mono (congrArg (·.dev.opens) hstore)
        | copyOut _ hstore _ => exact (ih i x hold).mono (congrArg (·.dev.opens) hstore)
        | other hopens _ => exact (ih i x hold).mono hopens

/-! ### Runs that do -/

section Mixed

variable {j : ℕ} {x y : Call} {c : UInt64} {n : ℕ}

/-- The statistics of a call that reads `opens` right after the open. -/
def mixture (s : Pool Store Call) (c : UInt64) (n : ℕ) : ValdevStats :=
  { counter := c, opens := s.store.dev.opens + 1, bufLen := n }

/-- The device after the open. -/
def Store.countOpen (s : Store) : Store := s.withDev { s.dev with opens := s.dev.opens + 1 }

/-- The open, and the call that goes on at once and returns. -/
lemma mixed_at_once (h : (valdev setpos).lts.Execution past s) (hj : s.procs[j]? = some y)
    (hphase : y.phase = .entered) (hop : y.op = .open) (hi : s.procs[i]? = some x)
    (hsampled : x.phase = .sampled c n) (hout : x.outLeft = 0) :
    ∃ s₁ s₂ s₃, (valdev setpos).lts.Execution (past ++ [s, s₁, s₂]) s₃ ∧
      s₁.store = s.store.countOpen ∧ s₂.store = s.store.countOpen ∧
      ReturnsStats i (mixture s c n) s₃ := by
  have hne : j ≠ i := by
    rintro rfl
    obtain rfl := Option.some.inj (hj.symm.trans hi)
    rw [hphase] at hsampled
    cases hsampled
  have hlt := (List.getElem?_eq_some_iff.mp hi).1
  have hopen : step setpos j s.store y = some (s.store.countOpen, y.finish (.ok .done)) := by
    simp only [step, hphase, hop]
    rfl
  have hi₁ : (s.procs.set j (y.finish (.ok .done)))[i]? = some x := by
    rwa [List.getElem?_set_ne hne]
  have hgather : step setpos i s.store.countOpen x =
      some (s.store.countOpen, x.goto (.gathered (mixture s c n))) := by
    simp only [step, hsampled]
    rfl
  have hi₂ : ((s.procs.set j (y.finish (.ok .done))).set i
      (x.goto (.gathered (mixture s c n))))[i]? = some (x.goto (.gathered (mixture s c n))) :=
    List.getElem?_set_self (by rwa [List.length_set])
  have hcopy : step setpos i s.store.countOpen (x.goto (.gathered (mixture s c n))) =
      some (s.store.countOpen, (x.goto (.gathered (mixture s c n))).copyOut
        (.stats (mixture s c n))) := rfl
  have hrun := h.step (.act (Y := valdev setpos) hj hopen)
    |>.step (.act (Y := valdev setpos) hi₁ hgather)
    |>.step (.act (Y := valdev setpos) hi₂ hcopy)
  rw [List.append_assoc, List.append_assoc] at hrun
  refine ⟨_, _, _, hrun, rfl, rfl, _, List.getElem?_set_self ?_, ?_⟩
  · rwa [List.length_set, List.length_set]
  · simp only [Call.copyOut, Call.goto, hout, ne_eq, not_true, if_false]
    rfl

lemma not_shows_mixture (hmixed : ¬ (s.store.dev.counter = c ∧ s.store.dev.len = n))
    (hnew : ∀ u ∈ past, u.store.dev.opens ≠ s.store.dev.opens + 1) {s₁ s₂ : Pool Store Call}
    (h₁ : s₁.store = s.store.countOpen) (h₂ : s₂.store = s.store.countOpen) :
    ∀ u ∈ past ++ [s, s₁, s₂], ¬ u.store.dev.Shows (mixture s c n) := by
  rintro u hu ⟨hcounter, hopens, hlen⟩
  rcases List.mem_append.mp hu with hu | hu
  · exact hnew u hu hopens
  · have hsame : u.store.dev.counter = s.store.dev.counter ∧ u.store.dev.len = s.store.dev.len := by
      simp only [List.mem_cons, List.not_mem_nil, or_false] at hu
      rcases hu with rfl | rfl | rfl
      · exact ⟨rfl, rfl⟩
      · rw [h₁]
        exact ⟨rfl, rfl⟩
      · rw [h₂]
        exact ⟨rfl, rfl⟩
    exact hmixed ⟨hsame.1.symm.trans hcounter, hsame.2.symm.trans hlen⟩

end Mixed

/-- In every run none of whose steps counts an open while the counter or the length is no longer
what a call has read for its statistics, the statistics that a call returns are those of the device
at some instant since it was made. After such a step, if it brings `opens` to a value that it never
had, that call may return statistics that the device never showed. -/
theorem stats_atomic_unless_mixed (setpos : VfsSetpos) :
    (∀ past s, ((valdev setpos).lts.restrict Unmixed).Execution past s → ∀ i st,
      ReturnsStats i st s → SawStats past i st) ∧
    ∀ past s l, (valdev setpos).lts.Execution past s → ¬ Unmixed s l →
      (∀ u ∈ past, u.store.dev.opens ≠ s.store.dev.opens + 1) →
      ∃ past' s' i st, (valdev setpos).lts.Execution (past ++ past') s' ∧ ReturnsStats i st s' ∧
        ∀ u ∈ past ++ past', ¬ u.store.dev.Shows st := by
  constructor
  · rintro past s h i st ⟨x, hi, hreturned⟩
    exact (informed h i x hi).returned st hreturned
  · intro past s l h hmixed hnew
    cases l with
    | enter => exact absurd trivial hmixed
    | act j =>
      simp only [Unmixed, not_forall] at hmixed
      obtain ⟨y, hj, hphase, hop, x, hx, c, n, hsampled, hout, hmixed⟩ := hmixed
      obtain ⟨i, hi⟩ := List.mem_iff_getElem?.mp hx
      obtain ⟨s₁, s₂, s₃, hrun, h₁, h₂, hreturns⟩ :=
        mixed_at_once h hj hphase hop hi hsampled hout
      exact ⟨_, s₃, i, _, hrun, hreturns, not_shows_mixture hmixed hnew h₁ h₂⟩

namespace Client

def getStats : Call := { op := .ioctl iocGetStats 0, start := 0 }

def addOne : Call := { op := .ioctl iocAddCounter 1, start := 0 }

def openDevice : Call := { op := .open, start := 0 }

end Client

lemma Client.unmixed_of_ne_open (s : Pool Store Call) {j : ℕ} {x : Call} (hj : s.procs[j]? = some x)
    (hop : x.op ≠ .open) : Unmixed s (.act j) := by
  intro y hy _ hopen
  obtain rfl := Option.some.inj (hj.symm.trans hy)
  exact absurd hopen hop

/-- A client asks for the statistics and reads the counter; another one adds to the counter; and a
third one is about to open the device. -/
lemma Client.execution_addedMeanwhile (setpos : VfsSetpos) :
    ∃ past s, (valdev setpos).lts.Execution past s ∧
      (∀ u ∈ past, u.store.dev.opens = 0) ∧ s.store.dev.opens = 0 ∧ s.store.dev.counter = 1 ∧
      (∃ x, s.procs[0]? = some x ∧ x.phase = .sampled 0 0 ∧ x.outLeft = 0) ∧
      s.procs[2]? = some openDevice := by
  have hrun := LTS.Execution.init (A := (valdev setpos).lts) (s := ⟨{}, []⟩) ⟨rfl, rfl⟩
    |>.step (.enter (x := getStats) ⟨rfl, rfl, rfl⟩)
    |>.step (.act (i := 0) rfl rfl)
    |>.step (.enter (x := addOne) ⟨rfl, rfl, rfl⟩)
    |>.step (.act (i := 1) rfl rfl)
    |>.step (.act (i := 1) rfl rfl)
    |>.step (.enter (x := openDevice) ⟨rfl, rfl, rfl⟩)
  refine ⟨_, _, hrun, ?_, rfl, rfl, ⟨_, rfl, rfl, rfl⟩, rfl⟩
  intro u hu
  simp only [List.nil_append, List.cons_append, List.mem_cons, List.not_mem_nil, or_false] at hu
  rcases hu with rfl | rfl | rfl | rfl | rfl | rfl <;> rfl

/-- The third client opens the device before the first one reads `opens`. -/
theorem stats_torn :
    ¬ ∀ (setpos : VfsSetpos) (past : List (Pool Store Call)) (s : Pool Store Call) (i : ℕ)
      (st : ValdevStats), (valdev setpos).lts.Execution past s → ReturnsStats i st s →
        SawStats past i st := by
  intro hatomic
  obtain ⟨past, s, h, hpast, hopens, hcounter, ⟨x, hi, hsampled, hout⟩, hj⟩ :=
    Client.execution_addedMeanwhile Client.setpos
  obtain ⟨s₁, s₂, s₃, hrun, h₁, h₂, hreturns⟩ := mixed_at_once h hj rfl rfl hi hsampled hout
  obtain ⟨u, hu, -, hshows⟩ := hatomic _ _ _ _ _ hrun hreturns
  refine not_shows_mixture ?_ ?_ h₁ h₂ u hu hshows
  · rw [hcounter]
    exact fun hmatch => absurd hmatch.1 (by decide)
  · intro u hu
    rw [hpast u hu, hopens]
    decide

/-- The device has been used before. Between the two reads of a client, another one opens the device
and a third one adds to the counter, in this order. -/
lemma Client.execution_openedMeanwhile (setpos : VfsSetpos) : ∃ past s,
    ((valdev setpos).lts.restrict Unmixed).Execution past s ∧
      ReturnsStats 1 { counter := 1, opens := 1, bufLen := 0 } s ∧ s.store.dev.counter = 2 := by
  have hadded := LTS.Execution.init (A := (valdev setpos).lts.restrict Unmixed)
      (s := ⟨{}, []⟩) ⟨rfl, rfl⟩
    |>.step ⟨.enter (x := addOne) ⟨rfl, rfl, rfl⟩, trivial⟩
    |>.step ⟨.act (i := 0) rfl rfl, unmixed_of_ne_open _ rfl nofun⟩
    |>.step ⟨.act (i := 0) rfl rfl, unmixed_of_ne_open _ rfl nofun⟩
    |>.step ⟨.act (i := 0) rfl rfl, unmixed_of_ne_open _ rfl nofun⟩
  have hsampled := hadded
    |>.step ⟨.enter (x := getStats) ⟨rfl, rfl, rfl⟩, trivial⟩
    |>.step ⟨.act (i := 1) rfl rfl, unmixed_of_ne_open _ rfl nofun⟩
    |>.step ⟨.enter (x := openDevice) ⟨rfl, rfl, rfl⟩, trivial⟩
  have hopened := hsampled.step ⟨.act (i := 2) rfl rfl, by
    -- the counter is still the one that the first client has read
    intro y _ _ _ x hx c n hphase _
    obtain ⟨k, hk⟩ := List.mem_iff_getElem?.mp hx
    rcases k with _ | _ | _ | k
    · obtain rfl := Option.some.inj hk
      cases hphase
    · obtain rfl := Option.some.inj hk
      cases hphase
      exact ⟨rfl, rfl⟩
    · obtain rfl := Option.some.inj hk
      cases hphase
    · cases hk⟩
  have hreturned := hopened
    |>.step ⟨.enter (x := addOne) ⟨rfl, rfl, rfl⟩, trivial⟩
    |>.step ⟨.act (i := 3) rfl rfl, unmixed_of_ne_open _ rfl nofun⟩
    |>.step ⟨.act (i := 3) rfl rfl, unmixed_of_ne_open _ rfl nofun⟩
    |>.step ⟨.act (i := 1) rfl rfl, unmixed_of_ne_open _ rfl nofun⟩
    |>.step ⟨.act (i := 1) rfl rfl, unmixed_of_ne_open _ rfl nofun⟩
  exact ⟨_, _, hreturned, ⟨_, rfl, rfl⟩, rfl⟩

/-- The statistics are those of the instant between the open and the second addition. -/
theorem stats_atomic_unless_mixed_opened :
    ∃ past s, ((valdev Client.setpos).lts.restrict Unmixed).Execution past s ∧
      SawStats past 1 { counter := 1, opens := 1, bufLen := 0 } ∧ s.store.dev.counter = 2 := by
  obtain ⟨past, s, hrun, hreturns, hcounter⟩ := Client.execution_openedMeanwhile Client.setpos
  exact ⟨past, s, hrun, (stats_atomic_unless_mixed Client.setpos).1 _ _ hrun 1 _ hreturns, hcounter⟩

end Kmod
