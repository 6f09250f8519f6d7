import Mathlib.Combinatorics.Enumerative.DoubleCounting
import ValidationSuite.Dtest.Scheduler.Progress

/-!
# Calls in flight to one address

The scheduler starts a thread for each slot of each agent entry, so several entries with one
address share the machine behind it. This module says when the calls in flight to an address stay
within the slots of its agent: if no two of its entries can run a task, or if it can run no more
tasks than it has slots.
-/

namespace Dtest

open Transition

variable {S : Scheduler} {tasks : List Task}

def Scheduler.address (S : Scheduler) (a : Entry S) : ByteString := (S.agents.get a).address

def Scheduler.slots (S : Scheduler) (a : Entry S) : ℕ := (S.agents.get a).slots.toNat

/-- All entries of an agent report the same number of slots. -/
def Scheduler.SameSlots (S : Scheduler) : Prop :=
  ∀ a b : Entry S, S.address a = S.address b → S.slots a = S.slots b

/-- The tasks that some entry with the address can run. -/
def servable (S : Scheduler) (tasks : List Task) (addr : ByteString) : Finset (TaskId tasks) :=
  Finset.univ.filter fun t => ∃ a : Entry S, S.address a = addr ∧ able a t = true

/-- Two entries with the address can run tasks, and the address can run more tasks than it has
slots. -/
def Crowded (S : Scheduler) (tasks : List Task) (addr : ByteString) : Prop :=
  ∃ a b : Entry S, a ≠ b ∧ S.address a = addr ∧ S.address b = addr ∧
    (∃ t : TaskId tasks, able a t = true) ∧ (∃ t : TaskId tasks, able b t = true) ∧
    S.slots a < (servable S tasks addr).card

instance (addr : ByteString) : Decidable (Crowded S tasks addr) :=
  inferInstanceAs (Decidable (∃ _, _))

def Pc.isCalling : Pc tasks → Bool
  | .calling _ => true
  | _ => false

lemma Pc.isCalling_iff {p : Pc tasks} : p.isCalling = true ↔ ∃ t, p = .calling t := by
  cases p <;> simp [isCalling]

/-- The threads that are in `exec_.run` with an entry of the address. -/
def State.flying (s : State S tasks) (addr : ByteString) : Finset (Worker S) :=
  Finset.univ.filter fun w => S.address w.1 = addr ∧ (s.pc w).isCalling = true

/-- The number of calls in flight to an address. -/
def State.inFlight (s : State S tasks) (addr : ByteString) : ℕ := (s.flying addr).card

namespace State

variable {s : State S tasks} {addr : ByteString}

lemma mem_flying {w : Worker S} :
    w ∈ s.flying addr ↔ S.address w.1 = addr ∧ ∃ t, s.pc w = .calling t := by
  simp only [flying, Finset.mem_filter, Finset.mem_univ, true_and, Pc.isCalling_iff]

lemma mem_servable {t : TaskId tasks} :
    t ∈ servable S tasks addr ↔ ∃ a : Entry S, S.address a = addr ∧ able a t = true := by
  simp only [servable, Finset.mem_filter, Finset.mem_univ, true_and]

/-! ### The bound -/

/-- The threads of one entry. -/
def threadsOf (a : Entry S) : Finset (Worker S) := Finset.univ.map (.sigmaMk a)

lemma mem_threadsOf {a : Entry S} {w : Worker S} : w ∈ threadsOf a ↔ w.1 = a := by
  simp only [threadsOf, Finset.mem_map, Finset.mem_univ, true_and,
    Function.Embedding.sigmaMk_apply]
  constructor
  · rintro ⟨i, rfl⟩
    rfl
  · rintro rfl
    exact ⟨w.2, rfl⟩

@[simp] lemma card_threadsOf (a : Entry S) : (threadsOf a).card = S.slots a := by
  rw [threadsOf, Finset.card_map, Finset.card_univ, Fintype.card_fin]
  rfl

/-- No two calls are in flight for one task. -/
lemma inFlight_le_servable (h : (workers S tasks).Reachable s) :
    s.inFlight addr ≤ (servable S tasks addr).card := by
  refine Finset.card_le_card_of_forall_subsingleton (fun w t => s.pc w = .calling t) ?_ ?_
  · intro w hw
    obtain ⟨haddr, t, ht⟩ := mem_flying.mp hw
    exact ⟨t, mem_servable.mpr ⟨w.1, haddr, able_of_calling h ht⟩, ht⟩
  · rintro t - w ⟨-, hw⟩ w' ⟨-, hw'⟩
    exact (bookkeeping h).2.calling_unique t w w' hw hw'

/-- Where only one entry of an address can run tasks, its threads are the ones in flight. -/
lemma inFlight_le_slots {a : Entry S} (h : ∀ w ∈ s.flying addr, w.1 = a) :
    s.inFlight addr ≤ S.slots a := by
  rw [← card_threadsOf]
  exact Finset.card_le_card fun w hw => mem_threadsOf.mpr (h w hw)

theorem inFlight_le (hsame : S.SameSlots) (h : (workers S tasks).Reachable s) (a : Entry S)
    (hcrowd : ¬Crowded S tasks (S.address a)) : s.inFlight (S.address a) ≤ S.slots a := by
  by_cases hfits : (servable S tasks (S.address a)).card ≤ S.slots a
  · exact (inFlight_le_servable h).trans hfits
  · rcases (s.flying (S.address a)).eq_empty_or_nonempty with hnone | ⟨v, hv⟩
    · simp only [inFlight, hnone, Finset.card_empty, Nat.zero_le]
    · obtain ⟨haddr, t, ht⟩ := mem_flying.mp hv
      rw [← hsame v.1 a haddr]
      refine inFlight_le_slots fun w hw => ?_
      obtain ⟨haddr', t', ht'⟩ := mem_flying.mp hw
      by_contra hne
      refine hcrowd ⟨w.1, v.1, hne, haddr', haddr, ⟨t', able_of_calling h ht'⟩,
        ⟨t, able_of_calling h ht⟩, ?_⟩
      rw [hsame w.1 a haddr']
      exact not_le.mp hfits

/-! ### Filling an address

A run in which threads of one address call one after the other, and no call returns. -/

structure Filling (addr : ByteString) (s : State S tasks) : Prop where
  reachable : (workers S tasks).Reachable s
  pc : ∀ w, s.pc w = .start ∨ ∃ t, s.pc w = .calling t
  home : ∀ w t, s.pc w = .calling t → S.address w.1 = addr
  alive : ∀ a, s.run.alive a = true
  tried : ∀ t, (s.run.st t).tried = ∅
  done : ∀ (a : Entry S) t, able a t = true → (s.run.st t).done = false

lemma filling_init (addr : ByteString) : (init : State S tasks).Filling addr where
  reachable := .init rfl
  pc _ := .inl rfl
  home w t h := by cases h
  alive a := by simp [init]
  tried t := by
    simp only [init, Run.resolveUnschedulable_st]
    split_ifs <;> rfl
  done a t hable := by
    have hnot : ¬({} : Run S tasks).Stranded t := Run.not_stranded_of_alive hable rfl
    simp only [init, Run.resolveUnschedulable_st, if_neg hnot]

/-- A thread of the address that can run a task nobody is busy with finds one to pick. -/
lemma Filling.exists_pick (h : s.Filling addr) {a : Entry S} {t : TaskId tasks}
    (hable : able a t = true) (hidle : ∀ v, s.pc v ≠ .calling t) :
    s.run.continues a = true ∧ ∃ t', s.run.pick a = some t' := by
  obtain ⟨hl, ht⟩ := bookkeeping h.reachable
  have hrun : (s.run.st t).running = false := by
    by_contra hrun
    obtain ⟨v, hv⟩ := (ht.running_iff t).mp (by simpa using hrun)
    exact hidle v hv
  have helig : s.run.eligible a t = true :=
    (s.run.eligible_iff a t).mpr ⟨⟨h.done a t hable, hrun, hable⟩, by simp [h.tried t]⟩
  have hremaining : 0 < s.run.remaining := by
    rw [hl.remaining_eq, Int.natCast_pos, Finset.card_pos]
    exact ⟨t, by simp [Run.undone, h.done a t hable]⟩
  refine ⟨(s.run.continues_iff a).mpr ⟨hremaining, h.alive a⟩, ?_⟩
  rw [← Option.ne_none_iff_exists']
  intro hnone
  rw [(s.run.pick_eq_none_iff a).mp hnone t] at helig
  cases helig

/-- A thread that has not started can take a task as long as one is left for its entry. -/
lemma Filling.call (h : s.Filling addr) {w : Worker S} (hw : s.pc w = .start)
    (haddr : S.address w.1 = addr) {t : TaskId tasks} (hable : able w.1 t = true)
    (hidle : ∀ v, s.pc v ≠ .calling t) :
    ∃ (s' : State S tasks) (t' : TaskId tasks), s'.Filling addr ∧ able w.1 t' = true ∧
      s'.pc = Function.update s.pc w (.calling t') := by
  obtain ⟨hcond, t', hpick⟩ := h.exists_pick hable hidle
  have hable' : able w.1 t' = true :=
    ((s.run.eligible_iff w.1 t').mp (Run.eligible_of_pick _ hpick)).1.2.2
  have hfree : s.MuFree := fun v hv => by
    rcases h.pc v with hpc | ⟨u, hpc⟩ <;> rw [hpc] at hv <;> cases hv
  have hacquire : Step s (.acquire w) (s.setPc w .locked) := .acquire w hfree (.inl hw)
  have hcall : Step (s.setPc w .locked) (.call w t')
      (((s.setPc w .locked).withRun (s.run.start w.1 t')).setPc w (.calling t')) :=
    .call w t' (by simp) hcond hpick
  have hpcs : (((s.setPc w .locked).withRun (s.run.start w.1 t')).setPc w (.calling t')).pc =
      Function.update s.pc w (.calling t') := by
    funext v
    by_cases hv : v = w <;> simp [hv]
  refine ⟨_, t', ⟨(h.reachable.step hacquire).step hcall, ?_, ?_, h.alive, ?_, ?_⟩, hable', hpcs⟩
  · intro v
    rw [hpcs]
    by_cases hv : v = w
    · exact .inr ⟨t', by simp [hv]⟩
    · simpa [hv] using h.pc v
  · intro v u hvu
    rw [hpcs] at hvu
    by_cases hv : v = w
    · exact hv ▸ haddr
    · exact h.home v u (by simpa [hv] using hvu)
  · intro u
    by_cases hu : u = t' <;> simp [hu, h.tried]
  · intro a u hau
    by_cases hu : u = t'
    · simpa [hu] using h.done a t' (hu ▸ hau)
    · simpa [hu] using h.done a u hau

lemma mem_flying_update {s' : State S tasks} {v w : Worker S} {t : TaskId tasks}
    (hpc : s'.pc = Function.update s.pc w (.calling t)) (hv : v ∈ s.flying addr) :
    v ∈ s'.flying addr := by
  rw [mem_flying] at hv ⊢
  refine ⟨hv.1, ?_⟩
  by_cases hvw : v = w
  · exact ⟨t, by simp [hpc, hvw]⟩
  · simpa [hpc, hvw] using hv.2

/-- A call more is in flight once a thread that had not started calls. -/
lemma inFlight_update {s' : State S tasks} {w : Worker S} {t : TaskId tasks}
    (hw : s.pc w = .start) (haddr : S.address w.1 = addr)
    (hpc : s'.pc = Function.update s.pc w (.calling t)) :
    s'.inFlight addr = s.inFlight addr + 1 := by
  have hnot : w ∉ s.flying addr := fun hmem => by
    obtain ⟨-, u, hu⟩ := mem_flying.mp hmem
    rw [hw] at hu
    cases hu
  have hinsert : s'.flying addr = insert w (s.flying addr) := by
    ext v
    rw [Finset.mem_insert]
    by_cases hv : v = w
    · simp [mem_flying, hpc, hv, haddr]
    · simp [mem_flying, hpc, hv]
  rw [inFlight, hinsert, Finset.card_insert_of_notMem hnot, inFlight]

/-- Two entries of the address have a call in flight. -/
def BothBusy (addr : ByteString) (s : State S tasks) : Prop :=
  ∃ v ∈ s.flying addr, ∃ w ∈ s.flying addr, v.1 ≠ w.1

lemma Filling.task_left (h : s.Filling addr)
    (hlt : s.inFlight addr < (servable S tasks addr).card) :
    ∃ t ∈ servable S tasks addr, ∀ v, s.pc v ≠ .calling t := by
  by_contra hnone
  push Not at hnone
  refine absurd hlt (not_lt.mpr ?_)
  refine Finset.card_le_card_of_forall_subsingleton (fun t w => s.pc w = .calling t) ?_ ?_
  · intro t ht
    obtain ⟨v, hv⟩ := hnone t ht
    exact ⟨v, mem_flying.mpr ⟨h.home v t hv, t, hv⟩, hv⟩
  · rintro w - t ⟨-, ht⟩ t' ⟨-, ht'⟩
    exact Pc.calling.inj (ht.symm.trans ht')

/-- As long as no more calls are in flight than the agent has slots, and two entries share them,
each entry has a thread that has not started. -/
lemma Filling.thread_left (h : s.Filling addr) (hbusy : s.BothBusy addr) {a : Entry S}
    (ha : S.address a = addr) (hle : s.inFlight addr ≤ S.slots a) :
    ∃ w : Worker S, w.1 = a ∧ s.pc w = .start := by
  by_contra hnone
  push Not at hnone
  have hall : threadsOf a ⊆ s.flying addr := fun w hw => by
    have hwa := mem_threadsOf.mp hw
    rcases h.pc w with hpc | hpc
    · exact absurd hpc (hnone w hwa)
    · exact mem_flying.mpr ⟨hwa ▸ ha, hpc⟩
  obtain ⟨v, hv, w, hw, hne⟩ := hbusy
  obtain ⟨u, hu, hua⟩ : ∃ u ∈ s.flying addr, u ∉ threadsOf a := by
    by_cases hva : v.1 = a
    · exact ⟨w, hw, fun hmem => hne (hva.trans (mem_threadsOf.mp hmem).symm)⟩
    · exact ⟨v, hv, fun hmem => hva (mem_threadsOf.mp hmem)⟩
  have hlt : (threadsOf a).card < s.inFlight addr :=
    Finset.card_lt_card ((Finset.ssubset_iff_of_subset hall).mpr ⟨u, hu, hua⟩)
  rw [card_threadsOf] at hlt
  omega

/-- Once two entries are busy, calls go out until there are more than slots. -/
lemma Filling.overflow {s : State S tasks} (hsame : S.SameSlots) (h : s.Filling addr)
    (hbusy : s.BothBusy addr) {a : Entry S} (ha : S.address a = addr)
    (hmany : S.slots a < (servable S tasks addr).card) :
    ∃ s' : State S tasks, (workers S tasks).Reachable s' ∧ S.slots a < s'.inFlight addr := by
  by_cases hdone : S.slots a < s.inFlight addr
  · exact ⟨s, h.reachable, hdone⟩
  · obtain ⟨t, ht, hidle⟩ := h.task_left (by omega)
    obtain ⟨b, hb, hbt⟩ := mem_servable.mp ht
    obtain ⟨w, rfl, hw⟩ := h.thread_left hbusy hb
      (by rw [hsame b a (hb.trans ha.symm)]; omega)
    obtain ⟨s', t', h', -, hpc⟩ := h.call hw hb hbt hidle
    have hcount := inFlight_update hw hb hpc
    obtain ⟨v, hv, u, hu, hne⟩ := hbusy
    exact Filling.overflow hsame h'
      ⟨v, mem_flying_update hpc hv, u, mem_flying_update hpc hu, hne⟩ ha hmany
termination_by S.slots a + 1 - s.inFlight addr
decreasing_by omega

/-- The first thread of an entry of the address takes a task. -/
lemma Filling.call_first (h : s.Filling addr) {a : Entry S} (ha : S.address a = addr)
    (hstart : s.pc (firstWorker a) = .start) {t : TaskId tasks} (hable : able a t = true)
    (hidle : ∀ v, s.pc v ≠ .calling t) :
    ∃ (s' : State S tasks) (t' : TaskId tasks), s'.Filling addr ∧ able a t' = true ∧
      s'.pc = Function.update s.pc (firstWorker a) (.calling t') ∧
      firstWorker a ∈ s'.flying addr := by
  obtain ⟨s', t', h', hable', hpc⟩ := h.call hstart ha hable hidle
  exact ⟨s', t', h', hable', hpc, mem_flying.mpr ⟨ha, t', by simp [hpc]⟩⟩

/-- Once an entry has taken the task `t`, another entry that can run a different one takes it. -/
lemma exists_bothBusy {a b : Entry S} {t u : TaskId tasks} (hab : a ≠ b)
    (hb : S.address b = addr) (h : s.Filling addr)
    (hpc : s.pc = Function.update (init : State S tasks).pc (firstWorker a) (.calling t))
    (hmem : firstWorker a ∈ s.flying addr) (hu : able b u = true) (hne : u ≠ t) :
    ∃ s' : State S tasks, s'.Filling addr ∧ s'.BothBusy addr := by
  have hworkers : firstWorker b ≠ firstWorker a := fun heq => hab (congrArg Sigma.fst heq).symm
  have hstart : s.pc (firstWorker b) = .start := by
    rw [hpc, Function.update_of_ne hworkers]
    rfl
  have hidle : ∀ v, s.pc v ≠ .calling u := fun v hv => by
    rw [hpc] at hv
    by_cases hva : v = firstWorker a
    · rw [hva, Function.update_self] at hv
      exact hne (Pc.calling.inj hv).symm
    · rw [Function.update_of_ne hva] at hv
      cases hv
  obtain ⟨s', t', h', -, hpc', hmem'⟩ := h.call_first hb hstart hu hidle
  exact ⟨s', h', _, mem_flying_update hpc' hmem, _, hmem', hab⟩

/-- In a crowded address two entries get busy, whatever their labels: the one that could take the
last task of the other goes second. -/
lemma bothBusy_of_crowded (hcrowd : Crowded S tasks addr) :
    ∃ s : State S tasks, s.Filling addr ∧ s.BothBusy addr := by
  obtain ⟨a, b, hab, ha, hb, ⟨t, hat⟩, ⟨u, hbu⟩, hmany⟩ := hcrowd
  have hinit : (init : State S tasks).Filling addr := filling_init addr
  have hidle : ∀ t v, (init : State S tasks).pc v ≠ .calling t := fun _ _ h => by cases h
  obtain ⟨s, t', hs, hat', hpc, hmem⟩ := hinit.call_first ha rfl hat (hidle t)
  by_cases hbt : ∃ x, able b x = true ∧ x ≠ t'
  · obtain ⟨x, hbx, hx⟩ := hbt
    exact exists_bothBusy hab hb hs hpc hmem hbx hx
  · push Not at hbt
    -- `b` can run nothing but the task that `a` has taken
    have hpos : 0 < S.slots a := S.slots_pos _ (List.get_mem _ _)
    obtain ⟨x, hx, hxt⟩ := Finset.exists_mem_ne (by omega : 1 < (servable S tasks addr).card) t'
    obtain ⟨c, hc, hcx⟩ := mem_servable.mp hx
    by_cases hca : c = a
    · obtain ⟨s', u', hs', hbu', hpc', hmem'⟩ := hinit.call_first hb rfl hbu (hidle u)
      exact exists_bothBusy hab.symm ha hs' hpc' hmem' (hca ▸ hcx) (hbt u' hbu' ▸ hxt)
    · exact exists_bothBusy (Ne.symm hca) hc hs hpc hmem hcx hxt

/-- The calls in flight to an address stay within its slots, in every run, exactly if the address
is not crowded. -/
theorem inFlight_le_iff (hsame : S.SameSlots) :
    (∀ s : State S tasks, (workers S tasks).Reachable s →
      ∀ a, s.inFlight (S.address a) ≤ S.slots a) ↔
      ∀ addr, ¬Crowded S tasks addr := by
  constructor
  · intro h addr hcrowd
    obtain ⟨s, hs, hbusy⟩ := bothBusy_of_crowded hcrowd
    obtain ⟨a, -, -, ha, -, -, -, hmany⟩ := hcrowd
    obtain ⟨s', hs', hover⟩ := hs.overflow hsame hbusy ha hmany
    exact absurd (ha ▸ h s' hs' a) (not_le.mpr hover)
  · intro h s hs a
    exact inFlight_le hsame hs a (h _)

end State

end Dtest
