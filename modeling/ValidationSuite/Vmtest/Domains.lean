import Mathlib.Data.Finset.Option
import ValidationSuite.Vmtest.Properties

/-!
# Stray guests

Every guest the harness has started and that still runs is the one `vm_` holds, or one whose agent
did not answer after it was created: such a guest is abandoned, since dropping the handle of a
domain does not destroy it.
-/

namespace Vmtest

open Exceptional Context ByteString

variable {env : Env} {cfg : Config}

/-- Queries of a state and `destroy` succeed. -/
structure Reliable (env : Env) : Prop where
  state : ∀ n, ∃ st, env.state n = .ok st
  destroy : ∀ n, env.destroy n = none

/-- What runs is the guest that is held, or has been abandoned, and of these each that does not
run has stopped by itself. -/
structure Guests (held : Option DomainId) (running silent stopped : Finset DomainId) : Prop where
  known : running ⊆ held.toFinset ∪ silent
  left : held.toFinset ∪ silent ⊆ running ∪ stopped
  apart : Disjoint running stopped
  answers : Disjoint held.toFinset silent

section Guests

variable {held : Option DomainId} {vm : DomainId} {running silent stopped : Finset DomainId}

/-- Guests may stop by themselves at any time. -/
lemma Guests.advance (h : Guests held running silent stopped) (gone : Finset DomainId) :
    Guests held (running \ gone) silent (stopped ∪ running ∩ gone) where
  known := Finset.sdiff_subset.trans h.known
  left u hu := by
    have hleft := h.left hu
    simp only [Finset.mem_union, Finset.mem_sdiff, Finset.mem_inter] at hleft ⊢
    tauto
  apart := by
    rw [Finset.disjoint_union_right]
    refine ⟨h.apart.mono_left Finset.sdiff_subset, ?_⟩
    exact Finset.sdiff_disjoint.mono_right Finset.inter_subset_right
  answers := h.answers

/-- A new domain is not among the abandoned ones, nor among those that have stopped. -/
lemma Guests.create (h : Guests none running silent stopped) (hsilent : vm ∉ silent)
    (hstopped : vm ∉ stopped) : Guests (some vm) (insert vm running) silent stopped where
  known u hu := by
    rcases Finset.mem_insert.mp hu with rfl | hu
    · simp
    · exact Finset.mem_union_right _ (by simpa using h.known hu)
  left u hu := by
    rw [Finset.insert_union]
    rcases Finset.mem_union.mp hu with hheld | hu
    · rw [Option.mem_toFinset] at hheld
      obtain rfl := Option.some.inj hheld
      exact Finset.mem_insert_self _ _
    · exact Finset.mem_insert_of_mem (h.left (Finset.mem_union_right _ hu))
  apart := Finset.disjoint_insert_left.mpr ⟨hstopped, h.apart⟩
  answers := Finset.disjoint_singleton_left.mpr hsilent

/-- A guest that does not run need not be held. -/
lemma Guests.drop (h : Guests held running silent stopped)
    (hgone : Disjoint held.toFinset running) : Guests none running silent stopped where
  known u hu := by
    have hheld := Finset.disjoint_right.mp hgone hu
    exact Finset.mem_union_right _ ((Finset.mem_union.mp (h.known hu)).resolve_left hheld)
  left u hu := h.left (Finset.mem_union_right _ (by simpa using hu))
  apart := h.apart
  answers := Finset.disjoint_empty_left _

lemma Guests.erase (h : Guests (some vm) running silent stopped) :
    Guests none (running.erase vm) silent stopped where
  known u hu := by
    obtain ⟨hne, hu⟩ := Finset.mem_erase.mp hu
    have hmem := h.known hu
    simp only [Option.toFinset_some, Finset.mem_union, Finset.mem_singleton] at hmem
    exact Finset.mem_union_right _ (hmem.resolve_left hne)
  left u hu := by
    have hsilent : u ∈ silent := by simpa using hu
    have hne : u ≠ vm := fun heq =>
      Finset.disjoint_singleton_left.mp h.answers (heq ▸ hsilent)
    rw [Finset.mem_union, Finset.mem_erase]
    exact (Finset.mem_union.mp (h.left (Finset.mem_union_right _ hsilent))).imp_left (⟨hne, ·⟩)
  apart := h.apart.mono_left (Finset.erase_subset _ _)
  answers := Finset.disjoint_empty_left _

/-- A guest that is marked as silent is held no longer. -/
lemma Guests.silence (h : Guests (some vm) running silent stopped) :
    Guests none running (insert vm silent) stopped where
  known := by
    rw [Option.toFinset_none, Finset.empty_union, Finset.insert_eq]
    exact h.known
  left := by
    rw [Option.toFinset_none, Finset.empty_union, Finset.insert_eq]
    exact h.left
  apart := h.apart
  answers := Finset.disjoint_empty_left _

/-- None but the guest that is held runs if and only if the abandoned ones have stopped. -/
lemma Guests.subset_iff (h : Guests held running silent stopped) :
    running ⊆ held.toFinset ↔ silent ⊆ stopped := by
  constructor
  · intro hrunning u hu
    rcases Finset.mem_union.mp (h.left (Finset.mem_union_right _ hu)) with hrun | hstopped
    · exact absurd hu (Finset.disjoint_left.mp h.answers (hrunning hrun))
    · exact hstopped
  · intro hsilent u hu
    rcases Finset.mem_union.mp (h.known hu) with hheld | hu'
    · exact hheld
    · exact absurd (hsilent hu') (Finset.disjoint_left.mp h.apart hu)

end Guests

structure Accounted (held : Option DomainId) (w : World) : Prop where
  guests : Guests held w.running w.silent w.stopped
  created : ∀ vm ∈ w.running ∪ w.stopped, vm < w.created
  boundaries : ∀ b ∈ w.boundaries, Guests b.vm b.running b.silent b.stopped

/-- `vm_` holds nothing, and a guest is held elsewhere, or none. -/
def Apart (held : Option DomainId) (w : World) : Prop := w.vm = none ∧ Accounted held w

def Shared (w : World) : Prop := Accounted w.vm w

variable {held : Option DomainId} {w : World} {E : World → Prop}

/-- An invariant that reads but a few members of the world. -/
lemma Accounted.congr {w' : World} (h : Accounted held w) (hrunning : w'.running = w.running)
    (hsilent : w'.silent = w.silent) (hstopped : w'.stopped = w.stopped)
    (hcreated : w'.created = w.created) (hboundaries : w'.boundaries = w.boundaries) :
    Accounted held w' where
  guests := hrunning ▸ hsilent ▸ hstopped ▸ h.guests
  created := hrunning ▸ hstopped ▸ hcreated ▸ h.created
  boundaries := hboundaries ▸ h.boundaries

lemma Accounted.advance (h : Accounted held w) : Accounted held (w.advance env) where
  guests := h.guests.advance _
  created vm hvm := by
    apply h.created vm
    simp only [World.advance, Finset.mem_union, Finset.mem_sdiff, Finset.mem_inter] at hvm ⊢
    tauto
  boundaries := h.boundaries

lemma Accounted.drop (h : Accounted held w) (hgone : ∀ vm, held = some vm → vm ∉ w.running) :
    Accounted none w where
  guests := h.guests.drop (Finset.disjoint_left.mpr fun vm hvm =>
    hgone vm (Option.mem_toFinset.mp hvm))
  created := h.created
  boundaries := h.boundaries

lemma stable_apart : Stable env (Apart held) := fun _ h => ⟨h.1, h.2.advance⟩

lemma stable_shared : Stable env Shared := fun _ h => Accounted.advance h

/-! ### Booting a guest -/

lemma spec_removeFile_apart (path : Option Overlay) :
    Spec (Apart held) (removeFile path) (fun _ => Apart held) E := by
  cases path with
  | none => exact Spec.pure fun _ h => h
  | some overlay =>
    exact Spec.update fun _ h => ⟨h.1, h.2.congr rfl rfl rfl rfl rfl⟩

lemma keeps_makeOverlay_apart (id : UInt32) : Keeps (Apart held) (makeOverlay env id) := by
  refine (Neutral.call _ _ stable_apart).bind fun rc => ?_
  split_ifs
  · exact Spec.throw fun _ h => h
  · exact Spec.throw fun _ h => h
  · refine Spec.bind (Q := fun _ => Apart held) (Spec.update fun _ h => ?_) fun _ =>
      Spec.pure fun _ h => h
    exact ⟨h.1, h.2.congr rfl rfl rfl rfl rfl⟩

lemma keeps_connection_apart : Keeps (Apart held) (connection env) := by
  refine Spec.bind (Q := fun _ => Apart held) (Spec.get fun _ h => h) fun w => ?_
  split_ifs
  · refine (Neutral.attempt _ _ _ stable_apart).bind fun _ => ?_
    exact Spec.update fun _ h => ⟨h.1, h.2.congr rfl rfl rfl rfl rfl⟩
  · exact Spec.pure fun _ h => h

lemma spec_createTransient (overlay : Overlay) :
    Spec (Apart none) (Domain.createTransient env overlay) (fun vm => Apart (some vm))
      (Apart none) := by
  refine (Neutral.attempt _ _ _ stable_apart).bind fun _ => ?_
  intro w ⟨hvm, h⟩
  have hnew : w.created ∉ w.running ∪ w.stopped := fun hmem => lt_irrefl _ (h.created _ hmem)
  refine ⟨hvm, h.guests.create ?_ ?_, ?_, h.boundaries⟩
  · exact fun hmem => hnew (h.guests.left (Finset.mem_union_right _ hmem))
  · exact fun hmem => hnew (Finset.mem_union_right _ hmem)
  · intro vm hvm
    rw [Finset.insert_union] at hvm
    rcases Finset.mem_insert.mp hvm with rfl | hvm
    · exact Nat.lt_succ_self _
    · exact Nat.lt_succ_of_lt (h.created vm hvm)

lemma Accounted.silence {vm : DomainId} (h : Accounted (some vm) w) :
    Accounted none { w with silent := insert vm w.silent } :=
  ⟨h.guests.silence, h.created, h.boundaries⟩

lemma spec_markSilent (vm : DomainId) :
    Spec (Apart (some vm)) (markSilent vm) (fun _ => Apart none) (Apart none) :=
  Spec.update fun _ h => ⟨h.1, h.2.silence⟩

lemma spec_waitForAgent (vm : DomainId) :
    Spec (Apart (some vm)) (waitForAgent env cfg vm) (fun _ => Apart (some vm))
      (Apart none) := by
  have halive : Spec (Apart (some vm)) (agentAlive env vm) (fun _ => Apart (some vm))
      (Apart none) := Neutral.spec_agentAlive stable_apart vm
  refine (spec_waitUntil stable_apart halive).bind fun up => ?_
  split_ifs
  · exact Spec.pure fun _ h => h
  · exact (spec_markSilent vm).bind fun _ => Spec.throw fun _ h => h

/-- A guest that is booted is handed over, or abandoned without an answer. -/
lemma spec_bootFreshVm (overlayOut : OverlayVar) :
    Spec (Apart none) (bootFreshVm env cfg overlayOut) (fun vm => Apart (some vm))
      (Apart none) := by
  refine Spec.bind (Q := fun _ => Apart none)
    (Spec.update fun _ h => ⟨h.1, h.2.congr rfl rfl rfl rfl rfl⟩) fun _ => ?_
  refine Spec.bind (Q := fun _ => Apart none) (Spec.get fun _ h => h) fun w => ?_
  refine (keeps_makeOverlay_apart _).bind fun overlay => ?_
  refine Spec.bind (Q := fun _ => Apart none) (Spec.update fun w h => ?_) fun _ => ?_
  · cases overlayOut <;> exact ⟨h.1, h.2.congr rfl rfl rfl rfl rfl⟩
  · refine Spec.tryCatch (F := Apart none) ?_ fun e => ?_
    · refine keeps_connection_apart.bind fun _ => ?_
      refine (spec_createTransient overlay).bind fun vm => ?_
      exact (spec_waitForAgent vm).bind fun _ => Spec.pure fun _ h => h
    · refine Spec.bind (Q := fun _ => Apart none) ?_ fun _ => Spec.throw fun _ h => h
      exact spec_removeFile_apart _

/-! ### Releasing the shared guest -/

lemma spec_state (henv : Reliable env) {I E : World → Prop} (hI : Stable env I) (vm : DomainId) :
    Spec I (Domain.state env vm)
      (fun st w => I w ∧ (st = .gone ∨ st = .shutOff ↔ vm ∉ w.running)) E := by
  intro w h
  obtain ⟨st, hst⟩ := henv.state w.calls
  rw [Domain.state, hst]
  refine ⟨hI w h, ?_⟩
  by_cases hrunning : vm ∈ (w.advance env).running
  · cases st <;> simp [hrunning]
  · cases st <;> simp [hrunning]

/-- What holds of the world without a domain holds once the domain is destroyed. -/
lemma spec_destroy (henv : Reliable env) {I R E : World → Prop} (hI : Stable env I)
    {vm : DomainId} (hR : ∀ w, I w → R { w with running := w.running.erase vm }) :
    Spec I (Domain.destroy env vm) (fun _ => R) E :=
  (spec_attempt hI henv.destroy).bind fun _ => Spec.update hR

lemma Accounted.erase {vm : DomainId} (h : Accounted (some vm) w) :
    Accounted none { w with running := w.running.erase vm } where
  guests := h.guests.erase
  created u hu := h.created u (Finset.union_subset_union_left (Finset.erase_subset _ _) hu)
  boundaries := h.boundaries

/-- The shared guest is `vm`. -/
def SharedIs (vm : DomainId) (w : World) : Prop := w.vm = some vm ∧ Accounted (some vm) w

lemma stable_sharedIs {vm : DomainId} : Stable env (SharedIs vm) := fun _ h =>
  ⟨h.1, h.2.advance⟩

/-- Asked for its state, and destroyed unless it is gone, a guest does not run. -/
lemma spec_destroyUnlessGone (henv : Reliable env) (vm : DomainId) :
    Spec (SharedIs vm) (destroyUnlessGone env vm) (fun _ => Accounted none)
      (fun _ => False) := by
  refine (spec_state henv stable_sharedIs vm).bind fun st => ?_
  split_ifs with hlive
  · exact (spec_destroy henv stable_sharedIs fun w h => h.2.erase).consequence (fun _ h => h.1)
      (fun _ _ h => h) fun _ h => h
  · refine Spec.pure fun w ⟨h, hstopped⟩ => h.2.drop ?_
    rintro u ⟨⟩
    exact hstopped.mp (by tauto)

lemma spec_dropVm (henv : Reliable env) :
    Spec Shared (dropVm env) (fun _ => Apart none) (fun _ => False) := by
  refine Spec.bind (Q := fun u w => u.vm = w.vm ∧ Shared w) (Spec.get fun _ h => ⟨rfl, h⟩)
    fun u => ?_
  cases hvm : u.vm with
  | none => exact Spec.pure fun w ⟨hw, h⟩ => ⟨hw.symm, hw ▸ h⟩
  | some vm =>
    refine Spec.bind (Q := fun _ => Accounted none) ?_ fun _ =>
      Spec.update fun w h => ⟨rfl, h.congr rfl rfl rfl rfl rfl⟩
    refine Spec.tryCatch (F := fun _ => False) ?_ fun e w h => h.elim
    exact (spec_destroyUnlessGone henv vm).consequence (fun w ⟨hw, h⟩ => ⟨hw.symm, hw ▸ h⟩)
      (fun _ _ h => h) fun _ h => h

/-- Releasing the shared guest leaves none but the abandoned ones. -/
lemma spec_releaseVm (henv : Reliable env) :
    Spec Shared (releaseVm env) (fun _ => Apart none) (fun _ => False) := by
  refine (spec_dropVm henv).bind fun _ => ?_
  refine Spec.bind (Q := fun _ => Apart none) (Spec.get fun _ h => h) fun w => ?_
  exact (spec_removeFile_apart _).bind fun _ =>
    Spec.update fun _ h => ⟨h.1, h.2.congr rfl rfl rfl rfl rfl⟩

lemma Apart.shared (h : Apart none w) : Shared w := by
  rw [Shared, h.1]
  exact h.2

lemma keeps_bootSharedVm (henv : Reliable env) : Keeps Shared (bootSharedVm env cfg) := by
  have hrelease : Spec Shared (releaseVm env) (fun _ => Apart none) Shared :=
    (spec_releaseVm henv).consequence (fun _ h => h) (fun _ _ h => h) fun _ h => h.elim
  refine hrelease.bind fun _ => ?_
  have hboot : Spec (Apart none) (bootFreshVm env cfg .vmOverlay) (fun vm => Apart (some vm))
      Shared :=
    (spec_bootFreshVm _).consequence (fun _ h => h) (fun _ _ h => h) fun _ h => h.shared
  refine hboot.bind fun vm => ?_
  exact Spec.bind (Q := fun _ => Shared)
    (Spec.update fun w h => h.2.congr rfl rfl rfl rfl rfl) fun _ =>
    Spec.pure fun _ h => h

lemma keeps_ensureVm (henv : Reliable env) : Keeps Shared (ensureVm env cfg) := by
  refine Spec.bind (Q := fun _ => Shared) (Spec.get fun _ h => h) fun u => ?_
  cases u.vm with
  | none => exact keeps_bootSharedVm henv
  | some vm =>
    refine (Neutral.state vm _ stable_shared).bind fun st => ?_
    split_ifs
    · exact keeps_bootSharedVm henv
    · exact Spec.pure fun _ h => h

/-! ### The soak loop -/

/-- The guest of a soak iteration is destroyed, unless its agent does not answer. -/
lemma keeps_soakGuest (henv : Reliable env) (i : ℕ) :
    Keeps (Apart none) (soakGuest env cfg i) := by
  refine (spec_bootFreshVm _).bind fun vm => ?_
  have halive : Spec (Apart (some vm)) (agentAlive env vm) (fun _ => Apart (some vm))
      (Apart none) := Neutral.spec_agentAlive stable_apart vm
  refine halive.bind fun alive => ?_
  cases alive with
  | false =>
    -- `require` throws here, and what follows it is not run
    refine (spec_markSilent vm).bind fun _ => ?_
    exact Spec.bind (Q := fun _ _ => False) (Spec.throw fun _ h => h) fun _ _ h => h.elim
  | true =>
    refine Spec.bind (Q := fun _ => Apart (some vm)) (Spec.pure fun _ h => h) fun _ => ?_
    have hdestroy : Spec (Apart (some vm)) (Domain.destroy env vm) (fun _ => Apart none)
        (Apart none) := spec_destroy henv stable_apart fun _ h => ⟨h.1, h.2.erase⟩
    refine hdestroy.bind fun _ => ?_
    exact (Neutral.hasStopped vm).bind (fun _ => Neutral.require _ _) _ stable_apart

lemma keeps_removeSoakOverlay :
    Keeps (Apart none) (get >>= fun w => removeFile w.soakOverlay : Harness Unit) :=
  Spec.bind (Q := fun _ => Apart none) (Spec.get fun _ h => h) fun _ => spec_removeFile_apart _

lemma keeps_soakIteration (henv : Reliable env) (i : ℕ) :
    Keeps (Apart none) (soakIteration env cfg i) := by
  refine Spec.bind (Q := fun _ => Apart none)
    (Spec.update fun _ h => ⟨h.1, h.2.congr rfl rfl rfl rfl rfl⟩) fun _ => ?_
  refine Spec.bind (Q := fun _ => Apart none) ?_ fun _ => keeps_removeSoakOverlay
  refine (keeps_soakGuest henv i).tryCatch fun e => ?_
  refine Spec.bind (Q := fun _ => Apart none) (Spec.get fun _ h => h) fun w => ?_
  exact (spec_removeFile_apart _).bind fun _ => Spec.throw fun _ h => h

lemma keeps_soakLoop (henv : Reliable env) (is : List ℕ) :
    Keeps (Apart none) (soakLoop env cfg is) := by
  induction is with
  | nil => exact Spec.pure fun _ h => h
  | cons i is ih => exact (keeps_soakIteration henv i).bind fun _ => ih

lemma keeps_tBootDestroySoak (henv : Reliable env) :
    Keeps Shared (tBootDestroySoak env cfg) := by
  rw [tBootDestroySoak]
  split_ifs
  · exact Spec.bind (Q := fun _ _ => False) (Spec.throw fun _ h => h) fun _ _ h => h.elim
  · have hrelease : Spec Shared (releaseVm env) (fun _ => Apart none) Shared :=
      (spec_releaseVm henv).consequence (fun _ h => h) (fun _ _ h => h) fun _ h => h.elim
    refine hrelease.bind fun _ => ?_
    exact (keeps_soakLoop henv _).consequence (fun _ h => h) (fun _ _ h => h.shared)
      fun _ h => h.shared

/-! ### Whole runs -/

lemma Shared.boundary (h : Shared w) : Shared (boundary w).2 where
  guests := h.guests
  created := h.created
  boundaries b hb := by
    rcases List.mem_append.mp hb with hb | hb
    · exact h.boundaries b hb
    · obtain rfl := List.mem_singleton.mp hb
      exact h.guests

/-- Between two test cases and after them, what runs is the shared guest or abandoned. -/
theorem spec_runTests (henv : Reliable env) {tests : List TestCase}
    (htests : tests ⊆ buildTests env cfg) :
    Spec Shared (runTests env cfg tests) (fun _ => Apart none) fun _ => False := by
  have hkeeps : ∀ t ∈ tests, Keeps Shared t.fn := fun t ht =>
    keeps_of_mem_buildTests stable_shared (keeps_ensureVm henv)
      ((spec_releaseVm henv).consequence (fun _ h => h) (fun _ _ h => h.shared)
        fun _ h => h.elim)
      (keeps_tBootDestroySoak henv) (htests ht)
  refine Spec.bind (Q := fun _ => Shared) (Spec.update fun _ h => h.boundary) fun _ => ?_
  refine (spec_runLoop (fun _ h => h.boundary) hkeeps).bind fun results => ?_
  exact (spec_releaseVm henv).bind fun _ => Spec.pure fun _ h => h

lemma shared_start : Shared {} where
  guests := ⟨Finset.empty_subset _, Finset.empty_subset _, Finset.disjoint_empty_left _,
    Finset.disjoint_empty_left _⟩
  created := fun _ h => absurd h (Finset.notMem_empty _)
  boundaries := fun _ h => absurd h List.not_mem_nil

lemma apart_runTests (henv : Reliable env) {tests : List TestCase}
    (htests : tests ⊆ buildTests env cfg) : Apart none (runTests env cfg tests {}).2 := by
  have hrun := spec_runTests henv htests {} shared_start
  rcases hr : runTests env cfg tests {} with ⟨e | results, w⟩ <;> rw [hr] at hrun
  · exact hrun.elim
  · exact hrun

/-- No guest is left behind if and only if every guest whose agent did not answer has stopped by
itself by the next boundary. -/
theorem no_stray_guest_iff (henv : Reliable env) {tests : List TestCase}
    (htests : tests ⊆ buildTests env cfg) :
    ((∀ b ∈ (runTests env cfg tests {}).2.boundaries, b.running ⊆ b.vm.toFinset) ∧
      (runTests env cfg tests {}).2.running = ∅) ↔
    ((∀ b ∈ (runTests env cfg tests {}).2.boundaries, b.silent ⊆ b.stopped) ∧
      (runTests env cfg tests {}).2.silent ⊆ (runTests env cfg tests {}).2.stopped) := by
  obtain ⟨-, h⟩ := apart_runTests henv htests
  refine and_congr (forall₂_congr fun b hb => ?_) ?_
  · exact (h.boundaries b hb).subset_iff
  · rw [← Finset.subset_empty]
    exact h.guests.subset_iff

/-- The first guest stops instead of answering; those after it answer. -/
def powersOff : Env where
  stops n := if n = 4 then {0} else ∅
  agent n := if n = 4 then some (lit "agent not responding") else none

lemma reliable_powersOff : Reliable powersOff := ⟨fun _ => ⟨_, rfl⟩, fun _ => rfl⟩

/-- A silent guest has stopped by the next boundary, and several more are started: none is left. -/
theorem no_stray_guest_powersOff :
    (0 ∈ (runTests powersOff {} (buildTests powersOff {}) {}).2.silent ∧
      1 < (runTests powersOff {} (buildTests powersOff {}) {}).2.created) ∧
    ((∀ b ∈ (runTests powersOff {} (buildTests powersOff {}) {}).2.boundaries,
        b.silent ⊆ b.stopped) ∧
      (runTests powersOff {} (buildTests powersOff {}) {}).2.silent ⊆
        (runTests powersOff {} (buildTests powersOff {}) {}).2.stopped) ∧
    ((∀ b ∈ (runTests powersOff {} (buildTests powersOff {}) {}).2.boundaries,
        b.running ⊆ b.vm.toFinset) ∧
      (runTests powersOff {} (buildTests powersOff {}) {}).2.running = ∅) := by
  have hstopped : (∀ b ∈ (runTests powersOff {} (buildTests powersOff {}) {}).2.boundaries,
        b.silent ⊆ b.stopped) ∧
      (runTests powersOff {} (buildTests powersOff {}) {}).2.silent ⊆
        (runTests powersOff {} (buildTests powersOff {}) {}).2.stopped := by
    decide +kernel
  refine ⟨by decide +kernel, hstopped, ?_⟩
  exact (no_stray_guest_iff reliable_powersOff (List.Subset.refl _)).mpr hstopped

/-- Guests whose agent never answers. -/
def mute : Env := { agent := fun _ => some [] }

lemma reliable_mute : Reliable mute := ⟨fun _ => ⟨_, rfl⟩, fun _ => rfl⟩

/-- The guest that the first test case started is still there when it has failed. -/
theorem mute_guest_left_behind :
    Reliable mute ∧ (buildTests mute {}).take 1 ⊆ buildTests mute {} ∧
      ∃ b ∈ (runTests mute {} ((buildTests mute {}).take 1) {}).2.boundaries,
        ¬ b.running ⊆ b.vm.toFinset := by
  refine ⟨reliable_mute, List.take_subset 1 _, ?_⟩
  decide

end Vmtest
