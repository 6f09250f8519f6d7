import Mathlib.Data.Finset.Option
import ValidationSuite.Vmtest.Properties

/-!
# Overlay disks

The path of an overlay is in a variable of its owner before anything can fail, and the owner removes
it: `release_vm` the overlay of the shared guest, each soak iteration its own, and `boot_fresh_vm`
both. So there is never more than the one overlay that such a variable names.
-/

namespace Vmtest

open Exceptional Context

variable {env : Env} {cfg : Config} {α β : Type} {x : OverlayVar} {w w' : World}

/-- What has been done about overlays so far: they were removed while `vm_` held nothing, there was
never more than one, and between two test cases it was the shared guest's. -/
def History (w : World) : Prop :=
  (∀ r ∈ w.removals, r.2 = none) ∧ (∀ overlays ∈ w.overlayLog, overlays.card ≤ 1) ∧
    ∀ b ∈ w.boundaries, b.overlays ⊆ b.vmOverlay.toFinset

/-- No overlay but the shared guest's exists. -/
structure Owned (w : World) : Prop where
  overlays : w.overlays ⊆ w.vmOverlay.toFinset
  history : History w

/-- There is no shared guest, and no overlay but the one that `x` names. -/
structure Idle (x : OverlayVar) (w : World) : Prop where
  vm : w.vm = none
  vmOverlay : x = .soakOverlay → w.vmOverlay = none
  overlays : w.overlays ⊆ (w.load x).toFinset
  history : History w

/-- There is neither a shared guest nor an overlay. -/
structure Clean (w : World) : Prop where
  vm : w.vm = none
  vmOverlay : w.vmOverlay = none
  overlays : w.overlays = ∅
  history : History w

lemma Clean.idle (h : Clean w) : Idle x w :=
  ⟨h.vm, fun _ => h.vmOverlay, h.overlays ▸ Finset.empty_subset _, h.history⟩

lemma Idle.owned (h : Idle .vmOverlay w) : Owned w := ⟨h.overlays, h.history⟩

lemma Idle.clean (h : Idle .soakOverlay w) (hempty : w.overlays = ∅) : Clean w :=
  ⟨h.vm, h.vmOverlay rfl, hempty, h.history⟩

lemma Clean.owned (h : Clean w) : Owned w := h.idle.owned

/-! ### What has nothing to do with overlays -/

/-- The part of the world that is about overlays. -/
def World.disks (w : World) :=
  (w.vm, w.vmOverlay, w.soakOverlay, w.overlays, w.removals, w.overlayLog, w.boundaries)

/-- The invariant is about overlays only. -/
def AboutDisks (I : World → Prop) : Prop := ∀ w w', w'.disks = w.disks → I w → I w'

/-- The piece has nothing to do with overlays. -/
def Diskless (y : Harness α) : Prop := ∀ I, AboutDisks I → Keeps I y

lemma AboutDisks.stable {I : World → Prop} (hI : AboutDisks I) : Stable env I :=
  fun w h => hI w _ rfl h

lemma Neutral.diskless {y : Harness α} (hy : Neutral env y) : Diskless y :=
  fun _ hI => hy _ hI.stable

namespace Diskless

lemma update {f : World → World} (hf : ∀ w, (f w).disks = w.disks) :
    Diskless (modify f : Harness Unit) :=
  fun _ hI => Spec.update fun w h => hI w (f w) (hf w) h

lemma get : Diskless (get : Harness World) := fun _ _ => Spec.get fun _ h => h

lemma bind {y : Harness α} {f : α → Harness β} (hy : Diskless y) (hf : ∀ a, Diskless (f a)) :
    Diskless (y >>= f) :=
  fun I hI => (hy I hI).bind fun a => hf a I hI

lemma ite {c : Prop} [Decidable c] {y z : Harness α} (hy : Diskless y) (hz : Diskless z) :
    Diskless (if c then y else z) := by
  split_ifs
  · exact hy
  · exact hz

lemma pure (a : α) : Diskless (Pure.pure a : Harness α) := fun _ _ => Spec.pure fun _ h => h

lemma throw (e : Failure) : Diskless (MonadExcept.throw e : Harness α) :=
  fun _ _ => Spec.throw fun _ h => h

lemma require (cond : Bool) (msg : ByteString) : Diskless (Vmtest.require cond msg) :=
  ite (pure ()) (throw _)

lemma attempt (what : String) (answer : ℕ → Option ByteString) :
    Diskless (Vmtest.attempt env what answer) :=
  (Neutral.attempt what answer).diskless

lemma connection : Diskless (Context.connection env) :=
  get.bind fun _ => ite ((attempt _ _).bind fun _ => update fun _ => rfl) (pure ())

lemma createTransient (overlay : Overlay) : Diskless (Domain.createTransient env overlay) := by
  refine (attempt _ _).bind fun _ I hI => ?_
  exact fun w h => hI w _ rfl h

lemma destroy (vm : DomainId) : Diskless (Domain.destroy env vm) :=
  (attempt _ _).bind fun _ => update fun _ => rfl

lemma markSilent (vm : DomainId) : Diskless (Vmtest.markSilent vm) := update fun _ => rfl

lemma waitForAgent (vm : DomainId) : Diskless (Context.waitForAgent env cfg vm) :=
  (Neutral.waitUntil (Neutral.agentAlive vm)).diskless.bind fun _ =>
    ite (pure ()) ((markSilent vm).bind fun _ => throw _)

lemma destroyUnlessGone (vm : DomainId) : Diskless (Context.destroyUnlessGone env vm) :=
  (Neutral.state vm).diskless.bind fun _ => ite (destroy vm) (pure ())

end Diskless

lemma aboutDisks_history : AboutDisks History := by
  intro w w' hw h
  simp only [World.disks, Prod.mk.injEq] at hw
  obtain ⟨-, -, -, -, hremovals, hlog, hboundaries⟩ := hw
  rw [History, hremovals, hlog, hboundaries]
  exact h

lemma aboutDisks_owned : AboutDisks Owned := by
  intro w w' hw h
  have hhistory := aboutDisks_history w w' hw h.history
  simp only [World.disks, Prod.mk.injEq] at hw
  obtain ⟨-, hvmOverlay, -, hoverlays, -⟩ := hw
  exact ⟨hoverlays ▸ hvmOverlay ▸ h.overlays, hhistory⟩

lemma World.load_eq (hw : w'.disks = w.disks) : w'.load x = w.load x := by
  simp only [World.disks, Prod.mk.injEq] at hw
  cases x with
  | vmOverlay => exact hw.2.1
  | soakOverlay => exact hw.2.2.1

lemma aboutDisks_idle : AboutDisks (Idle x) := by
  intro w w' hw h
  have hhistory := aboutDisks_history w w' hw h.history
  have hload : w'.load x = w.load x := World.load_eq hw
  simp only [World.disks, Prod.mk.injEq] at hw
  obtain ⟨hvm, hvmOverlay, -, hoverlays, -⟩ := hw
  exact ⟨hvm ▸ h.vm, hvmOverlay ▸ h.vmOverlay, hoverlays ▸ hload ▸ h.overlays, hhistory⟩

lemma aboutDisks_clean : AboutDisks Clean := by
  intro w w' hw h
  have hhistory := aboutDisks_history w w' hw h.history
  simp only [World.disks, Prod.mk.injEq] at hw
  obtain ⟨hvm, hvmOverlay, -, hoverlays, -⟩ := hw
  exact ⟨hvm ▸ h.vm, hvmOverlay ▸ h.vmOverlay, hoverlays ▸ h.overlays, hhistory⟩

/-! ### Booting a guest -/

variable {E : World → Prop}

lemma History.change (h : History w) (overlays : Finset Overlay) (hcard : overlays.card ≤ 1)
    (hoverlayLog : w'.overlayLog = w.overlayLog ++ [overlays])
    (hremovals : ∀ r ∈ w'.removals, r.2 = none) (hboundaries : w'.boundaries = w.boundaries) :
    History w' := by
  refine ⟨hremovals, fun s hs => ?_, hboundaries ▸ h.2.2⟩
  rw [hoverlayLog] at hs
  rcases List.mem_append.mp hs with hs | hs
  · exact h.2.1 s hs
  · exact List.mem_singleton.mp hs ▸ hcard

/-- While `vm_` holds nothing, an overlay may be removed. -/
lemma History.remove (h : History w) (hvm : w.vm = none) {overlays : Finset Overlay}
    (hcard : overlays.card ≤ 1) (overlay : Overlay) :
    History { w with
      overlays := overlays
      removals := w.removals ++ [(overlay, w.vm)]
      overlayLog := w.overlayLog ++ [overlays] } := by
  refine h.change overlays hcard rfl (fun r hr => ?_) rfl
  rcases List.mem_append.mp hr with hr | hr
  · exact h.1 r hr
  · exact List.mem_singleton.mp hr ▸ hvm

lemma card_le_one_of_subset {overlays : Finset Overlay} {o : Option Overlay}
    (h : overlays ⊆ o.toFinset) : overlays.card ≤ 1 := by
  apply (Finset.card_le_card h).trans
  rw [Option.card_toFinset]
  cases o with
  | none => exact Nat.zero_le 1
  | some overlay => exact Nat.le_refl 1

/-- Without a shared guest, removing an overlay leaves at most the one that `x` names. -/
lemma spec_removeFile (path : Option Overlay) :
    Spec (Idle x) (removeFile path) (fun _ => Idle x) E := by
  cases path with
  | none => exact Spec.pure fun _ h => h
  | some overlay =>
    refine Spec.update fun w h => ?_
    have hsubset : w.overlays.erase overlay ⊆ (w.load x).toFinset :=
      (Finset.erase_subset _ _).trans h.overlays
    exact ⟨h.vm, h.vmOverlay, by cases x <;> exact hsubset,
      h.history.remove h.vm (card_le_one_of_subset hsubset) overlay⟩

/-- Removing the overlay that `x` names leaves none. -/
lemma spec_removeFile_load (path : Option Overlay) :
    Spec (fun w => Idle x w ∧ w.load x = path) (removeFile path)
      (fun _ w => Idle x w ∧ w.overlays = ∅) E := by
  rintro w ⟨h, rfl⟩
  have hidle := spec_removeFile (E := E) (w.load x) w h
  have hoverlays := h.overlays
  cases hload : w.load x with
  | none =>
    rw [hload] at hoverlays
    exact ⟨h, Finset.subset_empty.mp hoverlays⟩
  | some overlay =>
    rw [hload] at hidle hoverlays
    refine ⟨hidle, ?_⟩
    exact (Finset.erase_eq_empty_iff _ _).mpr (Finset.subset_singleton_iff.mp hoverlays)

/-- A new overlay is the only one there is. -/
lemma spec_makeOverlay (id : UInt32) :
    Spec Clean (makeOverlay env id)
      (fun overlay w => w.vm = none ∧ w.vmOverlay = none ∧ w.overlays = {overlay} ∧ History w)
      (Idle x) := by
  have hcall : Spec Clean (call env env.qemuImg) (fun _ => Clean) (Idle x) :=
    spec_call aboutDisks_clean.stable _
  refine hcall.bind fun rc => ?_
  split_ifs
  · exact Spec.throw fun _ h => h.idle
  · exact Spec.throw fun _ h => h.idle
  · refine Spec.bind (Q := fun _ w => w.vm = none ∧ w.vmOverlay = none ∧ w.overlays = {id} ∧
      History w) (Spec.update fun w h => ?_) fun _ => Spec.pure fun _ h => h
    refine ⟨h.vm, h.vmOverlay, ?_, h.history.change (insert id w.overlays) ?_ rfl h.history.1
      rfl⟩
    · rw [h.overlays, insert_empty_eq]
    · rw [h.overlays, insert_empty_eq, Finset.card_singleton]

/-- Whether or not a guest is booted, the only overlay there may be is the one the caller knows. -/
lemma spec_bootFreshVm_idle (x : OverlayVar) :
    Spec Clean (bootFreshVm env cfg x) (fun _ => Idle x) (Idle x) := by
  refine Spec.bind (Q := fun _ => Clean)
    (Spec.update fun w h => aboutDisks_clean w _ rfl h) fun _ => ?_
  refine Spec.bind (Q := fun _ => Clean) (Spec.get fun _ h => h) fun w => ?_
  refine (spec_makeOverlay _).bind fun overlay => ?_
  refine Spec.bind (Q := fun _ => Idle x) (Spec.update fun w ⟨hvm, hvmOverlay, hoverlays, h⟩ => ?_)
    fun _ => ?_
  · cases x with
    | vmOverlay => exact ⟨hvm, nofun, by simp [World.store, World.load, hoverlays], h⟩
    | soakOverlay =>
      exact ⟨hvm, fun _ => hvmOverlay, by simp [World.store, World.load, hoverlays], h⟩
  · have hboot : Diskless (do
        connection env
        let vm ← Domain.createTransient env overlay
        waitForAgent env cfg vm
        return vm) :=
      Diskless.connection.bind fun _ => (Diskless.createTransient overlay).bind fun vm =>
        (Diskless.waitForAgent vm).bind fun _ => Diskless.pure vm
    refine Spec.tryCatch (hboot _ aboutDisks_idle) fun e => ?_
    exact (spec_removeFile _).bind fun _ => Spec.throw fun _ h => h

/-! ### The shared guest -/

/-- `vm_` is empty afterwards, even if the guest could not be destroyed. -/
lemma spec_dropVm_idle : Spec Owned (dropVm env) (fun _ => Idle .vmOverlay) E := by
  refine Spec.bind (Q := fun u w => u.vm = w.vm ∧ Owned w) (Spec.get fun _ h => ⟨rfl, h⟩)
    fun u => ?_
  cases hvm : u.vm with
  | none => exact Spec.pure fun w ⟨hw, h⟩ => ⟨hw.symm, nofun, h.overlays, h.history⟩
  | some vm =>
    refine Spec.bind (Q := fun _ => Owned) ?_ fun _ =>
      Spec.update fun w h => ⟨rfl, nofun, h.overlays, h.history⟩
    refine Spec.tryCatch (F := Owned) ?_ fun e => Spec.pure fun _ h => h
    exact (Diskless.destroyUnlessGone vm _ aboutDisks_owned).consequence (fun _ h => h.2)
      (fun _ _ h => h) fun _ h => h

lemma spec_releaseVm_clean : Spec Owned (releaseVm env) (fun _ => Clean) E := by
  refine spec_dropVm_idle.bind fun _ => ?_
  refine Spec.bind (Q := fun u w => Idle .vmOverlay w ∧ w.load .vmOverlay = u.vmOverlay)
    (Spec.get fun _ h => ⟨h, rfl⟩) fun u => ?_
  refine (spec_removeFile_load u.vmOverlay).bind fun _ => ?_
  exact Spec.update fun w ⟨h, hempty⟩ => ⟨h.vm, rfl, hempty, h.history⟩

lemma keeps_bootSharedVm_owned : Keeps Owned (bootSharedVm env cfg) := by
  refine spec_releaseVm_clean.bind fun _ => ?_
  have hboot : Spec Clean (bootFreshVm env cfg .vmOverlay) (fun _ => Idle .vmOverlay) Owned :=
    (spec_bootFreshVm_idle .vmOverlay).consequence (fun _ h => h) (fun _ _ h => h)
      fun _ h => h.owned
  refine hboot.bind fun vm => ?_
  exact Spec.bind (Q := fun _ => Owned) (Spec.update fun w h => ⟨h.overlays, h.history⟩) fun _ =>
    Spec.pure fun _ h => h

lemma keeps_ensureVm_owned : Keeps Owned (ensureVm env cfg) := by
  refine Spec.bind (Q := fun _ => Owned) (Spec.get fun _ h => h) fun u => ?_
  cases u.vm with
  | none => exact keeps_bootSharedVm_owned
  | some vm =>
    refine (Neutral.state vm _ aboutDisks_owned.stable).bind fun st => ?_
    split_ifs
    · exact keeps_bootSharedVm_owned
    · exact Spec.pure fun _ h => h

/-! ### The soak loop -/

lemma spec_soakGuest_idle (i : ℕ) :
    Spec Clean (soakGuest env cfg i) (fun _ => Idle .soakOverlay) (Idle .soakOverlay) := by
  refine (spec_bootFreshVm_idle .soakOverlay).bind fun vm => ?_
  refine (Neutral.agentAlive vm _ aboutDisks_idle.stable).bind fun alive => ?_
  have hrest : Diskless (do
      require alive (ByteString.lit "iteration " ++ ByteString.ofNat i ++
        ByteString.lit ": guest agent not alive")
      Domain.destroy env vm
      require (← hasStopped env vm) (ByteString.lit "iteration " ++ ByteString.ofNat i ++
        ByteString.lit ": domain still present after destroy")) :=
    (Diskless.require _ _).bind fun _ => (Diskless.destroy vm).bind fun _ =>
      (Neutral.hasStopped vm).diskless.bind fun _ => Diskless.require _ _
  exact Diskless.ite ((Diskless.markSilent vm).bind fun _ => hrest) hrest _ aboutDisks_idle

/-- A soak iteration removes its overlay, whether or not its guest is booted. -/
lemma keeps_soakIteration_clean (i : ℕ) : Keeps Clean (soakIteration env cfg i) := by
  have hget : Spec (Idle .soakOverlay) (get : Harness World)
      (fun u w => Idle .soakOverlay w ∧ w.load .soakOverlay = u.soakOverlay) Clean :=
    Spec.get fun _ h => ⟨h, rfl⟩
  refine Spec.bind (Q := fun _ => Clean)
    (Spec.update fun w h => ⟨h.vm, h.vmOverlay, h.overlays, h.history⟩) fun _ => ?_
  refine Spec.bind (Q := fun _ => Idle .soakOverlay) ?_ fun _ => ?_
  · refine (spec_soakGuest_idle i).tryCatch fun e => hget.bind fun u => ?_
    refine Spec.bind (spec_removeFile_load u.soakOverlay) fun _ => ?_
    exact Spec.throw fun w ⟨h, hempty⟩ => h.clean hempty
  · refine hget.bind fun u => ?_
    exact (spec_removeFile_load u.soakOverlay).consequence (fun _ h => h)
      (fun _ w ⟨h, hempty⟩ => h.clean hempty) fun _ h => h

lemma keeps_soakLoop_clean (is : List ℕ) : Keeps Clean (soakLoop env cfg is) := by
  induction is with
  | nil => exact Spec.pure fun _ h => h
  | cons i is ih => exact (keeps_soakIteration_clean i).bind fun _ => ih

lemma keeps_tBootDestroySoak_owned : Keeps Owned (tBootDestroySoak env cfg) := by
  rw [tBootDestroySoak]
  split_ifs
  · exact Spec.bind (Q := fun _ _ => False) (Spec.throw fun _ h => h) fun _ _ h => h.elim
  · refine spec_releaseVm_clean.bind fun _ => ?_
    exact (keeps_soakLoop_clean _).consequence (fun _ h => h) (fun _ _ h => h.owned)
      fun _ h => h.owned

/-! ### Whole runs -/

lemma Owned.boundary (h : Owned w) : Owned (boundary w).2 := by
  refine ⟨h.overlays, h.history.1, h.history.2.1, fun b hb => ?_⟩
  rcases List.mem_append.mp hb with hb | hb
  · exact h.history.2.2 b hb
  · obtain rfl := List.mem_singleton.mp hb
    exact h.overlays

theorem spec_runTests_clean {tests : List TestCase} (htests : tests ⊆ buildTests env cfg) :
    Spec Owned (runTests env cfg tests) (fun _ => Clean) fun _ => False := by
  have hkeeps : ∀ t ∈ tests, Keeps Owned t.fn := fun t ht =>
    keeps_of_mem_buildTests aboutDisks_owned.stable keeps_ensureVm_owned
      (spec_releaseVm_clean.consequence (fun _ h => h) (fun _ _ h => h.owned) fun _ h => h)
      keeps_tBootDestroySoak_owned (htests ht)
  refine Spec.bind (Q := fun _ => Owned) (Spec.update fun _ h => h.boundary) fun _ => ?_
  refine (spec_runLoop (fun _ h => h.boundary) hkeeps).bind fun results => ?_
  exact spec_releaseVm_clean.bind fun _ => Spec.pure fun _ h => h

lemma owned_start : Owned {} :=
  ⟨Finset.empty_subset _, fun _ h => absurd h List.not_mem_nil,
    fun _ h => absurd h List.not_mem_nil, fun _ h => absurd h List.not_mem_nil⟩

/-- Whatever fails, no overlay is left behind: between two test cases there is at most the shared
guest's, there is never more than one, none is removed under the guest that `vm_` holds, and after
the run there is none. -/
theorem no_stray_overlay {tests : List TestCase} (htests : tests ⊆ buildTests env cfg) :
    ∃ results w, runTests env cfg tests {} = (.ok results, w) ∧
      (∀ b ∈ w.boundaries, b.overlays ⊆ b.vmOverlay.toFinset) ∧
      (∀ overlays ∈ w.overlayLog, overlays.card ≤ 1) ∧
      (∀ overlay vm, (overlay, some vm) ∈ w.removals → w.disk vm ≠ some overlay) ∧
      w.overlays = ∅ := by
  have hrun := spec_runTests_clean htests {} owned_start
  rcases hr : runTests env cfg tests {} with ⟨e | results, w⟩ <;> rw [hr] at hrun
  · exact hrun.elim
  · refine ⟨results, w, rfl, hrun.history.2.2, hrun.history.2.1, fun overlay vm h => ?_,
      hrun.overlays⟩
    exact absurd (hrun.history.1 _ h) nofun

/-- Every test case, with two soak iterations. -/
theorem no_stray_overlay_soak :
    ∃ results w,
      runTests {} { iterations := 2 } (buildTests {} { iterations := 2 }) {} = (.ok results, w) ∧
      (∀ b ∈ w.boundaries, b.overlays ⊆ b.vmOverlay.toFinset) ∧
      (∀ overlays ∈ w.overlayLog, overlays.card ≤ 1) ∧
      (∀ overlay vm, (overlay, some vm) ∈ w.removals → w.disk vm ≠ some overlay) ∧
      w.overlays = ∅ :=
  no_stray_overlay (List.Subset.refl _)

end Vmtest
