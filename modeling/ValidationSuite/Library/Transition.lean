import Mathlib.Algebra.GroupWithZero.Nat
import Mathlib.Logic.Relation
import Mathlib.Order.Defs.PartialOrder

/-!
# Labelled transition systems

A labelled transition system with its initial states, the states it can reach, its runs by the labels
and by the states they go through, and the rules by which facts about runs are proved: an invariant
of every reachable state, the same with the labels so far, what makes runs end, and the restriction
of a system to the steps that meet a condition.
-/

namespace Transition

variable {S L : Type*}

/-- A transition system with states `S` and labels `L`. -/
structure LTS (S L : Type*) where
  init : S → Prop
  step : S → L → S → Prop

namespace LTS

variable (A : LTS S L)

/-- The states of the runs of `A`. -/
inductive Reachable : S → Prop
  | init {s : S} : A.init s → Reachable s
  | step {s s' : S} {l : L} : Reachable s → A.step s l s' → Reachable s'

/-- The system `A` kept to the steps that meet `P`. -/
def restrict (P : S → L → Prop) : LTS S L where
  init := A.init
  step s l s' := A.step s l s' ∧ P s l

/-- `A.Path s ls s'`: the labels `ls`, performed in order, lead from `s` to `s'`. -/
inductive Path : S → List L → S → Prop
  | nil (s : S) : Path s [] s
  | cons {s s' s'' : S} {l : L} {ls : List L} :
      A.step s l s' → Path s' ls s'' → Path s (l :: ls) s''

variable {A}

/-- The invariant rule. The step may use that the state it leaves is reachable. -/
theorem Reachable.invariant {I : S → Prop} (hinit : ∀ s, A.init s → I s)
    (hstep : ∀ s l s', A.Reachable s → I s → A.step s l s' → I s') {s : S}
    (h : A.Reachable s) : I s := by
  induction h with
  | init h => exact hinit _ h
  | step hr hs ih => exact hstep _ _ _ hr ih hs

lemma Reachable.path {s s' : S} {ls : List L} (h : A.Reachable s) (hp : A.Path s ls s') :
    A.Reachable s' := by
  induction hp with
  | nil => exact h
  | cons hs _ ih => exact ih (h.step hs)

lemma Path.concat {s s' s'' : S} {ls : List L} {l : L} (h : A.Path s ls s')
    (hs : A.step s' l s'') : A.Path s (ls ++ [l]) s'' := by
  induction h with
  | nil s => exact .cons hs (.nil _)
  | cons hfirst _ ih => exact .cons hfirst (ih hs)

/-- The invariant rule for runs: what holds of the state and of the labels that have led to it. -/
theorem Path.invariant {I : S → List L → Prop} {s s' : S} {ls : List L} (hnil : I s [])
    (hstep : ∀ ls u l u', A.Path s ls u → I u ls → A.step u l u' → I u' (ls ++ [l]))
    (h : A.Path s ls s') : I s' ls := by
  -- the labels behind are part of what is carried along
  have hgen : ∀ {u u' ls'}, A.Path u ls' u' →
      ∀ {ls}, A.Path s ls u → I u ls → I u' (ls ++ ls') := by
    intro u u' ls' hrest
    induction hrest with
    | nil u => exact fun _ hI => by simpa using hI
    | @cons u v u' l ls' hs _ ih =>
      intro ls hbehind hI
      have hnext := ih (hbehind.concat hs) (hstep ls u l v hbehind hI hs)
      simpa using hnext
  exact hgen h (.nil s) hnil

/-- The rule for termination: where each step makes `f` smaller, but for what `g` allows its label,
no run is longer than `f` was, but for what its labels are allowed. -/
theorem Path.length_add_le {f : S → ℕ} {g : L → ℕ}
    (hf : ∀ s l s', A.Reachable s → A.step s l s' → f s' < f s + g l) {s s' : S} {ls : List L}
    (hr : A.Reachable s) (h : A.Path s ls s') : ls.length + f s' ≤ f s + (ls.map g).sum := by
  induction h with
  | nil s => simp
  | @cons s u s' l ls hs _ ih =>
    have hless := hf s l u hr hs
    have hrest := ih (hr.step hs)
    rw [List.length_cons, List.map_cons, List.sum_cons]
    omega

/-- `A.Execution past s`: a run that went through the states `past` and is at `s` now. -/
inductive Execution (A : LTS S L) : List S → S → Prop
  | init {s : S} : A.init s → Execution A [] s
  | step {past : List S} {s s' : S} {l : L} :
      Execution A past s → A.step s l s' → Execution A (past ++ [s]) s'

lemma Execution.reachable {past : List S} {s : S} (h : A.Execution past s) : A.Reachable s := by
  induction h with
  | init h => exact .init h
  | step _ hs ih => exact ih.step hs

lemma Reachable.exists_execution {s : S} (h : A.Reachable s) : ∃ past, A.Execution past s := by
  induction h with
  | init h => exact ⟨[], .init h⟩
  | step _ hs ih =>
    obtain ⟨past, hpast⟩ := ih
    exact ⟨_, hpast.step hs⟩

/-- The rule for progress: where some step makes `f` smaller and keeps `I` until `G` holds, a run
in which `I` holds can be continued to a state where `G` does. -/
theorem Execution.exists_extension {I G : S → Prop} (f : S → ℕ)
    (hstep : ∀ s, A.Reachable s → I s → G s ∨ ∃ l s', A.step s l s' ∧ I s' ∧ f s' < f s)
    {past : List S} {s : S} (h : A.Execution past s) (hI : I s) :
    ∃ more s', A.Execution (past ++ more) s' ∧ I s' ∧ G s' := by
  induction hf : f s using Nat.strongRecOn generalizing past s with
  | ind n ih =>
    rcases hstep s h.reachable hI with hG | ⟨l, s', hs, hI', hless⟩
    · exact ⟨[], s, by simpa using h, hI, hG⟩
    · obtain ⟨more, u, hu, hIu, hGu⟩ := ih _ (hf ▸ hless) (h.step hs) hI' rfl
      exact ⟨s :: more, u, by simpa using hu, hIu, hGu⟩

/-- What no step makes smaller is largest now. -/
lemma Execution.le_of_mem {α : Type*} [Preorder α] {f : S → α}
    (hf : ∀ s l s', A.step s l s' → f s ≤ f s') {past : List S} {s u : S}
    (h : A.Execution past s) (hu : u ∈ past) : f u ≤ f s := by
  induction h with
  | init _ => cases hu
  | step _ hs ih =>
    rcases List.mem_append.mp hu with hu | hu
    · exact le_trans (ih hu) (hf _ _ _ hs)
    · obtain rfl := List.mem_singleton.mp hu
      exact hf _ _ _ hs

/-- A restricted system reaches nothing new. -/
lemma Reachable.of_restrict {P : S → L → Prop} {s : S} (h : (A.restrict P).Reachable s) :
    A.Reachable s := by
  induction h with
  | init h => exact .init h
  | step _ hs ih => exact ih.step hs.1

lemma Execution.of_restrict {P : S → L → Prop} {past : List S} {s : S}
    (h : (A.restrict P).Execution past s) : A.Execution past s := by
  induction h with
  | init h => exact .init h
  | step _ hs ih => exact ih.step hs.1

/-- A restricted system stays within another restriction, if its own steps meet that one. -/
lemma Reachable.restrict_mono {P Q : S → L → Prop}
    (hPQ : ∀ s l s', (A.restrict P).Reachable s → (A.restrict P).step s l s' → Q s l) {s : S}
    (h : (A.restrict P).Reachable s) : (A.restrict Q).Reachable s := by
  induction h with
  | init h => exact .init h
  | step hr hs ih => exact ih.step ⟨hs.1, hPQ _ _ _ hr hs⟩

end LTS

end Transition
