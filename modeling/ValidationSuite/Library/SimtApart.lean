import ValidationSuite.Library.Simt

/-!
# Threads that keep apart

Threads without barriers, none of which touches what another one writes: a run does what each of
them does alone on the memory there is at the start, in whatever order they take turns. This is the
plan with one round.
-/

namespace Simt

open Transition

variable {T B L Op : Type} {Res : Op → Type} {V : L → Type}
  {exec : (o : Op) → (∀ l, V l) → Res o × ∀ l, V l} {block : T → B} {mem : ∀ l, V l}
  {progs : T → Prog Op Res Unit} {R W : T → Set L}

/-- What an operation may look at besides the places it may change. -/
lemma Confined.mono {R R' W : Set L} {o : Op} (h : Confined exec R W o) (hR : R ⊆ R' ∪ W) :
    Confined exec R' W o := by
  refine fun m m' hm => h m m' fun l hl => hm l ?_
  rcases hl with hl | hl
  · exact hR hl
  · exact .inr hl

/-- A thread writes the places `W`, and looks at nothing else but the places `R`, which no other one
writes. -/
structure Apart (exec : (o : Op) → (∀ l, V l) → Res o × ∀ l, V l) (mem : ∀ l, V l)
    (progs : T → Prog Op Res Unit) (R W : T → Set L) : Prop where
  ends : ∀ t, ((progs t).solo exec mem).next = .inl ()
  confined : ∀ t, ∀ o ∈ ((progs t).solo exec mem).log, Confined exec (R t) (W t) o
  alone : ∀ t t', t ≠ t' → ∀ l ∈ W t, l ∉ W t' ∧ l ∉ R t'

namespace Apart

open Classical in
/-- The memory after all threads. -/
noncomputable def outcome (exec : (o : Op) → (∀ l, V l) → Res o × ∀ l, V l) (mem : ∀ l, V l)
    (progs : T → Prog Op Res Unit) (W : T → Set L) : ∀ l, V l := fun l =>
  if h : ∃ t, l ∈ W t then ((progs h.choose).solo exec mem).mem l else mem l

lemma outcome_of_notMem {l : L} (h : ∀ t, l ∉ W t) : outcome exec mem progs W l = mem l := by
  rw [outcome, dif_neg fun ⟨t, ht⟩ => h t ht]

lemma outcome_of_mem (h : Apart exec mem progs R W) {t : T} {l : L} (hl : l ∈ W t) :
    outcome exec mem progs W l = ((progs t).solo exec mem).mem l := by
  have hex : ∃ t, l ∈ W t := ⟨t, hl⟩
  have ht : hex.choose = t := by
    by_contra hne
    exact (h.alone _ t hne l hex.choose_spec).1 hl
  rw [outcome, dif_pos hex, ht]

variable (exec block mem progs R W) in
noncomputable def plan : Plan T B Op Res V where
  prog t _ := progs t
  view _ e := if e = 0 then mem else outcome exec mem progs W
  writes t _ := W t
  foot b := {l | ∃ t, block t = b ∧ l ∈ R t ∪ W t}

lemma notMem_of_reads (h : Apart exec mem progs R W) {b : B} {l : L} {e : ℕ}
    (hl : l ∈ (plan exec block mem progs R W).reads block b e) (t : T) : l ∉ W t := by
  obtain ⟨⟨u, hu, hlu⟩, hnot⟩ := hl
  by_cases ht : block t = b
  · exact hnot t ht
  · have hne : t ≠ u := by
      rintro rfl
      exact ht hu
    intro hw
    rcases hlu with hr | hw'
    · exact (h.alone t u hne l hw).2 hr
    · exact (h.alone t u hne l hw).1 hw'

theorem sound (h : Apart exec mem progs R W) :
    (plan exec block mem progs R W).Sound exec block 0 mem progs where
  prog_zero _ := rfl
  view_zero _ _ _ := rfl
  next t e he := absurd he (Nat.not_lt_zero e)
  last t := h.ends t
  confined t e he o ho := by
    obtain rfl := Nat.le_zero.mp he
    refine (h.confined t o ho).mono fun l hl => ?_
    by_cases hw : l ∈ W t
    · exact .inr hw
    · refine .inl ⟨⟨t, rfl, .inl hl⟩, fun u _ hu => ?_⟩
      have hne : u ≠ t := by
        rintro rfl
        exact hw hu
      exact (h.alone u t hne l hu).2 hl
  written t e he l hl := by
    obtain rfl := Nat.le_zero.mp he
    exact h.outcome_of_mem hl
  kept b e he l hl := by
    obtain rfl := Nat.le_zero.mp he
    exact outcome_of_notMem (h.notMem_of_reads hl)
  within t e l hl := ⟨t, rfl, .inr hl⟩
  alone t t' e _ hne l hl := (h.alone t t' hne l hl).1
  apart t e b hb l hl := by
    rintro ⟨u, hu, hlu⟩
    have hne : t ≠ u := by
      rintro rfl
      exact hb hu
    rcases hlu with hr | hw
    · exact (h.alone t u hne l hl).2 hr
    · exact (h.alone t u hne l hl).1 hw

section Runs

variable [DecidableEq T] [DecidableEq B] {s : State T B Op Res (∀ l, V l)}

/-- As far as it has got, a thread has done what it does alone. -/
theorem log_prefix (h : Apart exec mem progs R W) (hs : (grid exec block mem progs).Reachable s)
    (t : T) : s.log t <+: ((progs t).solo exec mem).log :=
  h.sound.log_prefix hs t

/-- What no thread writes is as it was, at any time. -/
theorem frame (h : Apart exec mem progs R W) (hs : (grid exec block mem progs).Reachable s) {l : L}
    (hl : ∀ t, l ∉ W t) : s.mem l = mem l := by
  have hsound : (plan exec block mem progs R W).Sound exec block 0 mem progs := h.sound
  have hfollows := hsound.follows hs
  by_cases hfoot : ∃ b, l ∈ (plan exec block mem progs R W).foot b
  · obtain ⟨b, hb⟩ := hfoot
    have hpassed : s.passed b = 0 := Nat.le_zero.mp (hfollows.passed b)
    rw [hfollows.quiet b l ⟨hb, fun t _ => hl t⟩, hpassed]
    rfl
  · push Not at hfoot
    exact hfollows.outside l hfoot

theorem of_done (h : Apart exec mem progs R W) (hs : (grid exec block mem progs).Reachable s)
    (hdone : ∀ t, s.progs t = .pure ()) {t : T} {l : L} (hl : l ∈ W t) :
    s.mem l = ((progs t).solo exec mem).mem l := by
  have hsound : (plan exec block mem progs R W).Sound exec block 0 mem progs := h.sound
  obtain ⟨-, hmem, -⟩ := hsound.of_done hs hdone
  rw [hmem t l ⟨t, rfl, .inr hl⟩]
  exact h.outcome_of_mem hl

theorem progress (h : Apart exec mem progs R W) (hs : (grid exec block mem progs).Reachable s)
    (hundone : ∃ t, s.progs t ≠ .pure ()) : ∃ l s', (grid exec block mem progs).step s l s' :=
  h.sound.progress hs hundone

theorem bounded [Fintype T] [Fintype B] (h : Apart exec mem progs R W) :
    ∃ n, ∀ s₀ ls s, (grid exec block mem progs).init s₀ →
      (grid exec block mem progs).Path s₀ ls s → ls.length ≤ n :=
  h.sound.bounded

end Runs

end Apart

end Simt
