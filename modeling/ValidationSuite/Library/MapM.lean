import Mathlib.Data.List.Forall2

/-!
# Lists of results

A list whose elements are mapped one after the other by a function that may fail: it succeeds if it
does on all of them, and what holds of each result holds of the list.
-/

namespace MapM

variable {α β : Type*} {f : α → Option β} {l : List α}

lemma exists_results {R : α → β → Prop} (h : ∀ a ∈ l, ∃ b, f a = some b ∧ R a b) :
    ∃ bs, l.mapM f = some bs ∧ List.Forall₂ R l bs := by
  induction l with
  | nil => exact ⟨[], rfl, .nil⟩
  | cons a l ih =>
    obtain ⟨⟨b, hb, hR⟩, hl⟩ := List.forall_mem_cons.mp h
    obtain ⟨bs, hbs, hall⟩ := ih hl
    refine ⟨b :: bs, ?_, .cons hR hall⟩
    rw [List.mapM_cons, hb, hbs]
    rfl

lemma exists_eq_some (h : ∀ a ∈ l, (f a).isSome = true) : ∃ bs, l.mapM f = some bs := by
  obtain ⟨bs, hbs, -⟩ := exists_results (R := fun _ _ => True) fun a ha =>
    ⟨(f a).get (h a ha), (Option.some_get _).symm, trivial⟩
  exact ⟨bs, hbs⟩

/-- A function that does not fail maps a list as always. -/
lemma eq_map {g : α → β} (h : ∀ a ∈ l, f a = some (g a)) : l.mapM f = some (l.map g) := by
  obtain ⟨bs, hbs, hall⟩ := exists_results (R := fun a b => g a = b) fun a ha => ⟨g a, h a ha, rfl⟩
  have hmap : List.Forall₂ (· = ·) (l.map g) bs := List.forall₂_map_left_iff.mpr hall
  rw [List.forall₂_eq_eq_eq] at hmap
  rw [hbs, hmap]

end MapM
