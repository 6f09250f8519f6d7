import Mathlib.Data.List.Induction
import Mathlib.Data.List.Nodup
import Mathlib.Data.List.Perm.Basic

/-!
# Lists grouped by a key

The keys of a list in the order of their first appearance, and for each key its elements in their
order.
-/

namespace Grouping

variable {α κ : Type*} [DecidableEq κ] (f : α → κ)

/-- The keys in the order of their first appearance. -/
def keys (l : List α) : List κ := (l.map f).eraseDups

/-- The elements with the key. -/
def members (l : List α) (k : κ) : List α := l.filter (f · = k)

lemma mem_members {l : List α} {k : κ} {x : α} : x ∈ members f l k ↔ x ∈ l ∧ f x = k := by
  simp [members]

@[simp] lemma keys_nil : keys f [] = [] := rfl

/-- A new element adds its key at the end, unless there is one like it already. -/
lemma keys_concat (l : List α) (x : α) :
    keys f (l ++ [x]) = if f x ∈ l.map f then keys f l else keys f l ++ [f x] := by
  rw [keys, List.map_append, List.eraseDups_append, List.map_singleton]
  by_cases h : f x ∈ l.map f
  · have hnone : [f x].removeAll (l.map f) = [] := by simp only [List.removeAll]; simpa using h
    rw [if_pos h, hnone, List.eraseDups_nil, List.append_nil, keys]
  · have hone : [f x].removeAll (l.map f) = [f x] := by simp only [List.removeAll]; simpa using h
    rw [if_neg h, hone, keys]
    rfl

lemma members_concat (l : List α) (x : α) (k : κ) :
    members f (l ++ [x]) k = if f x = k then members f l k ++ [x] else members f l k := by
  split_ifs with h <;> simp [members, h]

lemma mem_keys {l : List α} {k : κ} : k ∈ keys f l ↔ k ∈ l.map f := List.mem_eraseDups

lemma nodup_keys (l : List α) : (keys f l).Nodup := by
  induction l using List.reverseRecOn with
  | nil => simp
  | append_singleton l x ih =>
    rw [keys_concat]
    split_ifs with h
    · exact ih
    · rw [← List.concat_eq_append]
      exact List.Nodup.concat (mt (mem_keys f).mp h) ih

lemma members_eq_nil {l : List α} {k : κ} (h : k ∉ l.map f) : members f l k = [] := by
  apply List.filter_eq_nil_iff.mpr
  intro x hx hk
  exact h (List.mem_map.mpr ⟨x, hx, of_decide_eq_true hk⟩)

/-- Different keys that are enough for all elements take the list apart. -/
lemma perm_flatMap_of_nodup {ks : List κ} (hks : ks.Nodup) {l : List α}
    (hl : ∀ x ∈ l, f x ∈ ks) : (ks.flatMap (members f l)).Perm l := by
  induction ks generalizing l with
  | nil =>
    obtain rfl : l = [] := List.eq_nil_iff_forall_not_mem.mpr fun x hx => nomatch hl x hx
    rfl
  | cons k ks ih =>
    obtain ⟨hk, hks⟩ := List.nodup_cons.mp hks
    -- the elements with another key
    have hrest : ∀ k' ∈ ks, members f l k' = members f (l.filter (f · ≠ k)) k' := by
      intro k' hk'
      have hne : k' ≠ k := ne_of_mem_of_not_mem hk' hk
      rw [members, members, List.filter_filter]
      apply List.filter_congr
      intro x _
      by_cases hx : f x = k' <;> simp [hx, hne]
    rw [List.flatMap_cons, List.flatMap_congr hrest]
    refine (List.Perm.append_left _ (ih hks fun x hx => ?_)).trans ?_
    · obtain ⟨hx, hne⟩ := List.mem_filter.mp hx
      exact (List.mem_cons.mp (hl x hx)).resolve_left (by simpa using hne)
    · simpa [members] using List.filter_append_perm (f · = k) l

/-- Every element is in the group of its key, and in no other. -/
theorem perm_flatMap_members (l : List α) : ((keys f l).flatMap (members f l)).Perm l :=
  perm_flatMap_of_nodup f (nodup_keys f l) fun _ hx =>
    (mem_keys f).mpr (List.mem_map_of_mem hx)

end Grouping
