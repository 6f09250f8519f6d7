import Mathlib.Data.List.Sort
import Mathlib.Order.Defs.LinearOrder

/-!
# Sorting by a key

A list in the order of the keys of its elements. If no two of them have the same key, the result
does not depend on the order they came in.
-/

variable {α κ : Type*} [LinearOrder κ]

/-- The elements in the order of their keys. -/
def sortBy (key : α → κ) (l : List α) : List α := l.insertionSort fun a b => key a ≤ key b

namespace SortBy

variable {key : α → κ} {l l' : List α}

lemma perm_sortBy (key : α → κ) (l : List α) : (sortBy key l).Perm l := List.perm_insertionSort _ l

@[simp] lemma mem_sortBy {a : α} : a ∈ sortBy key l ↔ a ∈ l := (perm_sortBy key l).mem_iff

lemma pairwise_le (key : α → κ) (l : List α) :
    (sortBy key l).Pairwise fun a b => key a ≤ key b := by
  have htotal : Std.Total fun a b => key a ≤ key b := ⟨fun a b => le_total (key a) (key b)⟩
  have htrans : IsTrans α fun a b => key a ≤ key b := ⟨fun _ _ _ => le_trans⟩
  exact List.pairwise_insertionSort _ l

/-- Keys that differ stand in strictly increasing order. -/
lemma pairwise_lt (h : (l.map key).Nodup) : (sortBy key l).Pairwise fun a b => key a < key b := by
  have hnodup : ((sortBy key l).map key).Nodup := ((perm_sortBy key l).map key).nodup_iff.mpr h
  exact (pairwise_le key l).imp₂ (fun _ _ hle hne => lt_of_le_of_ne hle hne)
    (List.pairwise_map.mp hnodup)

lemma pairwise_id_lt {l : List κ} (h : l.Nodup) : (sortBy id l).Pairwise (· < ·) := by
  have hkeys : (l.map id).Nodup := by rwa [List.map_id]
  exact pairwise_lt hkeys

/-- There is only one order for keys that differ. -/
lemma sortBy_congr (h : (l.map key).Nodup) (hperm : l.Perm l') : sortBy key l = sortBy key l' := by
  have h' : (l'.map key).Nodup := (hperm.map key).nodup_iff.mp h
  refine List.Perm.eq_of_pairwise ?_ (pairwise_lt h) (pairwise_lt h')
    ((perm_sortBy key l).trans (hperm.trans (perm_sortBy key l').symm))
  intro a b _ _ hab hba
  exact absurd hab hba.asymm

/-- If the key says all about an element, it does not matter which of two equal ones comes first. -/
lemma sortBy_id_congr {l l' : List κ} (hperm : l.Perm l') : sortBy id l = sortBy id l' :=
  List.Perm.eq_of_pairwise (fun _ _ _ _ => le_antisymm) (pairwise_le id l) (pairwise_le id l')
    ((perm_sortBy id l).trans (hperm.trans (perm_sortBy id l').symm))

/-- A list may be sorted before its elements are replaced, if this keeps their order. -/
lemma sortBy_map {β κ' : Type*} [LinearOrder κ'] {key' : β → κ'} (f : α → β)
    (h : ∀ a b, key a ≤ key b ↔ key' (f a) ≤ key' (f b)) (l : List α) :
    sortBy key' (l.map f) = (sortBy key l).map f :=
  (List.map_insertionSort _ _ f l fun a _ b _ => h a b).symm

end SortBy
