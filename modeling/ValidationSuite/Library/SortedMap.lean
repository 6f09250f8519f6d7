import Mathlib.Data.List.OfFn
import Mathlib.Data.List.Sort
import Mathlib.Order.Defs.LinearOrder

/-!
# Ordered maps

A map with ordered keys, as the list of its pairs in increasing key order (`AssocList.Sorted`), and
the same as a structure that cannot be out of order (`SortedMap`). The structure keeps its keys
apart from its values, so that a type of trees may nest in it.
-/

variable {κ υ : Type*} [LinearOrder κ]

namespace AssocList

/-- The keys stand in strictly increasing order. -/
def Sorted (m : List (κ × υ)) : Prop := (m.map Prod.fst).Pairwise (· < ·)

/-- The value of a key. -/
def find (k : κ) : List (κ × υ) → Option υ
  | [] => none
  | (k', v) :: m => if k = k' then some v else find k m

/-- The map with the value of `k` set to `v`. -/
def insert (k : κ) (v : υ) : List (κ × υ) → List (κ × υ)
  | [] => [(k, v)]
  | (k', v') :: m =>
    if k < k' then (k, v) :: (k', v') :: m
    else if k = k' then (k, v) :: m
    else (k', v') :: insert k v m

/-- The map `m` with every pair of `own` inserted. -/
def overlay (m own : List (κ × υ)) : List (κ × υ) := own.foldl (fun m e => insert e.1 e.2 m) m

@[simp] lemma find_nil (k : κ) : find k ([] : List (κ × υ)) = none := rfl

lemma find_cons (k k' : κ) (v : υ) (m : List (κ × υ)) :
    find k ((k', v) :: m) = if k = k' then some v else find k m := rfl

@[simp] lemma sorted_nil : Sorted ([] : List (κ × υ)) := List.Pairwise.nil

lemma sorted_cons {k : κ} {v : υ} {m : List (κ × υ)} :
    Sorted ((k, v) :: m) ↔ (∀ e ∈ m, k < e.1) ∧ Sorted m := by
  simp only [Sorted, List.map_cons, List.pairwise_cons, List.forall_mem_map]

/-- A key below every key of the map is not in it. -/
lemma find_eq_none {k : κ} {m : List (κ × υ)} (h : ∀ e ∈ m, k ≠ e.1) : find k m = none := by
  induction m with
  | nil => rfl
  | cons e m ih =>
    rw [show e = (e.1, e.2) from rfl, find_cons, if_neg (h e (List.mem_cons_self ..))]
    exact ih fun e' he' => h e' (List.mem_cons_of_mem _ he')

lemma mem_of_find {k : κ} {v : υ} {m : List (κ × υ)} (h : find k m = some v) : (k, v) ∈ m := by
  induction m with
  | nil => simp at h
  | cons e m ih =>
    obtain ⟨k', v'⟩ := e
    rw [find_cons] at h
    split at h
    · next hk => simp_all
    · exact List.mem_cons_of_mem _ (ih h)

/-- No key occurs twice in an ordered list. -/
lemma Sorted.nodup {m : List (κ × υ)} (hm : Sorted m) : (m.map Prod.fst).Nodup :=
  List.Pairwise.imp ne_of_lt hm

lemma find_of_mem {k : κ} {v : υ} {m : List (κ × υ)} (hm : (m.map Prod.fst).Nodup)
    (h : (k, v) ∈ m) : find k m = some v := by
  induction m with
  | nil => simp at h
  | cons e m ih =>
    obtain ⟨k', v'⟩ := e
    obtain ⟨hnot, hm⟩ := List.nodup_cons.mp hm
    rw [find_cons]
    rcases List.mem_cons.mp h with heq | hmem
    · simp_all
    · have hne : k ≠ k' := fun hk => hnot (List.mem_map.mpr ⟨(k, v), hmem, hk⟩)
      rw [if_neg hne, ih hm hmem]

lemma find_eq_some {k : κ} {v : υ} {m : List (κ × υ)} (hm : Sorted m) :
    find k m = some v ↔ (k, v) ∈ m :=
  ⟨mem_of_find, find_of_mem hm.nodup⟩

lemma mem_insert {k : κ} {v : υ} {m : List (κ × υ)} {e : κ × υ} (h : e ∈ insert k v m) :
    e = (k, v) ∨ e ∈ m := by
  induction m with
  | nil => exact .inl (by simpa [insert] using h)
  | cons e' m ih =>
    simp only [insert] at h
    split_ifs at h with hlt heq
    · exact List.mem_cons.mp h
    · rcases List.mem_cons.mp h with h | h
      · exact .inl h
      · exact .inr (List.mem_cons_of_mem _ h)
    · rcases List.mem_cons.mp h with h | h
      · exact .inr (by simp [h])
      · exact (ih h).imp_right (List.mem_cons_of_mem _)

lemma Sorted.insert {m : List (κ × υ)} (hm : Sorted m) (k : κ) (v : υ) :
    Sorted (insert k v m) := by
  induction m with
  | nil => exact List.pairwise_singleton _ _
  | cons e m ih =>
    obtain ⟨k', v'⟩ := e
    obtain ⟨hlt, hm'⟩ := sorted_cons.mp hm
    simp only [AssocList.insert]
    split_ifs with hk heq
    · exact sorted_cons.mpr ⟨List.forall_mem_cons.mpr ⟨hk, fun e he => hk.trans (hlt e he)⟩, hm⟩
    · exact sorted_cons.mpr ⟨heq ▸ hlt, hm'⟩
    · refine sorted_cons.mpr ⟨fun e he => ?_, ih hm'⟩
      rcases mem_insert he with rfl | he
      · exact lt_of_le_of_ne (not_lt.mp hk) (Ne.symm heq)
      · exact hlt e he

lemma find_insert (k k' : κ) (v : υ) (m : List (κ × υ)) :
    find k (insert k' v m) = if k = k' then some v else find k m := by
  induction m with
  | nil => rfl
  | cons e m ih =>
    obtain ⟨k'', v''⟩ := e
    simp only [insert]
    by_cases hlt : k' < k''
    · rw [if_pos hlt, find_cons]
    · rw [if_neg hlt]
      by_cases heq : k' = k''
      · rw [if_pos heq, find_cons, find_cons, ← heq]
        by_cases hk : k = k'
        · rw [if_pos hk, if_pos hk]
        · simp only [if_neg hk]
      · rw [if_neg heq, find_cons, find_cons, ih]
        by_cases hk : k = k''
        · rw [if_pos hk, if_pos hk, if_neg (hk ▸ Ne.symm heq)]
        · simp only [if_neg hk]

lemma Sorted.overlay {m : List (κ × υ)} (hm : Sorted m) (own : List (κ × υ)) :
    Sorted (overlay m own) := by
  induction own generalizing m with
  | nil => exact hm
  | cons e own ih => exact ih (hm.insert e.1 e.2)

/-- A key of `own` has its value there, any other the value it had. -/
lemma find_overlay (k : κ) (m : List (κ × υ)) {own : List (κ × υ)}
    (hown : (own.map Prod.fst).Nodup) : find k (overlay m own) = (find k own).or (find k m) := by
  induction own generalizing m with
  | nil => rfl
  | cons e own ih =>
    obtain ⟨k', v⟩ := e
    obtain ⟨hnot, hown⟩ := List.nodup_cons.mp hown
    simp only [overlay, List.foldl_cons] at ih ⊢
    rw [ih _ hown, find_insert, find_cons]
    split_ifs with hk
    · rw [find_eq_none fun e he h => hnot (List.mem_map.mpr ⟨e, he, h.symm.trans hk⟩)]
      rfl
    · rfl

/-- Two ordered lists that agree on every key are equal. -/
lemma Sorted.ext {m m' : List (κ × υ)} (hm : Sorted m) (hm' : Sorted m')
    (h : ∀ k, find k m = find k m') : m = m' := by
  have hmem : ∀ e, e ∈ m ↔ e ∈ m' := fun (k, v) => by
    rw [← find_eq_some hm, h, find_eq_some hm']
  have : Std.Irrefl fun e e' : κ × υ => e.1 < e'.1 := ⟨fun e => lt_irrefl e.1⟩
  have : Std.Antisymm fun e e' : κ × υ => e.1 < e'.1 :=
    ⟨fun _ _ h h' => absurd h' (lt_asymm h)⟩
  exact (List.pairwise_map.mp hm).eq_of_mem_iff (List.pairwise_map.mp hm') hmem

/-- The pairs of an ordered list, inserted in any order, make it up again. -/
lemma overlay_of_perm {m own : List (κ × υ)} (hm : Sorted m) (h : own.Perm m) :
    overlay [] own = m := by
  have hown : (own.map Prod.fst).Nodup := (h.map Prod.fst).nodup_iff.mpr hm.nodup
  refine (sorted_nil.overlay own).ext hm fun k => ?_
  rw [find_overlay k [] hown, find_nil, Option.or_none]
  ext v
  rw [find_eq_some hm, ← h.mem_iff]
  exact ⟨mem_of_find, find_of_mem hown⟩

lemma overlay_nil {own : List (κ × υ)} (hown : Sorted own) : overlay [] own = own :=
  overlay_of_perm hown (List.Perm.refl own)

/-- The pairs whose value `f` takes, with what it yields. -/
def mapValues {τ : Type*} (f : υ → Option τ) (m : List (κ × υ)) : List (κ × τ) :=
  m.filterMap fun e => (f e.2).map fun v => (e.1, v)

omit [LinearOrder κ] in
lemma mem_mapValues {τ : Type*} {f : υ → Option τ} {m : List (κ × υ)} {k : κ} {v : τ} :
    (k, v) ∈ mapValues f m ↔ ∃ u, (k, u) ∈ m ∧ f u = some v := by
  simp only [mapValues, List.mem_filterMap, Option.map_eq_some_iff, Prod.mk.injEq, Prod.exists]
  constructor
  · rintro ⟨k', u, hmem, v', hv, rfl, rfl⟩
    exact ⟨u, hmem, hv⟩
  · rintro ⟨u, hmem, hv⟩
    exact ⟨k, u, hmem, v, hv, rfl, rfl⟩

lemma Sorted.mapValues {τ : Type*} {m : List (κ × υ)} (hm : Sorted m) (f : υ → Option τ) :
    Sorted (mapValues f m) := by
  induction m with
  | nil => exact sorted_nil
  | cons e m ih =>
    obtain ⟨k, u⟩ := e
    obtain ⟨hlt, hm⟩ := sorted_cons.mp hm
    cases hu : f u with
    | none => simpa [AssocList.mapValues, hu] using ih hm
    | some v =>
      have hcons : AssocList.mapValues f ((k, u) :: m) = (k, v) :: AssocList.mapValues f m := by
        simp [AssocList.mapValues, hu]
      rw [hcons]
      refine sorted_cons.mpr ⟨fun (k', v') he => ?_, ih hm⟩
      obtain ⟨u', hmem, -⟩ := mem_mapValues.mp he
      exact hlt _ hmem

end AssocList

/-- A map with ordered keys. -/
structure SortedMap (κ : Type*) (υ : Type*) [LT κ] where
  keys : List κ
  sorted : keys.Pairwise (· < ·)
  value : Fin keys.length → υ

namespace SortedMap

/-- The pairs in increasing key order. -/
def entries (m : SortedMap κ υ) : List (κ × υ) := List.ofFn fun i => (m.keys[i], m.value i)

/-- The value of a key. -/
def get? (m : SortedMap κ υ) (k : κ) : Option υ := AssocList.find k m.entries

lemma entries_keys (m : SortedMap κ υ) : m.entries.map Prod.fst = m.keys := by
  rw [entries, List.map_ofFn]
  exact List.ofFn_getElem

lemma sorted_entries (m : SortedMap κ υ) : AssocList.Sorted m.entries := by
  rw [AssocList.Sorted, entries_keys]
  exact m.sorted

lemma mem_entries {m : SortedMap κ υ} {k : κ} {v : υ} :
    (k, v) ∈ m.entries ↔ m.get? k = some v :=
  (AssocList.find_eq_some m.sorted_entries).symm

/-- The map without keys. -/
def empty : SortedMap κ υ := ⟨[], List.Pairwise.nil, Fin.elim0⟩

/-- The map of pairs whose keys are in order. -/
def ofList (l : List (κ × υ)) (h : (l.map Prod.fst).Pairwise (· < ·)) : SortedMap κ υ where
  keys := l.map Prod.fst
  sorted := h
  value i := (l.get (i.cast (List.length_map _))).2

@[simp] lemma get?_empty (k : κ) : (empty : SortedMap κ υ).get? k = none := rfl

end SortedMap
