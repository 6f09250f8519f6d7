import Mathlib.Data.List.Infix

/-!
# Lines

The last lines of a text, for any separator. They are the longest end of the text that has fewer
separators than lines are asked for.
-/

namespace Lines

variable {α : Type*} [BEq α]

/-- The last `n` lines of a text. -/
def last (sep : α) (n : ℕ) (t : List α) : List α :=
  [sep].intercalate ((t.splitOn sep).drop ((t.splitOn sep).length - n))

variable {sep : α} {n : ℕ} {t u : List α}

/-- There is one line more than there are separators. -/
lemma length_splitOn (sep : α) (t : List α) : (t.splitOn sep).length = t.count sep + 1 := by
  induction t with
  | nil => simp
  | cons c t ih =>
    rw [List.splitOn_cons_eq_if_modifyHead, List.count_cons]
    split_ifs
    · rw [List.length_cons, ih]
    · rw [List.length_modifyHead, ih, Nat.add_zero]

/-- A text with more lines than are asked for may begin one element later. -/
lemma last_cons (c : α) (h : n ≤ (c :: t).count sep) :
    last sep n (c :: t) = last sep n t := by
  have hlength := length_splitOn sep t
  rw [List.count_cons] at h
  unfold last
  rw [List.splitOn_cons_eq_if_modifyHead]
  split_ifs with hc
  · rw [if_pos hc] at h
    rw [List.length_cons, Nat.succ_sub (by omega), List.drop_succ_cons]
  · rw [if_neg hc] at h
    rw [List.length_modifyHead]
    obtain ⟨k, hk⟩ : ∃ k, (t.splitOn sep).length - n = k + 1 :=
      ⟨(t.splitOn sep).length - n - 1, by omega⟩
    obtain ⟨l, ls, hl⟩ := List.exists_cons_of_ne_nil (List.splitOn_ne_nil sep t)
    rw [hk, hl, List.modifyHead_cons, List.drop_succ_cons, List.drop_succ_cons]

variable [LawfulBEq α]

lemma last_of_count_lt (h : t.count sep < n) : last sep n t = t := by
  have hall : (t.splitOn sep).length - n = 0 := by
    rw [length_splitOn]
    omega
  rw [last, hall, List.drop_zero, List.intercalate_splitOn]

lemma last_suffix (hn : 0 < n) (t : List α) : last sep n t <:+ t := by
  induction t with
  | nil =>
    rw [last_of_count_lt (by simpa using hn)]
  | cons c t ih =>
    by_cases h : (c :: t).count sep < n
    · rw [last_of_count_lt h]
    · rw [last_cons c (Nat.not_lt.mp h)]
      exact ih.trans (List.suffix_cons c t)

lemma count_last_lt (hn : 0 < n) (t : List α) : (last sep n t).count sep < n := by
  induction t with
  | nil =>
    rw [last_of_count_lt (by simpa using hn)]
    simpa using hn
  | cons c t ih =>
    by_cases h : (c :: t).count sep < n
    · rwa [last_of_count_lt h]
    · rwa [last_cons c (Nat.not_lt.mp h)]

/-- No longer end of the text has as few separators. -/
lemma suffix_last (hu : u <:+ t) (hcount : u.count sep < n) : u <:+ last sep n t := by
  induction t with
  | nil =>
    rw [List.suffix_nil.mp hu]
    exact List.nil_suffix
  | cons c t ih =>
    by_cases h : (c :: t).count sep < n
    · rwa [last_of_count_lt h]
    · rw [last_cons c (Nat.not_lt.mp h)]
      rcases List.suffix_cons_iff.mp hu with rfl | hu
      · exact absurd hcount h
      · exact ih hu

/-- The only end of the text with few enough separators that is as long as any other. -/
lemma eq_last (hn : 0 < n) (hu : u <:+ t) (hcount : u.count sep < n)
    (hmax : ∀ v, v <:+ t → v.count sep < n → v.length ≤ u.length) : u = last sep n t :=
  (suffix_last hu hcount).eq_of_length_le
    (hmax _ (last_suffix hn t) (count_last_lt hn t))

end Lines
