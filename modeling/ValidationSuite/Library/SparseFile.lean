import Mathlib.Data.List.Basic
import Mathlib.Tactic.SplitIfs

/-!
# Sparse files

A file as the list of its elements. A write beyond the end fills the gap with a blank element `z`.
A file of at most `n` elements is also what a buffer of `n` elements shows that is blank from its
end on, and then writing to the file is copying into the buffer.
-/

namespace SparseFile

variable {α : Type*} {z : α} {p n : ℕ} {d l : List α}

/-- The `n` elements from `p` on, or as many of them as there are. -/
def slice (p n : ℕ) (l : List α) : List α := (l.drop p).take n

/-- The file `l` after writing `d` at `p`. -/
def write (z : α) (p : ℕ) (d l : List α) : List α :=
  (l ++ List.replicate (p - l.length) z).take p ++ d ++ l.drop (p + d.length)

/-- The buffer `l` after copying `d` over its elements from `p` on. -/
def splice (p : ℕ) (d l : List α) : List α := l.take p ++ d ++ l.drop (p + d.length)

/-- The buffer of `n` elements that shows the file `l`. -/
def padded (z : α) (n : ℕ) (l : List α) : List α := l ++ List.replicate (n - l.length) z

lemma length_slice : (slice p n l).length = min n (l.length - p) := by
  simp [slice]

lemma slice_of_le (h : l.length ≤ p) : slice p n l = [] := by
  simp [slice, List.drop_eq_nil_of_le h]

/-- Asking for more than there is makes no difference. -/
lemma slice_min : slice p (min n (l.length - p)) l = slice p n l := by
  rw [slice, slice, ← List.length_drop, ← List.take_take, List.take_length]

lemma length_write : (write z p d l).length = max l.length (p + d.length) := by
  simp only [write, List.length_append, List.length_take, List.length_replicate, List.length_drop]
  omega

lemma length_padded (h : l.length ≤ n) : (padded z n l).length = n := by
  simp only [padded, List.length_append, List.length_replicate]
  omega

lemma padded_nil : padded z n [] = List.replicate n z := by
  simp [padded]

/-- A buffer is blank behind the file it shows. -/
lemma getElem?_padded {i : ℕ} (hi : l.length ≤ i) (hn : i < n) : (padded z n l)[i]? = some z := by
  rw [padded, List.getElem?_append_right hi, List.getElem?_replicate, if_pos (by omega)]

/-- Within the file, the buffer and the file have the same slices. -/
lemma slice_padded {m : ℕ} (h : p + m ≤ l.length) : slice p m (padded z n l) = slice p m l := by
  rw [slice, slice, padded, List.drop_append_of_le_length (by omega),
    List.take_append_of_le_length (by rw [List.length_drop]; omega)]

/-- Copying into the buffer is writing to the file it shows. -/
theorem splice_padded (hl : l.length ≤ n) (hd : p + d.length ≤ n) :
    splice p d (padded z n l) = padded z n (write z p d l) := by
  have htake : (padded z n l).take p = (l ++ List.replicate (p - l.length) z).take p := by
    rw [padded, List.take_append, List.take_append, List.take_replicate, List.take_replicate]
    congr 2
    omega
  have hdrop : (padded z n l).drop (p + d.length) =
      l.drop (p + d.length) ++ List.replicate (n - max l.length (p + d.length)) z := by
    rw [padded, List.drop_append, List.drop_replicate]
    congr 2
    omega
  rw [splice, htake, hdrop, padded, length_write, write]
  simp only [List.append_assoc]

/-- Writing at the end is appending. -/
lemma write_at_end : write z l.length d l = l ++ d := by
  rw [write, Nat.sub_self, List.replicate_zero, List.append_nil, List.take_length,
    List.drop_eq_nil_of_le (Nat.le_add_right _ _), List.append_nil]

/-- What is read piece by piece is what is read at once. -/
lemma slice_append {m : ℕ} : slice p m l ++ slice (p + m) n l = slice p (m + n) l := by
  rw [slice, slice, slice, ← List.drop_drop, List.take_add]

/-- What has been read of a file is still there after it has grown. -/
lemma slice_of_isPrefix {l' : List α} (h : l <+: l') :
    slice p (slice p n l).length l' = slice p n l := by
  obtain ⟨t, rfl⟩ := h
  rcases Nat.lt_or_ge l.length p with hlt | hge
  · rw [slice_of_le (Nat.le_of_lt hlt)]
    exact List.take_zero
  · have hfits : (slice p n l).length ≤ (l.drop p).length := by
      rw [slice]
      exact List.length_take_le' _ _
    rw [slice, List.drop_append_of_le_length hge, List.take_append_of_le_length hfits, slice,
      List.length_take, ← List.take_take, List.take_length]

/-! ### Patches -/

lemma length_splice (h : p + d.length ≤ l.length) : (splice p d l).length = l.length := by
  simp only [splice, List.length_append, List.length_take, List.length_drop]
  omega

lemma getElem?_splice (h : p + d.length ≤ l.length) (i : ℕ) :
    (splice p d l)[i]? = if p ≤ i ∧ i < p + d.length then d[i - p]? else l[i]? := by
  have hp : (l.take p).length = p := List.length_take_of_le (by omega)
  rw [splice, List.append_assoc]
  rcases Nat.lt_or_ge i p with hlt | hge
  · rw [if_neg (by omega), List.getElem?_append_left (by omega), List.getElem?_take_of_lt hlt]
  · rw [List.getElem?_append_right (by omega), hp]
    rcases Nat.lt_or_ge i (p + d.length) with hlt | hend
    · rw [if_pos ⟨hge, hlt⟩, List.getElem?_append_left (by omega)]
    · rw [if_neg (by omega), List.getElem?_append_right (by omega), List.getElem?_drop]
      congr 1
      omega

/-- Elements to be copied into a buffer of `n` elements. -/
@[ext]
structure Patch (α : Type*) (n : ℕ) where
  offset : ℕ
  data : List α
  fits : offset + data.length ≤ n

namespace Patch

variable {w w' : Patch α n} {ws ws' : List (Patch α n)} {i : ℕ}

def stop (w : Patch α n) : ℕ := w.offset + w.data.length

def Covers (w : Patch α n) (i : ℕ) : Prop := w.offset ≤ i ∧ i < w.stop

/-- No element is covered by both. -/
def Apart (w w' : Patch α n) : Prop := ∀ i, ¬ (w.Covers i ∧ w'.Covers i)

lemma Apart.symm (h : w.Apart w') : w'.Apart w := fun i hi => h i hi.symm

instance (w : Patch α n) (i : ℕ) : Decidable (w.Covers i) := inferInstanceAs (Decidable (_ ∧ _))

def apply (w : Patch α n) (l : List α) : List α := splice w.offset w.data l

/-- The buffer after the patches, in their order. -/
def applyAll (ws : List (Patch α n)) (l : List α) : List α := ws.foldl (fun l w => w.apply l) l

lemma length_apply (hl : l.length = n) : (w.apply l).length = n :=
  (length_splice (hl ▸ w.fits)).trans hl

lemma getElem?_apply (hl : l.length = n) (i : ℕ) :
    (w.apply l)[i]? = if w.Covers i then w.data[i - w.offset]? else l[i]? :=
  getElem?_splice (hl ▸ w.fits) i

/-- What no patch covers stays. -/
lemma getElem?_applyAll_of_not_covers (hl : l.length = n) (hi : ∀ w ∈ ws, ¬ w.Covers i) :
    (applyAll ws l)[i]? = l[i]? := by
  induction ws generalizing l with
  | nil => rfl
  | cons w ws ih =>
    have ih := ih (length_apply (w := w) hl) fun v hv => hi v (.tail w hv)
    exact ih.trans ((getElem?_apply hl i).trans (if_neg (hi w (.head ws))))

/-- What a patch covers comes from it, if they are apart. -/
lemma getElem?_applyAll_of_covers (hl : l.length = n) (hapart : ws.Pairwise Apart) (hw : w ∈ ws)
    (hi : w.Covers i) : (applyAll ws l)[i]? = w.data[i - w.offset]? := by
  induction ws generalizing l with
  | nil => cases hw
  | cons v ws ih =>
    obtain ⟨hv, hws⟩ := List.pairwise_cons.mp hapart
    rcases List.mem_cons.mp hw with rfl | hw
    · have hothers : ∀ u ∈ ws, ¬ u.Covers i := fun u hu hcovers => hv u hu i ⟨hi, hcovers⟩
      exact (getElem?_applyAll_of_not_covers (length_apply hl) hothers).trans
        ((getElem?_apply hl i).trans (if_pos hi))
    · exact ih (length_apply hl) hws hw

/-- Patches that are apart may be applied in any order. -/
theorem applyAll_perm (hl : l.length = n) (hapart : ws.Pairwise Apart) (hperm : ws'.Perm ws) :
    applyAll ws' l = applyAll ws l := by
  have hapart' : ws'.Pairwise Apart :=
    (hperm.pairwise_iff fun h => Apart.symm h).mpr hapart
  refine List.ext_getElem? fun i => ?_
  by_cases hi : ∃ w ∈ ws, w.Covers i
  · obtain ⟨w, hw, hcovers⟩ := hi
    rw [getElem?_applyAll_of_covers hl hapart hw hcovers,
      getElem?_applyAll_of_covers hl hapart' (hperm.mem_iff.mpr hw) hcovers]
  · have hnone : ∀ w ∈ ws, ¬ w.Covers i := fun w hw hcovers => hi ⟨w, hw, hcovers⟩
    rw [getElem?_applyAll_of_not_covers hl hnone,
      getElem?_applyAll_of_not_covers hl fun w hw => hnone w (hperm.mem_iff.mp hw)]

/-- A patch is read back from a buffer that has its elements. -/
lemma slice_eq_data (h : ∀ i, w.Covers i → l[i]? = w.data[i - w.offset]?) :
    slice w.offset w.data.length l = w.data := by
  refine List.ext_getElem? fun i => ?_
  rw [slice, List.getElem?_take]
  split_ifs with hi
  · rw [List.getElem?_drop, h _ ⟨Nat.le_add_right _ _, Nat.add_lt_add_left hi _⟩,
      Nat.add_sub_cancel_left]
  · exact (List.getElem?_eq_none (Nat.le_of_not_lt hi)).symm

end Patch

end SparseFile
