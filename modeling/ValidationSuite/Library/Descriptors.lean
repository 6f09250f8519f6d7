import Mathlib.Data.List.Basic
import Mathlib.Data.Option.Basic
import Mathlib.Data.Set.Basic
import Mathlib.Tactic.SplitIfs

/-!
# Descriptor tables

The table that maps the descriptors of a process, small numbers, to what they refer to, and what the
system calls do to it: a new descriptor gets the lowest free number, `dup2` copies an entry without
its close-on-exec flag, and `exec` closes the entries that have it.
-/

namespace Descriptors

variable {F G : Type*}

/-- An entry: what it refers to, and whether `exec` closes it. -/
structure Entry (F : Type*) where
  file : F
  cloexec : Bool := false
  deriving DecidableEq

/-- A descriptor with its entry. -/
abbrev Handle (F : Type*) := ℕ × Entry F

structure Table (F : Type*) where
  entries : List (Option (Entry F)) := []

namespace Table

def get (t : Table F) (n : ℕ) : Option (Entry F) := t.entries[n]?.join

def set (t : Table F) (n : ℕ) (e : Option (Entry F)) : Table F where
  entries := (t.entries ++ List.replicate (n + 1 - t.entries.length) none).set n e

/-- The open descriptors. -/
def opened (t : Table F) : Set ℕ := {n | (t.get n).isSome}

/-- The lowest free number. -/
def lowest (t : Table F) : ℕ := t.entries.findIdx Option.isNone

def close (t : Table F) (n : ℕ) : Table F := t.set n none

/-- A new descriptor. -/
def add (t : Table F) (e : Entry F) : Table F := t.set t.lowest (some e)

/-- A pipe with the ends `rd` and `wr`. -/
def pipe (t : Table F) (rd wr : F) : Table F := (t.add ⟨rd, false⟩).add ⟨wr, false⟩

/-- `fcntl(n, F_SETFD, FD_CLOEXEC)`. -/
def mark (t : Table F) (n : ℕ) : Table F :=
  t.set n ((t.get n).map fun e => { e with cloexec := true })

def dup2 (t : Table F) (old new : ℕ) : Table F :=
  match t.get old with
  | none => t
  | some e => if old = new then t else t.set new (some { e with cloexec := false })

def exec (t : Table F) : Table F where
  entries := t.entries.map fun e => e.filter fun e => !e.cloexec

def map (f : F → G) (t : Table F) : Table G where
  entries := t.entries.map fun e => e.map fun e => ⟨f e.file, e.cloexec⟩

/-! ### The entries afterwards -/

/-- Free places at the end of the table make no difference. -/
lemma join_getElem?_append_replicate (l : List (Option (Entry F))) (k m : ℕ) :
    (l ++ List.replicate k none)[m]?.join = l[m]?.join := by
  rcases Nat.lt_or_ge m l.length with hlt | hge
  · rw [List.getElem?_append_left hlt]
  · rw [List.getElem?_append_right hge, List.getElem?_eq_none hge, List.getElem?_replicate]
    split_ifs
    · rfl
    · rfl

lemma get_set (t : Table F) (n m : ℕ) (e : Option (Entry F)) :
    (t.set n e).get m = if m = n then e else t.get m := by
  simp only [get, set]
  split_ifs with hmn
  · subst hmn
    rw [List.getElem?_set_self, Option.join_some]
    simp only [List.length_append, List.length_replicate]
    omega
  · rw [List.getElem?_set_ne (Ne.symm hmn), join_getElem?_append_replicate]

@[simp] lemma get_set_self (t : Table F) (n : ℕ) (e : Option (Entry F)) :
    (t.set n e).get n = e := by rw [get_set, if_pos rfl]

lemma get_set_ne (t : Table F) {n m : ℕ} (h : m ≠ n) (e : Option (Entry F)) :
    (t.set n e).get m = t.get m := by rw [get_set, if_neg h]

lemma get_lowest (t : Table F) : t.get t.lowest = none := by
  rw [get, lowest]
  cases hentry : t.entries[t.entries.findIdx Option.isNone]? with
  | none => rfl
  | some e =>
    obtain ⟨hlt, rfl⟩ := List.getElem?_eq_some_iff.mp hentry
    have hnone : t.entries[t.entries.findIdx Option.isNone].isNone = true :=
      List.findIdx_getElem
    rw [Option.isNone_iff_eq_none.mp hnone]
    rfl

lemma get_close_ne (t : Table F) {n m : ℕ} (h : m ≠ n) : (t.close n).get m = t.get m :=
  get_set_ne t h _

@[simp] lemma get_add_lowest (t : Table F) (e : Entry F) : (t.add e).get t.lowest = some e :=
  get_set_self t _ _

/-- A new descriptor hides none that is open. -/
lemma get_add_of_get {t : Table F} {n : ℕ} {d : Entry F} (h : t.get n = some d) (e : Entry F) :
    (t.add e).get n = some d := by
  rw [add, get_set_ne, h]
  rintro rfl
  rw [get_lowest] at h
  cases h

lemma lowest_ne_of_get {t : Table F} {n : ℕ} {d : Entry F} (h : t.get n = some d) :
    n ≠ t.lowest := by
  rintro rfl
  rw [get_lowest] at h
  cases h

/-- An entry that is there after a descriptor was added was there before or is the new one. -/
lemma of_get_add {t : Table F} {n : ℕ} {e d : Entry F} (h : (t.add e).get n = some d) :
    n = t.lowest ∧ d = e ∨ t.get n = some d := by
  rw [add, get_set] at h
  split_ifs at h with hn
  · exact .inl ⟨hn, (Option.some.inj h).symm⟩
  · exact .inr h

lemma get_mark (t : Table F) (n m : ℕ) :
    (t.mark n).get m =
      if m = n then (t.get n).map fun e => { e with cloexec := true } else t.get m :=
  get_set t n m _

/-- What is in a table after `dup2` is a copy of what was there before. -/
lemma of_get_dup2 {t : Table F} {old new n : ℕ} {d : Entry F}
    (h : (t.dup2 old new).get n = some d) :
    t.get n = some d ∨ ∃ e, t.get old = some e ∧ d = { e with cloexec := false } := by
  rw [dup2] at h
  cases hold : t.get old with
  | none => rw [hold] at h; exact .inl h
  | some e =>
    rw [hold] at h
    dsimp only at h
    split_ifs at h
    · exact .inl h
    · rw [get_set] at h
      split_ifs at h
      · exact .inr ⟨e, rfl, (Option.some.inj h).symm⟩
      · exact .inl h

lemma of_get_close {t : Table F} {n m : ℕ} {d : Entry F} (h : (t.close n).get m = some d) :
    m ≠ n ∧ t.get m = some d := by
  rw [close, get_set] at h
  split_ifs at h with hm
  exact ⟨hm, h⟩

lemma get_exec (t : Table F) (n : ℕ) : t.exec.get n = (t.get n).filter fun e => !e.cloexec := by
  rw [get, get, exec, List.getElem?_map]
  cases t.entries[n]? with
  | none => rfl
  | some e => rfl

lemma of_get_exec {t : Table F} {n : ℕ} {d : Entry F} (h : t.exec.get n = some d) :
    t.get n = some d ∧ d.cloexec = false := by
  rw [get_exec, Option.filter_eq_some_iff] at h
  exact ⟨h.1, by simpa using h.2⟩

lemma get_map (f : F → G) (t : Table F) (n : ℕ) :
    (t.map f).get n = (t.get n).map fun e => ⟨f e.file, e.cloexec⟩ := by
  rw [get, get, map, List.getElem?_map]
  cases t.entries[n]? with
  | none => rfl
  | some e => rfl

lemma mem_opened_of_get {t : Table F} {n : ℕ} {e : Entry F} (h : t.get n = some e) :
    n ∈ t.opened := Option.isSome_iff_exists.mpr ⟨e, h⟩

lemma exists_of_mem_opened {t : Table F} {n : ℕ} (h : n ∈ t.opened) : ∃ e, t.get n = some e :=
  Option.isSome_iff_exists.mp h

@[simp] lemma opened_map (f : F → G) (t : Table F) : (t.map f).opened = t.opened := by
  ext n
  rw [opened, opened, Set.mem_ofPred_eq, Set.mem_ofPred_eq, get_map, Option.isSome_map]

end Table

end Descriptors
