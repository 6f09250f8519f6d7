import Mathlib.Data.List.DropRight
import ValidationSuite.Dtest.Report.Encoding
import ValidationSuite.Library.Lines

/-!
# The end of the output

What `tail` keeps of an output: the longest end that is within both limits. The scan of the source
goes backwards over the bytes; what it arrives at are the last lines of `Library.Lines`.
-/

namespace Dtest

open ByteString Junit

/-- A byte that `tail` takes off the end first. -/
def IsBreak (c : UInt8) : Prop := c = '\n'.toNat.toUInt8 ∨ c = '\r'.toNat.toUInt8

/-- `t` is `s` without its trailing newlines and carriage returns. -/
structure Stripped (s t : ByteString) : Prop where
  run : ∃ run, s = t ++ run ∧ ∀ c ∈ run, IsBreak c
  last : ∀ c ∈ t.getLast?, ¬ IsBreak c

/-- The end of a stripped text is stripped. -/
lemma Stripped.of_suffix {s t u : ByteString} (h : Stripped s t) (hu : u <:+ t) : Stripped u u where
  run := ⟨[], (List.append_nil u).symm, List.forall_mem_nil _⟩
  last := by
    intro c hc
    obtain ⟨front, rfl⟩ := hu
    apply h.last c
    rw [List.getLast?_append_of_ne_nil]
    · exact hc
    · rintro rfl
      cases hc

/-- The loop of `tail` over the end of the string. -/
lemma stripped_iff {s t : ByteString} : Stripped s t ↔ dropTrailingNewlines s = t := by
  set isBreak : UInt8 → Bool :=
    fun c => c == '\n'.toNat.toUInt8 || c == '\r'.toNat.toUInt8 with hisBreak
  have hbreak : ∀ c, isBreak c = true ↔ IsBreak c := by
    intro c
    simp [hisBreak, IsBreak]
  change Stripped s t ↔ s.rdropWhile isBreak = t
  constructor
  · rintro ⟨⟨run, rfl, hrun⟩, hlast⟩
    have hkept : t.rdropWhile isBreak = t := by
      refine List.rdropWhile_eq_self_iff.mpr fun hne hc => ?_
      exact hlast _ (List.getLast?_eq_some_getLast hne) ((hbreak _).mp hc)
    rw [List.rdropWhile, List.reverse_append, List.dropWhile_append_of_pos]
    · exact hkept
    · intro c hc
      exact (hbreak c).mpr (hrun c (List.mem_reverse.mp hc))
  · rintro rfl
    refine ⟨⟨s.rtakeWhile isBreak, List.rdropWhile_append_rtakeWhile.symm, ?_⟩, ?_⟩
    · intro c hc
      exact (hbreak c).mp (List.mem_rtakeWhile_imp hc)
    · intro c hc hmem
      obtain ⟨hne, rfl⟩ := List.mem_getLast?_eq_getLast hc
      exact List.rdropWhile_last_not isBreak s hne ((hbreak _).mpr hmem)

/-! ### The scan -/

variable {t : ByteString} {maxLines : ℕ}

/-- Where the scan ends: few enough newlines follow, and one byte earlier they would be too many. -/
lemma tailStart_spec {pos count : ℕ} (hpos : pos ≤ t.length)
    (hcount : (t.drop pos).count '\n'.toNat.toUInt8 = count) (hlt : count < maxLines) :
    (t.drop (tailStart t maxLines pos count)).count '\n'.toNat.toUInt8 < maxLines ∧
      ∀ start < tailStart t maxLines pos count,
        maxLines ≤ (t.drop start).count '\n'.toNat.toUInt8 := by
  induction pos generalizing count with
  | zero => exact ⟨hcount.trans_lt hlt, fun start h => absurd h (Nat.not_lt_zero start)⟩
  | succ pos ih =>
    have hdrop : t.drop pos = t[pos] :: t.drop (pos + 1) := List.drop_eq_getElem_cons hpos
    rw [tailStart, List.getElem?_eq_getElem hpos]
    split_ifs with hnewline hfull
    · refine ⟨hcount.trans_lt hlt, fun start hstart => ?_⟩
      have hle := (List.drop_suffix_drop_left t (Nat.le_of_lt_succ hstart)).count_le
        '\n'.toNat.toUInt8
      rw [hdrop, Option.some.inj hnewline, List.count_cons_self, hcount] at hle
      omega
    · refine ih (Nat.le_of_succ_le hpos) ?_ (Nat.not_le.mp hfull)
      rw [hdrop, Option.some.inj hnewline, List.count_cons_self, hcount]
    · refine ih (Nat.le_of_succ_le hpos) ?_ hlt
      rw [hdrop, List.count_cons_of_ne fun h => hnewline (congrArg some h), hcount]

/-- The scan arrives at the last lines. -/
lemma drop_tailStart (t : ByteString) (hlines : 0 < maxLines) :
    t.drop (tailStart t maxLines t.length 0) = Lines.last '\n'.toNat.toUInt8 maxLines t := by
  have hend : (t.drop t.length).count '\n'.toNat.toUInt8 = 0 := by
    rw [List.drop_length, List.count_nil]
  obtain ⟨hfew, hmany⟩ := tailStart_spec le_rfl hend hlines
  refine Lines.eq_last hlines (List.drop_suffix _ t) hfew fun u hu hcount => ?_
  by_contra hlonger
  have hlength := hu.length_le
  rw [List.length_drop] at hlonger
  rw [List.suffix_iff_eq_drop.mp hu] at hcount
  have hmore := hmany (t.length - u.length) (by omega)
  omega

lemma Stripped.lastLines_eq {s : ByteString} (h : Stripped s t) (hlines : 0 < maxLines) :
    lastLines s maxLines = Lines.last '\n'.toNat.toUInt8 maxLines t := by
  rw [← drop_tailStart t hlines, ← stripped_iff.mp h]
  rfl

/-- `tail` takes the last lines, and of these the last bytes. -/
lemma Stripped.tail_eq {s : ByteString} (h : Stripped s t) (hlines : 0 < maxLines)
    (maxBytes : ℕ) : tail s maxLines maxBytes =
      let l := Lines.last '\n'.toNat.toUInt8 maxLines t
      l.drop (l.length - maxBytes) := by
  rw [Junit.tail_eq, h.lastLines_eq hlines]

/-- A stripped text within both limits is kept. -/
lemma tail_of_fits (h : Stripped t t) (hcount : t.count '\n'.toNat.toUInt8 < maxLines)
    {maxBytes : ℕ} (hbytes : t.length ≤ maxBytes) : tail t maxLines maxBytes = t := by
  rw [h.tail_eq (Nat.zero_lt_of_lt hcount), Lines.last_of_count_lt hcount]
  change t.drop (t.length - maxBytes) = t
  rw [Nat.sub_eq_zero_of_le hbytes, List.drop_zero]

/-- `tail` keeps the longest end of a stripped text that is within both limits, and keeps it again.
It is the whole text if that fits, and exactly the last lines if they do. -/
theorem tail_longest {s t : ByteString} (h : Stripped s t) {maxLines : ℕ} (hlines : 1 ≤ maxLines)
    (maxBytes : ℕ) :
    let kept := tail s maxLines maxBytes
    let lines := Lines.last '\n'.toNat.toUInt8 maxLines t
    (kept <:+ t ∧ kept.length ≤ maxBytes ∧ kept.count '\n'.toNat.toUInt8 < maxLines ∧
      kept.length ≤ lines.length) ∧
    (∀ u, u <:+ t → u.length ≤ maxBytes → u.count '\n'.toNat.toUInt8 < maxLines →
      u.length ≤ lines.length → u.length ≤ kept.length) ∧
    ((t.splitOn '\n'.toNat.toUInt8).length ≤ maxLines → t.length ≤ maxBytes → kept = t) ∧
    (lines.length ≤ maxBytes → kept = lines) ∧
    tail kept maxLines maxBytes = kept := by
  intro kept lines
  have hkept : kept = lines.drop (lines.length - maxBytes) := h.tail_eq hlines maxBytes
  have hsuffix : kept <:+ lines := hkept ▸ List.drop_suffix _ lines
  have hsuffix' : kept <:+ t := hsuffix.trans (Lines.last_suffix hlines t)
  have hlength : kept.length = min lines.length maxBytes := by
    rw [hkept, List.length_drop]
    omega
  have hbytes : kept.length ≤ maxBytes := hlength ▸ Nat.min_le_right ..
  have hcount : kept.count '\n'.toNat.toUInt8 < maxLines :=
    (hsuffix.count_le _).trans_lt (Lines.count_last_lt hlines t)
  have hfit : lines.length ≤ maxBytes → kept = lines := fun hle =>
    hsuffix.eq_of_length (hlength.trans (Nat.min_eq_left hle))
  refine ⟨⟨hsuffix', hbytes, hcount, hsuffix.length_le⟩, ?_, ?_, hfit, ?_⟩
  · intro u _ hu _ hlines
    exact hlength ▸ Nat.le_min.mpr ⟨hlines, hu⟩
  · intro hshort hle
    rw [Lines.length_splitOn] at hshort
    have hall : lines = t := Lines.last_of_count_lt hshort
    rw [hfit (hall ▸ hle), hall]
  · exact tail_of_fits (h.of_suffix hsuffix') hcount hbytes

/-- The cut falls on a newline. -/
theorem tail_longest_three :
    let s := lit "a\nbb\n\ncc\n\r\n"
    let t := lit "a\nbb\n\ncc"
    let kept := tail s 3 4
    let lines := Lines.last '\n'.toNat.toUInt8 3 t
    (kept <:+ t ∧ kept.length ≤ 4 ∧ kept.count '\n'.toNat.toUInt8 < 3 ∧
      kept.length ≤ lines.length) ∧
    (∀ u, u <:+ t → u.length ≤ 4 → u.count '\n'.toNat.toUInt8 < 3 →
      u.length ≤ lines.length → u.length ≤ kept.length) ∧
    ((t.splitOn '\n'.toNat.toUInt8).length ≤ 3 → t.length ≤ 4 → kept = t) ∧
    (lines.length ≤ 4 → kept = lines) ∧
    tail kept 3 4 = kept :=
  tail_longest (stripped_iff.mpr (by decide)) (by decide) 4

end Dtest
