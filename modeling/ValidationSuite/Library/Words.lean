import Mathlib.Data.List.Infix
import Mathlib.Data.List.TakeWhile

/-!
# Lines and words

Texts as a stream reads them, line by line or word by word. The words of a text are the longest
parts of it without a separator.
-/

namespace Words

variable {α : Type*}

/-- The lines of a text, each ended by `sep` or by the end of the text. -/
def lines [BEq α] (sep : α) : List α → List (List α)
  | [] => []
  | c :: s =>
    if c == sep then [] :: lines sep s
    else match lines sep s with
      | [] => [[c]]
      | l :: ls => (c :: l) :: ls

/-- The words of a text, with any number of separators around them. -/
def words (sep : α → Bool) (s : List α) : List (List α) :=
  (s.splitOnP sep).filter fun w => !w.isEmpty

/-- `w` stands in `s` between separators, or between one and an end. -/
structure Stands (sep : α → Bool) (w s : List α) : Prop where
  free : ∀ c ∈ w, sep c = false
  around : ∃ before after, s = before ++ w ++ after ∧
    (∀ c ∈ before.getLast?, sep c = true) ∧ ∀ c ∈ after.head?, sep c = true

section Lines

variable [BEq α] [LawfulBEq α] {sep : α}

lemma lines_append_cons {l : List α} (hl : sep ∉ l) (s : List α) :
    lines sep (l ++ sep :: s) = l :: lines sep s := by
  induction l with
  | nil => rw [List.nil_append, lines, if_pos (beq_self_eq_true sep)]
  | cons c l ih =>
    have hc : ¬(c == sep) = true := by
      rw [beq_iff_eq]
      rintro rfl
      exact hl List.mem_cons_self
    rw [List.cons_append, lines, if_neg hc, ih fun h => hl (List.mem_cons_of_mem _ h)]

lemma notMem_of_mem_lines {l s : List α} (h : l ∈ lines sep s) : sep ∉ l := by
  induction s generalizing l with
  | nil => cases h
  | cons c s ih =>
    rw [lines] at h
    split_ifs at h with hc
    · rcases List.mem_cons.mp h with rfl | h
      · exact List.not_mem_nil
      · exact ih h
    · have hne : sep ≠ c := by
        rintro rfl
        exact hc (beq_self_eq_true sep)
      cases hs : lines sep s with
      | nil =>
        rw [hs] at h
        obtain rfl := List.mem_singleton.mp h
        rwa [List.mem_singleton]
      | cons l' ls =>
        rw [hs] at h ih
        rcases List.mem_cons.mp h with rfl | h
        · rw [List.mem_cons, not_or]
          exact ⟨hne, ih List.mem_cons_self⟩
        · exact ih (List.mem_cons_of_mem _ h)

/-- The lines at the start of a text. -/
lemma lines_flatMap {ls : List (List α)} (hls : ∀ l ∈ ls, sep ∉ l) (s : List α) :
    lines sep ((ls.flatMap fun l => l ++ [sep]) ++ s) = ls ++ lines sep s := by
  induction ls with
  | nil => rfl
  | cons l ls ih =>
    obtain ⟨hl, hls⟩ := List.forall_mem_cons.mp hls
    rw [List.flatMap_cons, List.append_assoc, List.append_assoc, List.singleton_append,
      lines_append_cons hl, ih hls, List.cons_append]

end Lines

section Words

variable {sep : α → Bool} {w s : List α}

lemma Stands.cons_sep (h : Stands sep w s) {c : α} (hc : sep c = true) (t : List α) :
    Stands sep w (t ++ c :: s) := by
  obtain ⟨hfree, before, after, rfl, hbefore, hafter⟩ := h
  refine ⟨hfree, t ++ c :: before, after, by simp, ?_, hafter⟩
  intro d hd
  rw [List.getLast?_append, List.getLast?_cons] at hd
  cases hlast : before.getLast? with
  | none =>
    rw [hlast] at hd
    obtain rfl : c = d := by simpa using hd
    exact hc
  | some e =>
    rw [hlast] at hd
    obtain rfl : e = d := by simpa using hd
    exact hbefore e hlast

lemma stands_of_mem_splitOnP (h : w ∈ s.splitOnP sep) : Stands sep w s := by
  induction hn : s.length using Nat.strong_induction_on generalizing s with
  | _ n ih =>
    subst hn
    have hsplit : s.takeWhile (fun c => !sep c) ++ s.dropWhile (fun c => !sep c) = s :=
      List.takeWhile_append_dropWhile
    have hfree : ∀ c ∈ s.takeWhile (fun c => !sep c), sep c = false := fun c hc => by
      simpa using List.mem_takeWhile_imp hc
    cases hrest : s.dropWhile (fun c => !sep c) with
    | nil =>
      rw [hrest, List.append_nil] at hsplit
      rw [hsplit] at hfree
      rw [List.splitOnP_eq_singleton hfree, List.mem_singleton] at h
      subst h
      exact ⟨hfree, [], [], by simp, nofun, nofun⟩
    | cons c rest =>
      have hc : sep c = true := by
        have hhead := List.head?_dropWhile_not (fun c => !sep c) s
        rw [hrest] at hhead
        simpa using hhead
      rw [hrest] at hsplit
      rw [← hsplit, List.splitOnP_append_cons_of_forall_mem hfree c hc, List.mem_cons] at h
      rcases h with rfl | h
      · exact ⟨hfree, [], c :: rest, hsplit.symm, nofun, fun d hd => Option.some.inj hd ▸ hc⟩
      · rw [← hsplit]
        refine (ih rest.length ?_ h rfl).cons_sep hc _
        rw [← hsplit, List.length_append, List.length_cons]
        omega

lemma Stands.mem_splitOnP (h : Stands sep w s) : w ∈ s.splitOnP sep := by
  obtain ⟨hfree, before, after, rfl, hbefore, hafter⟩ := h
  have hright : w ∈ (w ++ after).splitOnP sep := by
    cases after with
    | nil =>
      rw [List.append_nil, List.splitOnP_eq_singleton hfree]
      exact List.mem_singleton_self w
    | cons c after =>
      rw [List.splitOnP_append_cons_of_forall_mem hfree c (hafter c rfl)]
      exact List.mem_cons_self
  rw [List.append_assoc]
  cases hlast : before.getLast? with
  | none =>
    rw [List.getLast?_eq_none_iff.mp hlast]
    exact hright
  | some c =>
    obtain ⟨front, rfl⟩ := List.getLast?_eq_some_iff.mp hlast
    rw [List.append_assoc, List.singleton_append,
      List.splitOnP_append_cons front _ (hbefore c hlast)]
    exact List.mem_append_right _ hright

/-- The words of a text are what stands in it and is not empty. -/
theorem mem_words : w ∈ words sep s ↔ w ≠ [] ∧ Stands sep w s := by
  have hsplit : w ∈ s.splitOnP sep ↔ Stands sep w s :=
    ⟨stands_of_mem_splitOnP, Stands.mem_splitOnP⟩
  rw [words, List.mem_filter, hsplit, and_comm]
  simp

/-- What is a word by itself. -/
def Word (sep : α → Bool) (w : List α) : Prop := w ≠ [] ∧ ∀ c ∈ w, sep c = false

instance [DecidableEq α] (sep : α → Bool) (w : List α) : Decidable (Word sep w) :=
  inferInstanceAs (Decidable (_ ∧ _))

lemma words_nil (sep : α → Bool) : words sep [] = [] := rfl

lemma words_cons {c : α} (hc : sep c = true) (s : List α) : words sep (c :: s) = words sep s := by
  rw [words, List.splitOnP_cons_eq_if_modifyHead, if_pos hc]
  exact List.filter_cons_of_neg (p := fun w : List α => !w.isEmpty) (by simp)

lemma Word.words_eq (hw : Word sep w) : words sep w = [w] := by
  have hkept : (!w.isEmpty) = true := by simpa using hw.1
  rw [words, List.splitOnP_eq_singleton hw.2]
  exact List.filter_cons_of_pos (p := fun w : List α => !w.isEmpty) hkept

lemma Word.words_append_cons (hw : Word sep w) {c : α} (hc : sep c = true) (s : List α) :
    words sep (w ++ c :: s) = w :: words sep s := by
  have hkept : (!w.isEmpty) = true := by simpa using hw.1
  rw [words, List.splitOnP_append_cons_of_forall_mem hw.2 c hc]
  exact List.filter_cons_of_pos (p := fun w : List α => !w.isEmpty) hkept

/-- Words that are written with a separator between them, and another behind the last or none. -/
lemma words_intercalate {c d : α} (hc : sep c = true) (hd : sep d = true) {ws : List (List α)}
    (hws : ∀ w ∈ ws, Word sep w) : words sep ([c].intercalate ws) = ws ∧
      words sep ([c].intercalate ws ++ [d]) = ws := by
  induction ws with
  | nil =>
    exact ⟨words_nil sep, words_cons hd []⟩
  | cons w ws ih =>
    obtain ⟨hw, hws⟩ := List.forall_mem_cons.mp hws
    cases ws with
    | nil =>
      rw [List.intercalate_singleton]
      exact ⟨hw.words_eq, hw.words_append_cons hd []⟩
    | cons w' ws =>
      obtain ⟨hplain, hended⟩ := ih hws
      rw [List.intercalate_cons_cons, List.append_assoc, List.append_assoc, List.append_assoc,
        List.singleton_append, List.singleton_append]
      exact ⟨(hw.words_append_cons hc _).trans (congrArg _ hplain),
        (hw.words_append_cons hc _).trans (congrArg _ hended)⟩

lemma notMem_intercalate {c d : α} (hcd : d ≠ c) {ws : List (List α)} (hws : ∀ w ∈ ws, d ∉ w) :
    d ∉ [c].intercalate ws := by
  induction ws with
  | nil => exact List.not_mem_nil
  | cons w ws ih =>
    obtain ⟨hw, hws⟩ := List.forall_mem_cons.mp hws
    cases ws with
    | nil => rwa [List.intercalate_singleton]
    | cons w' ws =>
      rw [List.intercalate_cons_cons, List.append_assoc, List.mem_append, not_or, List.mem_append,
        not_or, List.mem_singleton]
      exact ⟨hw, hcd, ih hws⟩

end Words

end Words
