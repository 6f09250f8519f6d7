import ValidationSuite.Library.Words

/-!
# Entries

Reports line by line: entries of a line each, with further lines under it that a mark at their start
sets apart. Whatever these lines have in them, the entries are read back as they were written.
-/

namespace Entries

open Words

variable {α : Type*} [DecidableEq α]

/-- A line, and the lines under it. -/
structure Entry (α : Type*) where
  head : List α
  body : List (List α) := []

/-- The lines of an entry, those of its body behind the mark. -/
def Entry.lines (mark : List α) (e : Entry α) : List (List α) :=
  e.head :: e.body.map fun l => mark ++ l

/-- The entries as a text. -/
def write (mark : List α) (newline : α) (es : List (Entry α)) : List α :=
  (es.flatMap (Entry.lines mark)).flatMap fun l => l ++ [newline]

/-- The lines of a body, up to the next entry. -/
def body (mark : List α) (ls : List (List α)) : List (List α) :=
  (ls.takeWhile fun l => mark.isPrefixOf l).map fun l => l.drop mark.length

/-- The entries that lines make up. -/
def readLines (mark : List α) : List (List α) → List (Entry α)
  | [] => []
  | l :: ls =>
    if mark.isPrefixOf l then readLines mark ls
    else { head := l, body := body mark ls } :: readLines mark ls

def read (mark : List α) (newline : α) (s : List α) : List (Entry α) :=
  readLines mark (lines newline s)

/-- The lines of an entry are lines, and its head does not look like part of a body. -/
structure Entry.Proper (mark : List α) (newline : α) (e : Entry α) : Prop where
  head : newline ∉ e.head
  body : ∀ l ∈ e.body, newline ∉ l
  apart : mark.isPrefixOf e.head = false

variable {mark : List α} {newline : α} {e : Entry α} {es : List (Entry α)}

lemma isPrefixOf_mark (mark l : List α) : mark.isPrefixOf (mark ++ l) = true :=
  List.isPrefixOf_iff_prefix.mpr (List.prefix_append mark l)

/-- The lines of a body are passed over. -/
lemma readLines_body (b rest : List (List α)) :
    readLines mark (b.map (fun l => mark ++ l) ++ rest) = readLines mark rest := by
  induction b with
  | nil => rfl
  | cons l b ih =>
    rw [List.map_cons, List.cons_append, readLines, if_pos (isPrefixOf_mark mark l), ih]

/-- A body ends where an entry begins. -/
lemma body_append (b : List (List α)) {rest : List (List α)}
    (hrest : ∀ l ∈ rest.head?, mark.isPrefixOf l = false) :
    body mark (b.map (fun l => mark ++ l) ++ rest) = b := by
  induction b with
  | nil =>
    cases rest with
    | nil => rfl
    | cons l rest =>
      rw [List.map_nil, List.nil_append, body, List.takeWhile_cons_of_neg, List.map_nil]
      rw [hrest l rfl]
      exact Bool.false_ne_true
  | cons l b ih =>
    rw [body] at ih ⊢
    rw [List.map_cons, List.cons_append, List.takeWhile_cons_of_pos (isPrefixOf_mark mark l),
      List.map_cons, List.drop_left, ih]

lemma readLines_flatMap (h : ∀ e ∈ es, e.Proper mark newline) :
    readLines mark (es.flatMap (Entry.lines mark)) = es := by
  induction es with
  | nil => rfl
  | cons e es ih =>
    obtain ⟨he, hes⟩ := List.forall_mem_cons.mp h
    have hnext : ∀ l ∈ (es.flatMap (Entry.lines mark)).head?, mark.isPrefixOf l = false := by
      cases es with
      | nil => exact nofun
      | cons e' es =>
        rintro _ ⟨⟩
        exact (hes e' List.mem_cons_self).apart
    have hapart : ¬mark.isPrefixOf e.head = true := by
      rw [he.apart]
      exact Bool.false_ne_true
    rw [List.flatMap_cons, Entry.lines, List.cons_append, readLines, if_neg hapart,
      body_append _ hnext, readLines_body, ih hes]

/-- What is written is read. -/
theorem read_write (h : ∀ e ∈ es, e.Proper mark newline) (hmark : newline ∉ mark) :
    read mark newline (write mark newline es) = es := by
  have hlines : ∀ l ∈ es.flatMap (Entry.lines mark), newline ∉ l := by
    intro l hl
    obtain ⟨e, he, hl⟩ := List.mem_flatMap.mp hl
    rcases List.mem_cons.mp hl with rfl | hl
    · exact (h e he).head
    · obtain ⟨b, hb, rfl⟩ := List.mem_map.mp hl
      rw [List.mem_append, not_or]
      exact ⟨hmark, (h e he).body b hb⟩
  have hread := lines_flatMap hlines []
  rw [List.append_nil] at hread
  rw [read, write, hread, lines, List.append_nil, readLines_flatMap h]

omit [DecidableEq α] in
lemma write_singleton (e : Entry α) : write mark newline [e] =
    e.head ++ [newline] ++ e.body.flatMap fun l => mark ++ l ++ [newline] := by
  rw [write, List.flatMap_singleton, Entry.lines, List.flatMap_cons, List.flatMap_map]

omit [DecidableEq α] in
lemma write_append (es es' : List (Entry α)) :
    write mark newline (es ++ es') = write mark newline es ++ write mark newline es' := by
  rw [write, List.flatMap_append, List.flatMap_append]
  rfl

omit [DecidableEq α] in
lemma write_flatMap {β : Type*} (f : β → Entry α) (bs : List β) :
    write mark newline (bs.map f) = bs.flatMap fun b => write mark newline [f b] := by
  induction bs with
  | nil => rfl
  | cons b bs ih =>
    rw [List.map_cons, List.flatMap_cons, ← ih, ← write_append, List.singleton_append]

end Entries
