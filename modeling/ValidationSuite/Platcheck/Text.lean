import ValidationSuite.Library.Entries
import ValidationSuite.Platcheck.Report

/-!
# The text report of platcheck

`render_text` of `platcheck/src/checks.cpp`, and how the results are read back from its lines.
-/

namespace Platcheck

open ByteString Entries Words

def getLines (s : ByteString) : List ByteString := lines '\n'.toNat.toUInt8 s

/-- One result, with what is to be done about it. -/
def renderResult (r : CheckResult) : ByteString :=
  lit "[" ++ r.status.toByteString ++ lit "] " ++ r.title ++ lit ": " ++ r.detail ++ lit "\n" ++
    if !r.remediation.isEmpty && (r.status == .warn || r.status == .fail) then
      lit "       -> " ++ r.remediation ++ lit "\n"
    else []

/-- The counters of `render_text`. -/
def count (s : Status) (results : List CheckResult) : ℕ := results.countP fun r => r.status == s

def renderText (results : List CheckResult) : ByteString :=
  results.flatMap renderResult ++ lit "\nSummary: " ++ ofNat (count .pass results) ++
    lit " passed, " ++ ofNat (count .warn results) ++ lit " warnings, " ++
    ofNat (count .fail results) ++ lit " failed, " ++ ofNat (count .skip results) ++
    lit " skipped\n"

/-! ### Reading it -/

def newline : UInt8 := '\n'.toNat.toUInt8

def arrow : ByteString := lit "       -> "

/-- The status and the text of a line such as `[PASS] Kernel version: 6.8.0`. -/
def headline? : ByteString → Option (Status × ByteString)
  | [] => none
  | c :: line =>
    if c = '['.toNat.toUInt8 then (Status.ofByteString? (line.take 4)).map (·, line.drop 6)
    else none

/-- The result in an entry, if it is one: status, headline and advice. -/
def result? (e : Entry UInt8) : Option (Status × ByteString × ByteString) :=
  (headline? e.head).map fun h => (h.1, h.2, e.body.flatten)

/-- The results in a report. -/
def results? (text : ByteString) : List (Status × ByteString × ByteString) :=
  (read arrow newline text).filterMap result?

def headline (r : CheckResult) : ByteString := r.title ++ lit ": " ++ r.detail

/-- A result as an entry of the report. -/
def entry (r : CheckResult) : Entry UInt8 where
  head := lit "[" ++ r.status.toByteString ++ lit "] " ++ headline r
  body :=
    if !r.remediation.isEmpty && (r.status == .warn || r.status == .fail) then [r.remediation]
    else []

def summary (results : List CheckResult) : ByteString :=
  lit "Summary: " ++ ofNat (count .pass results) ++ lit " passed, " ++
    ofNat (count .warn results) ++ lit " warnings, " ++ ofNat (count .fail results) ++
    lit " failed, " ++ ofNat (count .skip results) ++ lit " skipped"

/-- The entries of a report. -/
def entries (results : List CheckResult) : List (Entry UInt8) :=
  results.map entry ++ [{ head := [] }, { head := summary results }]

/-- The advice that is shown: only a warning or a failure has some. -/
def CheckResult.advice (r : CheckResult) : ByteString :=
  if r.status = .warn ∨ r.status = .fail then r.remediation else []

/-- The texts of a result stay on one line. -/
structure CheckResult.Plain (r : CheckResult) : Prop where
  title : newline ∉ r.title
  detail : newline ∉ r.detail
  remediation : newline ∉ r.remediation

lemma renderResult_eq (r : CheckResult) : renderResult r = write arrow newline [entry r] := by
  have hnewline : lit "\n" = [newline] := rfl
  rw [renderResult, write, List.flatMap_singleton, Entry.lines, entry, headline]
  split_ifs
  · simp [hnewline, arrow]
  · simp [hnewline]

/-- A report is its entries. -/
lemma renderText_eq (results : List CheckResult) :
    renderText results = write arrow newline (entries results) := by
  have hfirst : lit "\nSummary: " = newline :: lit "Summary: " := rfl
  have hlast : lit " skipped\n" = lit " skipped" ++ [newline] := rfl
  have hsummary : write arrow newline [{ head := [] }, { head := summary results }] =
      newline :: summary results ++ [newline] := by
    simp [write, Entry.lines]
  rw [entries, write_append, write_flatMap, hsummary, renderText,
    List.flatMap_congr fun r _ => renderResult_eq r]
  simp [summary, hfirst, hlast]

lemma newline_notMem_ofNat (n : ℕ) : newline ∉ ofNat n := fun h =>
  absurd (isDigit_of_mem_ofNat h) (by decide)

lemma proper_summary (results : List CheckResult) :
    ({ head := summary results } : Entry UInt8).Proper arrow newline := by
  have hlit : newline ∉ lit "Summary: " ∧ newline ∉ lit " passed, " ∧ newline ∉ lit " warnings, " ∧
      newline ∉ lit " failed, " ∧ newline ∉ lit " skipped" := by decide
  refine ⟨?_, nofun, rfl⟩
  simp only [summary, List.mem_append, newline_notMem_ofNat, hlit, or_self, not_false_eq_true]

lemma CheckResult.Plain.proper {r : CheckResult} (h : r.Plain) :
    (entry r).Proper arrow newline where
  head := by
    have hstatus : newline ∉ lit "[" ++ r.status.toByteString ++ lit "] " := by
      cases r.status <;> decide
    have hsep : newline ∉ lit ": " := by decide
    simp only [entry, headline, List.mem_append, not_or] at hstatus ⊢
    exact ⟨hstatus, ⟨h.title, hsep⟩, h.detail⟩
  body := by
    rw [entry]
    split_ifs
    · rw [List.forall_mem_singleton]
      exact h.remediation
    · exact nofun
  apart := rfl

lemma result?_entry (r : CheckResult) :
    result? (entry r) = some (r.status, headline r, r.advice) := by
  have hhead : headline? (entry r).head = some (r.status, headline r) := by
    rw [entry]
    cases h : r.status <;> rfl
  have hbody : (entry r).body.flatten = r.advice := by
    rw [entry, CheckResult.advice]
    by_cases hrem : r.remediation = []
    · rw [hrem, ite_self]
      rfl
    · by_cases hstatus : r.status = .warn ∨ r.status = .fail
      · have hshown :
            (!r.remediation.isEmpty && (r.status == .warn || r.status == .fail)) = true := by
          simpa [hrem] using hstatus
        rw [if_pos hshown, if_pos hstatus, List.flatten_singleton]
      · have hhidden :
            ¬(!r.remediation.isEmpty && (r.status == .warn || r.status == .fail)) = true := by
          simpa [hrem] using hstatus
        rw [if_neg hhidden, if_neg hstatus, List.flatten_nil]
  rw [result?, hhead, hbody]
  rfl

lemma count_add (results : List CheckResult) :
    count .pass results + count .warn results + count .fail results + count .skip results =
      results.length := by
  induction results with
  | nil => rfl
  | cons r rs ih =>
    simp only [count, List.countP_cons, List.length_cons] at ih ⊢
    cases r.status <;> simp <;> omega

/-- The results can be read from the text, with the advice that is shown, and the last line counts
them. -/
theorem text_report_round_trip {results : List CheckResult} (h : ∀ r ∈ results, r.Plain) :
    results? (renderText results) =
        results.map (fun r => (r.status, headline r, r.advice)) ∧
      (read arrow newline (renderText results)).getLast? = some { head := summary results } ∧
      count .pass results + count .warn results + count .fail results + count .skip results =
        results.length := by
  have hproper : ∀ e ∈ entries results, e.Proper arrow newline := by
    intro e he
    rcases List.mem_append.mp he with he | he
    · obtain ⟨r, hr, rfl⟩ := List.mem_map.mp he
      exact (h r hr).proper
    · rcases List.mem_pair.mp he with rfl | rfl
      · exact ⟨List.not_mem_nil, nofun, rfl⟩
      · exact proper_summary results
  have hread : read arrow newline (renderText results) = entries results := by
    rw [renderText_eq, read_write hproper (by decide)]
  have hresults : results.filterMap (result? ∘ entry) =
      results.map fun r => (r.status, headline r, r.advice) := by
    rw [← List.filterMap_eq_map]
    exact List.filterMap_congr fun r _ => result?_entry r
  rw [results?, hread]
  refine ⟨?_, by simp [entries], count_add results⟩
  rw [entries, List.filterMap_append, List.filterMap_map, hresults]
  exact List.append_nil _

/-- A host without `/dev/kvm`, and advice that is not shown. -/
def withoutKvm : List CheckResult :=
  [⟨lit "kernel", lit "Kernel version", .pass, lit "6.8.0: generic", lit "Keep it."⟩,
    ⟨lit "kvm_device", lit "/dev/kvm accessible", .fail, lit "/dev/kvm does not exist",
      lit "Load the kvm module."⟩]

theorem text_report_round_trip_withoutKvm :
    results? (renderText withoutKvm) =
      [(.pass, lit "Kernel version: 6.8.0: generic", []),
        (.fail, lit "/dev/kvm accessible: /dev/kvm does not exist",
          lit "Load the kvm module.")] := by
  refine (text_report_round_trip ?_).1
  intro r hr
  rcases List.mem_pair.mp hr with rfl | rfl
  · exact ⟨by decide, by decide, by decide⟩
  · exact ⟨by decide, by decide, by decide⟩

end Platcheck
