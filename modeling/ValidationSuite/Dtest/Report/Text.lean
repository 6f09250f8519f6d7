import ValidationSuite.Dtest.Report.Junit
import ValidationSuite.Library.Decimal
import ValidationSuite.Library.Entries

/-!
# The text report

What a reader of the lines of `render_text` finds in it: the verdict of each task, with the end of
its output. The output of a command is behind a mark, so it cannot be taken for a verdict.
-/

namespace Dtest.TextReport

open ByteString Junit

def newline : UInt8 := '\n'.toNat.toUInt8

/-- What is in front of a line of output. -/
def bar : ByteString := lit "        | "

/-- The tags, and what they say: the status of a task, and whether it is flaky. -/
def tags : List (ByteString × FinalStatus × Bool) :=
  [(lit "PASS", .passed, false), (lit "FLAKY", .passed, true), (lit "FAIL", .failed, false),
    (lit "TIMEOUT", .timedOut, false), (lit "SKIPPED", .unschedulable, false)]

/-- The verdict in an entry such as `[PASS] build on a (1.0s)`, and the lines of output under it. -/
def verdict? (e : Entries.Entry UInt8) : Option ((FinalStatus × Bool) × List ByteString) :=
  match e.head with
  | [] => none
  | c :: line =>
    if c = '['.toNat.toUInt8 then
      (tags.lookup (line.takeWhile (· != ']'.toNat.toUInt8))).map (·, e.body)
    else none

/-- The output that the report shows of a task. -/
def shown (o : TaskOutcome) : List ByteString :=
  match o.attempts.getLast? with
  | none => []
  | some last =>
    if o.status = .passed ∨ o.status = .unschedulable then []
    else
      getLines (tail (if last.result.err.isEmpty then last.result.out else last.result.err) 5 800)
        []

/-- The names and messages of a task stay on one line. Its output may be anything. -/
structure OneLine (o : TaskOutcome) : Prop where
  name : newline ∉ o.task.name
  message : newline ∉ o.message
  agents : ∀ a ∈ o.attempts, newline ∉ a.agent
  messages : ∀ a ∈ o.attempts, newline ∉ a.result.message

/-! ### Lines -/

/-- The lines are those of the library, with what is in front of the first one. -/
lemma getLines_eq (s cur : ByteString) : getLines s cur = match Words.lines newline s with
    | [] => if cur.isEmpty then [] else [cur]
    | l :: ls => (cur ++ l) :: ls := by
  induction s generalizing cur with
  | nil => rfl
  | cons c s ih =>
    rw [getLines, Words.lines]
    by_cases hc : c = '\n'.toNat.toUInt8
    · have hnewline : (c == newline) = true := beq_iff_eq.mpr hc
      rw [if_pos hc, if_pos hnewline, ih]
      dsimp only
      rw [List.append_nil]
      cases Words.lines newline s with
      | nil => rfl
      | cons l ls => rfl
    · have hnewline : ¬(c == newline) = true := mt beq_iff_eq.mp hc
      rw [if_neg hc, if_neg hnewline, ih]
      cases Words.lines newline s with
      | nil => simp
      | cons l ls => simp

lemma newline_notMem_of_mem_getLines {s l : ByteString} (h : l ∈ getLines s []) : newline ∉ l := by
  refine Words.notMem_of_mem_lines (s := s) ?_
  rw [getLines_eq] at h
  cases hs : Words.lines newline s with
  | nil =>
    rw [hs] at h
    cases h
  | cons l' ls =>
    rw [hs] at h
    exact h

lemma newline_notMem_of_isNumeral {s : ByteString} (h : IsNumeral s) : newline ∉ s := fun hmem =>
  absurd (h _ hmem) (by decide)

lemma newline_notMem_ofInt (n : ℤ) : newline ∉ ofInt n := by
  have hnat : newline ∉ ofNat n.natAbs := newline_notMem_of_isNumeral (isNumeral_ofNat _)
  have hminus : newline ∉ lit "-" := by decide
  rw [ofInt]
  split_ifs
  · rw [List.mem_append, not_or]
    exact ⟨hminus, hnat⟩
  · exact hnat

lemma OneLine.describe {o : TaskOutcome} (h : OneLine o) : newline ∉ describeLastAttempt o := by
  rw [describeLastAttempt]
  cases hlast : o.attempts.getLast? with
  | none => exact h.message
  | some last =>
    have hmessage := h.messages last (List.mem_of_getLast? hlast)
    have hlit : newline ∉ lit "passed" ∧ newline ∉ lit "exit code " ∧ newline ∉ lit "failed" ∧
        newline ∉ lit "timed out" ∧ newline ∉ lit "agent error" ∧ newline ∉ lit " (" ∧
        newline ∉ lit ")" := by decide
    dsimp only
    rw [List.mem_append, not_or]
    constructor
    · cases last.result.status with
      | passed => exact hlit.1
      | failed =>
        dsimp only
        split_ifs
        · rw [List.mem_append, not_or]
          exact ⟨hlit.2.1, newline_notMem_ofInt _⟩
        · exact hlit.2.2.1
      | timedOut => exact hlit.2.2.2.1
      | agentError => exact hlit.2.2.2.2.1
    · split_ifs
      · exact List.not_mem_nil
      · simp only [List.mem_append, not_or]
        exact ⟨⟨hlit.2.2.2.2.2.1, hmessage⟩, hlit.2.2.2.2.2.2⟩

/-! ### Entries -/

/-- A line that begins with the tag of a task gives its verdict. -/
lemma verdict?_tag (o : TaskOutcome) (rest : ByteString) (body : List ByteString) :
    verdict? ⟨lit "[" ++ outcomeTag o ++ lit "] " ++ rest, body⟩ =
      some ((o.status, o.flaky), body) := by
  rw [outcomeTag]
  cases hstatus : o.status with
  | passed =>
    cases o.flaky with
    | false => rfl
    | true => rfl
  | failed =>
    rw [TaskOutcome.flaky, hstatus]
    rfl
  | timedOut =>
    rw [TaskOutcome.flaky, hstatus]
    rfl
  | unschedulable =>
    rw [TaskOutcome.flaky, hstatus]
    rfl

/-- An entry that begins with the tag of a task. -/
lemma proper_tag (o : TaskOutcome) {rest : ByteString} {body : List ByteString}
    (hrest : newline ∉ rest) (hbody : ∀ l ∈ body, newline ∉ l) :
    (⟨lit "[" ++ outcomeTag o ++ lit "] " ++ rest, body⟩ : Entries.Entry UInt8).Proper
      bar newline where
  head := by
    have htag : newline ∉ lit "[" ++ outcomeTag o ++ lit "] " := by
      rw [outcomeTag]
      generalize o.flaky = flaky
      revert flaky
      cases o.status <;> decide
    rw [List.mem_append, not_or]
    exact ⟨htag, hrest⟩
  body := hbody
  apart := rfl

lemma shown_of_quiet {o : TaskOutcome} (h : o.status = .passed ∨ o.status = .unschedulable) :
    shown o = [] := by
  rw [shown]
  cases o.attempts.getLast? with
  | none => rfl
  | some last => exact if_pos h

lemma shown_of_getLast? {o : TaskOutcome} {last : AttemptRecord}
    (hlast : o.attempts.getLast? = some last)
    (h : ¬(o.status = .passed ∨ o.status = .unschedulable)) : shown o = getLines
      (tail (if last.result.err.isEmpty then last.result.out else last.result.err) 5 800) [] := by
  rw [shown, hlast]
  exact if_neg h

lemma newline_notMem_of_mem_shown {o : TaskOutcome} {l : ByteString} (hl : l ∈ shown o) :
    newline ∉ l := by
  by_cases hquiet : o.status = .passed ∨ o.status = .unschedulable
  · rw [shown_of_quiet hquiet] at hl
    cases hl
  · cases hlast : o.attempts.getLast? with
    | none =>
      rw [shown, hlast] at hl
      cases hl
    | some last =>
      rw [shown_of_getLast? hlast hquiet] at hl
      exact newline_notMem_of_mem_getLines hl

variable {fixed : ℕ → ℚ → ByteString} (hfixed : ∀ decimals x, IsNumeral (fixed decimals x))

include hfixed in
/-- What the report says about a task is an entry with its verdict. -/
lemma exists_entry {o : TaskOutcome} (h : OneLine o) {part : ByteString}
    (hpart : renderTextOutcome fixed o = some part) :
    ∃ e : Entries.Entry UInt8, e.Proper bar newline ∧ part = Entries.write bar newline [e] ∧
      verdict? e = some ((o.status, o.flaky), shown o) := by
  have hnewline : lit "\n" = [newline] := rfl
  obtain ⟨hdash, hon, hopen, hsecs, hcomma, htries, hclose⟩ : newline ∉ lit " - " ∧
      newline ∉ lit " on " ∧ newline ∉ lit " (" ∧ newline ∉ lit "s" ∧ newline ∉ lit ", " ∧
      newline ∉ lit " attempts" ∧ newline ∉ lit ")" := by decide
  rw [renderTextOutcome] at hpart
  by_cases hunsched : o.status = .unschedulable
  · rw [if_pos hunsched] at hpart
    obtain rfl := Option.some.inj hpart
    refine ⟨⟨lit "[" ++ outcomeTag o ++ lit "] " ++ (o.task.name ++ lit " - " ++ o.message), []⟩,
      proper_tag o ?_ (List.forall_mem_nil _), ?_, ?_⟩
    · simp only [List.mem_append, not_or]
      exact ⟨⟨h.name, hdash⟩, h.message⟩
    · rw [Entries.write_singleton, List.flatMap_nil, hnewline]
      simp only [List.append_assoc, List.append_nil]
    · rw [verdict?_tag, shown_of_quiet (.inr hunsched)]
  · rw [if_neg hunsched] at hpart
    obtain ⟨last, hlast, hpart⟩ := Option.bind_eq_some_iff.mp hpart
    obtain rfl := Option.some.inj hpart
    have hagent : newline ∉ lastAgent o := by
      rw [lastAgent, hlast]
      exact h.agents last (List.mem_of_getLast? hlast)
    have hattempts : newline ∉ if o.attempts.length > 1 then
        lit ", " ++ ofNat o.attempts.length ++ lit " attempts" else [] := by
      split_ifs
      · simp only [List.mem_append, not_or]
        exact ⟨⟨hcomma, newline_notMem_of_isNumeral (isNumeral_ofNat _)⟩, htries⟩
      · exact List.not_mem_nil
    have hdescribed : newline ∉ if o.status ≠ .passed then
        lit " - " ++ describeLastAttempt o else [] := by
      split_ifs
      · rw [List.mem_append, not_or]
        exact ⟨hdash, h.describe⟩
      · exact List.not_mem_nil
    refine ⟨⟨lit "[" ++ outcomeTag o ++ lit "] " ++ (o.task.name ++ lit " on " ++ lastAgent o ++
        lit " (" ++ fixed 1 last.result.seconds ++ lit "s" ++
        (if o.attempts.length > 1 then lit ", " ++ ofNat o.attempts.length ++ lit " attempts"
          else []) ++ lit ")" ++
        (if o.status ≠ .passed then lit " - " ++ describeLastAttempt o else [])), shown o⟩,
      proper_tag o ?_ fun l hl => newline_notMem_of_mem_shown hl, ?_, verdict?_tag _ _ _⟩
    · have hseconds := newline_notMem_of_isNumeral (hfixed 1 last.result.seconds)
      rw [List.mem_append, not_or, List.mem_append, not_or, List.mem_append, not_or]
      refine ⟨⟨⟨?_, hattempts⟩, hclose⟩, hdescribed⟩
      simp only [List.mem_append, not_or]
      exact ⟨⟨⟨⟨⟨h.name, hon⟩, hagent⟩, hopen⟩, hseconds⟩, hsecs⟩
    · have hbody : (if o.status ≠ .passed then
          (getLines (tail (if last.result.err.isEmpty then last.result.out else last.result.err) 5
            800) []).flatMap fun l => lit "        | " ++ l ++ lit "\n" else []) =
          (shown o).flatMap fun l => bar ++ l ++ [newline] := by
        by_cases hpassed : o.status = .passed
        · rw [if_neg (not_not.mpr hpassed), shown_of_quiet (.inl hpassed)]
          rfl
        · rw [if_pos hpassed, shown_of_getLast? hlast (not_or.mpr ⟨hpassed, hunsched⟩)]
          rfl
      rw [Entries.write_singleton, hbody, hnewline]
      simp only [List.append_assoc]

include hfixed in
lemma exists_entries {os : List TaskOutcome} (h : ∀ o ∈ os, OneLine o) {parts : List ByteString}
    (hparts : os.mapM (renderTextOutcome fixed) = some parts) :
    ∃ es : List (Entries.Entry UInt8), es.length = os.length ∧ (∀ e ∈ es, e.Proper bar newline) ∧
      parts.flatten = Entries.write bar newline es ∧
      es.filterMap verdict? = os.map fun o => ((o.status, o.flaky), shown o) := by
  induction os generalizing parts with
  | nil =>
    obtain rfl := Option.some.inj hparts
    exact ⟨[], rfl, nofun, rfl, rfl⟩
  | cons o os ih =>
    obtain ⟨ho, hos⟩ := List.forall_mem_cons.mp h
    rw [List.mapM_cons] at hparts
    obtain ⟨part, hpart, hparts⟩ := Option.bind_eq_some_iff.mp hparts
    obtain ⟨rest, hrest, hparts⟩ := Option.bind_eq_some_iff.mp hparts
    obtain rfl := Option.some.inj hparts
    obtain ⟨e, he, rfl, hverdict⟩ := exists_entry hfixed ho hpart
    obtain ⟨es, hlength, hes, hflatten, hverdicts⟩ := ih hos hrest
    refine ⟨e :: es, congrArg (· + 1) hlength, List.forall_mem_cons.mpr ⟨he, hes⟩, ?_, ?_⟩
    · rw [List.flatten_cons, hflatten, ← Entries.write_append, List.singleton_append]
    · rw [List.filterMap_cons_some hverdict, hverdicts, List.map_cons]

/-- The line that counts the tasks. -/
def total (fixed : ℕ → ℚ → ByteString) (s : RunSummary) : ByteString :=
  ofNat s.outcomes.length ++ lit " tasks: " ++ ofNat (s.count .passed) ++ lit " passed" ++
    (if s.flakyCount ≠ 0 then lit " (" ++ ofNat s.flakyCount ++ lit " flaky)" else []) ++
    lit ", " ++ ofNat (s.count .failed) ++ lit " failed, " ++ ofNat (s.count .timedOut) ++
    lit " timed out, " ++ ofNat (s.count .unschedulable) ++ lit " unschedulable in " ++
    fixed 1 s.wallSeconds ++ lit "s"

/-- The entries behind those of the tasks. -/
def closing (fixed : ℕ → ℚ → ByteString) (s : RunSummary) : List (Entries.Entry UInt8) :=
  [{ head := [] }, { head := total fixed s }] ++
    if s.deadAgents.isEmpty then []
    else [{ head := lit "agents retired after infrastructure errors:" ++
      s.deadAgents.flatMap fun a => lit " " ++ a }]

include hfixed in
lemma newline_notMem_total (s : RunSummary) : newline ∉ total fixed s := by
  obtain ⟨htasks, hpassed, hopen, hflaky, hcomma, hfailed, htimed, hunsched, hsecs⟩ :
      newline ∉ lit " tasks: " ∧ newline ∉ lit " passed" ∧ newline ∉ lit " (" ∧
      newline ∉ lit " flaky)" ∧ newline ∉ lit ", " ∧ newline ∉ lit " failed, " ∧
      newline ∉ lit " timed out, " ∧ newline ∉ lit " unschedulable in " ∧ newline ∉ lit "s" := by
    decide
  have hnat (n : ℕ) : newline ∉ ofNat n := newline_notMem_of_isNumeral (isNumeral_ofNat n)
  have hseconds := newline_notMem_of_isNumeral (hfixed 1 s.wallSeconds)
  have hcount : newline ∉ if s.flakyCount ≠ 0 then
      lit " (" ++ ofNat s.flakyCount ++ lit " flaky)" else [] := by
    split_ifs
    · simp only [List.mem_append, not_or]
      exact ⟨⟨hopen, hnat _⟩, hflaky⟩
    · exact List.not_mem_nil
  simp only [total, List.mem_append, hnat, htasks, hpassed, hcount, hcomma, hfailed, htimed,
    hunsched, hseconds, hsecs, or_self, not_false_eq_true]

variable (fixed) in
/-- The totals begin with a digit. -/
lemma exists_total (s : RunSummary) :
    ∃ c cs, total fixed s = c :: cs ∧ isDigit c = true := by
  obtain ⟨c, cs, hcs⟩ := List.exists_cons_of_ne_nil (ofNat_ne_nil s.outcomes.length)
  have hdigit : isDigit c = true := isDigit_of_mem_ofNat (hcs ▸ List.mem_cons_self)
  simp only [total, hcs, List.cons_append]
  exact ⟨c, _, rfl, hdigit⟩

include hfixed in
lemma proper_closing {s : RunSummary} (hdead : ∀ a ∈ s.deadAgents, newline ∉ a) :
    ∀ e ∈ closing fixed s, e.Proper bar newline := by
  have htotal : ({ head := total fixed s } : Entries.Entry UInt8).Proper bar newline := by
    refine ⟨newline_notMem_total hfixed s, nofun, ?_⟩
    obtain ⟨c, cs, hcs, hdigit⟩ := exists_total fixed s
    have hblank : (' '.toNat.toUInt8 == c) = false := by
      rw [beq_eq_false_iff_ne]
      rintro rfl
      exact absurd hdigit (by decide)
    rw [hcs]
    exact congrArg (· && _) hblank
  intro e he
  rw [closing] at he
  rcases List.mem_append.mp he with he | he
  · rcases List.mem_pair.mp he with rfl | rfl
    · exact ⟨List.not_mem_nil, nofun, rfl⟩
    · exact htotal
  · split_ifs at he
    · cases he
    · obtain rfl := List.mem_singleton.mp he
      have hretired : newline ∉ lit "agents retired after infrastructure errors:" := by decide
      refine ⟨?_, nofun, rfl⟩
      rw [List.mem_append, not_or]
      refine ⟨hretired, fun hmem => ?_⟩
      obtain ⟨a, ha, hmem⟩ := List.mem_flatMap.mp hmem
      rcases List.mem_append.mp hmem with hmem | hmem
      · exact absurd hmem (by decide)
      · exact hdead a ha hmem

lemma filterMap_closing (s : RunSummary) : (closing fixed s).filterMap verdict? = [] := by
  obtain ⟨c, cs, hcs, hdigit⟩ := exists_total fixed s
  have htotal : verdict? { head := total fixed s } = none := by
    have hbracket : c ≠ '['.toNat.toUInt8 := by
      rintro rfl
      exact absurd hdigit (by decide)
    rw [verdict?, hcs]
    exact if_neg hbracket
  have hblank : verdict? { head := [] } = none := rfl
  rw [closing]
  split_ifs
  · rw [List.append_nil, List.filterMap_cons_none hblank, List.filterMap_cons_none htotal,
      List.filterMap_nil]
  · rw [List.cons_append, List.cons_append, List.nil_append, List.filterMap_cons_none hblank,
      List.filterMap_cons_none htotal]
    rfl

/-- A reader of the report finds the verdict of every task in it, in their order, and under each
the end of the output that it shows, whatever the commands have printed. What follows are the
totals. -/
theorem text_report_unforgeable {fixed : ℕ → ℚ → ByteString}
    (hfixed : ∀ decimals x, IsNumeral (fixed decimals x)) {s : RunSummary}
    (h : ∀ o ∈ s.outcomes, OneLine o) (hdead : ∀ a ∈ s.deadAgents, newline ∉ a)
    {text : ByteString} (htext : renderText fixed s = some text) :
    (Entries.read bar newline text).filterMap verdict? =
        s.outcomes.map (fun o => ((o.status, o.flaky), shown o)) ∧
      ∃ es, Entries.read bar newline text = es ++ closing fixed s ∧
        es.length = s.outcomes.length := by
  obtain ⟨parts, hparts, htext⟩ := Option.bind_eq_some_iff.mp htext
  obtain ⟨es, hlength, hes, hflatten, hverdicts⟩ := exists_entries hfixed h hparts
  have hproper : ∀ e ∈ es ++ closing fixed s, e.Proper bar newline := by
    intro e he
    rcases List.mem_append.mp he with he | he
    · exact hes e he
    · exact proper_closing hfixed hdead e he
  have hclosing : Entries.write bar newline (closing fixed s) =
      lit "\n" ++ total fixed s ++ lit "\n" ++ if s.deadAgents.isEmpty then [] else
        lit "agents retired after infrastructure errors:" ++
          (s.deadAgents.flatMap fun a => lit " " ++ a) ++ lit "\n" := by
    have hnewline : lit "\n" = [newline] := rfl
    rw [closing]
    split_ifs
    · simp [Entries.write, Entries.Entry.lines, hnewline]
    · simp [Entries.write, Entries.Entry.lines, hnewline]
  have hwritten : text = Entries.write bar newline (es ++ closing fixed s) := by
    rw [Entries.write_append, ← hflatten, hclosing, ← Option.some.inj htext]
    simp only [total, List.append_assoc]
    rfl
  have hread : Entries.read bar newline text = es ++ closing fixed s := by
    rw [hwritten, Entries.read_write hproper (by decide)]
  refine ⟨?_, es, hread, hlength⟩
  rw [hread, List.filterMap_append, hverdicts, filterMap_closing, List.append_nil]

/-- A task that prints what looks like the verdict of another one. -/
def forger : RunSummary where
  outcomes :=
    [{ task := { name := lit "unit", argv := [lit "./unit"] }
       status := .failed
       attempts :=
         [{ agent := lit "a"
            result := { status := .failed, exitCode := 1,
                        out := lit "boom\n[PASS] unit on a (0.1s)\n" } }] }]
  deadAgents := []

theorem text_report_unforgeable_forger :
    ∃ text, renderText fixedDecimal forger = some text ∧
      (Entries.read bar newline text).filterMap verdict? =
        [((.failed, false), [lit "boom", lit "[PASS] unit on a (0.1s)"])] := by
  have hsome : (renderText fixedDecimal forger).isSome = true := rfl
  obtain ⟨text, htext⟩ := Option.isSome_iff_exists.mp hsome
  have hplain : ∀ o ∈ forger.outcomes, OneLine o := by
    intro o ho
    obtain rfl := List.mem_singleton.mp ho
    refine ⟨by decide, by decide, ?_, ?_⟩
    · intro a ha
      obtain rfl := List.mem_singleton.mp ha
      decide
    · intro a ha
      obtain rfl := List.mem_singleton.mp ha
      decide
  exact ⟨text, htext, (text_report_unforgeable isNumeral_fixedDecimal hplain nofun htext).1⟩

end Dtest.TextReport
