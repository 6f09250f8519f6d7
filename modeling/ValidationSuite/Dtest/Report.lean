import Mathlib.Algebra.Field.Rat
import ValidationSuite.Dtest.Scheduler.Basic
import ValidationSuite.Library.MapM

/-!
# Reports

The text and JUnit reports of a run (`dtest/src/report.cpp`). `attempts.back()` is only defined on
a non-empty vector, so the renderers are partial: they give `none` where the source would call it
on an empty one. How a stream formats a `double` with a fixed number of digits is a parameter.
-/

namespace Dtest

open ByteString

def xmlEscapeByte (c : UInt8) : ByteString :=
  if c = '&'.toNat.toUInt8 then lit "&amp;"
  else if c = '<'.toNat.toUInt8 then lit "&lt;"
  else if c = '>'.toNat.toUInt8 then lit "&gt;"
  else if c = '"'.toNat.toUInt8 then lit "&quot;"
  else if c = '\''.toNat.toUInt8 then lit "&apos;"
  -- XML 1.0 forbids most control characters
  else if c < 0x20 ∧ c ≠ '\n'.toNat.toUInt8 ∧ c ≠ '\t'.toNat.toUInt8 ∧ c ≠ '\r'.toNat.toUInt8 then
    lit "?"
  else [c]

def xmlEscape (s : ByteString) : ByteString := s.flatMap xmlEscapeByte

/-- `s` without its trailing newlines and carriage returns. -/
def dropTrailingNewlines (s : ByteString) : ByteString :=
  (s.reverse.dropWhile fun c => c == '\n'.toNat.toUInt8 || c == '\r'.toNat.toUInt8).reverse

/-- The backwards scan of `tail`: where the last `maxLines` lines of `t` start, looking at the
bytes before `pos` with `count` newlines already behind. -/
def tailStart (t : ByteString) (maxLines : ℕ) : (pos count : ℕ) → ℕ
  | 0, _ => 0
  | pos + 1, count =>
    if t[pos]? = some '\n'.toNat.toUInt8 then
      if count + 1 ≥ maxLines then pos + 1 else tailStart t maxLines pos (count + 1)
    else tailStart t maxLines pos count

/-- Keeps the last `maxLines` lines / `maxBytes` bytes of a stream. -/
def tail (s : ByteString) (maxLines maxBytes : ℕ) : ByteString :=
  let t := dropTrailingNewlines s
  let t := t.drop (tailStart t maxLines t.length 0)
  if t.length > maxBytes then t.drop (t.length - maxBytes) else t

def describeLastAttempt (o : TaskOutcome) : ByteString :=
  match o.attempts.getLast? with
  | none => o.message
  | some last =>
    let r := last.result
    (match r.status with
      | .passed => lit "passed"
      | .failed => if r.exitCode ≥ 0 then lit "exit code " ++ ofInt r.exitCode else lit "failed"
      | .timedOut => lit "timed out"
      | .agentError => lit "agent error") ++
    (if r.message.isEmpty then [] else lit " (" ++ r.message ++ lit ")")

def lastAgent (o : TaskOutcome) : ByteString :=
  match o.attempts.getLast? with
  | none => lit "unscheduled"
  | some last => last.agent

/-- The lines a loop of `std::getline` reads, with the line read so far in front. -/
def getLines : ByteString → ByteString → List ByteString
  | [], cur => if cur.isEmpty then [] else [cur]
  | c :: cs, cur =>
    if c = '\n'.toNat.toUInt8 then cur :: getLines cs [] else getLines cs (cur ++ [c])

variable (fixed : ℕ → ℚ → ByteString)

def outcomeTag (o : TaskOutcome) : ByteString :=
  match o.status with
  | .passed => if o.flaky then lit "FLAKY" else lit "PASS"
  | .timedOut => lit "TIMEOUT"
  | .unschedulable => lit "SKIPPED"
  | .failed => lit "FAIL"

/-- The lines `render_text` writes for one task. -/
def renderTextOutcome (o : TaskOutcome) : Option ByteString :=
  let head := lit "[" ++ outcomeTag o ++ lit "] " ++ o.task.name
  if o.status = .unschedulable then some (head ++ lit " - " ++ o.message ++ lit "\n")
  else do
    let last ← o.attempts.getLast?
    let line := head ++ lit " on " ++ lastAgent o ++ lit " (" ++ fixed 1 last.result.seconds ++
      lit "s" ++
      (if o.attempts.length > 1 then lit ", " ++ ofNat o.attempts.length ++ lit " attempts"
        else []) ++ lit ")" ++
      (if o.status ≠ .passed then lit " - " ++ describeLastAttempt o else []) ++ lit "\n"
    let t := tail (if last.result.err.isEmpty then last.result.out else last.result.err) 5 800
    let shown := (getLines t []).flatMap fun l => lit "        | " ++ l ++ lit "\n"
    pure (line ++ if o.status ≠ .passed then shown else [])

/-- Human-readable per-task lines plus a one-line summary. -/
def renderText (s : RunSummary) : Option ByteString := do
  let parts ← s.outcomes.mapM (renderTextOutcome fixed)
  let flaky :=
    if s.flakyCount ≠ 0 then lit " (" ++ ofNat s.flakyCount ++ lit " flaky)" else []
  let retired :=
    if s.deadAgents.isEmpty then []
    else lit "agents retired after infrastructure errors:" ++
      (s.deadAgents.flatMap fun a => lit " " ++ a) ++ lit "\n"
  pure (parts.flatten ++ lit "\n" ++ ofNat s.outcomes.length ++ lit " tasks: " ++
    ofNat (s.count .passed) ++ lit " passed" ++ flaky ++ lit ", " ++ ofNat (s.count .failed) ++
    lit " failed, " ++ ofNat (s.count .timedOut) ++ lit " timed out, " ++
    ofNat (s.count .unschedulable) ++ lit " unschedulable in " ++ fixed 1 s.wallSeconds ++
    lit "s\n" ++ retired)

/-- The `testcase` element `render_junit` writes for one task. -/
def renderJunitOutcome (o : TaskOutcome) : Option ByteString :=
  let secs := (o.attempts.map (·.result.seconds)).sum
  let head := lit "    <testcase classname=\"" ++ xmlEscape (lastAgent o) ++ lit "\" name=\"" ++
    xmlEscape o.task.name ++ lit "\" time=\"" ++ fixed 3 secs ++ lit "\""
  if o.status = .passed ∧ o.flaky = false then some (head ++ lit "/>\n")
  else do
    let body ←
      if o.status = .unschedulable then
        some (lit "      <skipped message=\"" ++ xmlEscape o.message ++ lit "\"/>\n")
      else if o.status ≠ .passed then do
        let last ← o.attempts.getLast?
        pure (lit "      <failure message=\"" ++ xmlEscape (describeLastAttempt o) ++ lit "\">" ++
          xmlEscape (tail last.result.err 40 4000) ++ lit "</failure>\n")
      else some []
    let flaky :=
      if o.flaky then
        lit "      <system-out>flaky: passed on attempt " ++ ofNat o.attempts.length ++
          lit " of " ++ ofNat o.attempts.length ++ lit " (earlier attempts failed)</system-out>\n"
      else []
    pure (head ++ lit ">\n" ++ body ++ flaky ++ lit "    </testcase>\n")

/-- The counts and the time in the attributes of `testsuites` and `testsuite`. -/
def junitAttributes (suiteName : ByteString) (s : RunSummary) : ByteString :=
  let total := (s.outcomes.map fun o => (o.attempts.map (·.result.seconds)).sum).sum
  lit " name=\"" ++ xmlEscape suiteName ++ lit "\" tests=\"" ++ ofNat s.outcomes.length ++
    lit "\" failures=\"" ++ ofNat (s.count .failed + s.count .timedOut) ++ lit "\" skipped=\"" ++
    ofNat (s.count .unschedulable) ++ lit "\" time=\"" ++ fixed 3 total ++ lit "\">\n"

/-- JUnit XML: one testcase per task; classname is the agent that ran the final attempt. -/
def renderJunit (suiteName : ByteString) (s : RunSummary) : Option ByteString := do
  let parts ← s.outcomes.mapM (renderJunitOutcome fixed)
  pure (lit "<?xml version=\"1.0\" encoding=\"UTF-8\"?>\n" ++
    lit "<testsuites" ++ junitAttributes fixed suiteName s ++
    lit "  <testsuite" ++ junitAttributes fixed suiteName s ++
    parts.flatten ++ lit "  </testsuite>\n</testsuites>\n")

/-! ### The renderers are defined where the attempts are -/

/-- Every task that was not given up has an attempt to show. -/
def RunSummary.HasAttempts (s : RunSummary) : Prop :=
  ∀ o ∈ s.outcomes, o.status ≠ .unschedulable → o.attempts ≠ []

variable {fixed}

lemma isSome_renderTextOutcome {o : TaskOutcome}
    (h : o.status ≠ .unschedulable → o.attempts ≠ []) :
    (renderTextOutcome fixed o).isSome = true := by
  simp only [renderTextOutcome]
  by_cases hs : o.status = .unschedulable
  · simp [hs]
  · obtain ⟨last, hlast⟩ := Option.ne_none_iff_exists'.mp (mt List.getLast?_eq_none_iff.mp (h hs))
    simp [hs, hlast]

lemma isSome_renderJunitOutcome {o : TaskOutcome}
    (h : o.status ≠ .unschedulable → o.attempts ≠ []) :
    (renderJunitOutcome fixed o).isSome = true := by
  simp only [renderJunitOutcome]
  by_cases hs : o.status = .unschedulable
  · simp [hs]
  · obtain ⟨last, hlast⟩ := Option.ne_none_iff_exists'.mp (mt List.getLast?_eq_none_iff.mp (h hs))
    by_cases hp : o.status = .passed
    · cases o.flaky <;> simp [hp]
    · simp [hs, hp, hlast]

theorem RunSummary.HasAttempts.isSome_renderText {s : RunSummary} (h : s.HasAttempts) :
    (renderText fixed s).isSome = true := by
  have hall : ∀ o ∈ s.outcomes, (renderTextOutcome fixed o).isSome = true :=
    fun o ho => isSome_renderTextOutcome (h o ho)
  obtain ⟨parts, hparts⟩ := MapM.exists_eq_some hall
  simp [renderText, hparts]

theorem RunSummary.HasAttempts.isSome_renderJunit {s : RunSummary} (h : s.HasAttempts)
    (suiteName : ByteString) : (renderJunit fixed suiteName s).isSome = true := by
  have hall : ∀ o ∈ s.outcomes, (renderJunitOutcome fixed o).isSome = true :=
    fun o ho => isSome_renderJunitOutcome (h o ho)
  obtain ⟨parts, hparts⟩ := MapM.exists_eq_some hall
  simp [renderJunit, hparts]

end Dtest
