import ValidationSuite.Dtest.Report
import ValidationSuite.Library.Xml

/-!
# The JUnit report as XML

What a reader of XML finds in the document of `render_junit`: the tags that belong there, around
strings that stand for what the run has put there.
-/

namespace Dtest.Junit

open ByteString

/-- A control character that XML does not allow is reported as a question mark. -/
def sanitizeByte (c : UInt8) : UInt8 :=
  if c < 0x20 ∧ c ≠ '\n'.toNat.toUInt8 ∧ c ≠ '\t'.toNat.toUInt8 ∧ c ≠ '\r'.toNat.toUInt8 then
    '?'.toNat.toUInt8
  else c

def sanitize (s : ByteString) : ByteString := s.map sanitizeByte

lemma xmlEscape_escapes : Xml.Escapes xmlEscapeByte sanitizeByte where
  inert c := by
    unfold xmlEscapeByte
    split_ifs with hamp hlt hgt hquot
    · decide
    · decide
    · decide
    · decide
    · decide
    · decide
    · intro b hb
      obtain rfl := List.mem_singleton.mp hb
      exact ⟨hlt, hgt, hquot⟩
  decode_append c s := by
    unfold xmlEscapeByte
    split_ifs with hamp hlt hgt hquot hapos hcontrol
    · subst hamp; rfl
    · subst hlt; rfl
    · subst hgt; rfl
    · subst hquot; rfl
    · subst hapos; rfl
    · rw [sanitizeByte, if_pos hcontrol]
      rfl
    · rw [sanitizeByte, if_neg hcontrol, Xml.decode, List.singleton_append, Xml.decodeFrom,
        if_neg hamp]
      rfl

lemma decode_xmlEscape (s : ByteString) : Xml.decode (xmlEscape s) = some (sanitize s) :=
  xmlEscape_escapes.decode_flatMap s

lemma plain_xmlEscape (s : ByteString) : Xml.Plain (xmlEscape s) :=
  xmlEscape_escapes.plain_flatMap s

lemma scan_xmlEscape (s : ByteString) :
    Xml.scan (xmlEscape s) = some ((xmlEscape s).map .char) :=
  xmlEscape_escapes.scan_flatMap s

/-! ### Numbers -/

/-- What a stream writes for a number: digits, a sign, a point, or the letters of `inf` and `nan`. -/
def IsNumeral (s : ByteString) : Prop :=
  ∀ c ∈ s, isDigit c = true ∨ c = '-'.toNat.toUInt8 ∨ c = '.'.toNat.toUInt8 ∨
    (0x61 ≤ c ∧ c ≤ 0x7a)

instance (s : ByteString) : Decidable (IsNumeral s) := List.decidableBAll _ s

lemma isNumeral_ofNat (n : ℕ) : IsNumeral (ofNat n) := fun _ h => .inl (isDigit_of_mem_ofNat h)

lemma IsNumeral.plain {s : ByteString} (h : IsNumeral s) : Xml.Plain s := by
  intro c hc
  constructor
  · rintro rfl
    exact absurd (h _ hc) (by decide)
  · rintro rfl
    exact absurd (h _ hc) (by decide)

lemma decode_ofNat (n : ℕ) : Xml.decode (ofNat n) = some (ofNat n) := by
  apply Xml.decode_of_no_entity
  rintro c hc rfl
  exact absurd (isDigit_of_mem_ofNat hc) (by decide)

/-- The nearest integer to a positive number, the even one of two. -/
def roundHalfEven (x : ℚ) : ℕ :=
  let n := x.floor.toNat
  if 1 / 2 < x - n ∨ (x - n = 1 / 2 ∧ n % 2 = 1) then n + 1 else n

/-- A number with a fixed number of decimals, as a stream writes it. -/
def fixedDecimal (decimals : ℕ) (x : ℚ) : ByteString :=
  let n := roundHalfEven (|x| * 10 ^ decimals)
  let fraction := ofNat (n % 10 ^ decimals)
  (if x < 0 then lit "-" else []) ++ ofNat (n / 10 ^ decimals) ++
    if decimals = 0 then [] else
      lit "." ++ List.replicate (decimals - fraction.length) '0'.toNat.toUInt8 ++ fraction

lemma IsNumeral.append {s t : ByteString} (hs : IsNumeral s) (ht : IsNumeral t) :
    IsNumeral (s ++ t) := by
  intro c hc
  exact (List.mem_append.mp hc).elim (hs c) (ht c)

lemma isNumeral_fixedDecimal (decimals : ℕ) (x : ℚ) : IsNumeral (fixedDecimal decimals x) := by
  have hminus : IsNumeral (lit "-") := by decide
  have hpoint : IsNumeral (lit ".") := by decide
  have hnil : IsNumeral [] := nofun
  have hzeros : ∀ n, IsNumeral (List.replicate n '0'.toNat.toUInt8) := by
    intro n c hc
    obtain rfl := List.eq_of_mem_replicate hc
    decide
  unfold fixedDecimal
  refine .append (.append ?_ (isNumeral_ofNat _)) ?_
  · split_ifs
    · exact hminus
    · exact hnil
  · split_ifs
    · exact hnil
    · exact .append (.append hpoint (hzeros _)) (isNumeral_ofNat _)

/-! ### What is found in the report -/

/-- The standard error of the last attempt. -/
def lastErr (o : TaskOutcome) : ByteString :=
  (o.attempts.getLast?.map (·.result.err)).getD []

/-- The part of the document about one outcome: one element, with the outcome in it. -/
structure ReportsOutcome (o : TaskOutcome) (part : List Xml.Token) : Prop where
  element : ∃ t inner, Xml.Element t inner (Xml.tags part) ∧
    t.starts (lit "testcase") = true ∧
    t.attribute? (lit "classname") = some (sanitize (lastAgent o)) ∧
    t.attribute? (lit "name") = some (sanitize o.task.name) ∧
    ∀ u ∈ inner, u.name ∈ [lit "skipped", lit "failure", lit "system-out"]
  skipped : (Xml.elements (lit "skipped") part).map (fun e => e.1.attribute? (lit "message")) =
    if o.status = .unschedulable then [some (sanitize o.message)] else []
  failure : (Xml.elements (lit "failure") part).map
      (fun e => (e.1.attribute? (lit "message"), Xml.decode e.2)) =
    if o.status = .failed ∨ o.status = .timedOut then
      [(some (sanitize (describeLastAttempt o)), some (sanitize (tail (lastErr o) 40 4000)))]
    else []

/-- The tag of `testsuites` or `testsuite`, with the numbers of elements in the document. -/
structure ReportsTotals (suiteName : ByteString) (tokens : List Xml.Token) (t : Xml.Tag) :
    Prop where
  name : t.attribute? (lit "name") = some (sanitize suiteName)
  tests : t.attribute? (lit "tests") = some (ofNat (Xml.count (lit "testcase") tokens))
  failures : t.attribute? (lit "failures") = some (ofNat (Xml.count (lit "failure") tokens))
  skipped : t.attribute? (lit "skipped") = some (ofNat (Xml.count (lit "skipped") tokens))

/-- The document: the two elements around the parts of all outcomes, in their order. -/
structure ReportsRun (suiteName : ByteString) (s : RunSummary) (tokens : List Xml.Token) :
    Prop where
  balanced : Xml.Balanced (Xml.tags tokens)
  totals : ∀ n ∈ [lit "testsuites", lit "testsuite"],
    ∃ t, (Xml.tags tokens).filter (Xml.Tag.starts n) = [t] ∧ ReportsTotals suiteName tokens t
  testcases : ((Xml.tags tokens).filter (Xml.Tag.starts (lit "testcase"))).map
      (fun t => (t.attribute? (lit "classname"), t.attribute? (lit "name"))) =
    s.outcomes.map fun o => (some (sanitize (lastAgent o)), some (sanitize o.task.name))
  outcomes : ∃ head parts foot, tokens = head ++ parts.flatten ++ foot ∧
    List.Forall₂ ReportsOutcome s.outcomes parts ∧
    (∃ d t u, Xml.tags head = [d, t, u] ∧ d.kind = .declaration ∧
      t.starts (lit "testsuites") = true ∧ u.starts (lit "testsuite") = true) ∧
    Xml.tags foot = [⟨.closing, lit "testsuite", []⟩, ⟨.closing, lit "testsuites", []⟩]

/-! ### The tags -/

section Tags

variable (fixed : ℕ → ℚ → ByteString)

def testcaseTag (kind : Xml.Kind) (o : TaskOutcome) : Xml.Tag :=
  ⟨kind, lit "testcase",
    [(lit "classname", xmlEscape (lastAgent o)), (lit "name", xmlEscape o.task.name),
      (lit "time", fixed 3 (o.attempts.map (·.result.seconds)).sum)]⟩

def messageTag (kind : Xml.Kind) (n message : ByteString) : Xml.Tag :=
  ⟨kind, n, [(lit "message", xmlEscape message)]⟩

def suiteTag (n suiteName : ByteString) (s : RunSummary) : Xml.Tag :=
  ⟨.opening, n,
    [(lit "name", xmlEscape suiteName), (lit "tests", ofNat s.outcomes.length),
      (lit "failures", ofNat (s.count .failed + s.count .timedOut)),
      (lit "skipped", ofNat (s.count .unschedulable)),
      (lit "time", fixed 3 (s.outcomes.map fun o => (o.attempts.map (·.result.seconds)).sum).sum)]⟩

variable {fixed} (hfixed : ∀ decimals x, IsNumeral (fixed decimals x)) {kind : Xml.Kind}
  (hkind : kind ≠ .closing)

include hfixed hkind in
lemma wellFormed_testcaseTag (o : TaskOutcome) : (testcaseTag fixed kind o).WellFormed where
  name := show Xml.isName (lit "testcase") = true by decide
  keys := by
    simp only [testcaseTag, List.forall_mem_cons]
    exact ⟨by decide, by decide, by decide, nofun⟩
  values := by
    simp only [testcaseTag, List.forall_mem_cons]
    exact ⟨plain_xmlEscape _, plain_xmlEscape _, (hfixed _ _).plain, nofun⟩
  closing h := absurd h hkind

include hkind in
lemma wellFormed_messageTag {n : ByteString} (hn : Xml.isName n = true) (message : ByteString) :
    (messageTag kind n message).WellFormed where
  name := hn
  keys := by
    simp only [messageTag, List.forall_mem_cons]
    exact ⟨by decide, nofun⟩
  values := by
    simp only [messageTag, List.forall_mem_cons]
    exact ⟨plain_xmlEscape _, nofun⟩
  closing h := absurd h hkind

include hfixed in
lemma wellFormed_suiteTag {n : ByteString} (hn : Xml.isName n = true) (suiteName : ByteString)
    (s : RunSummary) : (suiteTag fixed n suiteName s).WellFormed where
  name := hn
  keys := by
    simp only [suiteTag, List.forall_mem_cons]
    exact ⟨by decide, by decide, by decide, by decide, by decide, nofun⟩
  values := by
    simp only [suiteTag, List.forall_mem_cons]
    exact ⟨plain_xmlEscape _, (isNumeral_ofNat _).plain, (isNumeral_ofNat _).plain,
      (isNumeral_ofNat _).plain, (hfixed _ _).plain, nofun⟩
  closing := nofun

lemma testcaseTag_classname (o : TaskOutcome) :
    (testcaseTag fixed kind o).attribute? (lit "classname") = some (sanitize (lastAgent o)) :=
  decode_xmlEscape _

lemma testcaseTag_name (o : TaskOutcome) :
    (testcaseTag fixed kind o).attribute? (lit "name") = some (sanitize o.task.name) :=
  decode_xmlEscape _

lemma messageTag_message (n message : ByteString) :
    (messageTag kind n message).attribute? (lit "message") = some (sanitize message) :=
  decode_xmlEscape _

end Tags

/-! ### One outcome -/

section Outcome

variable {fixed : ℕ → ℚ → ByteString} {o : TaskOutcome}

lemma scan_lit_text {text : ByteString} (h : text.all (fun c => c != '<'.toNat.toUInt8) = true) :
    Xml.scan text = some (text.map .char) :=
  Xml.scan_text fun c hc => bne_iff_ne.mp (List.all_eq_true.mp h c hc)

lemma renderJunitOutcome_passed (hstatus : o.status = .passed) (hflaky : o.flaky = false) :
    renderJunitOutcome fixed o =
      some (lit "    " ++ (testcaseTag fixed .empty o).render ++ lit "\n") := by
  simp [renderJunitOutcome, hstatus, hflaky, testcaseTag, Xml.Tag.render, Xml.renderAttribute, lit]

lemma renderJunitOutcome_skipped (hstatus : o.status = .unschedulable) (hflaky : o.flaky = false) :
    renderJunitOutcome fixed o =
      some (lit "    " ++ ((testcaseTag fixed .opening o).render ++
        (lit "\n      " ++ (messageTag .empty (lit "skipped") o.message).render ++ lit "\n    ") ++
        Xml.Tag.render ⟨.closing, lit "testcase", []⟩) ++ lit "\n") := by
  simp [renderJunitOutcome, hstatus, hflaky, testcaseTag, messageTag, Xml.Tag.render,
    Xml.renderAttribute, lit]

lemma renderJunitOutcome_failed (hstatus : o.status = .failed ∨ o.status = .timedOut)
    (hflaky : o.flaky = false) (hattempts : o.attempts ≠ []) :
    renderJunitOutcome fixed o =
      some (lit "    " ++ ((testcaseTag fixed .opening o).render ++
        (lit "\n      " ++
          ((messageTag .opening (lit "failure") (describeLastAttempt o)).render ++
            xmlEscape (tail (lastErr o) 40 4000) ++
            Xml.Tag.render ⟨.closing, lit "failure", []⟩) ++ lit "\n    ") ++
        Xml.Tag.render ⟨.closing, lit "testcase", []⟩) ++ lit "\n") := by
  obtain ⟨last, hlast⟩ :=
    Option.ne_none_iff_exists'.mp (mt List.getLast?_eq_none_iff.mp hattempts)
  have hne : o.status ≠ .passed ∧ o.status ≠ .unschedulable := by
    rcases hstatus with h | h <;> simp [h]
  simp [renderJunitOutcome, hne, hflaky, hlast, lastErr, testcaseTag, messageTag,
    Xml.Tag.render, Xml.renderAttribute, lit]

lemma renderJunitOutcome_flaky (hstatus : o.status = .passed) (hflaky : o.flaky = true) :
    renderJunitOutcome fixed o =
      some (lit "    " ++ ((testcaseTag fixed .opening o).render ++
        (lit "\n      " ++
          (Xml.Tag.render ⟨.opening, lit "system-out", []⟩ ++
            (lit "flaky: passed on attempt " ++ ofNat o.attempts.length ++ lit " of " ++
              ofNat o.attempts.length ++ lit " (earlier attempts failed)") ++
            Xml.Tag.render ⟨.closing, lit "system-out", []⟩) ++ lit "\n    ") ++
        Xml.Tag.render ⟨.closing, lit "testcase", []⟩) ++ lit "\n") := by
  simp [renderJunitOutcome, hstatus, hflaky, testcaseTag, Xml.Tag.render, Xml.renderAttribute, lit]

/-- The kinds of outcomes that the report tells apart. -/
lemma outcome_cases (hattempts : o.status ≠ .unschedulable → o.attempts ≠ []) :
    (o.status = .passed ∧ o.flaky = false) ∨ (o.status = .passed ∧ o.flaky = true) ∨
      ((o.status = .failed ∨ o.status = .timedOut) ∧ o.flaky = false ∧ o.attempts ≠ []) ∨
      (o.status = .unschedulable ∧ o.flaky = false) := by
  have hflaky : o.status ≠ .passed → o.flaky = false := by
    intro h
    simp [TaskOutcome.flaky, h]
  cases hstatus : o.status with
  | passed =>
    cases h : o.flaky with
    | false => exact .inl ⟨rfl, rfl⟩
    | true => exact .inr (.inl ⟨rfl, rfl⟩)
  | failed =>
    exact .inr (.inr (.inl ⟨.inl rfl, hflaky (by simp [hstatus]), hattempts (by simp [hstatus])⟩))
  | timedOut =>
    exact .inr (.inr (.inl ⟨.inr rfl, hflaky (by simp [hstatus]), hattempts (by simp [hstatus])⟩))
  | unschedulable => exact .inr (.inr (.inr ⟨rfl, hflaky (by simp [hstatus])⟩))

/-- What `scan` finds in the text that has been rendered. -/
def Reported (fixed : ℕ → ℚ → ByteString) (o : TaskOutcome) : Prop :=
  ∃ doc part, renderJunitOutcome fixed o = some doc ∧ Xml.scan doc = some part ∧
    ReportsOutcome o part

variable (hfixed : ∀ decimals x, IsNumeral (fixed decimals x))

include hfixed

lemma reported_passed (hstatus : o.status = .passed) (hflaky : o.flaky = false) :
    Reported fixed o := by
  have ht : (testcaseTag fixed .empty o).WellFormed := wellFormed_testcaseTag hfixed (by decide) o
  refine ⟨_, _, renderJunitOutcome_passed hstatus hflaky,
    Xml.scan_append (Xml.scan_append (scan_lit_text (by decide)) (Xml.scan_render ht))
      (scan_lit_text (by decide)), ?_, ?_, ?_⟩
  · refine ⟨testcaseTag fixed .empty o, [], ?_, rfl, testcaseTag_classname o, testcaseTag_name o,
      nofun⟩
    simpa using Xml.Element.empty rfl
  · have hstarts : (testcaseTag fixed .empty o).starts (lit "skipped") = false := rfl
    simp [hstatus, hstarts]
  · have hstarts : (testcaseTag fixed .empty o).starts (lit "failure") = false := rfl
    simp [hstatus, hstarts]

/-- An outcome with a text between the tags of its element. -/
lemma reported_open {text : ByteString} {inner : List Xml.Token}
    (hrender : renderJunitOutcome fixed o =
      some (lit "    " ++ ((testcaseTag fixed .opening o).render ++ text ++
        Xml.Tag.render ⟨.closing, lit "testcase", []⟩) ++ lit "\n"))
    (hscan : Xml.scan text = some inner) (hbalanced : Xml.Balanced (Xml.tags inner))
    (hother : ∀ u ∈ Xml.tags inner, u.name ∈ [lit "skipped", lit "failure", lit "system-out"])
    (hskipped : (Xml.elements (lit "skipped") inner).map
        (fun e => e.1.attribute? (lit "message")) =
      if o.status = .unschedulable then [some (sanitize o.message)] else [])
    (hfailure : (Xml.elements (lit "failure") inner).map
        (fun e => (e.1.attribute? (lit "message"), Xml.decode e.2)) =
      if o.status = .failed ∨ o.status = .timedOut then
        [(some (sanitize (describeLastAttempt o)), some (sanitize (tail (lastErr o) 40 4000)))]
      else []) :
    Reported fixed o := by
  have ht : (testcaseTag fixed .opening o).WellFormed := wellFormed_testcaseTag hfixed (by decide) o
  -- neither the tags of the element nor the white space adds to the other elements
  have helements : ∀ n, (testcaseTag fixed .opening o).starts n = false →
      Xml.elements n ((lit "    ").map .char ++
        (.tag (testcaseTag fixed .opening o) :: inner ++
          [.tag ⟨.closing, (testcaseTag fixed .opening o).name, []⟩]) ++ (lit "\n").map .char) =
        Xml.elements n inner := by
    intro n hn
    simp [hn, Xml.elements_append_tag]
  refine ⟨_, _, hrender, Xml.scan_append (Xml.scan_append (scan_lit_text (by decide))
    (Xml.scan_element ht hscan)) (scan_lit_text (by decide)), ?_, ?_, ?_⟩
  · refine ⟨testcaseTag fixed .opening o, Xml.tags inner, ?_, rfl, testcaseTag_classname o,
      testcaseTag_name o, hother⟩
    simpa using Xml.Element.enclosing rfl hbalanced
  · rw [helements _ rfl, hskipped]
  · rw [helements _ rfl, hfailure]

lemma reported_skipped (hstatus : o.status = .unschedulable) (hflaky : o.flaky = false) :
    Reported fixed o := by
  have ht : (messageTag .empty (lit "skipped") o.message).WellFormed :=
    wellFormed_messageTag (by decide) (by decide) _
  have hskipped : (messageTag .empty (lit "skipped") o.message).starts (lit "skipped") = true := rfl
  have hfailure : (messageTag .empty (lit "skipped") o.message).starts (lit "failure") = false :=
    rfl
  refine reported_open hfixed (renderJunitOutcome_skipped hstatus hflaky)
    (Xml.scan_append (Xml.scan_append (scan_lit_text (by decide)) (Xml.scan_render ht))
      (scan_lit_text (by decide))) ?_ ?_ ?_ ?_
  · simp
    rfl
  · simp [messageTag]
  · simp [hstatus, hskipped, messageTag_message]
  · simp [hstatus, hfailure]

lemma reported_failed (hstatus : o.status = .failed ∨ o.status = .timedOut)
    (hflaky : o.flaky = false) (hattempts : o.attempts ≠ []) : Reported fixed o := by
  have ht : (messageTag .opening (lit "failure") (describeLastAttempt o)).WellFormed :=
    wellFormed_messageTag (by decide) (by decide) _
  have hskipped : (messageTag .opening (lit "failure") (describeLastAttempt o)).starts
      (lit "skipped") = false := rfl
  have hfailure : (messageTag .opening (lit "failure") (describeLastAttempt o)).starts
      (lit "failure") = true := rfl
  have hne : o.status ≠ .unschedulable := by
    rcases hstatus with h | h <;> simp [h]
  refine reported_open hfixed (renderJunitOutcome_failed hstatus hflaky hattempts)
    (Xml.scan_append (Xml.scan_append (scan_lit_text (by decide))
      (Xml.scan_element ht (scan_xmlEscape _))) (scan_lit_text (by decide))) ?_ ?_ ?_ ?_
  · simp
    rfl
  · simp [messageTag]
  · simp [hne, hskipped]
  · simp [hstatus, hfailure, messageTag_message, decode_xmlEscape]

lemma reported_flaky (hstatus : o.status = .passed) (hflaky : o.flaky = true) :
    Reported fixed o := by
  have ht : Xml.Tag.WellFormed ⟨.opening, lit "system-out", []⟩ :=
    ⟨by decide, nofun, nofun, nofun⟩
  have htext : Xml.scan (lit "flaky: passed on attempt " ++ ofNat o.attempts.length ++
      lit " of " ++ ofNat o.attempts.length ++ lit " (earlier attempts failed)") = some _ :=
    Xml.scan_append (Xml.scan_append (Xml.scan_append (Xml.scan_append
      (scan_lit_text (by decide))
      (Xml.scan_text fun c hc => ((isNumeral_ofNat _).plain c hc).1)) (scan_lit_text (by decide)))
      (Xml.scan_text fun c hc => ((isNumeral_ofNat _).plain c hc).1)) (scan_lit_text (by decide))
  have hskipped : Xml.Tag.starts (lit "skipped") ⟨.opening, lit "system-out", []⟩ = false := rfl
  have hfailure : Xml.Tag.starts (lit "failure") ⟨.opening, lit "system-out", []⟩ = false := rfl
  refine reported_open hfixed (renderJunitOutcome_flaky hstatus hflaky)
    (Xml.scan_append (Xml.scan_append (scan_lit_text (by decide))
      (Xml.scan_element ht htext)) (scan_lit_text (by decide))) ?_ ?_ ?_ ?_
  · simp
    rfl
  · simp
  · simp [hstatus, hskipped]
  · simp [hstatus, hfailure]

/-- Every outcome is reported. -/
lemma reported (hattempts : o.status ≠ .unschedulable → o.attempts ≠ []) : Reported fixed o := by
  rcases outcome_cases hattempts with ⟨hstatus, hflaky⟩ | ⟨hstatus, hflaky⟩ |
    ⟨hstatus, hflaky, hne⟩ | ⟨hstatus, hflaky⟩
  · exact reported_passed hfixed hstatus hflaky
  · exact reported_flaky hfixed hstatus hflaky
  · exact reported_failed hfixed hstatus hflaky hne
  · exact reported_skipped hfixed hstatus hflaky

end Outcome

/-! ### The whole run -/

section Run

variable {outcomes : List TaskOutcome} {parts : List (List Xml.Token)}

namespace ReportsOutcome

variable {o : TaskOutcome} {part : List Xml.Token}

lemma balanced (h : ReportsOutcome o part) : Xml.Balanced (Xml.tags part) := by
  obtain ⟨t, inner, helement, -⟩ := h.element
  exact helement.balanced

/-- An element of another name is inside the one of the outcome. -/
lemma filter_starts (h : ReportsOutcome o part) {n : ByteString}
    (hn : n ∉ [lit "skipped", lit "failure", lit "system-out"]) :
    ∃ t, t.starts (lit "testcase") = true ∧
      t.attribute? (lit "classname") = some (sanitize (lastAgent o)) ∧
      t.attribute? (lit "name") = some (sanitize o.task.name) ∧
      (Xml.tags part).filter (Xml.Tag.starts n) = if n = lit "testcase" then [t] else [] := by
  obtain ⟨t, inner, helement, hstarts, hclassname, hname, hother⟩ := h.element
  have hinner : inner.filter (Xml.Tag.starts n) = [] := by
    refine List.filter_eq_nil_iff.mpr fun u hu hstart => hn ?_
    obtain rfl : u.name = n := by simpa using (Bool.and_eq_true _ _ |>.mp hstart).2
    exact hother u hu
  have ht : t.starts n = decide (n = lit "testcase") := by
    have hstarts := Bool.and_eq_true _ _ |>.mp hstarts
    rw [Xml.Tag.starts, hstarts.1, Bool.true_and, beq_iff_eq.mp hstarts.2]
    by_cases h : n = lit "testcase"
    · simp [h]
    · simp [h, Ne.symm h]
  refine ⟨t, hstarts, hclassname, hname, ?_⟩
  generalize Xml.tags part = us at helement
  cases helement with
  | empty =>
    rw [List.filter_cons, List.filter_nil, ht]
    split_ifs <;> simp_all
  | enclosing =>
    rw [List.cons_append, List.filter_cons, List.filter_append, hinner, ht]
    split_ifs <;> simp_all

lemma count_testcase (h : ReportsOutcome o part) : Xml.count (lit "testcase") part = 1 := by
  obtain ⟨t, -, -, -, hfilter⟩ := h.filter_starts (n := lit "testcase") (by decide)
  rw [Xml.count, List.countP_eq_length_filter, hfilter, if_pos rfl]
  rfl

lemma count_skipped (h : ReportsOutcome o part) :
    Xml.count (lit "skipped") part = if o.status == .unschedulable then 1 else 0 := by
  rw [Xml.count_eq_length_elements, ← List.length_map fun e => e.1.attribute? (lit "message"),
    h.skipped]
  cases o.status <;> rfl

lemma count_failure (h : ReportsOutcome o part) :
    Xml.count (lit "failure") part =
      if o.status == .failed || o.status == .timedOut then 1 else 0 := by
  rw [Xml.count_eq_length_elements,
    ← List.length_map fun e => (e.1.attribute? (lit "message"), Xml.decode e.2), h.failure]
  cases o.status <;> rfl

end ReportsOutcome

/-- What is true of each part is counted over all of them. -/
lemma count_parts {n : ByteString} {p : TaskOutcome → Bool}
    (hcount : ∀ o part, ReportsOutcome o part → Xml.count n part = if p o then 1 else 0)
    (h : List.Forall₂ ReportsOutcome outcomes parts) :
    Xml.count n parts.flatten = outcomes.countP p := by
  induction h with
  | nil => rfl
  | cons hpart _ ih =>
    rw [List.flatten_cons, Xml.count_append, hcount _ _ hpart, ih, List.countP_cons, Nat.add_comm]

/-- A test is failed or timed out, not both. -/
lemma count_failing (s : RunSummary) :
    s.count .failed + s.count .timedOut =
      s.outcomes.countP fun o => o.status == .failed || o.status == .timedOut := by
  unfold RunSummary.count
  induction s.outcomes with
  | nil => rfl
  | cons o l ih =>
    simp only [List.countP_cons, ← ih]
    cases o.status <;> simp <;> omega

lemma filter_testcases (h : List.Forall₂ ReportsOutcome outcomes parts) :
    ((Xml.tags parts.flatten).filter (Xml.Tag.starts (lit "testcase"))).map
        (fun t => (t.attribute? (lit "classname"), t.attribute? (lit "name"))) =
      outcomes.map fun o => (some (sanitize (lastAgent o)), some (sanitize o.task.name)) := by
  induction h with
  | nil => rfl
  | cons hpart _ ih =>
    obtain ⟨t, -, hclassname, hname, hfilter⟩ :=
      hpart.filter_starts (n := lit "testcase") (by decide)
    rw [List.flatten_cons, Xml.tags_append, List.filter_append, List.map_append, hfilter, ih,
      if_pos rfl, List.map_cons, hclassname, hname]
    rfl

/-- The elements around the testcases are not among them. -/
lemma filter_suites {n : ByteString}
    (hn : n ∉ [lit "testcase", lit "skipped", lit "failure", lit "system-out"])
    (h : List.Forall₂ ReportsOutcome outcomes parts) :
    (Xml.tags parts.flatten).filter (Xml.Tag.starts n) = [] := by
  induction h with
  | nil => rfl
  | cons hpart _ ih =>
    obtain ⟨t, -, -, -, hfilter⟩ := hpart.filter_starts (mt (List.mem_cons_of_mem _) hn)
    rw [List.flatten_cons, Xml.tags_append, List.filter_append, hfilter, ih, if_neg]
    · rfl
    · rintro rfl
      exact hn (.head _)

lemma balanced_parts (h : List.Forall₂ ReportsOutcome outcomes parts) :
    Xml.Balanced (Xml.tags parts.flatten) := by
  induction h with
  | nil => rfl
  | cons hpart _ ih =>
    rw [List.flatten_cons, Xml.tags_append]
    exact hpart.balanced.append ih

end Run

/-! ### The document -/

section Document

variable {fixed : ℕ → ℚ → ByteString} (hfixed : ∀ decimals x, IsNumeral (fixed decimals x))
  (suiteName : ByteString) (s : RunSummary)

def declarationTag : Xml.Tag :=
  ⟨.declaration, lit "xml", [(lit "version", lit "1.0"), (lit "encoding", lit "UTF-8")]⟩

def closingTag (n : ByteString) : Xml.Tag := ⟨.closing, n, []⟩

/-- The tokens of the document, around those of the outcomes. -/
def head (fixed : ℕ → ℚ → ByteString) : List Xml.Token :=
  [.tag declarationTag] ++ (lit "\n").map .char ++
    [.tag (suiteTag fixed (lit "testsuites") suiteName s)] ++ (lit "\n  ").map .char ++
    [.tag (suiteTag fixed (lit "testsuite") suiteName s)] ++ (lit "\n").map .char

def foot : List Xml.Token :=
  (lit "  ").map .char ++ [.tag (closingTag (lit "testsuite"))] ++ (lit "\n").map .char ++
    [.tag (closingTag (lit "testsuites"))] ++ (lit "\n").map .char

lemma wellFormed_declarationTag : declarationTag.WellFormed where
  name := by decide
  keys := by decide
  values := by
    simp only [declarationTag, List.forall_mem_cons]
    exact ⟨by decide, by decide, nofun⟩
  closing := nofun

lemma render_suiteTag (n : ByteString) :
    lit "<" ++ n ++ junitAttributes fixed suiteName s =
      (suiteTag fixed n suiteName s).render ++ lit "\n" := by
  simp [junitAttributes, suiteTag, Xml.Tag.render, Xml.renderAttribute, lit]

lemma renderJunit_eq {docs : List ByteString}
    (hdocs : s.outcomes.mapM (renderJunitOutcome fixed) = some docs) :
    renderJunit fixed suiteName s = some
      (declarationTag.render ++ lit "\n" ++ (suiteTag fixed (lit "testsuites") suiteName s).render ++
          lit "\n  " ++ (suiteTag fixed (lit "testsuite") suiteName s).render ++ lit "\n" ++
        docs.flatten ++
        (lit "  " ++ (closingTag (lit "testsuite")).render ++ lit "\n" ++
          (closingTag (lit "testsuites")).render ++ lit "\n")) := by
  have hdeclaration : lit "<?xml version=\"1.0\" encoding=\"UTF-8\"?>\n" =
      declarationTag.render ++ lit "\n" := by decide
  have htestsuites : lit "<testsuites" = lit "<" ++ lit "testsuites" := by decide
  have htestsuite : lit "  <testsuite" = lit "  " ++ (lit "<" ++ lit "testsuite") := by decide
  have hindent : lit "\n" ++ lit "  " = lit "\n  " := by decide
  have hfoot : lit "  </testsuite>\n</testsuites>\n" =
      lit "  " ++ (closingTag (lit "testsuite")).render ++ lit "\n" ++
        (closingTag (lit "testsuites")).render ++ lit "\n" := by decide
  rw [renderJunit, hdocs, hdeclaration, htestsuites, htestsuite, hfoot, ← hindent]
  calc _ = some (declarationTag.render ++ lit "\n" ++
        (lit "<" ++ lit "testsuites" ++ junitAttributes fixed suiteName s) ++
        (lit "  " ++ (lit "<" ++ lit "testsuite" ++ junitAttributes fixed suiteName s)) ++
        docs.flatten ++ _) := by
        simp only [List.append_assoc]
        rfl
    _ = _ := by
        rw [render_suiteTag, render_suiteTag]
        simp only [List.append_assoc]

include hfixed in
lemma exists_parts : ∀ {l : List TaskOutcome},
    (∀ o ∈ l, o.status ≠ .unschedulable → o.attempts ≠ []) →
      ∃ docs parts, l.mapM (renderJunitOutcome fixed) = some docs ∧
        List.Forall₂ (fun doc part => Xml.scan doc = some part) docs parts ∧
        List.Forall₂ ReportsOutcome l parts
  | [], _ => ⟨[], [], rfl, .nil, .nil⟩
  | o :: l, h => by
    obtain ⟨doc, part, hdoc, hscan, hreports⟩ := reported hfixed (h o (.head l))
    obtain ⟨docs, parts, hdocs, hscans, hall⟩ := exists_parts fun o ho => h o (.tail _ ho)
    refine ⟨doc :: docs, part :: parts, ?_, .cons hscan hscans, .cons hreports hall⟩
    rw [List.mapM_cons, hdoc, hdocs]
    rfl

/-- The numbers in the attributes are those of the run, and they are decoded as they are. -/
lemma reportsTotals_suiteTag {tokens : List Xml.Token}
    (htests : Xml.count (lit "testcase") tokens = s.outcomes.length)
    (hfailures : Xml.count (lit "failure") tokens = s.count .failed + s.count .timedOut)
    (hskipped : Xml.count (lit "skipped") tokens = s.count .unschedulable) (n : ByteString) :
    ReportsTotals suiteName tokens (suiteTag fixed n suiteName s) where
  name := decode_xmlEscape _
  tests := by rw [htests]; exact decode_ofNat _
  failures := by rw [hfailures]; exact decode_ofNat _
  skipped := by rw [hskipped]; exact decode_ofNat _

include hfixed in
lemma scan_head :
    Xml.scan (declarationTag.render ++ lit "\n" ++
      (suiteTag fixed (lit "testsuites") suiteName s).render ++ lit "\n  " ++
      (suiteTag fixed (lit "testsuite") suiteName s).render ++ lit "\n") =
      some (head suiteName s fixed) := by
  have hd := Xml.scan_render wellFormed_declarationTag
  have ht : Xml.scan (suiteTag fixed (lit "testsuites") suiteName s).render = some _ :=
    Xml.scan_render (wellFormed_suiteTag hfixed (by decide) suiteName s)
  have hu : Xml.scan (suiteTag fixed (lit "testsuite") suiteName s).render = some _ :=
    Xml.scan_render (wellFormed_suiteTag hfixed (by decide) suiteName s)
  exact Xml.scan_append (Xml.scan_append (Xml.scan_append (Xml.scan_append (Xml.scan_append hd
    (scan_lit_text (by decide))) ht) (scan_lit_text (by decide))) hu) (scan_lit_text (by decide))

lemma scan_foot :
    Xml.scan (lit "  " ++ (closingTag (lit "testsuite")).render ++ lit "\n" ++
      (closingTag (lit "testsuites")).render ++ lit "\n") = some foot := by
  decide

lemma tags_head : Xml.tags (head suiteName s fixed) =
    [declarationTag, suiteTag fixed (lit "testsuites") suiteName s,
      suiteTag fixed (lit "testsuite") suiteName s] := by
  simp [head]

lemma tags_foot :
    Xml.tags foot = [closingTag (lit "testsuite"), closingTag (lit "testsuites")] := by
  simp [foot]

lemma suiteTag_starts (m n : ByteString) :
    (suiteTag fixed m suiteName s).starts n = decide (m = n) := by
  by_cases h : m = n <;> simp [Xml.Tag.starts, suiteTag, h]

section Tokens

variable {suiteName s} {parts : List (List Xml.Token)}
  (h : List.Forall₂ ReportsOutcome s.outcomes parts)

lemma filter_tags (n : ByteString) :
    (Xml.tags (head suiteName s fixed ++ parts.flatten ++ foot)).filter (Xml.Tag.starts n) =
      (if lit "testsuites" = n then [suiteTag fixed (lit "testsuites") suiteName s] else []) ++
        (if lit "testsuite" = n then [suiteTag fixed (lit "testsuite") suiteName s] else []) ++
        (Xml.tags parts.flatten).filter (Xml.Tag.starts n) := by
  have hdeclaration : declarationTag.starts n = false := rfl
  have hclosing : ∀ m, (closingTag m).starts n = false := fun _ => rfl
  rw [Xml.tags_append, Xml.tags_append, tags_head, tags_foot]
  simp only [List.filter_append, List.filter_cons, List.filter_nil, hdeclaration, hclosing,
    suiteTag_starts, decide_eq_true_eq]
  split_ifs <;> simp_all

/-- Elements of other names are in the parts. -/
lemma count_tokens {n : ByteString} (hn : n ∉ [lit "testsuites", lit "testsuite"]) :
    Xml.count n (head suiteName s fixed ++ parts.flatten ++ foot) = Xml.count n parts.flatten := by
  simp only [List.mem_cons, List.not_mem_nil, or_false, not_or] at hn
  rw [Xml.count, List.countP_eq_length_filter, filter_tags, if_neg (Ne.symm hn.1),
    if_neg (Ne.symm hn.2), List.nil_append, List.nil_append, Xml.count,
    List.countP_eq_length_filter]

include h

lemma totals (n : ByteString) :
    ReportsTotals suiteName (head suiteName s fixed ++ parts.flatten ++ foot)
      (suiteTag fixed n suiteName s) := by
  refine reportsTotals_suiteTag suiteName s ?_ ?_ ?_ n
  · rw [count_tokens (by decide), count_parts (p := fun _ => true) ?_ h]
    · exact congrFun List.countP_true _
    · exact fun o part hpart => hpart.count_testcase
  · rw [count_tokens (by decide), count_parts (fun o part hpart => hpart.count_failure) h,
      count_failing]
  · rw [count_tokens (by decide), count_parts (fun o part hpart => hpart.count_skipped) h]
    rfl

lemma balanced_tokens :
    Xml.Balanced (Xml.tags (head suiteName s fixed ++ parts.flatten ++ foot)) := by
  rw [Xml.tags_append, Xml.tags_append, tags_head, tags_foot]
  have htestsuite : Xml.Balanced (suiteTag fixed (lit "testsuite") suiteName s ::
      Xml.tags parts.flatten ++ [closingTag (lit "testsuite")]) :=
    (Xml.Element.enclosing rfl (balanced_parts h)).balanced
  have htestsuites : Xml.Balanced (suiteTag fixed (lit "testsuites") suiteName s ::
      (suiteTag fixed (lit "testsuite") suiteName s ::
        Xml.tags parts.flatten ++ [closingTag (lit "testsuite")]) ++
        [closingTag (lit "testsuites")]) :=
    (Xml.Element.enclosing rfl htestsuite).balanced
  have hdeclaration : Xml.Balanced [declarationTag] := rfl
  simpa using hdeclaration.append htestsuites

/-- What is found among the tokens of the document. -/
lemma reportsRun : ReportsRun suiteName s (head suiteName s fixed ++ parts.flatten ++ foot) where
  balanced := balanced_tokens h
  totals n hn := by
    refine ⟨suiteTag fixed n suiteName s, ?_, totals h n⟩
    rcases List.mem_pair.mp hn with rfl | rfl
    · rw [filter_tags, filter_suites (by decide) h]
      rfl
    · rw [filter_tags, filter_suites (by decide) h]
      rfl
  testcases := by
    rw [filter_tags, ← filter_testcases h]
    rfl
  outcomes := by
    refine ⟨_, parts, _, rfl, h, ?_, tags_foot⟩
    exact ⟨_, _, _, tags_head suiteName s, rfl, rfl, rfl⟩

end Tokens

/-- For any name of the suite and any summary whose outcomes have an attempt unless they are
unschedulable, whatever the bytes of their strings: a reader of the document finds one testcase for
each outcome, in their order, the totals in the attributes of both suites, every element closed, and
behind all attributes and texts the strings of the run. -/
theorem junit_report_faithful (hfixed : ∀ decimals x, IsNumeral (fixed decimals x))
    (suiteName : ByteString) (s : RunSummary) (h : s.HasAttempts) :
    ∃ doc tokens, renderJunit fixed suiteName s = some doc ∧ Xml.scan doc = some tokens ∧
      ReportsRun suiteName s tokens := by
  obtain ⟨docs, parts, hdocs, hscans, hparts⟩ := exists_parts hfixed h
  exact ⟨_, _, renderJunit_eq suiteName s hdocs,
    Xml.scan_append (Xml.scan_append (scan_head hfixed suiteName s) (Xml.scan_flatten hscans))
      scan_foot, reportsRun hparts⟩

/-- A test that is named like a tag, another one that nobody could run. -/
def mixed : RunSummary where
  outcomes :=
    [{ task := { name := lit "\"/><testcase name=\"x" }
       status := .failed
       attempts :=
          [{ agent := lit "a&b:1", result := { exitCode := 3, err := [0x1b, 0x5d, 0xff] } }] },
      { task := { name := lit "t" }, status := .unschedulable, message := lit "no agent" }]
  deadAgents := []

lemma hasAttempts_mixed : mixed.HasAttempts := by
  intro o ho
  simp only [mixed, List.mem_cons, List.not_mem_nil, or_false] at ho
  rcases ho with rfl | rfl <;> simp

theorem junit_report_faithful_mixed :
    ∃ doc tokens, renderJunit fixedDecimal (lit "<nightly>") mixed = some doc ∧
      Xml.scan doc = some tokens ∧ ReportsRun (lit "<nightly>") mixed tokens :=
  junit_report_faithful isNumeral_fixedDecimal (lit "<nightly>") mixed hasAttempts_mixed

end Document

end Dtest.Junit
