import ValidationSuite.Dtest.Report.Junit
import ValidationSuite.Library.Grouping
import ValidationSuite.Library.Json
import ValidationSuite.Vmtest.Harness
import ValidationSuite.Vmtest.Util

/-!
# The JUnit report of the VM tests

`render_junit` of `vmtest/src/junit.cpp`. Its map of suites with the list of their names is the
grouping of the results by their suite. What a reader of XML finds in the document is stated for its
tags; `fixed` is how the stream writes a number of seconds.
-/

namespace Vmtest

open ByteString
open Dtest.Junit (IsNumeral closingTag declarationTag decode_ofNat fixedDecimal isNumeral_ofNat)

/-! ### Rendering -/

structure Counts where
  tests : ℕ := 0
  failures : ℕ := 0
  skipped : ℕ := 0
  seconds : ℚ := 0

/-- The body of the loop of `count`. -/
def Counts.add (c : Counts) (r : TestResult) : Counts where
  tests := c.tests + 1
  seconds := c.seconds + r.seconds
  failures := if r.outcome = .failed then c.failures + 1 else c.failures
  skipped := if r.outcome = .skipped then c.skipped + 1 else c.skipped

def count (rs : List TestResult) : Counts := rs.foldl Counts.add {}

/-- The variables `order` and `by_suite`. -/
structure Suites where
  order : List ByteString := []
  bySuite : List (ByteString × List TestResult) := []

namespace Suites

/-- The value of the map at a suite: an empty list unless something was put there. -/
def results (s : Suites) (suite : ByteString) : List TestResult :=
  (AssocList.find suite s.bySuite).getD []

/-- The body of the loop that groups the results. -/
def add (s : Suites) (r : TestResult) : Suites where
  order := if (AssocList.find r.suite s.bySuite).isSome then s.order else s.order ++ [r.suite]
  bySuite := AssocList.insert r.suite (s.results r.suite ++ [r]) s.bySuite

def group (rs : List TestResult) : Suites := rs.foldl add {}

end Suites

section Render

variable (fixed : ℕ → ℚ → ByteString)

def renderResult (r : TestResult) : ByteString :=
  lit "    <testcase classname=\"" ++ xmlEscape r.suite ++ lit "\" name=\"" ++ xmlEscape r.name ++
    lit "\" time=\"" ++ fixed 3 r.seconds ++ lit "\"" ++
  match r.outcome with
  | .passed => lit "/>\n"
  | .failed =>
    lit ">\n      <failure message=\"" ++ xmlEscape r.message ++ lit "\"/>\n    </testcase>\n"
  | .skipped =>
    lit ">\n      <skipped message=\"" ++ xmlEscape r.message ++ lit "\"/>\n    </testcase>\n"

/-- The attributes of `testsuites` and of each `testsuite`. -/
def renderCounts (name : ByteString) (c : Counts) : ByteString :=
  lit " name=\"" ++ xmlEscape name ++ lit "\" tests=\"" ++ ofNat c.tests ++
    lit "\" failures=\"" ++ ofNat c.failures ++ lit "\" skipped=\"" ++ ofNat c.skipped ++
    lit "\" time=\"" ++ fixed 3 c.seconds ++ lit "\">\n"

def renderSuite (suite : ByteString) (rs : List TestResult) : ByteString :=
  lit "  <testsuite" ++ renderCounts fixed suite (count rs) ++ rs.flatMap (renderResult fixed) ++
    lit "  </testsuite>\n"

def renderJunit (runName : ByteString) (results : List TestResult) : ByteString :=
  let groups := Suites.group results
  lit "<?xml version=\"1.0\" encoding=\"UTF-8\"?>\n" ++
    lit "<testsuites" ++ renderCounts fixed runName (count results) ++
    groups.order.flatMap (fun suite => renderSuite fixed suite (groups.results suite)) ++
    lit "</testsuites>\n"

end Render

/-! ### Counting and grouping -/

lemma foldl_add (c : Counts) (rs : List TestResult) :
    rs.foldl Counts.add c =
      ⟨c.tests + rs.length, c.failures + rs.countP (·.outcome = .failed),
        c.skipped + rs.countP (·.outcome = .skipped), c.seconds + (rs.map (·.seconds)).sum⟩ := by
  induction rs generalizing c with
  | nil => simp
  | cons r rs ih =>
    rw [List.foldl_cons, ih]
    cases h : r.outcome <;> simp [Counts.add, h, Nat.add_comm 1, add_assoc]

lemma count_eq (rs : List TestResult) :
    count rs = ⟨rs.length, rs.countP (·.outcome = .failed), rs.countP (·.outcome = .skipped),
      (rs.map (·.seconds)).sum⟩ := by
  rw [count, foldl_add]
  simp

namespace Suites

/-- The list of names and the map keep the groups of the results so far. -/
structure Groups (s : Suites) (rs : List TestResult) : Prop where
  order_eq : s.order = Grouping.keys TestResult.suite rs
  find_eq : ∀ suite, AssocList.find suite s.bySuite =
    if suite ∈ rs.map TestResult.suite then some (Grouping.members TestResult.suite rs suite)
    else none

lemma Groups.results_eq {s : Suites} {rs : List TestResult} (h : Groups s rs)
    (suite : ByteString) : s.results suite = Grouping.members TestResult.suite rs suite := by
  rw [results, h.find_eq]
  split_ifs with hmem
  · rfl
  · rw [Grouping.members_eq_nil _ hmem]
    rfl

lemma Groups.add {s : Suites} {rs : List TestResult} (h : Groups s rs) (r : TestResult) :
    Groups (s.add r) (rs ++ [r]) where
  order_eq := by
    rw [Grouping.keys_concat, ← h.order_eq, Suites.add, h.find_eq]
    split_ifs <;> simp_all
  find_eq suite := by
    rw [Suites.add, AssocList.find_insert, h.results_eq, Grouping.members_concat, h.find_eq]
    by_cases heq : suite = r.suite
    · simp [heq]
    · simp [heq, Ne.symm heq]

lemma groups_group (rs : List TestResult) : Groups (group rs) rs := by
  induction rs using List.reverseRecOn with
  | nil => exact ⟨rfl, fun _ => rfl⟩
  | append_singleton rs r ih =>
    rw [group, List.foldl_append]
    exact ih.add r

end Suites

/-! ### What is found in the report -/

/-- The number of elements of a name. -/
def elementCount (n : ByteString) (ts : List Xml.Tag) : ℕ := ts.countP (Xml.Tag.starts n)

/-- What the attributes of `testsuites` or of a `testsuite` say. -/
structure Totals (t : Xml.Tag) (name : ByteString) (tests failures skipped : ℕ) : Prop where
  name : t.attribute? (lit "name") = some name
  tests : t.attribute? (lit "tests") = some (ofNat tests)
  failures : t.attribute? (lit "failures") = some (ofNat failures)
  skipped : t.attribute? (lit "skipped") = some (ofNat skipped)

/-- The elements in a testcase, by their names, with what their messages stand for. -/
def outcomeElements (r : TestResult) : List (Xml.Kind × ByteString × Option ByteString) :=
  match r.outcome with
  | .passed => []
  | .failed => [(.empty, lit "failure", some r.message)]
  | .skipped => [(.empty, lit "skipped", some r.message)]

/-- One testcase, with the outcome in it. -/
def ReportsResult (r : TestResult) (ts : List Xml.Tag) : Prop :=
  ∃ t inner, Xml.Element t inner ts ∧ t.starts (lit "testcase") = true ∧
    t.attribute? (lit "classname") = some r.suite ∧ t.attribute? (lit "name") = some r.name ∧
    inner.map (fun u => (u.kind, u.name, u.attribute? (lit "message"))) = outcomeElements r

/-- One testsuite, with a testcase for each result in their order. -/
def ReportsSuite (suite : ByteString) (rs : List TestResult) (ts : List Xml.Tag) : Prop :=
  ∃ t parts, Xml.Element t parts.flatten ts ∧ t.starts (lit "testsuite") = true ∧
    Totals t suite (elementCount (lit "testcase") ts) (elementCount (lit "failure") ts)
      (elementCount (lit "skipped") ts) ∧
    List.Forall₂ ReportsResult rs parts

/-- The document: a testsuite for each suite in the order of their first results. -/
def ReportsRun (runName : ByteString) (results : List TestResult) (ts : List Xml.Tag) : Prop :=
  ∃ d t parts us, ts = d :: us ∧ d.kind = .declaration ∧ Xml.Element t parts.flatten us ∧
    t.starts (lit "testsuites") = true ∧
    Totals t runName (parts.map (elementCount (lit "testcase"))).sum
      (parts.map (elementCount (lit "failure"))).sum
      (parts.map (elementCount (lit "skipped"))).sum ∧
    List.Forall₂ (fun suite part =>
        ReportsSuite suite (Grouping.members TestResult.suite results suite) part)
      (Grouping.keys TestResult.suite results) parts

/-! ### The tags -/

section Tags

variable (fixed : ℕ → ℚ → ByteString)

def testcaseTag (kind : Xml.Kind) (r : TestResult) : Xml.Tag :=
  ⟨kind, lit "testcase", [(lit "classname", xmlEscape r.suite), (lit "name", xmlEscape r.name),
    (lit "time", fixed 3 r.seconds)]⟩

def messageTag (n message : ByteString) : Xml.Tag :=
  ⟨.empty, n, [(lit "message", xmlEscape message)]⟩

def countsTag (n name : ByteString) (c : Counts) : Xml.Tag :=
  ⟨.opening, n, [(lit "name", xmlEscape name), (lit "tests", ofNat c.tests),
    (lit "failures", ofNat c.failures), (lit "skipped", ofNat c.skipped),
    (lit "time", fixed 3 c.seconds)]⟩

/-- A testcase with an element in it. -/
def openPieces (r : TestResult) (n : ByteString) : List Xml.Piece :=
  [.text (lit "    "), .tag (testcaseTag fixed .opening r), .text (lit "\n      "),
    .tag (messageTag n r.message), .text (lit "\n    "), .tag (closingTag (lit "testcase")),
    .text (lit "\n")]

def resultPieces (r : TestResult) : List Xml.Piece :=
  match r.outcome with
  | .passed => [.text (lit "    "), .tag (testcaseTag fixed .empty r), .text (lit "\n")]
  | .failed => openPieces fixed r (lit "failure")
  | .skipped => openPieces fixed r (lit "skipped")

def suitePieces (suite : ByteString) (rs : List TestResult) : List Xml.Piece :=
  [.text (lit "  "), .tag (countsTag fixed (lit "testsuite") suite (count rs)),
    .text (lit "\n")] ++ rs.flatMap (resultPieces fixed) ++
  [.text (lit "  "), .tag (closingTag (lit "testsuite")), .text (lit "\n")]

def runPieces (runName : ByteString) (results : List TestResult) : List Xml.Piece :=
  [.tag declarationTag, .text (lit "\n"),
    .tag (countsTag fixed (lit "testsuites") runName (count results)), .text (lit "\n")] ++
  (Grouping.keys TestResult.suite results).flatMap (fun suite =>
    suitePieces fixed suite (Grouping.members TestResult.suite results suite)) ++
  [.tag (closingTag (lit "testsuites")), .text (lit "\n")]

/-- The bytes of a document in pieces. -/
def write (pieces : List Xml.Piece) : ByteString :=
  pieces.flatMap (Xml.Piece.renderWith '"'.toNat.toUInt8)

lemma write_append (a b : List Xml.Piece) : write (a ++ b) = write a ++ write b :=
  List.flatMap_append

lemma write_flatMap {α : Type*} (l : List α) (f : α → List Xml.Piece) :
    write (l.flatMap f) = l.flatMap fun a => write (f a) := List.flatMap_assoc

lemma renderResult_eq (r : TestResult) : renderResult fixed r = write (resultPieces fixed r) := by
  cases h : r.outcome <;>
    simp [renderResult, resultPieces, openPieces, h, write, Xml.Piece.renderWith,
      Xml.Tag.renderWith, Xml.renderAttributeWith, testcaseTag, messageTag, closingTag, lit]

lemma renderSuite_eq (suite : ByteString) (rs : List TestResult) :
    renderSuite fixed suite rs = write (suitePieces fixed suite rs) := by
  have hresults : write (rs.flatMap (resultPieces fixed)) = rs.flatMap (renderResult fixed) := by
    rw [write_flatMap]
    exact List.flatMap_congr fun r _ => (renderResult_eq fixed r).symm
  rw [suitePieces, write_append, write_append, hresults]
  simp [renderSuite, renderCounts, write, Xml.Piece.renderWith, Xml.Tag.renderWith,
    Xml.renderAttributeWith, countsTag, closingTag, lit]

lemma renderJunit_eq (runName : ByteString) (results : List TestResult) :
    renderJunit fixed runName results = write (runPieces fixed runName results) := by
  obtain hgroups := Suites.groups_group results
  have hsuites : write ((Grouping.keys TestResult.suite results).flatMap fun suite =>
        suitePieces fixed suite (Grouping.members TestResult.suite results suite)) =
      (Suites.group results).order.flatMap fun suite =>
        renderSuite fixed suite ((Suites.group results).results suite) := by
    rw [write_flatMap, hgroups.order_eq]
    refine List.flatMap_congr fun suite _ => ?_
    rw [hgroups.results_eq, renderSuite_eq]
  rw [runPieces, write_append, write_append, hsuites]
  simp [renderJunit, renderCounts, write, Xml.Piece.renderWith, Xml.Tag.renderWith,
    Xml.renderAttributeWith, countsTag, closingTag, declarationTag, lit]

end Tags

/-! ### Its scan -/

section Scan

variable {fixed : ℕ → ℚ → ByteString} (hfixed : ∀ decimals x, IsNumeral (fixed decimals x))

lemma quoted_xmlEscape_double (s : ByteString) : Xml.Quoted '"'.toNat.toUInt8 (xmlEscape s) :=
  quoted_xmlEscape (.inl rfl) s

/-- The pieces that are written as they are need no proof for each string. -/
lemma wellFormed_text {s : ByteString} (h : s.all (· != '<'.toNat.toUInt8) = true) :
    (Xml.Piece.text s).WellFormedWith '"'.toNat.toUInt8 := fun c hc =>
  bne_iff_ne.mp (List.all_eq_true.mp h c hc)

lemma wellFormed_messageTag {n : ByteString} (hn : Xml.isName n = true) (message : ByteString) :
    (messageTag n message).WellFormedWith '"'.toNat.toUInt8 where
  name := hn
  keys := by
    simp only [messageTag, List.forall_mem_cons]
    exact ⟨by decide, nofun⟩
  values := by
    simp only [messageTag, List.forall_mem_cons]
    exact ⟨quoted_xmlEscape_double _, nofun⟩
  closing := nofun

lemma wellFormed_closingTag {n : ByteString} (hn : Xml.isName n = true) :
    (closingTag n).WellFormedWith '"'.toNat.toUInt8 :=
  ⟨hn, nofun, nofun, fun _ => rfl⟩

lemma wellFormed_declarationTag : declarationTag.WellFormedWith '"'.toNat.toUInt8 :=
  let h := Dtest.Junit.wellFormed_declarationTag
  ⟨h.name, h.keys, h.values, h.closing⟩

include hfixed

lemma wellFormed_testcaseTag {kind : Xml.Kind} (hkind : kind ≠ .closing) (r : TestResult) :
    (testcaseTag fixed kind r).WellFormedWith '"'.toNat.toUInt8 where
  name := show Xml.isName (lit "testcase") = true by decide
  keys := by
    simp only [testcaseTag, List.forall_mem_cons]
    exact ⟨by decide, by decide, by decide, nofun⟩
  values := by
    simp only [testcaseTag, List.forall_mem_cons]
    exact ⟨quoted_xmlEscape_double _, quoted_xmlEscape_double _, (hfixed _ _).plain, nofun⟩
  closing h := absurd h hkind

lemma wellFormed_countsTag {n : ByteString} (hn : Xml.isName n = true) (name : ByteString)
    (c : Counts) : (countsTag fixed n name c).WellFormedWith '"'.toNat.toUInt8 where
  name := hn
  keys := by
    simp only [countsTag, List.forall_mem_cons]
    exact ⟨by decide, by decide, by decide, by decide, by decide, nofun⟩
  values := by
    simp only [countsTag, List.forall_mem_cons]
    exact ⟨quoted_xmlEscape_double _, (isNumeral_ofNat _).plain, (isNumeral_ofNat _).plain,
      (isNumeral_ofNat _).plain, (hfixed _ _).plain, nofun⟩
  closing := nofun

lemma wellFormed_openPieces (r : TestResult) {n : ByteString} (hn : Xml.isName n = true) :
    ∀ p ∈ openPieces fixed r n, p.WellFormedWith '"'.toNat.toUInt8 := by
  simp only [openPieces, List.forall_mem_cons]
  exact ⟨wellFormed_text (by decide), wellFormed_testcaseTag hfixed (by decide) r,
    wellFormed_text (by decide), wellFormed_messageTag hn _, wellFormed_text (by decide),
    wellFormed_closingTag (by decide), wellFormed_text (by decide), nofun⟩

lemma wellFormed_resultPieces (r : TestResult) :
    ∀ p ∈ resultPieces fixed r, p.WellFormedWith '"'.toNat.toUInt8 := by
  rw [resultPieces]
  cases r.outcome with
  | passed =>
    simp only [List.forall_mem_cons]
    exact ⟨wellFormed_text (by decide), wellFormed_testcaseTag hfixed (by decide) r,
      wellFormed_text (by decide), nofun⟩
  | failed => exact wellFormed_openPieces hfixed r (by decide)
  | skipped => exact wellFormed_openPieces hfixed r (by decide)

lemma wellFormed_suitePieces (suite : ByteString) (rs : List TestResult) :
    ∀ p ∈ suitePieces fixed suite rs, p.WellFormedWith '"'.toNat.toUInt8 := by
  simp only [suitePieces, List.forall_mem_append, List.forall_mem_cons, List.forall_mem_flatMap]
  exact ⟨⟨⟨wellFormed_text (by decide), wellFormed_countsTag hfixed (by decide) _ _,
    wellFormed_text (by decide), nofun⟩, fun r _ => wellFormed_resultPieces hfixed r⟩,
    wellFormed_text (by decide), wellFormed_closingTag (by decide), wellFormed_text (by decide),
    nofun⟩

lemma wellFormed_runPieces (runName : ByteString) (results : List TestResult) :
    ∀ p ∈ runPieces fixed runName results, p.WellFormedWith '"'.toNat.toUInt8 := by
  simp only [runPieces, List.forall_mem_append, List.forall_mem_cons, List.forall_mem_flatMap]
  exact ⟨⟨⟨wellFormed_declarationTag, wellFormed_text (by decide),
    wellFormed_countsTag hfixed (by decide) _ _, wellFormed_text (by decide),
    List.forall_mem_nil _⟩,
    fun suite _ => wellFormed_suitePieces hfixed suite _⟩,
    wellFormed_closingTag (by decide), wellFormed_text (by decide), List.forall_mem_nil _⟩

end Scan

/-! ### Its tags -/

section Reports

variable (fixed : ℕ → ℚ → ByteString)

def resultTags (r : TestResult) : List Xml.Tag := (resultPieces fixed r).flatMap Xml.Piece.tags

def suiteTags (suite : ByteString) (rs : List TestResult) : List Xml.Tag :=
  (suitePieces fixed suite rs).flatMap Xml.Piece.tags

lemma suiteTags_eq (suite : ByteString) (rs : List TestResult) :
    suiteTags fixed suite rs = countsTag fixed (lit "testsuite") suite (count rs) ::
      rs.flatMap (resultTags fixed) ++ [closingTag (lit "testsuite")] := by
  have hresults : (rs.flatMap (resultPieces fixed)).flatMap Xml.Piece.tags =
      rs.flatMap (resultTags fixed) := List.flatMap_assoc
  rw [suiteTags, suitePieces, List.flatMap_append, List.flatMap_append, hresults]
  rfl

lemma tags_runPieces (runName : ByteString) (results : List TestResult) :
    (runPieces fixed runName results).flatMap Xml.Piece.tags =
      declarationTag :: countsTag fixed (lit "testsuites") runName (count results) ::
        (Grouping.keys TestResult.suite results).flatMap (fun suite =>
          suiteTags fixed suite (Grouping.members TestResult.suite results suite)) ++
        [closingTag (lit "testsuites")] := by
  rw [runPieces, List.flatMap_append, List.flatMap_append, List.flatMap_assoc]
  rfl

lemma totals_countsTag (n name : ByteString) (c : Counts) :
    Totals (countsTag fixed n name c) name c.tests c.failures c.skipped :=
  ⟨decode_xmlEscape name, decode_ofNat _, decode_ofNat _, decode_ofNat _⟩

lemma reportsResult_open {r : TestResult} {n : ByteString}
    (h : resultPieces fixed r = openPieces fixed r n)
    (helements : outcomeElements r = [(.empty, n, some r.message)]) :
    ReportsResult r (resultTags fixed r) := by
  refine ⟨testcaseTag fixed .opening r, [messageTag n r.message], ?_, rfl, decode_xmlEscape _,
    decode_xmlEscape _, ?_⟩
  · rw [resultTags, h]
    exact .enclosing rfl rfl
  · have hmessage : (messageTag n r.message).attribute? (lit "message") = some r.message :=
      decode_xmlEscape r.message
    rw [List.map_singleton, hmessage, helements]
    rfl

lemma reportsResult (r : TestResult) : ReportsResult r (resultTags fixed r) := by
  cases h : r.outcome with
  | passed =>
    refine ⟨testcaseTag fixed .empty r, [], ?_, rfl, decode_xmlEscape _, decode_xmlEscape _, ?_⟩
    · rw [resultTags, resultPieces, h]
      exact .empty rfl
    · rw [outcomeElements, h]
      rfl
  | failed => exact reportsResult_open fixed (by rw [resultPieces, h]) (by rw [outcomeElements, h])
  | skipped => exact reportsResult_open fixed (by rw [resultPieces, h]) (by rw [outcomeElements, h])

lemma reportsResults (rs : List TestResult) :
    List.Forall₂ ReportsResult rs (rs.map (resultTags fixed)) :=
  List.forall₂_map_right_iff.mpr (List.forall₂_same.mpr fun r _ => reportsResult fixed r)

/-! ### Its numbers -/

/-- The number of elements of a name that a result adds. -/
lemma elementCount_resultTags (r : TestResult) :
    elementCount (lit "testcase") (resultTags fixed r) = 1 ∧
      elementCount (lit "failure") (resultTags fixed r) = (if r.outcome = .failed then 1 else 0) ∧
      elementCount (lit "skipped") (resultTags fixed r) =
        if r.outcome = .skipped then 1 else 0 := by
  cases h : r.outcome <;> rw [resultTags, resultPieces, h] <;> exact ⟨rfl, rfl, rfl⟩

lemma elementCount_append (n : ByteString) (ts us : List Xml.Tag) :
    elementCount n (ts ++ us) = elementCount n ts + elementCount n us := List.countP_append

/-- The numbers in the attributes are those of the elements in the testcases. -/
lemma elementCount_results (rs : List TestResult) :
    elementCount (lit "testcase") (rs.flatMap (resultTags fixed)) = (count rs).tests ∧
      elementCount (lit "failure") (rs.flatMap (resultTags fixed)) = (count rs).failures ∧
      elementCount (lit "skipped") (rs.flatMap (resultTags fixed)) = (count rs).skipped := by
  rw [count_eq]
  induction rs with
  | nil => exact ⟨rfl, rfl, rfl⟩
  | cons r rs ih =>
    obtain ⟨htests, hfailures, hskipped⟩ := ih
    obtain ⟨htest, hfailure, hskip⟩ := elementCount_resultTags fixed r
    simp only [List.flatMap_cons, elementCount_append, htests, hfailures, hskipped, htest,
      hfailure, hskip, List.length_cons, List.countP_cons, decide_eq_true_eq]
    exact ⟨Nat.add_comm _ _, Nat.add_comm _ _, Nat.add_comm _ _⟩

/-- The tags of the suite itself are none of the elements that are counted. -/
lemma elementCount_suiteTags {n : ByteString} (hn : n ≠ lit "testsuite") (suite : ByteString)
    (rs : List TestResult) :
    elementCount n (suiteTags fixed suite rs) =
      elementCount n (rs.flatMap (resultTags fixed)) := by
  have hopening : (countsTag fixed (lit "testsuite") suite (count rs)).starts n = false := by
    simpa [Xml.Tag.starts, countsTag] using Ne.symm hn
  have hclosing : (closingTag (lit "testsuite")).starts n = false := rfl
  rw [suiteTags_eq, List.cons_append, elementCount, List.countP_cons_of_neg (by simp [hopening]),
    List.countP_append, List.countP_singleton, hclosing]
  rfl

lemma reportsSuite (suite : ByteString) (rs : List TestResult) :
    ReportsSuite suite rs (suiteTags fixed suite rs) := by
  refine ⟨countsTag fixed (lit "testsuite") suite (count rs), rs.map (resultTags fixed), ?_, rfl,
    ?_, reportsResults fixed rs⟩
  · rw [suiteTags_eq, List.flatMap_def]
    refine .enclosing rfl (Xml.Balanced.flatten fun ts hts => ?_)
    obtain ⟨r, -, rfl⟩ := List.mem_map.mp hts
    obtain ⟨t, inner, helement, -⟩ := reportsResult fixed r
    exact helement.balanced
  · obtain ⟨htests, hfailures, hskipped⟩ := elementCount_results fixed rs
    rw [elementCount_suiteTags fixed (by decide), elementCount_suiteTags fixed (by decide),
      elementCount_suiteTags fixed (by decide), htests, hfailures, hskipped]
    exact totals_countsTag fixed _ suite (count rs)

/-- Whether the results are counted suite by suite or all at once. -/
lemma sum_elementCount {n : ByteString} (hn : n ≠ lit "testsuite") (results : List TestResult) :
    (((Grouping.keys TestResult.suite results).map fun suite =>
      suiteTags fixed suite (Grouping.members TestResult.suite results suite)).map
        (elementCount n)).sum = elementCount n (results.flatMap (resultTags fixed)) := by
  have hperm := (Grouping.perm_flatMap_members TestResult.suite results).flatMap_right
    (resultTags fixed)
  rw [List.map_map]
  calc _ = ((Grouping.keys TestResult.suite results).map fun suite =>
        elementCount n ((Grouping.members TestResult.suite results suite).flatMap
          (resultTags fixed))).sum := by
        congr 1
        exact List.map_congr_left fun suite _ => elementCount_suiteTags fixed hn suite _
    _ = elementCount n (((Grouping.keys TestResult.suite results).flatMap
          (Grouping.members TestResult.suite results)).flatMap (resultTags fixed)) := by
        rw [List.flatMap_assoc, elementCount, List.countP_flatMap]
        rfl
    _ = elementCount n (results.flatMap (resultTags fixed)) := hperm.countP_eq _

lemma reportsRun (runName : ByteString) (results : List TestResult) :
    ReportsRun runName results ((runPieces fixed runName results).flatMap Xml.Piece.tags) := by
  refine ⟨declarationTag, countsTag fixed (lit "testsuites") runName (count results),
    (Grouping.keys TestResult.suite results).map fun suite =>
      suiteTags fixed suite (Grouping.members TestResult.suite results suite), _,
    tags_runPieces fixed runName results, rfl, ?_, rfl, ?_, ?_⟩
  · rw [List.flatMap_def]
    refine .enclosing rfl (Xml.Balanced.flatten fun ts hts => ?_)
    obtain ⟨suite, -, rfl⟩ := List.mem_map.mp hts
    obtain ⟨t, parts, helement, -⟩ := reportsSuite fixed suite
      (Grouping.members TestResult.suite results suite)
    exact helement.balanced
  · obtain ⟨htests, hfailures, hskipped⟩ := elementCount_results fixed results
    rw [sum_elementCount fixed (by decide), sum_elementCount fixed (by decide),
      sum_elementCount fixed (by decide), htests, hfailures, hskipped]
    exact totals_countsTag fixed _ runName (count results)
  · exact List.forall₂_map_right_iff.mpr (List.forall₂_same.mpr fun suite _ =>
      reportsSuite fixed suite _)

end Reports

/-- The elements of the document are all closed. -/
lemma ReportsRun.balanced {runName : ByteString} {results : List TestResult} {ts : List Xml.Tag}
    (h : ReportsRun runName results ts) : Xml.Balanced ts := by
  obtain ⟨d, t, parts, us, rfl, hd, helement, -⟩ := h
  have hdeclaration : Xml.Balanced [d] := by simp [Xml.Balanced, Xml.closes, hd]
  exact hdeclaration.append helement.balanced

/-- For any name of the run and any results, in any order of their suites: a reader of the document
finds one testsuite for each suite, in it one testcase for each of its results, the numbers of these
in the attributes, their sums in those of the run, and behind all attributes the strings of the
results. -/
theorem junit_partition {fixed : ℕ → ℚ → ByteString}
    (hfixed : ∀ decimals x, IsNumeral (fixed decimals x)) (runName : ByteString)
    (results : List TestResult) :
    ∃ tokens, Xml.scan (renderJunit fixed runName results) = some tokens ∧
      Xml.Balanced (Xml.tags tokens) ∧ ReportsRun runName results (Xml.tags tokens) := by
  refine ⟨(runPieces fixed runName results).flatMap Xml.Piece.tokens, ?_, ?_⟩
  · rw [renderJunit_eq]
    exact Xml.scan_pieces (.inl rfl) (wellFormed_runPieces hfixed runName results)
  · rw [Xml.tags_pieces]
    exact ⟨(reportsRun fixed runName results).balanced, reportsRun fixed runName results⟩

/-- Two suites in turns, one of them named like a tag. -/
def interleaved : List TestResult :=
  [{ suite := lit "guest", name := lit "a&b" },
    { suite := lit "\"/><x y='", name := lit "t", outcome := .failed, message := [0x1b, 0xff] },
    { suite := lit "guest", name := lit "c", outcome := .skipped, message := lit "<off>" }]

theorem junit_partition_interleaved :
    ∃ tokens, Xml.scan (renderJunit fixedDecimal (lit "nightly") interleaved) = some tokens ∧
      Xml.Balanced (Xml.tags tokens) ∧
      ReportsRun (lit "nightly") interleaved (Xml.tags tokens) :=
  junit_partition Dtest.Junit.isNumeral_fixedDecimal (lit "nightly") interleaved

/-! ### Control characters -/

/-- A byte of a text that XML allows: no control character but tab, newline and carriage return. -/
def Allowed (c : UInt8) : Prop :=
  0x20 ≤ c ∨ c = '\t'.toNat.toUInt8 ∨ c = '\n'.toNat.toUInt8 ∨ c = '\r'.toNat.toUInt8

instance : DecidablePred Allowed := fun _ => inferInstanceAs (Decidable (_ ∨ _))

/-- All bytes of the string are allowed. -/
def Clear (s : ByteString) : Prop := ∀ c ∈ s, Allowed c

instance (s : ByteString) : Decidable (Clear s) := List.decidableBAll _ s

lemma clear_append {s t : ByteString} : Clear (s ++ t) ↔ Clear s ∧ Clear t :=
  List.forall_mem_append

lemma clear_flatMap {α : Type*} {l : List α} {f : α → ByteString} :
    Clear (l.flatMap f) ↔ ∀ a ∈ l, Clear (f a) := List.forall_mem_flatMap

lemma clear_xmlEscapeByte (c : UInt8) : Clear (xmlEscapeByte c) ↔ Allowed c := by
  unfold xmlEscapeByte
  split_ifs with hamp hlt hgt hquot hapos
  · subst hamp; decide
  · subst hlt; decide
  · subst hgt; decide
  · subst hquot; decide
  · subst hapos; decide
  · exact List.forall_mem_singleton

/-- The escaping keeps every control character. -/
lemma clear_xmlEscape (s : ByteString) : Clear (xmlEscape s) ↔ Clear s := by
  rw [xmlEscape, clear_flatMap]
  exact forall₂_congr fun c _ => clear_xmlEscapeByte c

lemma clear_of_isNumeral {s : ByteString} (h : IsNumeral s) : Clear s := by
  intro c hc
  left
  rcases h c hc with hdigit | rfl | rfl | ⟨hlow, -⟩
  · simp only [isDigit, Bool.and_eq_true, decide_eq_true_eq] at hdigit
    exact UInt8.le_trans (by decide) hdigit.1
  · decide
  · decide
  · exact UInt8.le_trans (by decide) hlow

section Bytes

variable {fixed : ℕ → ℚ → ByteString} (hfixed : ∀ decimals x, IsNumeral (fixed decimals x))

include hfixed

lemma clear_renderResult (r : TestResult) :
    Clear (renderResult fixed r) ↔
      Clear r.suite ∧ Clear r.name ∧ (r.outcome ≠ .passed → Clear r.message) := by
  have hnumber : Clear (fixed 3 r.seconds) := clear_of_isNumeral (hfixed _ _)
  have hlits : Clear (lit "    <testcase classname=\"") ∧ Clear (lit "\" name=\"") ∧
      Clear (lit "\" time=\"") ∧ Clear (lit "\"") ∧ Clear (lit "/>\n") ∧
      Clear (lit ">\n      <failure message=\"") ∧ Clear (lit ">\n      <skipped message=\"") ∧
      Clear (lit "\"/>\n    </testcase>\n") := by decide
  cases h : r.outcome <;>
    simp [renderResult, h, clear_append, clear_xmlEscape, hnumber, hlits]

lemma clear_renderCounts (name : ByteString) (c : Counts) :
    Clear (renderCounts fixed name c) ↔ Clear name := by
  have hnumber (x : ℚ) : Clear (fixed 3 x) := clear_of_isNumeral (hfixed _ _)
  have hcount (n : ℕ) : Clear (ofNat n) := clear_of_isNumeral (isNumeral_ofNat n)
  have hlits : Clear (lit " name=\"") ∧ Clear (lit "\" tests=\"") ∧
      Clear (lit "\" failures=\"") ∧ Clear (lit "\" skipped=\"") ∧
      Clear (lit "\" time=\"") ∧ Clear (lit "\">\n") := by decide
  simp [renderCounts, clear_append, clear_xmlEscape, hnumber, hcount, hlits]

lemma clear_renderSuite (suite : ByteString) (rs : List TestResult) :
    Clear (renderSuite fixed suite rs) ↔
      Clear suite ∧ ∀ r ∈ rs, Clear (renderResult fixed r) := by
  have hlits : Clear (lit "  <testsuite") ∧ Clear (lit "  </testsuite>\n") := by decide
  simp [renderSuite, clear_append, clear_renderCounts hfixed, clear_flatMap, hlits]

/-- XML allows every byte of the document exactly if it allows those of all strings written. -/
theorem junit_allowed_iff (runName : ByteString) (results : List TestResult) :
    (∀ c ∈ renderJunit fixed runName results, Allowed c) ↔
      Clear runName ∧ ∀ r ∈ results,
        Clear r.suite ∧ Clear r.name ∧ (r.outcome ≠ .passed → Clear r.message) := by
  have hgroups := Suites.groups_group results
  have hlits : Clear (lit "<?xml version=\"1.0\" encoding=\"UTF-8\"?>\n") ∧
      Clear (lit "<testsuites") ∧ Clear (lit "</testsuites>\n") := by decide
  -- the suites are those of the results, and each result is in its own
  have hsuites : (∀ suite ∈ Grouping.keys TestResult.suite results, Clear suite ∧
        ∀ r ∈ Grouping.members TestResult.suite results suite, Clear (renderResult fixed r)) ↔
      ∀ r ∈ results, Clear (renderResult fixed r) := by
    constructor
    · intro h r hr
      have hkey := (Grouping.mem_keys TestResult.suite).mpr (List.mem_map_of_mem hr)
      exact (h r.suite hkey).2 r ((Grouping.mem_members _).mpr ⟨hr, rfl⟩)
    · intro h suite hsuite
      obtain ⟨r, hr, rfl⟩ := List.mem_map.mp ((Grouping.mem_keys _).mp hsuite)
      exact ⟨((clear_renderResult hfixed r).mp (h r hr)).1,
        fun r' hr' => h r' ((Grouping.mem_members _).mp hr').1⟩
  have hdocument : Clear (renderJunit fixed runName results) ↔ Clear runName ∧
      ∀ suite ∈ Grouping.keys TestResult.suite results, Clear suite ∧
        ∀ r ∈ Grouping.members TestResult.suite results suite, Clear (renderResult fixed r) := by
    simp only [renderJunit, clear_append, clear_renderCounts hfixed, clear_flatMap,
      clear_renderSuite hfixed, hgroups.order_eq, hgroups.results_eq, hlits, true_and, and_true]
  exact hdocument.trans (and_congr_right fun _ =>
    hsuites.trans (forall₂_congr fun r _ => clear_renderResult hfixed r))

end Bytes

/-- A guest command that writes an escape character. -/
def colored : List TestResult :=
  [{ suite := lit "guest", name := lit "stdout_stderr_capture", outcome := .failed,
     message := lit "stdout mismatch: '" ++ [0x1b, 0x5b, 0x6d] ++ lit "'" }]

/-- A guest command that writes a tab and two lines. -/
def tabbed : List TestResult :=
  [{ suite := lit "guest", name := lit "exit_code_propagates" },
   { suite := lit "guest", name := lit "stdout_stderr_capture", outcome := .failed,
     message := lit "stdout mismatch: 'a\tb\nc'" }]

/-- The condition tells the two apart. -/
theorem junit_allowed_iff_tabbed :
    (∀ c ∈ renderJunit fixedDecimal (lit "vmtest") tabbed, Allowed c) ∧
      ¬ ∀ c ∈ renderJunit fixedDecimal (lit "vmtest") colored, Allowed c := by
  have htabbed := junit_allowed_iff Dtest.Junit.isNumeral_fixedDecimal (lit "vmtest") tabbed
  have hcolored := junit_allowed_iff Dtest.Junit.isNumeral_fixedDecimal (lit "vmtest") colored
  exact ⟨htabbed.mpr (by decide), fun h => absurd (hcolored.mp h) (by decide)⟩

theorem not_junit_allowed :
    ¬ ∀ runName results, ∀ c ∈ renderJunit fixedDecimal runName results, Allowed c := by
  intro h
  have hescape : (0x1b : UInt8) ∈ renderJunit fixedDecimal (lit "vmtest") colored := by
    decide +kernel
  exact absurd (h _ _ _ hescape) (by decide)

end Vmtest
