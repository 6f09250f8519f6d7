import Mathlib.Data.List.TakeWhile
import ValidationSuite.Dtest.Report.Junit
import ValidationSuite.Library.Utf8

/-!
# The encoding of the JUnit report

The document says that it is UTF-8. `xml_escape` takes care of the control characters and lets all
other bytes pass, and `tail` cuts the standard error of a test between any two bytes.
-/

namespace Dtest.Junit

open ByteString Utf8

/-- The characters that are allowed in the report once they are escaped. -/
def Reportable (c : Char) : Prop := c.toNat ≠ 0xfffe ∧ c.toNat ≠ 0xffff

lemma xmlEscape_replaces : Replaces Xml.IsChar Reportable xmlEscapeByte where
  ascii x hx := by
    have hvalue : (asciiChar x).toNat = x.toNat := toNat_asciiChar hx
    have hlt : x.toNat < 0x80 := hx
    refine ⟨?_, ?_, ?_⟩
    · unfold xmlEscapeByte
      split_ifs with hamp hlt hgt hquot hapos hcontrol
      · decide
      · decide
      · decide
      · decide
      · decide
      · decide
      · intro y hy
        obtain rfl := List.mem_singleton.mp hy
        refine ⟨hx, ?_⟩
        by_cases hspace : y < 0x20
        · -- a control character that XML allows
          have hcontrol : y = '\n'.toNat.toUInt8 ∨ y = '\t'.toNat.toUInt8 ∨
              y = '\r'.toNat.toUInt8 := by
            by_contra hother
            rw [not_or, not_or] at hother
            exact hcontrol ⟨hspace, hother⟩
          rcases hcontrol with rfl | rfl | rfl <;> decide
        · have hle : 0x20 ≤ y.toNat := UInt8.not_lt.mp hspace
          exact .inr (.inr (.inr (.inl (by omega))))
    · unfold xmlEscapeByte
      split_ifs <;> exact List.cons_ne_nil _ _
    · exact ⟨by omega, by omega⟩
  other x hx := by
    have hne : ∀ y : UInt8, y < 0x80 → x ≠ y := by
      rintro y hy rfl
      exact hx hy
    have hspace : ¬ x < 0x20 := fun hlt =>
      hx (UInt8.lt_trans hlt (show (0x20 : UInt8) < 0x80 by decide))
    rw [xmlEscapeByte, if_neg (hne _ (by decide)), if_neg (hne _ (by decide)),
      if_neg (hne _ (by decide)), if_neg (hne _ (by decide)), if_neg (hne _ (by decide)),
      if_neg fun hcontrol => hspace hcontrol.1]
  agree c hc := by
    have hle := le_toNat_of_not_ascii hc
    have hvalid : c.toNat < 0xd800 ∨ (0xdfff < c.toNat ∧ c.toNat < 0x110000) := c.valid
    unfold Xml.IsChar Reportable
    omega

/-- An escaped string is allowed if its characters are. -/
lemma valid_xmlEscape (s : ByteString) :
    Valid Xml.IsChar (xmlEscape s) ↔ Valid Reportable s :=
  xmlEscape_replaces.valid_flatMap s

/-! ### Numbers and tags -/

lemma IsNumeral.ascii {s : ByteString} (h : IsNumeral s) : Ascii Xml.IsChar s := by
  intro x hx
  have hrange : 0x20 ≤ x.toNat ∧ x.toNat < 0x80 := by
    rcases h x hx with hdigit | rfl | rfl | ⟨hle, hlt⟩
    · simp only [isDigit, Bool.and_eq_true, decide_eq_true_eq, UInt8.le_iff_toNat_le] at hdigit
      obtain ⟨hle, hlt⟩ : 0x30 ≤ x.toNat ∧ x.toNat ≤ 0x39 := hdigit
      omega
    · decide
    · decide
    · obtain ⟨hle, hlt⟩ : 0x61 ≤ x.toNat ∧ x.toNat ≤ 0x7a := ⟨hle, hlt⟩
      omega
  have hx : x < 0x80 := hrange.2
  have hvalue : (asciiChar x).toNat = x.toNat := toNat_asciiChar hx
  exact ⟨hx, .inr (.inr (.inr (.inl (by omega))))⟩

lemma stands_renderAttribute {k : ByteString} (hk : Ascii Xml.IsChar k) (v : ByteString) :
    Stands Xml.IsChar (Xml.renderAttribute (k, v)) (Valid Xml.IsChar v) := by
  have hkey : Ascii Xml.IsChar (lit " " ++ k ++ lit "=\"") :=
    (Ascii.append (by decide) hk).append (by decide)
  have hquote : Ascii Xml.IsChar (lit "\"") := by decide
  have h := (Stands.of_ascii hkey).append (.between v hquote (by decide))
  rw [← List.append_assoc] at h
  exact h.congr (iff_of_eq (true_and _))

/-- The values of its attributes decide about a tag. -/
lemma stands_render {t : Xml.Tag} (hname : Ascii Xml.IsChar t.name)
    (hkeys : ∀ a ∈ t.attributes, Ascii Xml.IsChar a.1) :
    Stands Xml.IsChar t.render (∀ a ∈ t.attributes, Valid Xml.IsChar a.2) := by
  obtain ⟨kind, n, as⟩ := t
  have has : Stands Xml.IsChar (as.flatMap Xml.renderAttribute)
      (∀ a ∈ as, Valid Xml.IsChar a.2) :=
    .flatMap fun a ha => stands_renderAttribute (hkeys a ha) a.2
  refine has.around (.append ?_ hname) ?_
  · cases kind <;> dsimp only <;> decide
  · cases kind <;> dsimp only <;> decide

lemma ascii_closing {n : ByteString} (hn : Ascii Xml.IsChar n) :
    Ascii Xml.IsChar (Xml.Tag.render ⟨.closing, n, []⟩) := by
  have hslash : Ascii Xml.IsChar (lit "</") := by decide
  have hgt : Ascii Xml.IsChar (lit ">") := by decide
  exact ((hslash.append hn).append .nil).append hgt

section Tags

variable {fixed : ℕ → ℚ → ByteString} (hfixed : ∀ decimals x, IsNumeral (fixed decimals x))

include hfixed in
lemma stands_testcaseTag (kind : Xml.Kind) (o : TaskOutcome) :
    Stands Xml.IsChar (testcaseTag fixed kind o).render
      (Valid Reportable (lastAgent o) ∧ Valid Reportable o.task.name) := by
  have hkeys : ∀ a ∈ (testcaseTag fixed kind o).attributes, Ascii Xml.IsChar a.1 := by
    simp only [testcaseTag, List.forall_mem_cons]
    exact ⟨by decide, by decide, by decide, List.forall_mem_nil _⟩
  have hname : Ascii Xml.IsChar (testcaseTag fixed kind o).name :=
    show Ascii Xml.IsChar (lit "testcase") by decide
  apply (stands_render hname hkeys).congr
  simp [testcaseTag, valid_xmlEscape, (hfixed _ _).ascii.valid]

lemma stands_messageTag {n : ByteString} (hn : Ascii Xml.IsChar n) (kind : Xml.Kind)
    (message : ByteString) :
    Stands Xml.IsChar (messageTag kind n message).render (Valid Reportable message) := by
  have hkeys : ∀ a ∈ (messageTag kind n message).attributes, Ascii Xml.IsChar a.1 := by
    simp only [messageTag, List.forall_mem_cons]
    exact ⟨by decide, List.forall_mem_nil _⟩
  apply (stands_render hn hkeys).congr
  simp [messageTag, valid_xmlEscape]

include hfixed in
lemma stands_suiteTag {n : ByteString} (hn : Ascii Xml.IsChar n) (suiteName : ByteString)
    (s : RunSummary) :
    Stands Xml.IsChar (suiteTag fixed n suiteName s).render (Valid Reportable suiteName) := by
  have hkeys : ∀ a ∈ (suiteTag fixed n suiteName s).attributes, Ascii Xml.IsChar a.1 := by
    simp only [suiteTag, List.forall_mem_cons]
    exact ⟨by decide, by decide, by decide, by decide, by decide, List.forall_mem_nil _⟩
  apply (stands_render hn hkeys).congr
  simp [suiteTag, valid_xmlEscape, (hfixed _ _).ascii.valid, (isNumeral_ofNat _).ascii.valid]

end Tags

/-! ### Outcomes -/

/-- What is shown of an outcome encodes characters that may be reported. -/
structure Readable (o : TaskOutcome) : Prop where
  name : Valid Reportable o.task.name
  agent : ∀ last ∈ o.attempts.getLast?, Valid Reportable last.agent
  message : o.status = .unschedulable → Valid Reportable o.message
  failure : o.status = .failed ∨ o.status = .timedOut → ∀ last ∈ o.attempts.getLast?,
    Valid Reportable last.result.message ∧ Valid Reportable (tail last.result.err 40 4000)

instance : DecidablePred Reportable := fun _ => inferInstanceAs (Decidable (_ ∧ _))

lemma IsNumeral.reportable {s : ByteString} (h : IsNumeral s) : Ascii Reportable s := by
  intro x hx
  obtain ⟨hlt, -⟩ := h.ascii x hx
  exact ⟨hlt, (xmlEscape_replaces.ascii x hlt).2.2⟩

lemma valid_lastAgent (o : TaskOutcome) :
    Valid Reportable (lastAgent o) ↔ ∀ last ∈ o.attempts.getLast?, Valid Reportable last.agent := by
  unfold lastAgent
  have hunscheduled : Ascii Reportable (lit "unscheduled") := by decide
  cases o.attempts.getLast? with
  | none => simp [hunscheduled.valid]
  | some last => simp

/-- All but the message of an attempt is ASCII in its description. -/
lemma describeLastAttempt_eq {o : TaskOutcome} {last : AttemptRecord}
    (hlast : o.attempts.getLast? = some last) :
    ∃ status, Ascii Reportable status ∧ describeLastAttempt o = status ++
      if last.result.message.isEmpty then [] else lit " (" ++ last.result.message ++ lit ")" := by
  simp only [describeLastAttempt, hlast]
  refine ⟨_, ?_, rfl⟩
  cases last.result.status with
  | failed =>
    dsimp only
    split_ifs with hcode
    · rw [ofInt, if_neg (not_lt.mpr hcode)]
      exact .append (by decide) (isNumeral_ofNat _).reportable
    · decide
  | _ =>
    dsimp only
    decide

lemma valid_describeLastAttempt {o : TaskOutcome} {last : AttemptRecord}
    (hlast : o.attempts.getLast? = some last) :
    Valid Reportable (describeLastAttempt o) ↔ Valid Reportable last.result.message := by
  obtain ⟨status, hstatus, heq⟩ := describeLastAttempt_eq hlast
  rw [heq, hstatus.valid_append]
  cases last.result.message with
  | nil => rfl
  | cons c message =>
    have hopen : Ascii Reportable (lit " (") := by decide
    have hclose : Ascii Reportable (lit ")") := by decide
    rw [List.isEmpty_cons, if_neg Bool.false_ne_true, List.append_assoc, hopen.valid_append,
      (Stands.between _ hclose (by decide)).valid_iff]

section Outcome

variable {fixed : ℕ → ℚ → ByteString} {o : TaskOutcome}

/-- Whether the text of an outcome is valid depends on what is shown of it. -/
def Shown (fixed : ℕ → ℚ → ByteString) (o : TaskOutcome) : Prop :=
  ∃ doc, renderJunitOutcome fixed o = some doc ∧ Stands Xml.IsChar doc (Readable o)

variable (hfixed : ∀ decimals x, IsNumeral (fixed decimals x))

include hfixed

lemma shown_passed (hstatus : o.status = .passed) (hflaky : o.flaky = false) :
    Shown fixed o := by
  refine ⟨_, renderJunitOutcome_passed hstatus hflaky, ?_⟩
  apply ((stands_testcaseTag hfixed .empty o).around (by decide) (by decide)).congr
  rw [valid_lastAgent]
  constructor
  · rintro ⟨hagent, hname⟩
    exact ⟨hname, hagent, by simp [hstatus], by simp [hstatus]⟩
  · intro h
    exact ⟨h.agent, h.name⟩

/-- An outcome with a text between the tags of its element. -/
lemma shown_open {text : ByteString} {P : Prop}
    (hrender : renderJunitOutcome fixed o =
      some (lit "    " ++ ((testcaseTag fixed .opening o).render ++ text ++
        Xml.Tag.render ⟨.closing, lit "testcase", []⟩) ++ lit "\n"))
    (htext : Stands Xml.IsChar text P)
    (hreadable : (∀ last ∈ o.attempts.getLast?, Valid Reportable last.agent) ∧
      Valid Reportable o.task.name ∧ P → Readable o)
    (hshown : Readable o → P) : Shown fixed o := by
  have hclosing : Ascii Xml.IsChar (Xml.Tag.render ⟨.closing, lit "testcase", []⟩) :=
    ascii_closing (by decide)
  refine ⟨_, hrender, ?_⟩
  refine ((((stands_testcaseTag hfixed .opening o).append htext).append
    (.of_ascii hclosing)).around (by decide) (by decide)).congr ?_
  rw [valid_lastAgent]
  constructor
  · rintro ⟨⟨⟨hagent, hname⟩, hP⟩, -⟩
    exact hreadable ⟨hagent, hname, hP⟩
  · intro h
    exact ⟨⟨⟨h.agent, h.name⟩, hshown h⟩, trivial⟩

lemma shown_skipped (hstatus : o.status = .unschedulable) (hflaky : o.flaky = false) :
    Shown fixed o := by
  have hskipped : Ascii Xml.IsChar (lit "skipped") := by decide
  refine shown_open hfixed (renderJunitOutcome_skipped hstatus hflaky)
    ((stands_messageTag hskipped .empty o.message).around (by decide) (by decide)) ?_ ?_
  · rintro ⟨hagent, hname, hmessage⟩
    exact ⟨hname, hagent, fun _ => hmessage, by simp [hstatus]⟩
  · intro h
    exact h.message hstatus

lemma shown_failed (hstatus : o.status = .failed ∨ o.status = .timedOut)
    (hflaky : o.flaky = false) (hattempts : o.attempts ≠ []) : Shown fixed o := by
  obtain ⟨last, hlast⟩ :=
    Option.ne_none_iff_exists'.mp (mt List.getLast?_eq_none_iff.mp hattempts)
  have hne : o.status ≠ .unschedulable := by
    rcases hstatus with h | h <;> simp [h]
  have herr : lastErr o = last.result.err := by simp [lastErr, hlast]
  have hfailure : Ascii Xml.IsChar (lit "failure") := by decide
  have hclosing : Ascii Xml.IsChar (Xml.Tag.render ⟨.closing, lit "failure", []⟩) :=
    ascii_closing hfailure
  have htext := (stands_messageTag hfailure .opening (describeLastAttempt o)).append
    (.between (xmlEscape (tail (lastErr o) 40 4000)) hclosing (by decide))
  rw [← List.append_assoc, valid_xmlEscape, valid_describeLastAttempt hlast] at htext
  refine shown_open hfixed (renderJunitOutcome_failed hstatus hflaky hattempts)
    (htext.around (by decide) (by decide)) ?_ ?_
  · rintro ⟨hagent, hname, hkept⟩
    refine ⟨hname, hagent, fun h => absurd h hne, fun _ last' hlast' => ?_⟩
    obtain rfl := Option.some.inj (hlast.symm.trans hlast')
    rwa [herr] at hkept
  · intro h
    rw [herr]
    exact h.failure hstatus last hlast

lemma shown_flaky (hstatus : o.status = .passed) (hflaky : o.flaky = true) : Shown fixed o := by
  have hopening : Ascii Xml.IsChar (Xml.Tag.render ⟨.opening, lit "system-out", []⟩) := by decide
  have hclosing : Ascii Xml.IsChar (Xml.Tag.render ⟨.closing, lit "system-out", []⟩) := by decide
  have hattempts : Ascii Xml.IsChar (ofNat o.attempts.length) := (isNumeral_ofNat _).ascii
  have hflaky' : Ascii Xml.IsChar (lit "flaky: passed on attempt ") := by decide
  have htext : Ascii Xml.IsChar (lit "flaky: passed on attempt " ++ ofNat o.attempts.length ++
      lit " of " ++ ofNat o.attempts.length ++ lit " (earlier attempts failed)") :=
    .append (.append (.append (hflaky'.append hattempts) (by decide)) hattempts) (by decide)
  refine shown_open hfixed (renderJunitOutcome_flaky hstatus hflaky)
    ((Stands.of_ascii ((hopening.append htext).append hclosing)).around (by decide) (by decide))
    ?_ ?_
  · rintro ⟨hagent, hname, -⟩
    exact ⟨hname, hagent, by simp [hstatus], by simp [hstatus]⟩
  · exact fun _ => trivial

/-- Every outcome is shown. -/
lemma shown (hattempts : o.status ≠ .unschedulable → o.attempts ≠ []) : Shown fixed o := by
  rcases outcome_cases hattempts with ⟨hstatus, hflaky⟩ | ⟨hstatus, hflaky⟩ |
    ⟨hstatus, hflaky, hne⟩ | ⟨hstatus, hflaky⟩
  · exact shown_passed hfixed hstatus hflaky
  · exact shown_flaky hfixed hstatus hflaky
  · exact shown_failed hfixed hstatus hflaky hne
  · exact shown_skipped hfixed hstatus hflaky

end Outcome

/-! ### The kept end of the standard error -/

/-- What is left of a stream before its bytes are counted. -/
def lastLines (s : ByteString) (maxLines : ℕ) : ByteString :=
  let t := dropTrailingNewlines s
  t.drop (tailStart t maxLines t.length 0)

lemma tail_eq (s : ByteString) (maxLines maxBytes : ℕ) :
    tail s maxLines maxBytes =
      (lastLines s maxLines).drop ((lastLines s maxLines).length - maxBytes) := by
  change (if (lastLines s maxLines).length > maxBytes then
    (lastLines s maxLines).drop ((lastLines s maxLines).length - maxBytes)
    else lastLines s maxLines) = _
  split_ifs with h
  · rfl
  · rw [Nat.sub_eq_zero_of_le (not_lt.mp h), List.drop_zero]

lemma valid_dropTrailingNewlines {s : ByteString} (h : Valid Reportable s) :
    Valid Reportable (dropTrailingNewlines s) := by
  let newline : UInt8 → Bool := fun c => c == '\n'.toNat.toUInt8 || c == '\r'.toNat.toUInt8
  have hs : s = dropTrailingNewlines s ++ (s.reverse.takeWhile newline).reverse := by
    rw [dropTrailingNewlines, ← List.reverse_append, List.takeWhile_append_dropWhile,
      List.reverse_reverse]
  rw [hs] at h
  cases hnewlines : (s.reverse.takeWhile newline).reverse with
  | nil => rwa [hnewlines, List.append_nil] at h
  | cons x t =>
    rw [hnewlines] at h
    have hmem : x ∈ s.reverse.takeWhile newline := by
      rw [← List.mem_reverse, hnewlines]
      exact .head t
    have hx : newline x = true := List.mem_takeWhile_imp hmem
    have hascii : x < 0x80 := by
      rcases Bool.or_eq_true _ _ |>.mp hx with hx | hx
      · rw [beq_iff_eq.mp hx]
        decide
      · rw [beq_iff_eq.mp hx]
        decide
    exact (h.split (firstByte_of_ascii hascii)).1

/-- The scan stops behind a newline or at the start. -/
lemma tailStart_cases (t : ByteString) (maxLines pos count : ℕ) :
    tailStart t maxLines pos count = 0 ∨
      ∃ i, tailStart t maxLines pos count = i + 1 ∧ t[i]? = some '\n'.toNat.toUInt8 := by
  induction pos generalizing count with
  | zero => exact .inl rfl
  | succ pos ih =>
    rw [tailStart]
    split_ifs with hnewline hcount
    · exact .inr ⟨pos, rfl, hnewline⟩
    · exact ih _
    · exact ih _

lemma valid_lastLines {s : ByteString} (h : Valid Reportable s) (maxLines : ℕ) :
    Valid Reportable (lastLines s maxLines) := by
  have ht := valid_dropTrailingNewlines h
  dsimp only [lastLines]
  generalize dropTrailingNewlines s = t at ht ⊢
  rcases tailStart_cases t maxLines t.length 0 with h | ⟨i, h, hnewline⟩
  · rwa [h, List.drop_zero]
  · obtain ⟨hi, hget⟩ := List.getElem?_eq_some_iff.mp hnewline
    have hsplit : t = t.take i ++ '\n'.toNat.toUInt8 :: t.drop (i + 1) := by
      rw [← hget, List.cons_getElem_drop_succ, List.take_append_drop]
    rw [hsplit] at ht
    have hascii : '\n'.toNat.toUInt8 < 0x80 := by decide
    have hrest := (ht.split (firstByte_of_ascii hascii)).2
    rw [h]
    exact ((Valid.ascii_cons hascii).mp hrest).2

/-- Of a stream that is valid, a valid part is kept unless the cut falls into a character. -/
lemma valid_tail_iff {s : ByteString} (h : Valid Reportable s) (maxLines maxBytes : ℕ) :
    Valid Reportable (tail s maxLines maxBytes) ↔
      (maxBytes < (lastLines s maxLines).length →
        ∀ x ∈ (lastLines s maxLines)[(lastLines s maxLines).length - maxBytes]?,
          x.IsUTF8FirstByte) := by
  have ht := valid_lastLines h maxLines
  rw [tail_eq]
  generalize lastLines s maxLines = t at ht ⊢
  constructor
  · intro hkept _ x hx
    obtain ⟨hi, hget⟩ := List.getElem?_eq_some_iff.mp hx
    rw [← List.cons_getElem_drop_succ (h := hi), hget] at hkept
    exact hkept.firstByte
  · intro hcut
    by_cases hlong : maxBytes < t.length
    · cases hx : t[t.length - maxBytes]? with
      | none =>
        rw [List.drop_eq_nil_of_le (List.getElem?_eq_none_iff.mp hx)]
        exact .nil
      | some x =>
        obtain ⟨hi, hget⟩ := List.getElem?_eq_some_iff.mp hx
        have hsplit :
            t = t.take (t.length - maxBytes) ++ x :: t.drop (t.length - maxBytes + 1) := by
          rw [← hget, List.cons_getElem_drop_succ, List.take_append_drop]
        have hkept := (hsplit ▸ ht : Valid Reportable (_ ++ _)).split (hcut hlong x hx)
        rw [← List.cons_getElem_drop_succ (h := hi), hget]
        exact hkept.2
    · rw [Nat.sub_eq_zero_of_le (not_lt.mp hlong), List.drop_zero]
      exact ht

/-! ### The document -/

section Document

variable {fixed : ℕ → ℚ → ByteString} (hfixed : ∀ decimals x, IsNumeral (fixed decimals x))

include hfixed

/-- What is written into the document decides whether it is valid. -/
lemma renderJunit_valid_iff (suiteName : ByteString) {s : RunSummary} (h : s.HasAttempts) :
    ∃ doc, renderJunit fixed suiteName s = some doc ∧
      (Valid Xml.IsChar doc ↔ Valid Reportable suiteName ∧ ∀ o ∈ s.outcomes, Readable o) := by
  obtain ⟨docs, hdocs, hall⟩ := MapM.exists_results fun o ho => shown hfixed (h o ho)
  have hdeclaration : Ascii Xml.IsChar (declarationTag.render ++ lit "\n") := by decide
  have hfoot : Ascii Xml.IsChar (lit "  " ++ (closingTag (lit "testsuite")).render ++ lit "\n" ++
      (closingTag (lit "testsuites")).render ++ lit "\n") := by decide
  have hline : Ascii Xml.IsChar (lit "\n") := by decide
  have hindent : Ascii Xml.IsChar (lit "\n  ") := by decide
  have htestsuites : Ascii Xml.IsChar (lit "testsuites") := by decide
  have htestsuite : Ascii Xml.IsChar (lit "testsuite") := by decide
  have hdoc := (((((Stands.of_ascii hdeclaration).append
    (stands_suiteTag hfixed htestsuites suiteName s)).append (.of_ascii hindent)).append
    (stands_suiteTag hfixed htestsuite suiteName s)).append (.of_ascii hline)).append
    (Stands.flatten hall) |>.append (.of_ascii hfoot)
  exact ⟨_, renderJunit_eq suiteName s hdocs, hdoc.valid_iff.trans (by tauto)⟩

end Document

/-- The report is UTF-8 with characters that XML allows if and only if all strings in it are UTF-8
without the two characters that it neither escapes nor may have, the kept end of the standard error
of a failing test included. If the whole standard error is such a string, its end is one unless its
last lines are longer than 4000 bytes and the cut falls into a character. -/
theorem report_parseable_iff {fixed : ℕ → ℚ → ByteString}
    (hfixed : ∀ decimals x, IsNumeral (fixed decimals x))
    (suiteName : ByteString) (s : RunSummary) (h : s.HasAttempts) :
    (∃ doc, renderJunit fixed suiteName s = some doc ∧
      (Valid Xml.IsChar doc ↔ Valid Reportable suiteName ∧ ∀ o ∈ s.outcomes, Readable o)) ∧
    ∀ err, Valid Reportable err →
      (Valid Reportable (tail err 40 4000) ↔
        (4000 < (lastLines err 40).length →
          ∀ x ∈ (lastLines err 40)[(lastLines err 40).length - 4000]?, x.IsUTF8FirstByte)) :=
  ⟨renderJunit_valid_iff hfixed suiteName h, fun _ herr => valid_tail_iff herr 40 4000⟩

theorem report_parseable_iff_mixed :
    (∃ doc, renderJunit fixedDecimal (lit "<nightly>") mixed = some doc ∧
      (Valid Xml.IsChar doc ↔
        Valid Reportable (lit "<nightly>") ∧ ∀ o ∈ mixed.outcomes, Readable o)) ∧
    ∀ err, Valid Reportable err →
      (Valid Reportable (tail err 40 4000) ↔
        (4000 < (lastLines err 40).length →
          ∀ x ∈ (lastLines err 40)[(lastLines err 40).length - 4000]?, x.IsUTF8FirstByte)) :=
  report_parseable_iff isNumeral_fixedDecimal (lit "<nightly>") mixed hasAttempts_mixed

/-- A test that fails with a byte that is not UTF-8 in its standard error. -/
def binary : RunSummary where
  outcomes :=
    [{ task := { name := lit "t" }
       status := .failed
       attempts := [{ agent := lit "a:1", result := { exitCode := 1, err := [0xff] } }] }]
  deadAgents := []

/-- 2000 times the character `é` and one byte more. -/
def accents : ByteString := (List.replicate 2000 [0xc3, 0xa9]).flatten ++ [0x61]

lemma tailStart_eq_zero {t : ByteString} (h : '\n'.toNat.toUInt8 ∉ t) (maxLines pos count : ℕ) :
    tailStart t maxLines pos count = 0 := by
  rcases tailStart_cases t maxLines pos count with hzero | ⟨i, -, hnewline⟩
  · exact hzero
  · exact absurd (List.mem_of_getElem? hnewline) h

lemma valid_accents : Valid Reportable accents := by
  refine ⟨List.replicate 2000 'é' ++ ['a'], ?_, ?_⟩
  · intro c hc
    rcases List.mem_append.mp hc with hc | hc
    · rw [List.eq_of_mem_replicate hc]
      decide
    · rw [List.mem_singleton.mp hc]
      decide
  · have haccent : String.utf8EncodeChar 'é' = [0xc3, 0xa9] := by decide
    have hlast : encode ['a'] = [0x61] := by decide
    rw [accents, ← hlast, encode, List.flatMap_append, List.flatMap_def, List.map_replicate,
      haccent]
    rfl

lemma lastLines_accents : lastLines accents 40 = accents := by
  have hnewline : '\n'.toNat.toUInt8 ∉ accents := by
    intro hmem
    rcases List.mem_append.mp hmem with hmem | hmem
    · obtain ⟨u, hu, hmem⟩ := List.mem_flatten.mp hmem
      rw [List.eq_of_mem_replicate hu] at hmem
      revert hmem
      decide
    · revert hmem
      decide
  have htrailing : dropTrailingNewlines accents = accents := by
    rw [dropTrailingNewlines, accents, List.reverse_append, List.reverse_singleton,
      List.singleton_append, List.dropWhile_cons_of_neg (by decide), List.reverse_cons,
      List.reverse_reverse]
  rw [lastLines, htrailing, tailStart_eq_zero hnewline, List.drop_zero]

/-- The cut falls into the first of the characters. -/
lemma tail_accents : ∃ t, tail accents 40 4000 = 0xa9 :: t := by
  have hlength : accents.length = 4001 := by
    rw [accents, List.length_append, List.length_flatten, List.map_replicate, List.sum_replicate]
    rfl
  rw [tail_eq, lastLines_accents, hlength]
  exact ⟨(List.replicate 1999 [0xc3, 0xa9]).flatten ++ [0x61], rfl⟩

/-- The report of `binary` is not valid, nor is the kept end of `accents`. -/
theorem report_not_always_parseable :
    (¬ ∀ (suiteName : ByteString) (s : RunSummary) (doc : ByteString), s.HasAttempts →
      Valid Reportable suiteName →
      (∀ o ∈ s.outcomes, Valid Reportable o.task.name ∧ Valid Reportable o.message ∧
        ∀ a ∈ o.attempts, Valid Reportable a.agent ∧ Valid Reportable a.result.message) →
      renderJunit fixedDecimal suiteName s = some doc → Valid Xml.IsChar doc) ∧
    ¬ ∀ err, Valid Reportable err → Valid (fun _ => True) (tail err 40 4000) := by
  constructor
  · intro h
    have hascii : ∀ {t : ByteString}, Ascii Reportable t → Valid Reportable t := fun h => h.valid
    have hattempts : binary.HasAttempts := by simp [RunSummary.HasAttempts, binary]
    obtain ⟨doc, hdoc, hiff⟩ := renderJunit_valid_iff isNumeral_fixedDecimal [] hattempts
    have hvalid := h [] binary doc hattempts (hascii (by decide)) (by
      simp only [binary, List.forall_mem_singleton]
      exact ⟨hascii (by decide), hascii (by decide), hascii (by decide), hascii (by decide)⟩) hdoc
    have hreadable := (hiff.mp hvalid).2 _ (.head _)
    have hkept : Valid Reportable [0xff] := (hreadable.failure (.inl rfl) _ rfl).2
    exact absurd hkept.firstByte (by decide)
  · intro h
    obtain ⟨t, ht⟩ := tail_accents
    have hkept := h accents valid_accents
    rw [ht] at hkept
    exact absurd hkept.firstByte (by decide)

end Dtest.Junit
