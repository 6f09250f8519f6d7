import ValidationSuite.Library.JsonText
import ValidationSuite.Library.MapM
import ValidationSuite.Library.Utf8

/-!
# The JSON report of platcheck

`json_escape`, `render_json` and `exit_code_for` of `platcheck/src/checks.cpp`, and what a reader of
JSON finds in the report.
-/

namespace Platcheck

open ByteString

inductive Status where
  | pass
  | warn
  | fail
  | skip
  deriving DecidableEq

def Status.toByteString : Status → ByteString
  | .pass => lit "PASS"
  | .warn => lit "WARN"
  | .fail => lit "FAIL"
  | .skip => lit "SKIP"

structure CheckResult where
  id : ByteString
  title : ByteString
  status : Status := .skip
  detail : ByteString
  remediation : ByteString
  deriving DecidableEq

/-! ### Rendering -/

/-- A digit as `%x` writes it. -/
def hexDigit (n : ℕ) : UInt8 := if n < 10 then (0x30 + n).toUInt8 else (0x61 + (n - 10)).toUInt8

/-- A number below 2¹⁶ as `%04x` writes it. -/
def hex4 (n : ℕ) : ByteString :=
  [hexDigit (n / 4096 % 16), hexDigit (n / 256 % 16), hexDigit (n / 16 % 16), hexDigit (n % 16)]

def jsonEscapeByte (c : UInt8) : ByteString :=
  if c = '"'.toNat.toUInt8 then lit "\\\""
  else if c = '\\'.toNat.toUInt8 then lit "\\\\"
  else if c = '\n'.toNat.toUInt8 then lit "\\n"
  else if c = '\r'.toNat.toUInt8 then lit "\\r"
  else if c = '\t'.toNat.toUInt8 then lit "\\t"
  else if c < 0x20 then lit "\\u" ++ hex4 c.toNat
  else [c]

def jsonEscape (s : ByteString) : ByteString := s.flatMap jsonEscapeByte

def exitCodeFor : List CheckResult → ℤ
  | [] => 0
  | r :: rs => if r.status = .fail then 1 else exitCodeFor rs

def renderCheck (r : CheckResult) : ByteString :=
  lit "    \x7b\"id\": \"" ++ jsonEscape r.id ++ lit "\", \"title\": \"" ++ jsonEscape r.title ++
    lit "\", \"status\": \"" ++ r.status.toByteString ++ lit "\", \"detail\": \"" ++
    jsonEscape r.detail ++ lit "\", \"remediation\": \"" ++ jsonEscape r.remediation ++
    lit "\"\x7d"

/-- The loop of `render_json`. -/
def renderChecks : List CheckResult → ByteString
  | [] => []
  | r :: rs =>
    renderCheck r ++ (if rs.isEmpty then [] else lit ",") ++ lit "\n" ++ renderChecks rs

def renderJson (results : List CheckResult) : ByteString :=
  lit "\x7b\n  \"checks\": [\n" ++ renderChecks results ++
    lit "  ],\n  \"ok\": " ++ (if exitCodeFor results = 0 then lit "true" else lit "false") ++
    lit "\n\x7d\n"

example : jsonEscape (lit "a\"b\\c\n" ++ [0x01]) = lit "a\\\"b\\\\c\\n\\u0001" := by decide

/-! ### What the report says -/

def Status.ofByteString? (s : ByteString) : Option Status :=
  [Status.pass, .warn, .fail, .skip].find? fun status => status.toByteString = s

/-- The string of a member. -/
def member? (k : ByteString) (ms : List (ByteString × JsonText.Value)) : Option ByteString :=
  match ms.lookup k with
  | some (.string s) => some s
  | _ => none

/-- The result that an object stands for. -/
def checkResult? : JsonText.Value → Option CheckResult
  | .object ms => do
    let id ← member? (lit "id") ms
    let title ← member? (lit "title") ms
    let status ← (member? (lit "status") ms).bind Status.ofByteString?
    let detail ← member? (lit "detail") ms
    let remediation ← member? (lit "remediation") ms
    return ⟨id, title, status, detail, remediation⟩
  | _ => none

/-- The results that a report lists, and whether it says that all is well. -/
def report? : JsonText.Value → Option (List CheckResult × Bool)
  | .object [(k, .array es), (k', .bool ok)] =>
    if k = lit "checks" ∧ k' = lit "ok" then (es.mapM checkResult?).map (·, ok) else none
  | _ => none

def checkValue (r : CheckResult) : JsonText.Value :=
  .object [(lit "id", .string r.id), (lit "title", .string r.title),
    (lit "status", .string r.status.toByteString), (lit "detail", .string r.detail),
    (lit "remediation", .string r.remediation)]

def reportValue (results : List CheckResult) (ok : Bool) : JsonText.Value :=
  .object [(lit "checks", .array (results.map checkValue)), (lit "ok", .bool ok)]

lemma checkResult?_checkValue (r : CheckResult) : checkResult? (checkValue r) = some r := by
  obtain ⟨id, title, status, detail, remediation⟩ := r
  cases status <;> rfl

lemma report?_reportValue (results : List CheckResult) (ok : Bool) :
    report? (reportValue results ok) = some (results, ok) := by
  have hresults : (results.map checkValue).mapM checkResult? = some results := by
    have hone : ∀ r ∈ results, (checkResult? ∘ checkValue) r = some (id r) :=
      fun r _ => checkResult?_checkValue r
    rw [List.mapM_map, MapM.eq_map hone, List.map_id]
  rw [reportValue, report?, if_pos ⟨rfl, rfl⟩, hresults]
  rfl

lemma exitCodeFor_eq_zero {results : List CheckResult} :
    exitCodeFor results = 0 ↔ ∀ r ∈ results, r.status ≠ .fail := by
  induction results with
  | nil => simp [exitCodeFor]
  | cons r rs ih =>
    rw [exitCodeFor, List.forall_mem_cons, ← ih]
    split_ifs with h <;> simp [h]

/-! ### Strings -/

lemma hexDigit?_hexDigit : ∀ n < 16, JsonText.hexDigit? (hexDigit n) = some n := by decide

/-- A digit of an escape that is not its last one. -/
lemma unescapeFrom_digit {missing value : ℕ} {d : ℕ} (hmissing : missing ≠ 1) (hd : d < 16)
    (s : ByteString) :
    JsonText.unescapeFrom (.hex missing value none) (hexDigit d :: s) =
      JsonText.unescapeFrom (.hex (missing - 1) (16 * value + d) none) s := by
  apply JsonText.unescapeFrom_silent
  rw [JsonText.StringMode.next, hexDigit?_hexDigit d hd, Option.bind_some, if_neg hmissing]

/-- An escape of four digits is the character of that number. -/
lemma unescapeFrom_hex4 {n : ℕ} (hn : n < 0xd800) (s : ByteString) :
    JsonText.unescapeFrom .plain (lit "\\u" ++ hex4 n ++ s) =
      (JsonText.unescapeFrom .plain s).map (String.utf8EncodeChar (Char.ofNat n) ++ ·) := by
  have hbackslash : JsonText.StringMode.plain.next '\\'.toNat.toUInt8 = some ([], .escape) := rfl
  have hu : JsonText.StringMode.escape.next 'u'.toNat.toUInt8 = some ([], .hex 4 0 none) := rfl
  have hspell : lit "\\u" ++ hex4 n ++ s = '\\'.toNat.toUInt8 :: 'u'.toNat.toUInt8 ::
      hexDigit (n / 4096 % 16) :: hexDigit (n / 256 % 16) :: hexDigit (n / 16 % 16) ::
        hexDigit (n % 16) :: s := rfl
  have hvalue : 16 * (16 * (16 * (16 * 0 + n / 4096 % 16) + n / 256 % 16) + n / 16 % 16) + n % 16 =
      n := by omega
  rw [hspell, JsonText.unescapeFrom_silent hbackslash, JsonText.unescapeFrom_silent hu,
    unescapeFrom_digit (by decide) (Nat.mod_lt _ (by decide)),
    unescapeFrom_digit (by decide) (Nat.mod_lt _ (by decide)),
    unescapeFrom_digit (by decide) (Nat.mod_lt _ (by decide))]
  apply JsonText.unescapeFrom_cons
  rw [JsonText.StringMode.next, hexDigit?_hexDigit _ (Nat.mod_lt _ (by decide)), Option.bind_some,
    if_pos rfl, hvalue, JsonText.codeUnit, if_neg (by omega), if_neg (by omega)]

/-- Reading back the escape of one byte. -/
lemma unescapeFrom_jsonEscapeByte (c : UInt8) (s : ByteString) :
    JsonText.unescapeFrom .plain (jsonEscapeByte c ++ s) =
      (JsonText.unescapeFrom .plain s).map (c :: ·) := by
  -- a backslash and a letter
  have hshort {b : UInt8} (hb : b ≠ 'u'.toNat.toUInt8) (h : JsonText.shortEscape? b = some c) :
      JsonText.unescapeFrom .plain ('\\'.toNat.toUInt8 :: b :: s) =
        (JsonText.unescapeFrom .plain s).map (c :: ·) := by
    have hbackslash : JsonText.StringMode.plain.next '\\'.toNat.toUInt8 = some ([], .escape) := rfl
    have hnext : JsonText.StringMode.escape.next b = some ([c], .plain) := by
      rw [JsonText.StringMode.next, if_neg hb, h]
      rfl
    rw [JsonText.unescapeFrom_silent hbackslash]
    exact JsonText.unescapeFrom_cons hnext s
  unfold jsonEscapeByte
  split_ifs with hquot hbackslash hn hr ht hcontrol
  · subst hquot; exact hshort (by decide) rfl
  · subst hbackslash; exact hshort (by decide) rfl
  · subst hn; exact hshort (by decide) rfl
  · subst hr; exact hshort (by decide) rfl
  · subst ht; exact hshort (by decide) rfl
  · have hlt : c.toNat < 0x20 := hcontrol
    rw [unescapeFrom_hex4 (by omega)]
    have hchar := Utf8.encodeChar_ascii (UInt8.lt_of_lt_of_le hcontrol (by decide))
    rw [Utf8.asciiChar] at hchar
    rw [hchar]
    rfl
  · have hnext : JsonText.StringMode.plain.next c = some ([c], .plain) := by
      rw [JsonText.StringMode.next, if_neg hbackslash, if_neg (not_or.mpr ⟨hquot, hcontrol⟩)]
    exact JsonText.unescapeFrom_cons hnext s

/-- A JSON string with the escaped bytes in it stands for the bytes. -/
lemma unescape_jsonEscape (s : ByteString) : JsonText.unescape (jsonEscape s) = some s := by
  induction s with
  | nil => rfl
  | cons c s ih =>
    rw [JsonText.unescape] at ih
    rw [JsonText.unescape, jsonEscape, List.flatMap_cons, unescapeFrom_jsonEscapeByte,
      ← jsonEscape, ih, Option.map_some]

lemma jsonEscape_injective : Function.Injective jsonEscape := by
  intro s t h
  have hs := unescape_jsonEscape s
  rw [h, unescape_jsonEscape] at hs
  exact (Option.some.inj hs).symm

/-! ### The document -/

open JsonText (Frame run run_trans)

/-- A string of the report, up to its closing quote. -/
lemma run_escaped (s : ByteString) (frames : List Frame) :
    run (.string false .plain [], frames) (jsonEscape s) =
      some (.string false .plain s, frames) :=
  JsonText.run_string (unescape_jsonEscape s) false [] frames

/-- A status is written without any escape. -/
lemma run_status (status : Status) (frames : List Frame) :
    run (.string false .plain [], frames) status.toByteString =
      some (.string false .plain status.toByteString, frames) := by
  cases status <;> rfl

lemma run_renderCheck (start : Bool) (es : List JsonText.Value) (frames : List Frame)
    (r : CheckResult) :
    run (.value start, .array es :: frames) (renderCheck r) =
      some (.after, .array (es ++ [checkValue r]) :: frames) := by
  have hid : run (.value start, .array es :: frames) (lit "    \x7b\"id\": \"") =
      some (.string false .plain [], .member [] (lit "id") :: .array es :: frames) := rfl
  -- from the end of a string to the beginning of the next one
  have htitle (ms : List (ByteString × JsonText.Value)) (k v : ByteString) :
      run (.string false .plain v, .member ms k :: .array es :: frames)
          (lit "\", \"title\": \"") =
        some (.string false .plain [],
          .member (ms ++ [(k, .string v)]) (lit "title") :: .array es :: frames) := rfl
  have hstatus (ms : List (ByteString × JsonText.Value)) (k v : ByteString) :
      run (.string false .plain v, .member ms k :: .array es :: frames)
          (lit "\", \"status\": \"") =
        some (.string false .plain [],
          .member (ms ++ [(k, .string v)]) (lit "status") :: .array es :: frames) := rfl
  have hdetail (ms : List (ByteString × JsonText.Value)) (k v : ByteString) :
      run (.string false .plain v, .member ms k :: .array es :: frames)
          (lit "\", \"detail\": \"") =
        some (.string false .plain [],
          .member (ms ++ [(k, .string v)]) (lit "detail") :: .array es :: frames) := rfl
  have hremediation (ms : List (ByteString × JsonText.Value)) (k v : ByteString) :
      run (.string false .plain v, .member ms k :: .array es :: frames)
          (lit "\", \"remediation\": \"") =
        some (.string false .plain [],
          .member (ms ++ [(k, .string v)]) (lit "remediation") :: .array es :: frames) := rfl
  have hend (ms : List (ByteString × JsonText.Value)) (k v : ByteString) :
      run (.string false .plain v, .member ms k :: .array es :: frames) (lit "\"\x7d") =
        some (.after, .array (es ++ [.object (ms ++ [(k, .string v)])]) :: frames) := rfl
  unfold renderCheck
  simp only [List.append_assoc]
  rw [run_trans hid, run_trans (run_escaped r.id _), run_trans (htitle _ _ _),
    run_trans (run_escaped r.title _), run_trans (hstatus _ _ _), run_trans (run_status r.status _),
    run_trans (hdetail _ _ _), run_trans (run_escaped r.detail _), run_trans (hremediation _ _ _),
    run_trans (run_escaped r.remediation _), hend]
  rfl

/-- The lines of the list, after any elements that have been read already. -/
lemma run_renderChecks (start : Bool) (es : List JsonText.Value) (frames : List Frame)
    (r : CheckResult) (rs : List CheckResult) :
    run (.value start, .array es :: frames) (renderChecks (r :: rs)) =
      some (.after, .array (es ++ (r :: rs).map checkValue) :: frames) := by
  have hline (es : List JsonText.Value) :
      run (.after, .array es :: frames) (lit "\n") = some (.after, .array es :: frames) := rfl
  have hcomma (es : List JsonText.Value) :
      run (.after, .array es :: frames) (lit ",") = some (.value false, .array es :: frames) := rfl
  have hbreak (es : List JsonText.Value) :
      run (.value false, .array es :: frames) (lit "\n") =
        some (.value false, .array es :: frames) := rfl
  induction rs generalizing start es r with
  | nil =>
    rw [renderChecks, List.append_assoc, List.append_assoc,
      run_trans (run_renderCheck start es _ r), List.isEmpty_nil, if_pos rfl,
      List.nil_append, run_trans (hline _)]
    rfl
  | cons r' rs ih =>
    rw [renderChecks, List.append_assoc, List.append_assoc,
      run_trans (run_renderCheck start es _ r), List.isEmpty_cons,
      if_neg (by decide), run_trans (hcomma _), run_trans (hbreak _), ih]
    simp

lemma parse_renderJson (results : List CheckResult) :
    JsonText.parse (renderJson results) =
      some (reportValue results (decide (exitCodeFor results = 0))) := by
  have hhead : run (.value false, []) (lit "\x7b\n  \"checks\": [\n") =
      some (.value true, [.array [], .member [] (lit "checks")]) := rfl
  have hchecks : run (.value true, [.array [], .member [] (lit "checks")])
      (renderChecks results ++ lit "  ],\n  \"ok\": ") =
        some (.value false,
          [.member [(lit "checks", .array (results.map checkValue))] (lit "ok")]) := by
    cases results with
    | nil => rfl
    | cons r rs =>
      rw [run_trans (run_renderChecks true [] _ r rs)]
      rfl
  have hok (ms : List (ByteString × JsonText.Value)) (k : ByteString) :
      run (.value false, [.member ms k])
          ((if exitCodeFor results = 0 then lit "true" else lit "false") ++ lit "\n\x7d\n") =
        some (.done (.object (ms ++ [(k, .bool (decide (exitCodeFor results = 0)))])), []) := by
    by_cases h : exitCodeFor results = 0
    · rw [if_pos h, decide_eq_true h]
      rfl
    · rw [if_neg h, decide_eq_false h]
      rfl
  have hdocument : renderJson results = lit "\x7b\n  \"checks\": [\n" ++
      ((renderChecks results ++ lit "  ],\n  \"ok\": ") ++
        ((if exitCodeFor results = 0 then lit "true" else lit "false") ++ lit "\n\x7d\n")) := by
    simp only [renderJson, List.append_assoc]
  rw [JsonText.parse, hdocument, run_trans hhead, run_trans hchecks, hok]
  rfl

/-- Whatever the bytes of the strings: the report is JSON, and what it says is the list of results
with whether the exit code is 0, which it is unless one of them has failed. The escaping loses
nothing. -/
theorem json_report_round_trip :
    (∀ results, (JsonText.parse (renderJson results)).bind report? =
        some (results, decide (exitCodeFor results = 0)) ∧
      (exitCodeFor results = 0 ↔ ∀ r ∈ results, r.status ≠ .fail)) ∧
    Function.Injective jsonEscape ∧ ∀ s, JsonText.unescape (jsonEscape s) = some s := by
  refine ⟨fun results => ⟨?_, exitCodeFor_eq_zero⟩, jsonEscape_injective, unescape_jsonEscape⟩
  rw [parse_renderJson, Option.bind_some, report?_reportValue]

end Platcheck
