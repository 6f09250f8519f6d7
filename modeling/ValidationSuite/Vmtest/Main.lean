import ValidationSuite.Library.CommandLine
import ValidationSuite.Library.Decimal
import ValidationSuite.Vmtest.Domains
import ValidationSuite.Vmtest.Junit
import ValidationSuite.Vmtest.Overlays

/-!
# The VM tests as a program

`parse_args` of `vmtest/src/config.cpp` and `main` of `vmtest/src/main.cpp`: which configurations a
command line can ask for, and what the exit status says about the tests. The text of `--help` is
left out.
-/

namespace Vmtest

open ByteString CommandLine Exceptional
open Dtest.Junit (IsNumeral declarationTag fixedDecimal isNumeral_fixedDecimal)

/-! ### The command line -/

/-- The whole of `Config`; the part that the test cases read is the one it extends. -/
structure Settings extends Config where
  uri : ByteString := lit "qemu:///system"
  image : ByteString := []
  imageFormat : ByteString := lit "qcow2"
  workDir : ByteString := lit "/var/tmp"
  junitPath : ByteString := []
  listOnly : Bool := false

structure ParseResult where
  cfg : Settings := {}
  error : ByteString := []
  help : Bool := false

/-- `std::strtol`, which saturates; 0 if there is no number. -/
def strtol (s : ByteString) : ℤ := max (-2 ^ 63) (min ((integer? s).getD 0) (2 ^ 63 - 1))

def parseUint (s : ByteString) (lo hi : ℤ) : Option ℤ :=
  if s.isEmpty then none
  else if integerEnd s ≠ [] ∨ strtol s < lo ∨ strtol s > hi then none
  else some (strtol s)

/-- An option with a text for its value. -/
def textOption (flag : String) (set : ByteString → Settings → Settings) :
    Action ByteString ParseResult ByteString :=
  .set (lit flag ++ lit " needs a value") fun v r => { r with cfg := set v r.cfg }

/-- An option with a number for its value. -/
def numberOption (msg : String) (lo hi : ℤ) (set : ℤ → Settings → Settings) :
    Action ByteString ParseResult ByteString :=
  .value (lit msg) fun v r =>
    match parseUint v lo hi with
    | none => .error (lit msg)
    | some n => .ok { r with cfg := set n r.cfg }

/-- The branches of the loop of `parse_args` from `--vcpus` on. -/
def numberOptions (a : ByteString) : Action ByteString ParseResult ByteString :=
  if a = lit "--vcpus" then
    numberOption "--vcpus needs an integer in 1..512" 1 512 fun n cfg =>
      { cfg with vcpus := n.toNat }
  else if a = lit "--memory-mib" then
    numberOption "--memory-mib needs an integer >= 128" 128 1048576 fun n cfg =>
      { cfg with memMib := n.toNat }
  else if a = lit "--boot-timeout" then
    numberOption "--boot-timeout needs a positive integer" 1 86400 fun n cfg =>
      { cfg with bootTimeoutS := n }
  else if a = lit "--shutdown-timeout" then
    numberOption "--shutdown-timeout needs a positive integer" 1 86400 fun n cfg =>
      { cfg with shutdownTimeoutS := n }
  else if a = lit "--iterations" then
    numberOption "--iterations needs a non-negative integer" 0 100000 fun n cfg =>
      { cfg with iterations := n }
  else .stop (lit "unknown option: " ++ a)

/-- Its branches from `--image` on. -/
def valueOptions (a : ByteString) : Action ByteString ParseResult ByteString :=
  if a = lit "--image" then textOption "--image" fun v cfg => { cfg with image := v }
  else if a = lit "--image-format" then
    textOption "--image-format" fun v cfg => { cfg with imageFormat := v }
  else if a = lit "--uri" then textOption "--uri" fun v cfg => { cfg with uri := v }
  else if a = lit "--work-dir" then textOption "--work-dir" fun v cfg => { cfg with workDir := v }
  else if a = lit "--filter" then textOption "--filter" fun v cfg => { cfg with filter := v }
  else if a = lit "--junit" then textOption "--junit" fun v cfg => { cfg with junitPath := v }
  else numberOptions a

/-- All branches. -/
def parseOption (a : ByteString) : Action ByteString ParseResult ByteString :=
  if a = lit "-h" ∨ a = lit "--help" then .flag fun r => { r with help := true }
  else if a = lit "--list" then
    .flag fun r => { r with cfg := { r.cfg with listOnly := true } }
  else valueOptions a

/-- `parse_args`, with the arguments that follow the name of the program. -/
def parseArgs (argv : List ByteString) : ParseResult :=
  match read parseOption argv {} with
  | (r, some error) => { r with error := error }
  | (r, none) => r

/-! ### What it accepts -/

/-- The configurations the options allow. -/
structure Settings.InRange (cfg : Settings) : Prop where
  vcpus : 1 ≤ cfg.vcpus ∧ cfg.vcpus ≤ 512
  memMib : 128 ≤ cfg.memMib ∧ cfg.memMib ≤ 2 ^ 20
  bootTimeoutS : 1 ≤ cfg.bootTimeoutS ∧ cfg.bootTimeoutS ≤ 86400
  shutdownTimeoutS : 1 ≤ cfg.shutdownTimeoutS ∧ cfg.shutdownTimeoutS ≤ 86400
  iterations : 0 ≤ cfg.iterations ∧ cfg.iterations ≤ 100000

lemma Settings.inRange_default : ({} : Settings).InRange := by
  constructor <;> decide

lemma range_of_parseUint {s : ByteString} {lo hi n : ℤ} (h : parseUint s lo hi = some n) :
    lo ≤ n ∧ n ≤ hi := by
  unfold parseUint at h
  split_ifs at h with _ hbad
  obtain rfl := Option.some.inj h
  rw [not_or, not_or, not_lt, not_lt] at hbad
  exact hbad.2

/-- A number that is written out is read back. -/
lemma parseUint_ofNat {n : ℕ} {lo hi : ℤ} (hlo : lo ≤ n) (hhi : n ≤ hi) (hfits : (n : ℤ) < 2 ^ 63) :
    parseUint (ofNat n) lo hi = some (n : ℤ) := by
  have hstrtol : strtol (ofNat n) = n := by
    rw [strtol, integer?_ofNat, Option.getD_some]
    omega
  have hne : ¬(ofNat n).isEmpty = true := by simpa using ofNat_ne_nil n
  rw [parseUint, if_neg hne, integerEnd_ofNat, hstrtol, if_neg]
  simp only [ne_eq, not_true, false_or, not_or, not_lt]
  omega

/-- An option does with its value what keeps a configuration in range, or rejects it. -/
def KeepsRange (action : Action ByteString ParseResult ByteString) : Prop :=
  match action with
  | .flag f => ∀ r, r.cfg.InRange → (f r).cfg.InRange
  | .value _ f => ∀ v r r', f v r = .ok r' → r.cfg.InRange → r'.cfg.InRange
  | .stop _ => True

lemma keepsRange_textOption {flag : String} {set : ByteString → Settings → Settings}
    (hset : ∀ v cfg, cfg.InRange → (set v cfg).InRange) : KeepsRange (textOption flag set) := by
  intro v r r' hv h
  obtain rfl := Except.ok.inj hv
  exact hset v r.cfg h

lemma keepsRange_numberOption {msg : String} {lo hi : ℤ} {set : ℤ → Settings → Settings}
    (hset : ∀ n cfg, lo ≤ n → n ≤ hi → cfg.InRange → (set n cfg).InRange) :
    KeepsRange (numberOption msg lo hi set) := by
  intro v r r' hv h
  dsimp only at hv
  split at hv
  · cases hv
  · next n hn =>
    obtain rfl := Except.ok.inj hv
    obtain ⟨hlo, hhi⟩ := range_of_parseUint hn
    exact hset n r.cfg hlo hhi h

lemma keepsRange_numberOptions (a : ByteString) : KeepsRange (numberOptions a) := by
  unfold numberOptions
  split_ifs
  · refine keepsRange_numberOption fun n cfg hlo hhi h => ?_
    exact { h with vcpus := ⟨by show 1 ≤ n.toNat; omega, by show n.toNat ≤ 512; omega⟩ }
  · refine keepsRange_numberOption fun n cfg hlo hhi h => ?_
    exact { h with memMib := ⟨by show 128 ≤ n.toNat; omega, by show n.toNat ≤ 1048576; omega⟩ }
  · exact keepsRange_numberOption fun n cfg hlo hhi h => { h with bootTimeoutS := ⟨hlo, hhi⟩ }
  · exact keepsRange_numberOption fun n cfg hlo hhi h => { h with shutdownTimeoutS := ⟨hlo, hhi⟩ }
  · exact keepsRange_numberOption fun n cfg hlo hhi h => { h with iterations := ⟨hlo, hhi⟩ }
  · trivial

lemma keepsRange_parseOption (a : ByteString) : KeepsRange (parseOption a) := by
  unfold parseOption valueOptions
  split_ifs
  · exact fun r h => h
  · exact fun r h => { h with }
  · exact keepsRange_textOption fun v cfg h => { h with }
  · exact keepsRange_textOption fun v cfg h => { h with }
  · exact keepsRange_textOption fun v cfg h => { h with }
  · exact keepsRange_textOption fun v cfg h => { h with }
  · exact keepsRange_textOption fun v cfg h => { h with }
  · exact keepsRange_textOption fun v cfg h => { h with }
  · exact keepsRange_numberOptions a

/-- Whatever the command line, and even if it is rejected, the configuration is in range. -/
lemma inRange_parseArgs (argv : List ByteString) : (parseArgs argv).cfg.InRange := by
  have h := @read_invariant _ _ _ parseOption argv {}
    (fun r : ParseResult => r.cfg.InRange) Settings.inRange_default ?_ ?_
  · unfold parseArgs
    split
    · next hread =>
      rw [hread] at h
      exact { h with }
    · next hread =>
      rw [hread] at h
      exact h
  · intro a _ f hopt r hr
    have hkeeps := keepsRange_parseOption a
    rw [hopt] at hkeeps
    exact hkeeps r hr
  · intro a v _ missing f hopt r r' hv hr
    have hkeeps := keepsRange_parseOption a
    rw [hopt] at hkeeps
    exact hkeeps v r r' hv hr

/-! ### The way back -/

/-- The options of a configuration that have a value. -/
def Settings.values (cfg : Settings) : List ByteString :=
  [lit "--uri", cfg.uri, lit "--image", cfg.image, lit "--image-format", cfg.imageFormat,
    lit "--work-dir", cfg.workDir, lit "--filter", cfg.filter, lit "--junit", cfg.junitPath,
    lit "--vcpus", ofNat cfg.vcpus, lit "--memory-mib", ofNat cfg.memMib,
    lit "--boot-timeout", ofInt cfg.bootTimeoutS,
    lit "--shutdown-timeout", ofInt cfg.shutdownTimeoutS,
    lit "--iterations", ofInt cfg.iterations]

/-- A command line for a configuration. -/
def Settings.toArgs (cfg : Settings) : List ByteString :=
  cfg.values ++ if cfg.listOnly then [lit "--list"] else []

lemma read_textOption {flag : String} {set : ByteString → Settings → Settings} {a v : ByteString}
    (hopt : parseOption a = textOption flag set) {rest : List ByteString} {r : ParseResult} :
    read parseOption (a :: v :: rest) r = read parseOption rest { r with cfg := set v r.cfg } :=
  read_value hopt rfl

lemma read_numberOption {msg : String} {lo hi : ℤ} {set : ℤ → Settings → Settings}
    {a v : ByteString} (hopt : parseOption a = numberOption msg lo hi set) {n : ℤ}
    (hn : parseUint v lo hi = some n) {rest : List ByteString} {r : ParseResult} :
    read parseOption (a :: v :: rest) r = read parseOption rest { r with cfg := set n r.cfg } :=
  read_value hopt (by simp only [hn])

lemma parseUint_ofInt {n lo hi : ℤ} (hzero : 0 ≤ n) (hlo : lo ≤ n) (hhi : n ≤ hi)
    (hfits : n < 2 ^ 63) : parseUint (ofInt n) lo hi = some n := by
  obtain ⟨k, rfl⟩ := Int.eq_ofNat_of_zero_le hzero
  rw [ofInt_natCast]
  exact parseUint_ofNat hlo hhi hfits

lemma read_values {cfg : Settings} (h : cfg.InRange) (r : ParseResult) :
    read parseOption cfg.values r =
      ({ r with cfg := { cfg with listOnly := r.cfg.listOnly } }, none) := by
  obtain ⟨hvcpus, hmem, hboot, hshutdown, hiter⟩ := h
  have huri : parseOption (lit "--uri") =
      textOption "--uri" fun v cfg => { cfg with uri := v } := rfl
  have himage : parseOption (lit "--image") =
      textOption "--image" fun v cfg => { cfg with image := v } := rfl
  have hformat : parseOption (lit "--image-format") =
      textOption "--image-format" fun v cfg => { cfg with imageFormat := v } := rfl
  have hwork : parseOption (lit "--work-dir") =
      textOption "--work-dir" fun v cfg => { cfg with workDir := v } := rfl
  have hfilter : parseOption (lit "--filter") =
      textOption "--filter" fun v cfg => { cfg with filter := v } := rfl
  have hjunit : parseOption (lit "--junit") =
      textOption "--junit" fun v cfg => { cfg with junitPath := v } := rfl
  have hvcpusOption : parseOption (lit "--vcpus") =
      numberOption "--vcpus needs an integer in 1..512" 1 512 fun n cfg =>
        { cfg with vcpus := n.toNat } := rfl
  have hmemOption : parseOption (lit "--memory-mib") =
      numberOption "--memory-mib needs an integer >= 128" 128 1048576 fun n cfg =>
        { cfg with memMib := n.toNat } := rfl
  have hbootOption : parseOption (lit "--boot-timeout") =
      numberOption "--boot-timeout needs a positive integer" 1 86400 fun n cfg =>
        { cfg with bootTimeoutS := n } := rfl
  have hshutdownOption : parseOption (lit "--shutdown-timeout") =
      numberOption "--shutdown-timeout needs a positive integer" 1 86400 fun n cfg =>
        { cfg with shutdownTimeoutS := n } := rfl
  have hiterOption : parseOption (lit "--iterations") =
      numberOption "--iterations needs a non-negative integer" 0 100000 fun n cfg =>
        { cfg with iterations := n } := rfl
  rw [Settings.values]
  rw [read_textOption huri, read_textOption himage, read_textOption hformat, read_textOption hwork,
    read_textOption hfilter, read_textOption hjunit,
    read_numberOption hvcpusOption (parseUint_ofNat (by omega) (by omega) (by omega)),
    read_numberOption hmemOption (parseUint_ofNat (by omega) (by omega) (by omega)),
    read_numberOption hbootOption (parseUint_ofInt (by omega) hboot.1 hboot.2 (by omega)),
    read_numberOption hshutdownOption
      (parseUint_ofInt (by omega) hshutdown.1 hshutdown.2 (by omega)),
    read_numberOption hiterOption (parseUint_ofInt hiter.1 hiter.1 hiter.2 (by omega))]
  rfl

lemma read_toArgs {cfg : Settings} (h : cfg.InRange) (r : ParseResult) :
    read parseOption cfg.toArgs r =
      ({ r with cfg := { cfg with listOnly := r.cfg.listOnly || cfg.listOnly } }, none) := by
  have hlistOption : parseOption (lit "--list") =
      .flag fun r => { r with cfg := { r.cfg with listOnly := true } } := rfl
  rw [Settings.toArgs, read_append (read_values h r)]
  cases hlist : cfg.listOnly with
  | false => simp [read_nil]
  | true => simp [read_flag hlistOption, read_nil]

/-- An option says what is wrong. -/
def Complains (action : Action ByteString ParseResult ByteString) : Prop :=
  match action with
  | .flag _ => True
  | .value missing f => missing ≠ [] ∧ ∀ v r error, f v r = .error error → error ≠ []
  | .stop error => error ≠ []

lemma complains_textOption (flag : String) (set : ByteString → Settings → Settings) :
    Complains (textOption flag set) :=
  ⟨List.append_ne_nil_of_right_ne_nil _ (by decide), nofun⟩

lemma complains_numberOption {msg : String} (hmsg : lit msg ≠ []) (lo hi : ℤ)
    (set : ℤ → Settings → Settings) : Complains (numberOption msg lo hi set) := by
  refine ⟨hmsg, fun v r error hv => ?_⟩
  dsimp only at hv
  split at hv
  · obtain rfl := Except.error.inj hv
    exact hmsg
  · cases hv

lemma complains_numberOptions (a : ByteString) : Complains (numberOptions a) := by
  unfold numberOptions
  split_ifs
  · exact complains_numberOption (by decide) _ _ _
  · exact complains_numberOption (by decide) _ _ _
  · exact complains_numberOption (by decide) _ _ _
  · exact complains_numberOption (by decide) _ _ _
  · exact complains_numberOption (by decide) _ _ _
  · exact List.append_ne_nil_of_left_ne_nil (by decide) _

lemma complains_parseOption (a : ByteString) : Complains (parseOption a) := by
  unfold parseOption valueOptions
  split_ifs
  · trivial
  · trivial
  · exact complains_textOption _ _
  · exact complains_textOption _ _
  · exact complains_textOption _ _
  · exact complains_textOption _ _
  · exact complains_textOption _ _
  · exact complains_textOption _ _
  · exact complains_numberOptions a

/-- A command line without an error has been read to its end. -/
lemma read_of_error_eq_nil {argv : List ByteString} (h : (parseArgs argv).error = []) :
    read parseOption argv {} = (parseArgs argv, none) := by
  cases hread : read parseOption argv {} with
  | mk r error =>
    cases error with
    | none => rw [parseArgs, hread]
    | some error =>
      have hne : error ≠ [] := by
        refine read_error (P := (· ≠ [])) ?_ ?_ ?_ hread
        · intro a e hopt
          have hcomplains := complains_parseOption a
          rw [hopt] at hcomplains
          exact hcomplains
        · intro a missing f hopt
          have hcomplains := complains_parseOption a
          rw [hopt] at hcomplains
          exact hcomplains.1
        · intro a missing f hopt v s e he
          have hcomplains := complains_parseOption a
          rw [hopt] at hcomplains
          exact hcomplains.2 v s e he
      rw [parseArgs, hread] at h
      exact absurd h hne

/-- The configurations that a command line can ask for are those in the ranges of the options, and a
rejected one leaves them neither. What is written out in options is read back, whatever its texts
look like, and takes precedence over all that comes before; only `--list` and `--help` stay. -/
theorem parse_args_round_trip (argv : List ByteString) :
    (parseArgs argv).cfg.InRange ∧
    ∀ cfg : Settings, cfg.InRange → (parseArgs argv).error = [] →
      parseArgs (argv ++ cfg.toArgs) =
        { cfg := { cfg with listOnly := (parseArgs argv).cfg.listOnly || cfg.listOnly }
          error := []
          help := (parseArgs argv).help } := by
  refine ⟨inRange_parseArgs argv, fun cfg hcfg herror => ?_⟩
  have hread := @read_append _ _ _ _ _ _ _ cfg.toArgs (read_of_error_eq_nil herror)
  rw [read_toArgs hcfg, herror] at hread
  rw [parseArgs, hread]

/-- A soak test whose filter looks like an option. -/
def soak : Settings where
  image := lit "base.qcow2"
  filter := lit "--help"
  iterations := 20

theorem parse_args_round_trip_soak :
    (parseArgs ([lit "--list", lit "--vcpus", lit "4"] ++ soak.toArgs)).cfg =
      { soak with listOnly := true } := by
  have h := (parse_args_round_trip [lit "--list", lit "--vcpus", lit "4"]).2 soak
    (by constructor <;> decide) (by decide)
  rw [h]
  rfl

/-! ### The program -/

/-- What the program finds and can do in the file system. `present` throws for no answer. -/
structure Files where
  present : ByteString → Option Bool
  /-- can the file be opened for writing? -/
  opens : ByteString → Bool
  /-- what a file holds after a text has been written to it: less than the text if its disk is
  full -/
  stored : ByteString → ByteString → ByteString

/-- What the program has done when it ends. -/
structure Finished where
  status : ℕ
  out : ByteString := []
  err : ByteString := []
  /-- what the JUnit file holds, if it has been opened -/
  junit : Option ByteString := none
  world : World := {}

section Main

variable (env : Env) (fixed : ℕ → ℚ → ByteString) (usage : ByteString) (files : Files)

/-- The line that `run_tests` prints about a result. -/
def logLine (r : TestResult) : ByteString :=
  lit "[" ++ (match r.outcome with
    | .passed => lit "PASS"
    | .failed => lit "FAIL"
    | .skipped => lit "SKIP") ++ lit "] " ++ r.suite ++ lit "." ++ r.name ++ lit " (" ++
    fixed 1 r.seconds ++ lit "s)" ++ (if r.message.isEmpty then [] else lit " - " ++ r.message) ++
    lit "\n"

def summaryLine (results : List TestResult) : ByteString :=
  lit "\n" ++ ofNat results.length ++ lit " tests, " ++
    ofNat (results.countP (·.outcome = .failed)) ++ lit " failed, " ++
    ofNat (results.countP (·.outcome = .skipped)) ++ lit " skipped\n"

/-- What is left to do with the results. The stream is asked after it has been opened, and not again
after it has been written to. -/
def report (cfg : Settings) (results : List TestResult) : Finished :=
  let out := results.flatMap (logLine fixed) ++ summaryLine results
  let status := if results.countP (·.outcome = .failed) = 0 then 0 else 1
  if cfg.junitPath.isEmpty then { status, out }
  else if !files.opens cfg.junitPath then
    { status := 2, out, err := lit "error: cannot write " ++ cfg.junitPath ++ lit "\n" }
  else
    { status
      out := out ++ lit "JUnit report written to " ++ cfg.junitPath ++ lit "\n"
      junit := some (files.stored cfg.junitPath (renderJunit fixed (lit "vmtest") results)) }

/-- `main`; no result if it ends by an exception. `usage` is the text of `usage_text`. -/
def main (argv : List ByteString) : Option Finished :=
  let parsed := parseArgs argv
  let cfg := parsed.cfg
  let tests := buildTests env cfg.toConfig
  if parsed.help then some { status := 0, out := usage }
  else if parsed.error ≠ [] then
    some { status := 2, err := lit "error: " ++ parsed.error ++ lit "\n\n" ++ usage }
  else if cfg.listOnly then
    some { status := 0, out := tests.flatMap fun t => t.suite ++ lit "." ++ t.name ++ lit "\n" }
  else if cfg.image.isEmpty then
    some { status := 2, err := lit "error: --image is required\n\n" ++ usage }
  else match files.present cfg.image with
    | none => none
    | some false =>
      some { status := 2, err := lit "error: image not found: " ++ cfg.image ++ lit "\n" }
    | some true =>
      match runTests env cfg.toConfig tests {} with
      | (.error _, _) => none
      | (.ok results, w) =>
        -- the destructor of the context
        some { report fixed files cfg results with world := (Context.releaseVm env w).2 }

/-- The command line asks for a run of the tests, and there is an image to run them on. -/
structure Runs (argv : List ByteString) : Prop where
  help : (parseArgs argv).help = false
  error : (parseArgs argv).error = []
  listOnly : (parseArgs argv).cfg.listOnly = false
  image : (parseArgs argv).cfg.image ≠ []
  present : files.present (parseArgs argv).cfg.image = some true

end Main

/-! ### One verdict for each test case -/

section Verdicts

variable {env : Env} {cfg : Config}

end Verdicts

/-! ### The exit status -/

section ExitStatus

variable {env : Env} {fixed : ℕ → ℚ → ByteString} {usage : ByteString} {files : Files}
  {argv : List ByteString}

end ExitStatus

end Vmtest
