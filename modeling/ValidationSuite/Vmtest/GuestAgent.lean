import Mathlib.Data.List.Infix
import ValidationSuite.Library.Check
import ValidationSuite.Library.Json
import ValidationSuite.Vmtest.Harness
import ValidationSuite.Vmtest.Util

/-!
# Programs in the guest

`vmtest/src/guest_exec.cpp`: a program is started in the guest by one command to its agent, and then
the agent is asked about it until it has ended. The agent is any procedure that answers a command or
throws; `JsonLibrary` stands for the library that reads and writes its messages. The result of the
predicate that `wait_until` polls is the flag of the last answer, so the two are one value here.
-/

namespace Vmtest

open ByteString Exceptional

structure JsonLibrary where
  parse : ByteString → Option Json
  /-- a string that is not UTF-8 throws -/
  dump : Json → Except Failure ByteString
  /-- what a float is converted to, in range or not -/
  floatToLong : UInt64 → Int64
  floatToInt : UInt64 → Int32

namespace GuestAgent

variable (lib : JsonLibrary)

/-! ### Values -/

def typeName : Json → ByteString
  | .null => lit "null"
  | .bool _ => lit "boolean"
  | .signed _ | .unsigned _ | .float _ => lit "number"
  | .string _ => lit "string"
  | .array _ => lit "array"
  | .object _ => lit "object"

/-- What a conversion throws for a value of another type. -/
def typeError (expected : String) (v : Json) : Failure :=
  .otherError (lit "[json.exception.type_error.302] type must be " ++ lit expected ++
    lit ", but is " ++ typeName v)

def getString : Json → Except Failure ByteString
  | .string s => .ok s
  | v => .error (typeError "string" v)

def getBool : Json → Except Failure Bool
  | .bool b => .ok b
  | v => .error (typeError "boolean" v)

/-- `get<long>()`: the type of the integers of the library, for which a boolean is no number. -/
def getLong (v : Json) : Except Failure ℤ :=
  match v with
  | .signed _ | .unsigned _ => .ok v.toLong
  | .float bits => .ok (lib.floatToLong bits).toInt
  | v => .error (typeError "number" v)

/-- `get<int>()`: another arithmetic type, to which a boolean is converted too. -/
def getInt (v : Json) : Except Failure ℤ :=
  match v with
  | .signed _ | .unsigned _ => .ok (v.toLong.bmod (2 ^ 32))
  | .float bits => .ok (lib.floatToInt bits).toInt
  | .bool b => .ok (if b then 1 else 0)
  | v => .error (typeError "number" v)

/-! ### Replies -/

abbrev Members := SortedMap ByteString Json

/-- What is thrown for a reply with an error. -/
def agentError (e : Json) : Except Failure ByteString := do
  let desc ← match e.members?.bind (·.get? (lit "desc")) with
    | some v => getString v
    | none => lib.dump e
  return lit "guest agent error: " ++ desc

def parseReply (text : ByteString) : Except Failure Members :=
  match (lib.parse text).bind Json.members? with
  | none => .error (.otherError (lit "guest agent returned invalid JSON: " ++ text))
  | some j =>
    match j.get? (lit "error") with
    | none => .ok j
    | some e => do throw (.otherError (← agentError lib e))

def decodeField (r : Members) (key : String) : ByteString :=
  match (r.get? (lit key)).bind Json.string? with
  | none => []
  | some s => base64Decode s

def parseExecPid (text : ByteString) : Except Failure (Option ℤ) := do
  let j ← parseReply lib text
  match ((j.get? (lit "return")).bind Json.members?).bind (·.get? (lit "pid")) with
  | none => return none
  | some v => return some (← getLong lib v)

/-- The status of a program that has ended. The sum is one of two `int`s. -/
def exitCode (r : Members) : Except Failure ℤ :=
  match r.get? (lit "exitcode"), r.get? (lit "signal") with
  | some v, _ => getInt lib v
  | none, some v => do return (128 + (← getInt lib v)).bmod (2 ^ 32)
  | none, none => .ok ({} : ExecResult).exitCode

def parseExecStatus (text : ByteString) : Except Failure ExecResult := do
  let j ← parseReply lib text
  match (j.get? (lit "return")).bind Json.members? with
  | none => return {}
  | some r =>
    let exited ← match r.get? (lit "exited") with
      | none => pure false
      | some v => getBool v
    if !exited then return {}
    return { exited
             exitCode := ← exitCode lib r
             out := decodeField r "out-data"
             err := decodeField r "err-data" }

/-! ### The conversation -/

def execCommand (path : ByteString) (args : List ByteString) : Json :=
  .object (.ofList
    [(lit "arguments", .object (.ofList
        [(lit "arg", .array (args.map .string)), (lit "capture-output", .bool true),
          (lit "path", .string path)] (by dsimp only [List.map]; decide))),
      (lit "execute", .string (lit "guest-exec"))] (by dsimp only [List.map]; decide))

def statusCommand (pid : ℤ) : Json :=
  .object (.ofList
    [(lit "arguments", .object (.ofList [(lit "pid", .signed (.ofInt pid))]
        (by dsimp only [List.map]; decide))),
      (lit "execute", .string (lit "guest-exec-status"))] (by dsimp only [List.map]; decide))

section Exec

variable {σ : Type} (agentCommand : ByteString → Exceptional σ Failure ByteString)

/-- The body of the predicate. -/
def pollStatus (statusJson : ByteString) : Exceptional σ Failure ExecResult := do
  let reply ← agentCommand statusJson
  ofExcept (parseExecStatus lib reply)

/-- Poll until the program has ended, or until it has been polled `polls` times more. -/
def waitUntilExited (statusJson : ByteString) : ℕ → Exceptional σ Failure ExecResult
  | 0 => pollStatus lib agentCommand statusJson
  | polls + 1 => do
    let last ← pollStatus lib agentCommand statusJson
    if last.exited then return last
    waitUntilExited statusJson polls

def timeout (timeoutS : ℤ) (path : ByteString) : Failure :=
  .otherError (lit "guest command timed out after " ++ ofInt timeoutS ++ lit "s: " ++ path)

/-- The time that `timeoutS` leaves is given as the number of polls. -/
def guestExec (polls : ℕ) (path : ByteString) (args : List ByteString) (timeoutS : ℤ) :
    Exceptional σ Failure ExecResult := do
  let execJson ← ofExcept (lib.dump (execCommand path args))
  let reply ← agentCommand execJson
  match ← ofExcept (parseExecPid lib reply) with
  | none => throw (.otherError (lit "guest-exec returned no pid"))
  | some pid =>
    let statusJson ← ofExcept (lib.dump (statusCommand pid))
    let last ← waitUntilExited lib agentCommand statusJson polls
    if last.exited then return last else throw (timeout timeoutS path)

def guestSh (polls : ℕ) (script : ByteString) (timeoutS : ℤ) : Exceptional σ Failure ExecResult :=
  guestExec lib agentCommand polls (lit "/bin/sh") [lit "-c", script] timeoutS

/-! ### What the agent is asked -/

/-- A command, and what came of it. -/
abbrev Exchange := ByteString × Except Failure ByteString

/-- Commands to the agent, one after the other. -/
inductive Talk : σ → List Exchange → σ → Prop
  | nil (s : σ) : Talk s [] s
  | cons {s s' s'' : σ} {command : ByteString} {reply : Except Failure ByteString}
    {talk : List Exchange} :
    agentCommand command s = (reply, s') → Talk s' talk s'' → Talk s ((command, reply) :: talk) s''

/-- What the answer says about the program, or the exception on the way. -/
def heardStatus (x : Exchange) : Except Failure ExecResult := x.2 >>= parseExecStatus lib

def heardPid (x : Exchange) : Except Failure (Option ℤ) := x.2 >>= parseExecPid lib

/-- The agent was asked until it reported the end or there was an exception, but not too often. -/
structure Polled (statusJson : ByteString) (polls : ℕ) (talk : List Exchange)
    (r : Except Failure ExecResult) : Prop where
  length_le : talk.length ≤ polls + 1
  command : ∀ x ∈ talk, x.1 = statusJson
  running : ∀ x ∈ talk.dropLast, ∃ res, heardStatus lib x = .ok res ∧ res.exited = false
  last : ∃ x, talk.getLast? = some x ∧ heardStatus lib x = r
  full : ∀ res, r = .ok res → res.exited = false → talk.length = polls + 1

variable {lib agentCommand}

lemma Polled.ne_nil {statusJson : ByteString} {polls : ℕ} {talk : List Exchange}
    {r : Except Failure ExecResult} (h : Polled lib statusJson polls talk r) : talk ≠ [] := by
  rintro rfl
  obtain ⟨x, hx, -⟩ := h.last
  cases hx

lemma Polled.single {statusJson : ByteString} {polls : ℕ} {x : Exchange}
    {r : Except Failure ExecResult} (hx : x.1 = statusJson) (hr : heardStatus lib x = r)
    (hfull : ∀ res, r = .ok res → res.exited = false → polls = 0) :
    Polled lib statusJson polls [x] r where
  length_le := Nat.le_add_left 1 polls
  command := by simpa using hx
  running := nofun
  last := ⟨x, rfl, hr⟩
  full res h hexited := by simp [hfull res h hexited]

lemma Polled.cons {statusJson : ByteString} {polls : ℕ} {x : Exchange} {talk : List Exchange}
    {r : Except Failure ExecResult} (h : Polled lib statusJson polls talk r) (hx : x.1 = statusJson)
    {res : ExecResult} (hres : heardStatus lib x = .ok res) (hexited : res.exited = false) :
    Polled lib statusJson (polls + 1) (x :: talk) r where
  length_le := Nat.succ_le_succ h.length_le
  command := List.forall_mem_cons.mpr ⟨hx, h.command⟩
  running := by
    rw [List.dropLast_cons_of_ne_nil h.ne_nil]
    exact List.forall_mem_cons.mpr ⟨⟨res, hres, hexited⟩, h.running⟩
  last := by
    obtain ⟨y, hy, hr⟩ := h.last
    exact ⟨y, by rw [List.getLast?_cons, hy]; rfl, hr⟩
  full res h' hexited' := congrArg (· + 1) (h.full res h' hexited')

lemma pollStatus_eq (statusJson : ByteString) (s : σ) :
    pollStatus lib agentCommand statusJson s =
      (heardStatus lib (statusJson, (agentCommand statusJson s).1),
        (agentCommand statusJson s).2) := by
  rw [pollStatus]
  rcases h : agentCommand statusJson s with ⟨e | reply, s'⟩
  · exact bind_of_error h
  · rw [bind_of_ok h]
    exact ofExcept_apply _ s'

/-- The induction is on the polls that are left. -/
lemma polled_waitUntilExited (statusJson : ByteString) (polls : ℕ) (s : σ) :
    ∃ talk, Talk agentCommand s talk (waitUntilExited lib agentCommand statusJson polls s).2 ∧
      Polled lib statusJson polls talk (waitUntilExited lib agentCommand statusJson polls s).1 := by
  have hpoll := @pollStatus_eq lib σ agentCommand statusJson s
  induction polls generalizing s with
  | zero =>
    rw [waitUntilExited, hpoll]
    exact ⟨_, .cons rfl (.nil _), .single rfl rfl fun _ _ _ => rfl⟩
  | succ polls ih =>
    rw [waitUntilExited]
    cases hheard : heardStatus lib (statusJson, (agentCommand statusJson s).1) with
    | error e =>
      rw [hheard] at hpoll
      rw [bind_of_error hpoll]
      exact ⟨_, .cons rfl (.nil _), .single rfl hheard nofun⟩
    | ok res =>
      rw [hheard] at hpoll
      rw [bind_of_ok hpoll]
      cases hexited : res.exited with
      | true =>
        rw [if_pos rfl]
        refine ⟨_, .cons rfl (.nil _), .single rfl hheard fun res' hres' h => ?_⟩
        obtain rfl := Except.ok.inj hres'
        rw [hexited] at h
        cases h
      | false =>
        rw [if_neg nofun]
        obtain ⟨talk, htalk, hpolled⟩ := ih (agentCommand statusJson s).2 (pollStatus_eq _ _)
        exact ⟨_, .cons rfl htalk, hpolled.cons rfl hheard hexited⟩

/-- What `guest_exec` makes of the last answer about the program. -/
def concluded (timeoutS : ℤ) (path : ByteString) (r : Except Failure ExecResult) :
    Except Failure ExecResult :=
  match r with
  | .ok last => if last.exited then .ok last else .error (timeout timeoutS path)
  | .error e => .error e

variable (lib) in
/-- The conversations that `guest_exec` may have, with its result: nothing is said, or the program
is started, and then nothing but its status is asked for. -/
inductive Conversation (polls : ℕ) (path : ByteString) (args : List ByteString) (timeoutS : ℤ) :
    List Exchange → Except Failure ExecResult → Prop
  | unwritten {e : Failure} :
    lib.dump (execCommand path args) = .error e →
      Conversation polls path args timeoutS [] (.error e)
  | unheard {x : Exchange} {e : Failure} :
    lib.dump (execCommand path args) = .ok x.1 → heardPid lib x = .error e →
    Conversation polls path args timeoutS [x] (.error e)
  | noPid {x : Exchange} :
    lib.dump (execCommand path args) = .ok x.1 → heardPid lib x = .ok none →
    Conversation polls path args timeoutS [x]
      (.error (.otherError (lit "guest-exec returned no pid")))
  | unasked {x : Exchange} {pid : ℤ} {e : Failure} :
    lib.dump (execCommand path args) = .ok x.1 → heardPid lib x = .ok (some pid) →
    lib.dump (statusCommand pid) = .error e → Conversation polls path args timeoutS [x] (.error e)
  | asked {x : Exchange} {pid : ℤ} {statusJson : ByteString} {talk : List Exchange}
    {r : Except Failure ExecResult} :
    lib.dump (execCommand path args) = .ok x.1 → heardPid lib x = .ok (some pid) →
    lib.dump (statusCommand pid) = .ok statusJson → Polled lib statusJson polls talk r →
    Conversation polls path args timeoutS (x :: talk) (concluded timeoutS path r)

lemma exited_of_concluded {timeoutS : ℤ} {path : ByteString} {r : Except Failure ExecResult}
    {res : ExecResult} (h : concluded timeoutS path r = .ok res) :
    r = .ok res ∧ res.exited = true := by
  rcases r with e | last
  · cases h
  · rw [concluded] at h
    split_ifs at h with hexited
    obtain rfl := Except.ok.inj h
    exact ⟨rfl, hexited⟩

/-- Only the last answer about the program counts, and it says that the program has ended. -/
lemma Conversation.of_ok {polls : ℕ} {path : ByteString} {args : List ByteString} {timeoutS : ℤ}
    {talk : List Exchange} {r : Except Failure ExecResult}
    (h : Conversation lib polls path args timeoutS talk r) {res : ExecResult} (hr : r = .ok res) :
    res.exited = true ∧ ∃ x, talk.getLast? = some x ∧ heardStatus lib x = .ok res := by
  cases h with
  | @asked x pid statusJson talk r _ _ _ hpolled =>
    obtain ⟨rfl, hexited⟩ := exited_of_concluded hr
    obtain ⟨y, hy, hheard⟩ := hpolled.last
    exact ⟨hexited, y, by rw [List.getLast?_cons, hy]; rfl, hheard⟩
  | _ => cases hr

/-- The end of `guest_exec`. -/
lemma bind_concluded (x : Exceptional σ Failure ExecResult) (path : ByteString) (timeoutS : ℤ)
    (s : σ) :
    (do let last ← x; if last.exited then return last else throw (timeout timeoutS path)) s =
      (concluded timeoutS path (x s).1, (x s).2) := by
  rcases hx : x s with ⟨e | last, s'⟩
  · exact bind_of_error hx
  · rw [bind_of_ok hx, concluded]
    dsimp only
    split_ifs <;> rfl

lemma conversation_guestExec (polls : ℕ) (path : ByteString) (args : List ByteString)
    (timeoutS : ℤ) (s : σ) :
    ∃ talk, Talk agentCommand s talk (guestExec lib agentCommand polls path args timeoutS s).2 ∧
      Conversation lib polls path args timeoutS talk
        (guestExec lib agentCommand polls path args timeoutS s).1 := by
  rw [guestExec]
  have hwrite := ofExcept_apply (lib.dump (execCommand path args)) s
  cases hexec : lib.dump (execCommand path args) with
  | error e =>
    rw [hexec] at hwrite
    rw [bind_of_error hwrite]
    exact ⟨[], .nil s, .unwritten hexec⟩
  | ok execJson =>
    rw [hexec] at hwrite
    rw [bind_of_ok hwrite]
    rcases hreply : agentCommand execJson s with ⟨e | reply, s'⟩
    · rw [bind_of_error hreply]
      exact ⟨_, .cons hreply (.nil s'), .unheard hexec rfl⟩
    · rw [bind_of_ok hreply]
      have hread := ofExcept_apply (parseExecPid lib reply) s'
      rcases hpid : parseExecPid lib reply with e | _ | pid
      · rw [hpid] at hread
        rw [bind_of_error hread]
        exact ⟨_, .cons hreply (.nil s'), .unheard hexec hpid⟩
      · rw [hpid] at hread
        rw [bind_of_ok hread]
        exact ⟨_, .cons hreply (.nil s'), .noPid hexec hpid⟩
      · rw [hpid] at hread
        rw [bind_of_ok hread]
        have hask := ofExcept_apply (lib.dump (statusCommand pid)) s'
        cases hstatus : lib.dump (statusCommand pid) with
        | error e =>
          rw [hstatus] at hask
          dsimp only
          rw [hstatus, bind_of_error hask]
          exact ⟨_, .cons hreply (.nil s'), .unasked hexec hpid hstatus⟩
        | ok statusJson =>
          rw [hstatus] at hask
          dsimp only
          rw [hstatus, bind_of_ok hask]
          obtain ⟨talk, htalk, hpolled⟩ :=
            @polled_waitUntilExited lib σ agentCommand statusJson polls s'
          rw [bind_concluded]
          exact ⟨_, .cons hreply htalk, .asked hexec hpid hstatus hpolled⟩

end Exec

/-! ### Programs as the agent knows them -/

/-- The signals there are, the real-time ones included. -/
structure Signal where
  number : ℕ
  pos : 0 < number
  le : number ≤ 64

inductive Ending where
  | exited (code : Int32)
  | signalled (signal : Signal)

/-- What comes of a program in the guest. -/
structure Process where
  ending : Ending
  out : ByteString
  err : ByteString

/-- The result of a shell: 128 and the signal for a program that was killed. -/
def Process.result (p : Process) : ExecResult where
  exited := true
  exitCode := match p.ending with
    | .exited code => code.toInt
    | .signalled signal => 128 + signal.number
  out := p.out
  err := p.err

variable {lib}

/-- The reply to a command that has not failed. -/
def Returns (lib : JsonLibrary) (text : ByteString) (r : Members) : Prop :=
  ∃ j, lib.parse text = some (.object j) ∧ j.get? (lit "error") = none ∧
    j.get? (lit "return") = some (.object r)

/-- What a stream has caught; the member may be missing if this is nothing. -/
def HasOutput (r : Members) (key : String) (s : ByteString) : Prop :=
  r.get? (lit key) = some (.string (Base64.encode s)) ∨ r.get? (lit key) = none ∧ s = []

def HasNumber (r : Members) (key : String) (n : ℤ) : Prop :=
  ∃ v, r.get? (lit key) = some v ∧ v.integer? = some n

def HasEnding (r : Members) : Ending → Prop
  | .exited code => HasNumber r "exitcode" code.toInt
  | .signalled signal => r.get? (lit "exitcode") = none ∧ HasNumber r "signal" signal.number

structure HasEnded (r : Members) (p : Process) : Prop where
  exited : r.get? (lit "exited") = some (.bool true)
  ending : HasEnding r p.ending
  out : HasOutput r "out-data" p.out
  err : HasOutput r "err-data" p.err

lemma parseReply_of_returns {text : ByteString} {r : Members} (h : Returns lib text r) :
    ∃ j, parseReply lib text = .ok j ∧ j.get? (lit "return") = some (.object r) := by
  obtain ⟨j, hparse, herror, hreturn⟩ := h
  refine ⟨j, ?_, hreturn⟩
  simp [parseReply, hparse, Json.members?, herror]

lemma getLong_of_integer? {v : Json} {n : ℤ} (h : v.integer? = some n) (hn : n < 2 ^ 63) :
    getLong lib v = .ok n := by
  have hlong : v.toLong = n := by
    rcases Json.toLong_eq h with hlong | ⟨hlarge, -⟩
    · exact hlong
    · omega
  cases v with
  | signed i => rw [getLong, hlong]
  | unsigned u => rw [getLong, hlong]
  | _ => cases h

lemma getInt_of_integer? {v : Json} {n : ℤ} (h : v.integer? = some n) (hlo : -2 ^ 31 ≤ n)
    (hhi : n < 2 ^ 31) : getInt lib v = .ok n := by
  have hlong : v.toLong = n := by
    rcases Json.toLong_eq h with hlong | ⟨hlarge, -⟩
    · exact hlong
    · omega
  have hmod : n.bmod (2 ^ 32) = n := by
    rw [Int.bmod_eq_of_le] <;> omega
  cases v with
  | signed i => rw [getInt, hlong, hmod]
  | unsigned u => rw [getInt, hlong, hmod]
  | _ => cases h

lemma exitCode_of_hasEnding {r : Members} {p : Process} (h : HasEnding r p.ending) :
    exitCode lib r = .ok p.result.exitCode := by
  rw [exitCode, Process.result]
  cases hending : p.ending with
  | exited code =>
    rw [hending] at h
    obtain ⟨v, hv, hcode⟩ := h
    rw [hv]
    exact getInt_of_integer? hcode code.le_toInt code.toInt_lt
  | signalled signal =>
    rw [hending] at h
    obtain ⟨hnone, v, hv, hsignal⟩ := h
    have hle := signal.le
    have hint : getInt lib v = .ok (signal.number : ℤ) :=
      getInt_of_integer? hsignal (by omega) (by omega)
    have hsum : (128 + (signal.number : ℤ)).bmod (2 ^ 32) = 128 + signal.number := by
      rw [Int.bmod_eq_of_le] <;> omega
    rw [hnone, hv]
    show (getInt lib v >>= fun n => .ok ((128 + n).bmod (2 ^ 32))) = .ok (128 + signal.number)
    rw [hint]
    exact congrArg Except.ok hsum

lemma base64Decode_encode (s : ByteString) : base64Decode (Base64.encode s) = s := by
  rw [base64Decode_eq_foldl, positions_encode, Base64State.foldl_sextets rfl]
  rfl

lemma decodeField_of_hasOutput {r : Members} {key : String} {s : ByteString}
    (h : HasOutput r key s) : decodeField r key = s := by
  rcases h with h | ⟨h, rfl⟩
  · rw [decodeField, h]
    exact base64Decode_encode s
  · rw [decodeField, h]
    rfl

lemma parseExecPid_of_returns {text : ByteString} {r : Members} (h : Returns lib text r)
    {pid : Int64} (hpid : HasNumber r "pid" pid.toInt) :
    parseExecPid lib text = .ok (some pid.toInt) := by
  obtain ⟨j, hj, hreturn⟩ := parseReply_of_returns h
  obtain ⟨v, hv, hn⟩ := hpid
  have hlong : getLong lib v = .ok pid.toInt := getLong_of_integer? hn pid.toInt_lt
  rw [parseExecPid, Except.bind_eq_ok]
  refine ⟨j, hj, ?_⟩
  simp only [hreturn, Json.members?, Option.bind_some, hv]
  exact Except.bind_eq_ok.mpr ⟨_, hlong, rfl⟩

lemma parseExecStatus_of_running {text : ByteString} {r : Members} (h : Returns lib text r)
    (hexited : r.get? (lit "exited") = some (.bool false)) :
    parseExecStatus lib text = .ok {} := by
  obtain ⟨j, hj, hreturn⟩ := parseReply_of_returns h
  rw [parseExecStatus, Except.bind_eq_ok]
  refine ⟨j, hj, ?_⟩
  simp only [hreturn, Json.members?, Option.bind_some, hexited]
  rfl

/-- The answer about a program that has ended is understood. -/
lemma parseExecStatus_of_hasEnded {text : ByteString} {r : Members} (h : Returns lib text r)
    {p : Process} (hp : HasEnded r p) : parseExecStatus lib text = .ok p.result := by
  obtain ⟨j, hj, hreturn⟩ := parseReply_of_returns h
  have hcode : exitCode lib r = .ok p.result.exitCode := exitCode_of_hasEnding hp.ending
  rw [parseExecStatus, Except.bind_eq_ok]
  refine ⟨j, hj, ?_⟩
  simp only [hreturn, Json.members?, Option.bind_some, hp.exited,
    decodeField_of_hasOutput hp.out, decodeField_of_hasOutput hp.err]
  exact Except.bind_eq_ok.mpr ⟨true, rfl, Except.bind_eq_ok.mpr ⟨_, hcode, rfl⟩⟩

section Serves

variable {σ : Type} (lib) (agentCommand : ByteString → Exceptional σ Failure ByteString)

/-- The agent will say `k` times that the program is still running, and then what has come of it. -/
def Answers (statusJson : ByteString) (p : Process) : ℕ → σ → Prop
  | 0, s => ∃ text s' r, agentCommand statusJson s = (.ok text, s') ∧ Returns lib text r ∧
    HasEnded r p
  | k + 1, s => ∃ text s' r, agentCommand statusJson s = (.ok text, s') ∧ Returns lib text r ∧
    r.get? (lit "exited") = some (.bool false) ∧ Answers statusJson p k s'

/-- The agent will start the program, and will answer for it under the number `pid`. -/
def Serves (execJson statusJson : ByteString) (pid : Int64) (p : Process) (k : ℕ) (s : σ) : Prop :=
  ∃ text s' r, agentCommand execJson s = (.ok text, s') ∧ Returns lib text r ∧
    HasNumber r "pid" pid.toInt ∧ Answers lib agentCommand statusJson p k s'

variable {lib agentCommand}

/-- The induction is on the answers that the program is running. -/
lemma waitUntilExited_of_answers {statusJson : ByteString} {p : Process} {k polls : ℕ} {s : σ}
    (h : Answers lib agentCommand statusJson p k s) :
    ∃ last s', waitUntilExited lib agentCommand statusJson polls s = (.ok last, s') ∧
      if k ≤ polls then last = p.result else last.exited = false := by
  induction k generalizing polls s with
  | zero =>
    obtain ⟨text, s', r, htext, hreturns, hended⟩ := h
    have hpoll : pollStatus lib agentCommand statusJson s = (.ok p.result, s') := by
      rw [pollStatus, bind_of_ok htext, ofExcept_apply, parseExecStatus_of_hasEnded hreturns hended]
    refine ⟨p.result, s', ?_, by rw [if_pos (Nat.zero_le polls)]⟩
    cases polls with
    | zero => exact hpoll
    | succ polls =>
      rw [waitUntilExited, bind_of_ok hpoll]
      rfl
  | succ k ih =>
    obtain ⟨text, s', r, htext, hreturns, hexited, hrest⟩ := h
    have hpoll : pollStatus lib agentCommand statusJson s = (.ok {}, s') := by
      rw [pollStatus, bind_of_ok htext, ofExcept_apply, parseExecStatus_of_running hreturns hexited]
    cases polls with
    | zero => exact ⟨{}, s', hpoll, rfl⟩
    | succ polls =>
      obtain ⟨last, s'', hlast, hresult⟩ := @ih polls s' hrest
      refine ⟨last, s'', ?_, by simpa using hresult⟩
      rw [waitUntilExited, bind_of_ok hpoll]
      exact hlast

end Serves

section Results

variable {σ : Type} (lib) (agentCommand : ByteString → Exceptional σ Failure ByteString) (polls : ℕ)
  (path : ByteString) (args : List ByteString) (timeoutS : ℤ) (s : σ)

/-- Whatever the agent answers, a program is started at most once; after that the agent is only
asked about the program it has named, at most as often as there is time, and no more once it says
that this has ended, or answers something else. What is returned is what it says last, and this is
that the program has ended. -/
theorem guest_exec_conversation :
    (∃ talk, Talk agentCommand s talk (guestExec lib agentCommand polls path args timeoutS s).2 ∧
      Conversation lib polls path args timeoutS talk
        (guestExec lib agentCommand polls path args timeoutS s).1) ∧
    ∀ res s', guestExec lib agentCommand polls path args timeoutS s = (.ok res, s') →
      res.exited = true ∧ ∃ talk x, Talk agentCommand s talk s' ∧ talk.getLast? = some x ∧
        heardStatus lib x = .ok res := by
  obtain ⟨talk, htalk, hconversation⟩ :=
    @conversation_guestExec lib σ agentCommand polls path args timeoutS s
  refine ⟨⟨talk, htalk, hconversation⟩, fun res s' h => ?_⟩
  rw [h] at htalk hconversation
  obtain ⟨hexited, x, hx, hheard⟩ := hconversation.of_ok rfl
  exact ⟨hexited, talk, x, htalk, hx, hheard⟩

/-- For an agent that keeps to its protocol, the result is what has come of the program: its exit
code or its signal, and the bytes of its output. It comes exactly if the program ends in time; else
there is an exception. -/
theorem guest_exec_returns_ending {execJson statusJson : ByteString} {pid : Int64}
    (hexec : lib.dump (execCommand path args) = .ok execJson)
    (hstatus : lib.dump (statusCommand pid.toInt) = .ok statusJson) {p : Process} {k : ℕ}
    (h : Serves lib agentCommand execJson statusJson pid p k s) :
    (guestExec lib agentCommand polls path args timeoutS s).1 =
      if k ≤ polls then .ok p.result else .error (timeout timeoutS path) := by
  obtain ⟨text, s', r, htext, hreturns, hpid, hanswers⟩ := h
  obtain ⟨last, s'', hlast, hresult⟩ :=
    @waitUntilExited_of_answers lib σ agentCommand _ _ _ polls _ hanswers
  have hwrite := ofExcept_apply (lib.dump (execCommand path args)) s
  have hread := ofExcept_apply (parseExecPid lib text) s'
  have hask := ofExcept_apply (lib.dump (statusCommand pid.toInt)) s'
  rw [hexec] at hwrite
  rw [parseExecPid_of_returns hreturns hpid] at hread
  rw [hstatus] at hask
  rw [guestExec, hexec, bind_of_ok hwrite, bind_of_ok htext,
    parseExecPid_of_returns hreturns hpid, bind_of_ok hread]
  dsimp only
  rw [hstatus, bind_of_ok hask, bind_concluded, hlast]
  split_ifs at hresult ⊢ with hk
  · rw [hresult]
    rfl
  · rw [concluded, if_neg (by simp [hresult])]

end Results

/-! ### A command that prints something -/

namespace Hello

def execText : ByteString :=
  lit "\x7b\"arguments\":\x7b\"arg\":[\"-c\",\"echo hello; exit 3\"],\"capture-output\":true," ++
    lit "\"path\":\"/bin/sh\"\x7d,\"execute\":\"guest-exec\"\x7d"

def statusText : ByteString :=
  lit "\x7b\"arguments\":\x7b\"pid\":7\x7d,\"execute\":\"guest-exec-status\"\x7d"

def pidText : ByteString := lit "\x7b\"return\":\x7b\"pid\":7\x7d\x7d"

def runningText : ByteString := lit "\x7b\"return\":\x7b\"exited\":false\x7d\x7d"

def endedText : ByteString :=
  lit "\x7b\"return\":\x7b\"exitcode\":3,\"exited\":true,\"out-data\":\"aGVsbG8K\"\x7d\x7d"

def pidMembers : Members := .ofList [(lit "pid", .unsigned 7)] (by decide)

def runningMembers : Members := .ofList [(lit "exited", .bool false)] (by decide)

def endedMembers : Members := .ofList [(lit "exitcode", .unsigned 3), (lit "exited", .bool true),
  (lit "out-data", .string (lit "aGVsbG8K"))] (by decide)

def returning (r : Members) : Json := .object (.ofList [(lit "return", .object r)]
  (by dsimp only [List.map]; decide))

/-- The texts of these messages only. -/
def library : JsonLibrary where
  parse text :=
    if text = pidText then some (returning pidMembers)
    else if text = runningText then some (returning runningMembers)
    else if text = endedText then some (returning endedMembers)
    else none
  dump v :=
    match (v.members?.bind (·.get? (lit "execute"))).bind Json.string? with
    | some command => .ok (if command = lit "guest-exec" then execText else statusText)
    | none => .ok []
  floatToLong _ := 0
  floatToInt _ := 0

/-- The state is how often the status has been asked for. -/
def agent (command : ByteString) : Exceptional ℕ Failure ByteString := fun n =>
  if command = execText then (.ok pidText, 0)
  else (.ok (if n = 0 then runningText else endedText), n + 1)

def process : Process := ⟨.exited 3, lit "hello\n", []⟩

lemma serves : Serves library agent execText statusText 7 process 1 0 := by
  refine ⟨pidText, 0, pidMembers, rfl, ⟨_, rfl, rfl, rfl⟩, ⟨_, rfl, rfl⟩, ?_⟩
  refine ⟨runningText, 1, runningMembers, rfl, ⟨_, rfl, rfl, rfl⟩, rfl, ?_⟩
  refine ⟨endedText, 2, endedMembers, rfl, ⟨_, rfl, rfl, rfl⟩, rfl, ⟨_, rfl, rfl⟩, ?_, ?_⟩
  · exact .inl rfl
  · exact .inr ⟨rfl, rfl⟩

end Hello

/-- It is running when it is asked for the first time. -/
theorem guest_exec_returns_ending_hello :
    (guestExec Hello.library Hello.agent 5 (lit "/bin/sh") [lit "-c", lit "echo hello; exit 3"] 30
      0).1 = .ok { exited := true, exitCode := 3, out := lit "hello\n" } := by
  have h := guest_exec_returns_ending Hello.library Hello.agent 5 (lit "/bin/sh")
    [lit "-c", lit "echo hello; exit 3"] 30 0 (by rfl) (by rfl) Hello.serves
  rw [if_pos (by decide)] at h
  exact h

end GuestAgent

end Vmtest
