import ValidationSuite.Dtest.Process.Basic

/-!
# The output of a command

`drain` and the supervising loops of `run_process` (`dtest/src/process.cpp`), read by read: the loop
until the command has exited or the deadline is over, the grace period after that, and the last
drain once the group is killed. What `read` brings on the two pipes, when the command is seen to
have exited and what the clock says come from outside.
-/

namespace Dtest.Process.Output

open ByteString

/-! ### Reading -/

/-- The pipes of the standard output and of the standard error. -/
inductive Channel where
  | out
  | err
  deriving DecidableEq

/-- What one `read` puts into the buffer of `drain`. -/
structure Chunk where
  bytes : ByteString
  length_pos : 0 < bytes.length
  length_le : bytes.length ≤ 4096

inductive ReadResult where
  | data (chunk : Chunk)
  | eof
  | eintr
  | eagain
  /-- any other `errno` -/
  | error

namespace ReadResult

def bytes : ReadResult → ByteString
  | .data chunk => chunk.bytes
  | .eof | .eintr | .eagain | .error => []

/-- Does `drain` read again after it? -/
def isBusy : ReadResult → Bool
  | .data _ | .eintr => true
  | .eof | .eagain | .error => false

/-- Does `drain` return `false` after it? -/
def closes : ReadResult → Bool
  | .eof | .error => true
  | .data _ | .eintr | .eagain => false

end ReadResult

/-- What `drain` keeps of a chunk, behind what it has, and whether it discards any of it. -/
def append (limit : ℕ) (into chunk : ByteString) : ByteString × Bool :=
  let room := if limit > into.length then limit - into.length else 0
  let take := min chunk.length room
  (into ++ chunk.take take, decide (take < chunk.length))

/-! ### The supervising loops -/

/-- The calls of `drain`: from `read_ready` in either loop, and the last ones. -/
inductive Site where
  | loop
  | grace
  | final
  deriving DecidableEq

/-- Where `run_process` stands. -/
inductive Stage where
  /-- at the test whether the channel is open -/
  | visit (site : Site) (ch : Channel)
  /-- in `drain`, about to read -/
  | drain (site : Site) (ch : Channel)
  /-- about to call `has_exited`, after `read_ready` -/
  | hasExited (site : Site)
  /-- about to compare the clock with the deadline -/
  | deadline
  /-- about to compare it with the end of the grace period -/
  | graceOver
  | done
  deriving DecidableEq

/-- The variables of a channel. `reads` counts the reads so far. -/
structure Capture where
  into : ByteString := []
  isOpen : Bool := true
  reads : ℕ := 0

/-- The local variables. `asked` and `looks` count the calls of `has_exited` and the looks at the
clock. -/
structure State where
  capture : Channel → Capture := fun _ => {}
  truncated : Bool := false
  timedOut : Bool := false
  asked : ℕ := 0
  looks : ℕ := 0
  stage : Stage := .visit .loop .out

/-- What happens at the `n`th read of a channel, the `n`th call of `has_exited` and the `n`th look
at the clock. -/
structure Env where
  read : Channel → ℕ → ReadResult
  exited : ℕ → Bool
  late : ℕ → Bool

/-- What comes after the drains of a site. -/
def Site.rest : Site → Stage
  | .loop => .hasExited .loop
  | .grace => .hasExited .grace
  | .final => .done

/-- What comes after the drain of a channel. -/
def Site.next (site : Site) : Channel → Stage
  | .out => .visit site .err
  | .err => site.rest

variable (env : Env) (limit : ℕ)

namespace State

variable (s : State)

def goto (stage : Stage) : State := { s with stage := stage }

def setCapture (ch : Channel) (c : Capture) : State :=
  { s with capture := Function.update s.capture ch c }

/-- One turn of the loop of `drain`. -/
def drainTurn (site : Site) (ch : Channel) : State :=
  let c := s.capture ch
  let read := { c with reads := c.reads + 1 }
  match env.read ch c.reads with
  | .data chunk =>
    let (into, discards) := append limit c.into chunk.bytes
    { s.setCapture ch { read with into := into } with truncated := s.truncated || discards }
  | .eintr => s.setCapture ch read
  | .eagain => (s.setCapture ch read).goto (site.next ch)
  | .eof | .error =>
    -- nobody looks at what the last drain returns
    (s.setCapture ch { read with isOpen := c.isOpen && site == .final }).goto (site.next ch)

/-- One step of `run_process`, from the first `read_ready` to its last drain. -/
def step : State :=
  match s.stage with
  | .visit site ch =>
    s.goto (if (s.capture ch).isOpen then .drain site ch else site.next ch)
  | .drain site ch => s.drainTurn env limit site ch
  | .hasExited site =>
    { s with asked := s.asked + 1 }.goto (
      if env.exited s.asked then .visit .final .out
      else match site with | .grace => .graceOver | .loop | .final => .deadline)
  | .deadline =>
    if env.late s.looks then
      { s with looks := s.looks + 1, timedOut := true }.goto .graceOver
    else { s with looks := s.looks + 1 }.goto (.visit .loop .out)
  | .graceOver =>
    { s with looks := s.looks + 1 }.goto (
      if env.late s.looks then .visit .final .out else .visit .grace .out)
  | .done => s

/-- What the supervision has learned, with the status that `waitpid` gives. -/
def supervision (status : WaitStatus) : Supervision where
  out := (s.capture .out).into
  err := (s.capture .err).into
  truncated := s.truncated
  timedOut := s.timedOut
  status := status

@[simp] lemma goto_stage (stage : Stage) : (s.goto stage).stage = stage := rfl

@[simp] lemma goto_capture (stage : Stage) : (s.goto stage).capture = s.capture := rfl

@[simp] lemma goto_truncated (stage : Stage) : (s.goto stage).truncated = s.truncated := rfl

@[simp] lemma setCapture_stage (ch : Channel) (c : Capture) :
    (s.setCapture ch c).stage = s.stage := rfl

@[simp] lemma setCapture_truncated (ch : Channel) (c : Capture) :
    (s.setCapture ch c).truncated = s.truncated := rfl

@[simp] lemma setCapture_capture (ch ch' : Channel) (c : Capture) :
    (s.setCapture ch c).capture ch' = if ch' = ch then c else s.capture ch' := by
  simp [setCapture, Function.update_apply]

section Turns

variable (site : Site) (ch : Channel)

/-- The ways through the loop of `drain`. -/
inductive Turned : State → Prop
  | data {chunk : Chunk} (hread : env.read ch (s.capture ch).reads = .data chunk) :
      Turned { s.setCapture ch
          { s.capture ch with
            into := (append limit (s.capture ch).into chunk.bytes).1
            reads := (s.capture ch).reads + 1 } with
        truncated := s.truncated || (append limit (s.capture ch).into chunk.bytes).2 }
  | eintr (hread : env.read ch (s.capture ch).reads = .eintr) :
      Turned (s.setCapture ch { s.capture ch with reads := (s.capture ch).reads + 1 })
  | eagain (hread : env.read ch (s.capture ch).reads = .eagain) :
      Turned ((s.setCapture ch { s.capture ch with reads := (s.capture ch).reads + 1 }).goto
        (site.next ch))
  | closes (hclosed : (env.read ch (s.capture ch).reads).closes = true)
      (hnone : (env.read ch (s.capture ch).reads).bytes = []) :
      Turned ((s.setCapture ch
        { s.capture ch with
          isOpen := (s.capture ch).isOpen && site == .final
          reads := (s.capture ch).reads + 1 }).goto (site.next ch))

theorem Turned.of_drainTurn : Turned env limit s site ch (s.drainTurn env limit site ch) := by
  cases hread : env.read ch (s.capture ch).reads with
  | data chunk => simpa only [drainTurn, hread] using Turned.data hread
  | eintr => simpa only [drainTurn, hread] using Turned.eintr hread
  | eagain => simpa only [drainTurn, hread] using Turned.eagain hread
  | eof =>
    simp only [drainTurn, hread]
    exact Turned.closes (by rw [hread]; rfl) (by rw [hread]; rfl)
  | error =>
    simp only [drainTurn, hread]
    exact Turned.closes (by rw [hread]; rfl) (by rw [hread]; rfl)

end Turns

end State

/-- The state after `n` steps. -/
def run : ℕ → State
  | 0 => {}
  | n + 1 => (run n).step env limit

/-! ### What is captured -/

/-- What the first `n` reads of a channel have brought. -/
def delivered (ch : Channel) (n : ℕ) : ByteString :=
  (List.range n).flatMap fun k => (env.read ch k).bytes

variable {env limit}

lemma delivered_succ (ch : Channel) (n : ℕ) :
    delivered env ch (n + 1) = delivered env ch n ++ (env.read ch n).bytes := by
  simp [delivered, List.range_succ]

/-- Appending a chunk to the start of a stream gives the start of the longer stream. -/
lemma append_take (s chunk : ByteString) :
    (append limit (s.take limit) chunk).1 = (s ++ chunk).take limit := by
  simp only [append, List.length_take, List.take_append]
  congr 1
  split_ifs with h
  · have hroom : limit - min limit s.length = limit - s.length := by omega
    rw [hroom, Nat.min_comm, ← List.take_take, List.take_length]
  · have hfull : limit - s.length = 0 := by omega
    rw [hfull, Nat.min_zero]

/-- Some of a chunk is discarded if the stream gets too long with it. -/
lemma append_discards {s chunk : ByteString} (h : 0 < chunk.length) :
    (append limit (s.take limit) chunk).2 = true ↔ limit < (s ++ chunk).length := by
  simp only [append, List.length_take, List.length_append, decide_eq_true_eq]
  split_ifs with hroom <;> omega

/-- What is captured of a channel is the start of its stream, and the flag tells whether there was
more on either of the two. -/
structure Exact (env : Env) (limit : ℕ) (s : State) : Prop where
  into_eq : ∀ ch, (s.capture ch).into = (delivered env ch (s.capture ch).reads).take limit
  truncated_iff : s.truncated = true ↔
    ∃ ch, limit < (delivered env ch (s.capture ch).reads).length

namespace Exact

variable {s : State}

lemma congr (h : Exact env limit s) {s' : State}
    (hinto : ∀ ch, (s'.capture ch).into = (s.capture ch).into)
    (hreads : ∀ ch, delivered env ch (s'.capture ch).reads = delivered env ch (s.capture ch).reads)
    (htruncated : s'.truncated = s.truncated) : Exact env limit s' where
  into_eq ch := by rw [hinto, hreads, h.into_eq]
  truncated_iff := by simp only [htruncated, hreads, h.truncated_iff]

/-- A read that brings nothing. -/
lemma quiet (h : Exact env limit s) {ch : Channel}
    (hnone : (env.read ch (s.capture ch).reads).bytes = []) (isOpen : Bool) :
    Exact env limit (s.setCapture ch
      { into := (s.capture ch).into, isOpen := isOpen, reads := (s.capture ch).reads + 1 }) := by
  refine h.congr ?_ ?_ rfl
  · intro ch'
    by_cases hch : ch' = ch <;> simp [hch]
  · intro ch'
    by_cases hch : ch' = ch
    · subst hch
      simp [delivered_succ, hnone]
    · simp [hch]

lemma data (h : Exact env limit s) {ch : Channel} {c : Capture} {chunk : Chunk}
    (hread : env.read ch (s.capture ch).reads = .data chunk)
    (hinto : c.into = (append limit (s.capture ch).into chunk.bytes).1)
    (hreads : c.reads = (s.capture ch).reads + 1) :
    Exact env limit { s.setCapture ch c with
      truncated := s.truncated || (append limit (s.capture ch).into chunk.bytes).2 } where
  into_eq ch' := by
    by_cases hch : ch' = ch
    · subst hch
      simp only [State.setCapture_capture, if_true]
      rw [hinto, hreads, h.into_eq, append_take, delivered_succ, hread]
      rfl
    · simpa [hch] using h.into_eq ch'
  truncated_iff := by
    have hmore : ∀ ch', delivered env ch' ((s.setCapture ch c).capture ch').reads =
        delivered env ch' (s.capture ch').reads ++ if ch' = ch then chunk.bytes else [] := by
      intro ch'
      by_cases hch : ch' = ch
      · subst hch
        simp [hreads, delivered_succ, hread, ReadResult.bytes]
      · simp [hch]
    rw [h.into_eq, Bool.or_eq_true, append_discards chunk.length_pos, h.truncated_iff]
    simp only [hmore]
    constructor
    · rintro (⟨ch', hlong⟩ | hlong)
      · refine ⟨ch', hlong.trans_le ?_⟩
        simp
      · exact ⟨ch, by rwa [if_pos rfl]⟩
    · rintro ⟨ch', hlong⟩
      by_cases hch : ch' = ch
      · subst hch
        rw [if_pos rfl] at hlong
        exact .inr hlong
      · rw [if_neg hch, List.append_nil] at hlong
        exact .inl ⟨ch', hlong⟩

lemma goto (h : Exact env limit s) (stage : Stage) : Exact env limit (s.goto stage) :=
  h.congr (fun _ => rfl) (fun _ => rfl) rfl

lemma drainTurn (h : Exact env limit s) (site : Site) (ch : Channel) :
    Exact env limit (s.drainTurn env limit site ch) := by
  have hturned := State.Turned.of_drainTurn env limit s site ch
  generalize s.drainTurn env limit site ch = s' at hturned ⊢
  cases hturned with
  | data hread => exact h.data hread rfl rfl
  | eintr hread => exact h.quiet (by rw [hread]; rfl) _
  | eagain hread => exact (h.quiet (by rw [hread]; rfl) _).goto _
  | closes _ hnone => exact (h.quiet hnone _).goto _

lemma step (h : Exact env limit s) : Exact env limit (s.step env limit) := by
  unfold State.step
  cases hstage : s.stage with
  | visit site ch => exact h.goto _
  | drain site ch => exact h.drainTurn site ch
  | hasExited site => exact h.congr (fun _ => rfl) (fun _ => rfl) rfl
  | deadline =>
    dsimp only
    split_ifs
    · exact h.congr (fun _ => rfl) (fun _ => rfl) rfl
    · exact h.congr (fun _ => rfl) (fun _ => rfl) rfl
  | graceOver => exact h.congr (fun _ => rfl) (fun _ => rfl) rfl
  | done => exact h

end Exact

lemma exact_run (n : ℕ) : Exact env limit (run env limit n) := by
  induction n with
  | zero => exact ⟨fun _ => by simp [run, delivered], by simp [run, delivered]⟩
  | succ n ih => exact ih.step

/-- After any number of steps of `run_process`, so in particular after each call of `drain`: what is
captured of a channel are the first `limit` bytes it has brought, or all of them, and `truncated` is
set if and only if one of the channels has brought more. -/
theorem output_exact_up_to_cap (env : Env) (limit n : ℕ) (ch : Channel) :
    ((run env limit n).capture ch).into =
        (delivered env ch ((run env limit n).capture ch).reads).take
          (min limit (delivered env ch ((run env limit n).capture ch).reads).length) ∧
      ((run env limit n).capture ch).into.length ≤ limit ∧
      ((run env limit n).truncated = true ↔
        limit < (delivered env .out ((run env limit n).capture .out).reads).length ∨
          limit < (delivered env .err ((run env limit n).capture .err).reads).length) := by
  have h : Exact env limit (run env limit n) := exact_run n
  refine ⟨?_, ?_, ?_⟩
  · rw [← List.take_take, List.take_length]
    exact h.into_eq ch
  · rw [h.into_eq, List.length_take]
    exact Nat.min_le_left _ _
  · rw [h.truncated_iff]
    constructor
    · rintro ⟨_ | _, hlong⟩
      · exact .inl hlong
      · exact .inr hlong
    · rintro (hlong | hlong)
      · exact ⟨.out, hlong⟩
      · exact ⟨.err, hlong⟩

/-- The output in the answer of `run_process` is what has been captured. -/
theorem supervised_output (spec : RunSpec) (o : Outcomes) (n : ℕ) (status : WaitStatus) :
    let r := supervised spec
      { o with supervision := (run env spec.maxOutputBytes n).supervision status }
    r.out = (delivered env .out ((run env spec.maxOutputBytes n).capture .out).reads).take
        spec.maxOutputBytes ∧
      r.err = (delivered env .err ((run env spec.maxOutputBytes n).capture .err).reads).take
        spec.maxOutputBytes ∧
      r.truncated = (run env spec.maxOutputBytes n).truncated := by
  have h : Exact env spec.maxOutputBytes (run env spec.maxOutputBytes n) := exact_run n
  rw [← h.into_eq, ← h.into_eq]
  cases htimed : (run env spec.maxOutputBytes n).timedOut with
  | true => simp [supervised, State.supervision, htimed]
  | false => cases status <;> simp [supervised, State.supervision, htimed]

end Dtest.Process.Output
