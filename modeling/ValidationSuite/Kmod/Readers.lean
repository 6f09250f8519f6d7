import ValidationSuite.Kmod.OpenFiles

/-!
# A writer and its readers

One client writes from its first call on, and no other writes or resets: the device is a stream from
the writer to all who read. Writes append, since each starts where the one before has left the
offset, and a reader has received the beginning of what has been written.
-/

namespace Kmod

open Transition SparseFile

/-! ### What the sections of a writer add -/

/-- The bytes that a section has added to the file. -/
def written : Request × Response → ByteString
  | (.write _ data, .count n) => data.take n
  | _ => []

/-- The section neither writes nor resets. -/
def Request.KeepsBytes : Request → Prop
  | .write _ _ | .reset => False
  | .read _ _ | .add _ | .stat | .length => True

lemma Request.Idle.keepsBytes {request : Request} (h : request.Idle) : request.KeepsBytes := by
  cases request with
  | write _ _ => exact h
  | reset => exact h
  | read _ _ => exact h
  | add _ => exact trivial
  | stat => exact h
  | length => exact h

/-- The call neither writes nor resets. -/
def Op.KeepsBytes : Op → Prop
  | .write _ => False
  | .ioctl cmd _ => cmd ≠ iocReset
  | .open | .read _ | .llseek _ _ => True

/-- The sections write, each where the one before has ended. -/
def Appending : ℕ → List (Request × Response) → Prop
  | _, [] => True
  | n, e :: es => ∃ data m, e = (.write n data, .count m) ∧ Appending (n + m) es

lemma Appending.singleton {n m : ℕ} {data : ByteString} {e : Request × Response}
    (h : e = (.write n data, .count m)) : Appending n [e] :=
  ⟨data, m, h, trivial⟩

namespace CounterFile

variable {f : CounterFile}

lemma object_apply (f : CounterFile) (request : Request) :
    object.apply f request = f.apply request := rfl

lemma apply_of_keepsBytes {request : Request} (h : request.KeepsBytes) :
    (f.apply request).1.bytes = f.bytes := by
  cases request with
  | write _ _ => cases h
  | reset => cases h
  | read _ _ => rfl
  | add _ => rfl
  | stat => rfl
  | length => rfl

/-- A write at the end appends what it has room for. -/
lemma apply_append {data : ByteString} {m : ℕ}
    (h : (f.apply (.write f.bytes.length data)).2 = .count m) :
    (f.apply (.write f.bytes.length data)).1.bytes = f.bytes ++ data.take m ∧
      (data.take m).length = m := by
  by_cases hpos : (0 : ℤ) ≤ f.bytes.length ∧ (f.bytes.length : ℤ) < bufSize
  · obtain ⟨hbytes, -, hanswer⟩ := Represents.apply_write (f := f) hpos data
    rw [hanswer, Int.toNat_natCast] at h
    obtain rfl := Response.count.inj h
    have hfits : data.take (data.take (bufSize - f.bytes.length)).length =
        data.take (bufSize - f.bytes.length) := by
      rw [List.length_take, ← List.take_take, List.take_length]
    rw [hbytes, Int.toNat_natCast, write_at_end, hfits]
    exact ⟨rfl, rfl⟩
  · rw [CounterFile.apply, dif_neg hpos] at h
    cases h

end CounterFile

/-- Nobody else writes: the file grows by what the writer writes, and what has been read of it stays
there. -/
lemma bytes_of_log {i : ℕ} {log : List Entry} {f f' : CounterFile}
    (hruns : CounterFile.object.Runs f (log.map fun e => (e.request, e.response)) f')
    (hwriter : Appending f.bytes.length
      ((log.filter fun e => decide (e.call = i)).map fun e => (e.request, e.response)))
    (hothers : ∀ e ∈ log, e.call ≠ i → e.request.KeepsBytes) :
    f'.bytes = f.bytes ++
      ((log.filter fun e => decide (e.call = i)).map fun e => (e.request, e.response)).flatMap
        written ∧
    ∀ e ∈ log, ∀ (q count : ℕ) data, e.request = .read q count → e.response = .bytes data →
      data = slice q data.length f'.bytes := by
  induction log generalizing f with
  | nil =>
    obtain rfl : f' = f := hruns
    simp
  | cons e log ih =>
    obtain ⟨hanswer, hruns⟩ := hruns
    simp only [CounterFile.object_apply] at hanswer hruns
    have hothers' := fun e' he' => hothers e' (List.mem_cons_of_mem e he')
    by_cases hi : e.call = i
    · rw [List.filter_cons_of_pos (by simpa using hi), List.map_cons] at hwriter ⊢
      obtain ⟨data, m, he, hwriter⟩ := hwriter
      obtain ⟨hrequest, hresponse⟩ := Prod.mk.inj he
      rw [hrequest, hresponse] at hanswer
      rw [hrequest] at hruns
      obtain ⟨hbytes, hlength⟩ := CounterFile.apply_append hanswer
      have hstart : (f.apply (.write f.bytes.length data)).1.bytes.length = f.bytes.length + m := by
        rw [hbytes, List.length_append, hlength]
      obtain ⟨hall, hreads⟩ := ih hruns (hstart ▸ hwriter) hothers'
      refine ⟨?_, ?_⟩
      · rw [hall, hbytes, List.flatMap_cons, ← List.append_assoc, he, written]
      · intro e' he' q count data' hread
        rcases List.mem_cons.mp he' with rfl | he'
        · rw [hrequest] at hread
          cases hread
        · exact hreads e' he' q count data' hread
    · rw [List.filter_cons_of_neg (by simpa using hi)] at hwriter ⊢
      have hbytes := CounterFile.apply_of_keepsBytes (f := f) (hothers e List.mem_cons_self hi)
      obtain ⟨hall, hreads⟩ := ih hruns (hbytes ▸ hwriter) hothers'
      rw [hbytes] at hall
      refine ⟨hall, ?_⟩
      intro e' he' q count data hread hdata
      rcases List.mem_cons.mp he' with rfl | he'
      · -- what the section has read is in the file as it is now, and that is still there later
        rw [hread, hdata] at hanswer
        have hslice : slice q count f.bytes = data := Response.bytes.inj hanswer
        rw [← hslice]
        exact (slice_of_isPrefix (hall ▸ List.prefix_append _ _)).symm
      · exact hreads e' he' q count data hread hdata

/-! ### The calls of a writer and of a reader -/

namespace Call

variable {y : Call}

lemma Returned.explained (h : y.Returned) : y.Explained := by
  rcases h with ⟨value, hphase, h⟩ | ⟨e, hphase, h⟩
  · simpa only [Explained, hphase] using h
  · simpa only [Explained, hphase] using h

/-- A write has no section, or it has appended there what it returns. -/
lemma Explained.write {data : ByteString} (h : y.Explained) (hop : y.op = .write data) :
    y.entry = none ∧ y.pos = y.start ∧ y.sent = [] ∨
      ∃ n : ℕ, y.entry = some (.write y.start data, .count n) ∧ y.pos = y.start + n ∧
        y.sent = data.take n := by
  cases hphase : y.phase with
  | returned ret =>
    cases ret with
    | ok value =>
      have hsucceeds := h.of_ok hphase
      simp only [SucceedsWith, hop] at hsucceeds
      rcases hsucceeds with ⟨-, rfl, hpos, hentry⟩ | ⟨n, hentry, rfl, hpos, -⟩
      · exact .inl ⟨hentry, hpos, by simp [sent, hop, hphase]⟩
      · exact .inr ⟨n, hentry, hpos, by simp [sent, hop, hphase]⟩
    | error e =>
      have hfails := h.of_error hphase
      simp only [FailsWith, hop] at hfails
      exact .inl ⟨hfails.2.2.1, hfails.1, by simp [sent, hop, hphase]⟩
  | entered =>
    simp only [Explained, hphase] at h
    exact .inl ⟨h.2, h.1, by simp [sent, hop, hphase]⟩
  | staged tmp =>
    simp only [Explained, hphase] at h
    exact .inl ⟨h.2.1, h.1, by simp [sent, hop, hphase]⟩
  | loaded delta => simp [Explained, hphase, hop] at h
  | snapped count snap => simp [Explained, hphase, hop] at h
  | added value => simp [Explained, hphase, hop] at h
  | sampled c n => simp [Explained, hphase, hop] at h
  | gathered st => simp [Explained, hphase, hop] at h
  | based base off => simp [Explained, hphase, hop] at h

/-- A read brings nothing, or what its section has answered. -/
lemma Returned.read {count : ℕ} (h : y.Returned) (hop : y.op = .read count) :
    y.pos = y.start ∧ y.received = [] ∨
      ∃ data, y.entry = some (.read y.start count, .bytes data) ∧
        y.pos = y.start + data.length ∧ y.received = data := by
  rcases h with ⟨value, hphase, h⟩ | ⟨e, hphase, h⟩
  · simp only [SucceedsWith, hop] at h
    rcases h with ⟨-, rfl, hpos, -⟩ | ⟨data, hentry, rfl, hpos, -⟩
    · exact .inl ⟨hpos, by rw [received, hphase]⟩
    · exact .inr ⟨data, hentry, hpos, by rw [received, hphase]⟩
  · exact .inl ⟨h.1, by rw [received, hphase]⟩

end Call

namespace Call

variable {y : Call} {request : Request} {response : Response}

lemma SucceedsWith.keepsBytes {value : Value} (h : y.SucceedsWith value) (hop : y.op.KeepsBytes)
    (hentry : y.entry = some (request, response)) : request.KeepsBytes := by
  unfold SucceedsWith at h
  cases hcall : y.op with
  | «open» => simp [hcall, hentry] at h
  | write data =>
    rw [hcall] at hop
    exact hop.elim
  | read count =>
    simp only [hcall, hentry] at h
    rcases h with ⟨-, -, -, hnone⟩ | ⟨data, hsome, -⟩
    · cases hnone
    · cases hsome
      exact trivial
  | llseek off whence =>
    simp only [hcall] at h
    obtain ⟨base, hbase, -⟩ := h
    exact (hbase.idle hentry).keepsBytes
  | ioctl cmd arg =>
    rw [hcall] at hop
    simp only [hcall, hentry] at h
    rcases h with ⟨-, ⟨-, -, hnone⟩ | ⟨-, c, -, hsome⟩ | ⟨hreset, -⟩ | ⟨-, st, -, hsome⟩⟩
    · cases hnone
    · cases hsome
      exact trivial
    · exact absurd hreset hop
    · cases hsome
      exact trivial

lemma FailsWith.keepsBytes {e : Errno} (h : y.FailsWith e)
    (hentry : y.entry = some (request, response)) : request.KeepsBytes := by
  by_cases hloses : y.LosesSum
  · obtain ⟨-, -, delta, -, hcall⟩ := hloses
    have hne : iocAddCounter ≠ iocGetVersion ∧ iocAddCounter ≠ iocGetStats := by decide
    simp only [FailsWith, hcall, hentry, hne.1, hne.2, ne_eq, not_true_eq_false, false_and,
      and_false, false_or, or_false, true_and, reduceCtorEq] at h
    obtain ⟨-, -, -, -, c, hsome⟩ := h
    cases hsome
    exact trivial
  · exact (h.idle hloses hentry).keepsBytes

/-- A call that neither writes nor resets has no section that does. -/
lemma Explained.keepsBytes (h : y.Explained) (hop : y.op.KeepsBytes)
    (hentry : y.entry = some (request, response)) : request.KeepsBytes := by
  cases hphase : y.phase with
  | returned ret =>
    cases ret with
    | ok value => exact (h.of_ok hphase).keepsBytes hop hentry
    | error e => exact (h.of_error hphase).keepsBytes hentry
  | entered => simp [Explained, hphase, hentry] at h
  | staged tmp => simp [Explained, hphase, hentry] at h
  | loaded delta => simp [Explained, hphase, hentry] at h
  | snapped count snap =>
    simp only [Explained, hphase, hentry] at h
    obtain ⟨-, n, -, -, hsome, -⟩ := h
    cases hsome
    exact trivial
  | added value =>
    simp only [Explained, hphase, hentry] at h
    obtain ⟨-, -, delta, -, hsome⟩ := h
    cases hsome
    exact trivial
  | sampled c n =>
    simp only [Explained, hphase, hentry] at h
    obtain ⟨-, arg, -, hsome⟩ := h
    cases hsome
    exact trivial
  | gathered st =>
    simp only [Explained, hphase, hentry] at h
    obtain ⟨-, arg, -, hsome⟩ := h
    cases hsome
    exact trivial
  | based base off =>
    simp only [Explained, hphase] at h
    obtain ⟨-, whence, -, hbase⟩ := h
    exact (hbase.idle hentry).keepsBytes

end Call

lemma Session.returned {p q : ℤ} {ys : List Call} (h : Session p ys q) : ∀ y ∈ ys, y.Returned := by
  induction ys generalizing p with
  | nil => simp
  | cons y ys ih =>
    obtain ⟨-, hy, h⟩ := h
    intro z hz
    rcases List.mem_cons.mp hz with rfl | hz
    · exact hy
    · exact ih h z hz

lemma OpenFile.Sound.explained {x : OpenFile} (h : x.Sound) : ∀ y ∈ x.calls, y.Explained := by
  intro y hy
  rcases List.mem_append.mp hy with hy | hy
  · exact (h.session.returned y hy).explained
  · exact (h.current y (Option.mem_toList.mp hy)).1

/-- Writes that follow each other append, before what appends where they have got to. -/
lemma Session.appending {ys : List Call} {p q : ℤ} {n : ℕ} {es : List (Request × Response)}
    (h : Session p ys q) (hp : p = n) (hwrites : ∀ y ∈ ys, ∃ data, y.op = .write data)
    (hes : ∀ m : ℕ, q = m → Appending m es) : Appending n (ys.filterMap (·.entry) ++ es) := by
  induction ys generalizing p n with
  | nil => exact hes n (Eq.trans h hp)
  | cons y ys ih =>
    obtain ⟨rfl, hy, h⟩ := h
    obtain ⟨data, hop⟩ := hwrites y List.mem_cons_self
    have hrest := fun z hz => hwrites z (List.mem_cons_of_mem y hz)
    rcases hy.explained.write hop with ⟨hentry, hpos, -⟩ | ⟨m, hentry, hpos, -⟩
    · rw [List.filterMap_cons_none hentry]
      exact ih h (hpos.trans hp) hrest
    · rw [List.filterMap_cons_some hentry]
      refine ⟨data, m, by rw [hp], ih h ?_ hrest⟩
      rw [hpos, hp, Nat.cast_add]

lemma OpenFile.Sound.appending {x : OpenFile} (h : x.Sound)
    (hwrites : ∀ y ∈ x.calls, ∃ data, y.op = .write data) : Appending 0 x.entries := by
  rw [entries, calls, List.filterMap_append]
  have hpast := fun y hy => hwrites y (List.mem_append_left _ hy)
  refine h.session.appending rfl hpast ?_
  intro m hm
  cases hcurrent : x.current with
  | none => exact trivial
  | some y =>
    obtain ⟨hexplained, hstart, -⟩ := h.current y hcurrent
    have hmem : y ∈ x.calls := List.mem_append_right _ (by simp [hcurrent])
    obtain ⟨data, hop⟩ := hwrites y hmem
    rcases hexplained.write hop with ⟨hentry, -, -⟩ | ⟨n, hentry, -, -⟩
    · simp [hentry, Appending]
    · rw [Option.toList_some, List.filterMap_cons_some hentry, List.filterMap_nil, hstart, hm]
      exact Appending.singleton rfl

/-- What the sections of writes have added is what the writes have sent. -/
lemma flatMap_sent {ys : List Call} (hexplained : ∀ y ∈ ys, y.Explained)
    (hwrites : ∀ y ∈ ys, ∃ data, y.op = .write data) :
    (ys.filterMap (·.entry)).flatMap written = ys.flatMap Call.sent := by
  induction ys with
  | nil => rfl
  | cons y ys ih =>
    obtain ⟨data, hop⟩ := hwrites y List.mem_cons_self
    have hrest := ih (fun z hz => hexplained z (List.mem_cons_of_mem y hz))
      (fun z hz => hwrites z (List.mem_cons_of_mem y hz))
    rw [List.flatMap_cons, ← hrest]
    rcases (hexplained y List.mem_cons_self).write hop with
      ⟨hentry, -, hsent⟩ | ⟨n, hentry, -, hsent⟩
    · rw [List.filterMap_cons_none hentry, hsent, List.nil_append]
    · rw [List.filterMap_cons_some hentry, List.flatMap_cons, hsent, written]

/-- Reads that follow each other bring the file piece by piece. -/
lemma Session.reads {ys : List Call} {p q : ℤ} {n : ℕ} {bytes : ByteString} (h : Session p ys q)
    (hp : p = n) (hreads : ∀ y ∈ ys, ∃ count, y.op = .read count)
    (hbytes : ∀ y ∈ ys, ∀ (m count : ℕ) data, y.entry = some (.read m count, .bytes data) →
      data = slice m data.length bytes) :
    q = n + (ys.flatMap Call.received).length ∧
      ys.flatMap Call.received = slice n (ys.flatMap Call.received).length bytes := by
  induction ys generalizing p n with
  | nil =>
    obtain rfl : q = p := h
    exact ⟨by simpa using hp, by simp [slice]⟩
  | cons y ys ih =>
    obtain ⟨rfl, hy, h⟩ := h
    obtain ⟨count, hop⟩ := hreads y List.mem_cons_self
    have hrest := fun z hz => hreads z (List.mem_cons_of_mem y hz)
    have hbytes' := fun z hz => hbytes z (List.mem_cons_of_mem y hz)
    rw [List.flatMap_cons, List.length_append]
    rcases hy.read hop with ⟨hpos, hreceived⟩ | ⟨data, hentry, hpos, hreceived⟩
    · rw [hreceived, List.nil_append, List.length_nil, Nat.zero_add]
      exact ih h (hpos.trans hp) hrest hbytes'
    · rw [hp] at hentry hpos
      obtain ⟨hend, hmore⟩ := ih (n := n + data.length) h (by rw [hpos, Nat.cast_add]) hrest hbytes'
      have hdata := hbytes y List.mem_cons_self n count data hentry
      rw [hreceived]
      constructor
      · rw [hend, Nat.cast_add, Nat.cast_add, Int.add_assoc]
      · rw [← slice_append, ← hdata, ← hmore]

/-! ### Reading what one client writes -/

/-- What the log holds of a client are the sections of its calls. -/
lemma mem_log_iff {setpos : VfsSetpos} {s : Pool Store OpenFile}
    (h : (openFiles setpos).lts.Reachable s) {j : ℕ} {x : OpenFile} (hj : s.procs[j]? = some x)
    {request : Request} {response : Response} :
    (⟨j, request, response⟩ : Entry) ∈ s.store.log ↔
      ∃ y ∈ x.calls, y.entry = some (request, response) := by
  have hentries : (request, response) ∈ s.store.entriesOf j ↔
      (request, response) ∈ x.entries := by
    rw [(log_of_clients h).2 j x hj]
  rw [OpenFile.entries, List.mem_filterMap] at hentries
  rw [← hentries, Store.entriesOf, List.mem_map]
  constructor
  · intro hmem
    exact ⟨_, List.mem_filter.mpr ⟨hmem, decide_eq_true rfl⟩, rfl⟩
  · rintro ⟨⟨_, _, _⟩, hmem, heq⟩
    obtain ⟨hlog, hcall⟩ := List.mem_filter.mp hmem
    obtain ⟨rfl, rfl⟩ := Prod.mk.inj heq
    obtain rfl := of_decide_eq_true hcall
    exact hlog

/-- While one client writes from its first call on, and no other writes or resets, the file is what
it has written, whatever of it has failed. A client that only reads has received the beginning of
it, without gap or repetition, up to where its offset stands, however it reads and however its reads
fail and fall between the writes. -/
theorem readers_follow_writer (setpos : VfsSetpos) (s : Pool Store OpenFile)
    (h : (openFiles setpos).lts.Reachable s) (i : ℕ) (w : OpenFile) (hi : s.procs[i]? = some w)
    (hwriter : ∀ y ∈ w.calls, ∃ data, y.op = .write data)
    (hothers : ∀ (j : ℕ) (x : OpenFile), s.procs[j]? = some x → j ≠ i →
      ∀ y ∈ x.calls, y.op.KeepsBytes) :
    s.store.dev.buf.take s.store.dev.len = w.calls.flatMap Call.sent ∧
    ∀ (j : ℕ) (x : OpenFile), s.procs[j]? = some x → (∀ y ∈ x.past, ∃ count, y.op = .read count) →
      x.past.flatMap Call.received <+: w.calls.flatMap Call.sent ∧
        x.fpos = (x.past.flatMap Call.received).length := by
  obtain ⟨⟨f, hf⟩, hclients⟩ := openFiles_sound h
  obtain ⟨hlt, hentries⟩ := log_of_clients h
  have hw := hclients w (List.mem_of_getElem? hi)
  have happending : Appending 0 (s.store.entriesOf i) :=
    (hentries i w hi).symm ▸ hw.appending hwriter
  have hkeeps : ∀ e ∈ s.store.log, e.call ≠ i → e.request.KeepsBytes := by
    intro e he hne
    have hj := List.getElem?_eq_getElem (hlt e he)
    obtain ⟨y, hy, hentry⟩ := (mem_log_iff h hj).mp he
    have hx := hclients _ (List.mem_of_getElem? hj)
    exact (hx.explained y hy).keepsBytes (hothers e.call _ hj hne y hy) hentry
  obtain ⟨hbytes, hreads⟩ := bytes_of_log hf.explains.runs happending hkeeps
  have hsent : f.bytes = w.calls.flatMap Call.sent := by
    rw [hbytes, ← flatMap_sent hw.explained hwriter]
    exact congrArg (List.flatMap written) (hentries i w hi)
  refine ⟨hf.bytes_eq.symm.trans hsent, ?_⟩
  intro j x hj honly
  have hx := hclients x (List.mem_of_getElem? hj)
  have hslices : ∀ y ∈ x.past, ∀ (m count : ℕ) data,
      y.entry = some (.read m count, .bytes data) → data = slice m data.length f.bytes := by
    intro y hy m count data hentry
    have hmem := (mem_log_iff h hj).mpr ⟨y, List.mem_append_left _ hy, hentry⟩
    exact hreads _ hmem m count data rfl rfl
  obtain ⟨hfpos, hreceived⟩ := hx.session.reads (n := 0) rfl honly hslices
  refine ⟨?_, by simpa using hfpos⟩
  rw [hreceived, ← hsent, slice, List.drop_zero]
  exact List.take_prefix _ _

/-- The reader has the first of the two bytes. -/
theorem readers_follow_writer_readFirst :
    ∃ (s : Pool Store OpenFile) (x : OpenFile), s.procs[1]? = some x ∧
      s.store.dev.buf.take s.store.dev.len = [1, 2] ∧ x.past.flatMap Call.received = [1] ∧
      x.fpos = 1 := by
  obtain ⟨s, w, x, hs, hprocs, -, -, hw, hx, hsent, hreceived⟩ := Client.reachable_readFirst
  have hi : s.procs[0]? = some w := congrArg (·[0]?) hprocs
  have hj : s.procs[1]? = some x := congrArg (·[1]?) hprocs
  have hothers : ∀ (j : ℕ) (z : OpenFile), s.procs[j]? = some z → j ≠ 0 →
      ∀ y ∈ z.calls, y.op.KeepsBytes := by
    intro j z hz hne y hy
    rw [hprocs] at hz
    rcases j with _ | _ | j
    · exact absurd rfl hne
    · obtain rfl := Option.some.inj hz
      rw [hx y hy]
      exact trivial
    · cases hz
  obtain ⟨hbytes, hreaders⟩ := readers_follow_writer Client.setpos s hs 0 w hi
    (fun y hy => ⟨_, hw y hy⟩) hothers
  have honly : ∀ y ∈ x.past, ∃ count, y.op = .read count :=
    fun y hy => ⟨1, hx y (List.mem_append_left _ hy)⟩
  obtain ⟨-, hfpos⟩ := hreaders 1 x hj honly
  exact ⟨s, x, hj, hbytes.trans hsent, hreceived, by rw [hfpos, hreceived]; rfl⟩

end Kmod
