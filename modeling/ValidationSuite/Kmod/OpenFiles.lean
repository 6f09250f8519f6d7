import ValidationSuite.Kmod.Errors

/-!
# Open files

A client opens the device and uses it through its open file, one call after the other: each call
starts at the offset of the file and leaves it where it got to. Any number of clients do so at once.
For each of them the device is a file with an offset of its own, and between them they see one file:
in the order of the sections, which is that of each client's calls.
-/

namespace Kmod

open Transition SparseFile

/-- An open file, with the client that uses it. The kernel keeps the offset, hands it to `read` and
`write`, and stores it when they succeed; `llseek` sets it. -/
structure OpenFile where
  opened : Bool := false
  fpos : ℤ := 0
  /-- the call in progress -/
  current : Option Call := none
  /-- the calls that have returned, as a history variable -/
  past : List Call := []

/-- The first step of a client opens the device; then it may call at any time when no call of its is
in progress, with anything. -/
inductive OpenFile.Acts (setpos : VfsSetpos) (i : ℕ) (s : Store) (x : OpenFile) :
    Store → OpenFile → Prop
  | opened {s' : Store} {y : Call} (hnew : x.opened = false)
      (h : step setpos i s { op := .open, start := x.fpos } = some (s', y)) :
      Acts setpos i s x s' { x with opened := true }
  | invoke (op : Op) (inLeft outLeft : ℕ) (alloc : Bool) (hopened : x.opened = true)
      (hidle : x.current = none) (hop : op ≠ .open) :
      Acts setpos i s x s { x with
        current := some { op := op, start := x.fpos, inLeft := inLeft, outLeft := outLeft,
                          alloc := alloc } }
  | proceed {s' : Store} {y y' : Call} (hcurrent : x.current = some y)
      (h : step setpos i s y = some (s', y')) :
      Acts setpos i s x s' { x with current := some y' }
  | succeed {y : Call} {value : Value} (hcurrent : x.current = some y)
      (hphase : y.phase = .returned (.ok value)) :
      Acts setpos i s x s { x with fpos := y.pos, current := none, past := x.past ++ [y] }
  | fail {y : Call} {e : Errno} (hcurrent : x.current = some y)
      (hphase : y.phase = .returned (.error e)) :
      Acts setpos i s x s { x with current := none, past := x.past ++ [y] }

/-- Any number of clients with an open file each. -/
def openFiles (setpos : VfsSetpos) : System Store OpenFile where
  init s := s = {}
  enter x := x = {}
  act := OpenFile.Acts setpos

/-! ### The calls of a client -/

/-- The call has returned what its section has answered, or has failed for one of the reasons it
has to. -/
def Call.Returned (y : Call) : Prop :=
  (∃ value, y.phase = .returned (.ok value) ∧ y.SucceedsWith value) ∨
    ∃ e, y.phase = .returned (.error e) ∧ y.FailsWith e

/-- The bytes that a call has brought its client. -/
def Call.received (y : Call) : ByteString :=
  match y.phase with
  | .returned (.ok (.read _ data)) => data
  | _ => []

/-- The bytes that a call has put into the file for its client. -/
def Call.sent (y : Call) : ByteString :=
  match y.op, y.phase with
  | .write data, .returned (.ok (.written n)) => data.take n
  | _, _ => []

/-- The calls `ys`, one after the other, take the offset of the file from `p` to `q`. -/
def Session : ℤ → List Call → ℤ → Prop
  | p, [], q => q = p
  | p, y :: ys, q => y.start = p ∧ y.Returned ∧ Session y.pos ys q

lemma session_append {p q : ℤ} {ys zs : List Call} :
    Session p (ys ++ zs) q ↔ ∃ m, Session p ys m ∧ Session m zs q := by
  induction ys generalizing p with
  | nil => simp [Session]
  | cons y ys ih => simp only [List.cons_append, Session, ih, and_assoc, exists_and_left]

lemma Session.concat {p : ℤ} {ys : List Call} {y : Call} (h : Session p ys y.start)
    (hy : y.Returned) : Session p (ys ++ [y]) y.pos :=
  session_append.mpr ⟨y.start, h, rfl, hy, rfl⟩

namespace Call

variable {y : Call}

lemma pos_of_failsWith {e : Errno} (h : y.FailsWith e) : y.pos = y.start := h.1

/-- No call takes the offset out of the device. -/
lemma pos_le (hstart : 0 ≤ y.start ∧ y.start ≤ bufSize) (h : y.Returned) :
    0 ≤ y.pos ∧ y.pos ≤ bufSize := by
  rcases h with ⟨value, -, h⟩ | ⟨e, -, h⟩
  · unfold SucceedsWith at h
    cases hop : y.op with
    | «open» =>
      simp only [hop] at h
      rwa [h.2.1]
    | read count =>
      simp only [hop] at h
      rcases h with ⟨-, -, hpos, -⟩ | ⟨data, -, -, hpos, hdata⟩
      · rwa [hpos]
      · by_cases hnone : data = []
        · rw [hpos, hnone]
          simpa using hstart
        · exact hdata hnone
    | write data =>
      simp only [hop] at h
      rcases h with ⟨-, -, hpos, -⟩ | ⟨n, -, -, -, hrange⟩
      · rwa [hpos]
      · exact hrange
    | llseek off whence =>
      simp only [hop] at h
      obtain ⟨base, -, -, -, hrange⟩ := h
      exact hrange
    | ioctl cmd arg =>
      simp only [hop] at h
      rwa [h.1]
  · rwa [pos_of_failsWith h]

end Call

/-! ### One client -/

/-- What is true of a client: the offset is within the device, its calls have led there, and the one
in progress has started there. -/
structure OpenFile.Sound (x : OpenFile) : Prop where
  fpos_le : 0 ≤ x.fpos ∧ x.fpos ≤ bufSize
  session : Session 0 x.past x.fpos
  current : ∀ y, x.current = some y → y.Explained ∧ y.start = x.fpos ∧ y.op ≠ .open

namespace OpenFile.Sound

variable {setpos : VfsSetpos} {i : ℕ} {s s' : Store} {x x' : OpenFile}

lemma step (h : x.Sound) (hs : ∃ f, s.Sound f) (hact : OpenFile.Acts setpos i s x s' x') :
    (∃ f, s'.Sound f) ∧ x'.Sound := by
  cases hact with
  | opened _ hstep =>
    obtain ⟨f, hs⟩ := hs
    obtain ⟨f', hs', -⟩ := step_sound hs (x := { op := .open, start := x.fpos }) ⟨rfl, rfl⟩ hstep
    exact ⟨⟨f', hs'⟩, h.fpos_le, h.session, h.current⟩
  | invoke _ _ _ _ _ _ hop =>
    refine ⟨hs, h.fpos_le, h.session, ?_⟩
    intro y hy
    obtain rfl := Option.some.inj hy
    exact ⟨⟨rfl, rfl⟩, rfl, hop⟩
  | @proceed s' y y' hcurrent hstep =>
    obtain ⟨f, hs⟩ := hs
    obtain ⟨hexplained, hstart, hop⟩ := h.current _ hcurrent
    obtain ⟨f', hs', hy'⟩ := step_sound hs hexplained hstep
    refine ⟨⟨f', hs'⟩, h.fpos_le, h.session, ?_⟩
    intro z hz
    obtain rfl := Option.some.inj hz
    have hsame := step_args hstep
    have hsameop : y'.op = y.op := congrArg (·.1) hsame
    have hsamestart : y'.start = y.start := congrArg (·.2.1) hsame
    exact ⟨hy', hsamestart.trans hstart, hsameop ▸ hop⟩
  | succeed hcurrent hphase =>
    obtain ⟨hexplained, hstart, -⟩ := h.current _ hcurrent
    have hreturned : Call.Returned _ := .inl ⟨_, hphase, hexplained.of_ok hphase⟩
    refine ⟨hs, Call.pos_le (hstart ▸ h.fpos_le) hreturned, ?_, by simp⟩
    exact Session.concat (hstart ▸ h.session) hreturned
  | fail hcurrent hphase =>
    obtain ⟨hexplained, hstart, -⟩ := h.current _ hcurrent
    have hfails := hexplained.of_error hphase
    refine ⟨hs, h.fpos_le, ?_, by simp⟩
    have hsession := Session.concat (hstart ▸ h.session) (.inr ⟨_, hphase, hfails⟩)
    rwa [Call.pos_of_failsWith hfails, hstart] at hsession

end OpenFile.Sound

/-! ### The order of the sections -/

/-- The calls of a client, up to the one in progress. -/
def OpenFile.calls (x : OpenFile) : List Call := x.past ++ x.current.toList

/-- Their sections. -/
def OpenFile.entries (x : OpenFile) : List (Request × Response) := x.calls.filterMap (·.entry)

lemma OpenFile.entries_return {x : OpenFile} {y : Call} {fpos : ℤ} (h : x.current = some y) :
    ({ x with fpos := fpos, current := none, past := x.past ++ [y] } : OpenFile).entries =
      x.entries := by
  simp [entries, calls, h]

/-- The sections that the log holds of a client are those of its calls, in their order. -/
lemma OpenFile.Acts.logs {setpos : VfsSetpos} {i : ℕ} {s s' : Store} {x x' : OpenFile}
    (hx : x.Sound) (h : OpenFile.Acts setpos i s x s' x') :
    s'.log = s.log ∧ x'.entries = x.entries ∨
      ∃ e : Entry, e.call = i ∧ s'.log = s.log ++ [e] ∧
        x'.entries = x.entries ++ [(e.request, e.response)] := by
  cases h with
  | opened _ hstep =>
    rcases step_logs (x := { op := .open, start := x.fpos }) ⟨rfl, rfl⟩ hstep with
      ⟨hlog, -⟩ | ⟨-, request, response, hentry, hlog⟩
    · exact .inl ⟨hlog, rfl⟩
    · -- opening has no section
      cases hstep
      cases hentry
  | invoke _ _ _ _ _ hidle _ =>
    refine .inl ⟨rfl, ?_⟩
    simp [entries, calls, hidle]
  | proceed hcurrent hstep =>
    rcases step_logs (hx.current _ hcurrent).1 hstep with
      ⟨hlog, hentry⟩ | ⟨hnone, request, response, hentry, hlog⟩
    · refine .inl ⟨hlog, ?_⟩
      simp [entries, calls, hcurrent, hentry, List.filterMap_cons]
    · refine .inr ⟨⟨i, request, response⟩, rfl, hlog, ?_⟩
      simp [entries, calls, hcurrent, hentry, hnone]
  | succeed hcurrent _ => exact .inl ⟨rfl, entries_return hcurrent⟩
  | fail hcurrent _ => exact .inl ⟨rfl, entries_return hcurrent⟩

/-! ### How often the device has been opened -/

lemma step_opens {setpos : VfsSetpos} {i : ℕ} {s s' : Store} {y y' : Call} (hop : y.op ≠ .open)
    (h : step setpos i s y = some (s', y')) : s'.dev.opens = s.dev.opens := by
  cases Stepped.of_step h with
  | opened _ hopen => exact absurd hopen hop
  | read _ _ =>
    simp only [readSection]
    split_ifs <;> rfl
  | staged _ _ =>
    simp only [writeSection, Valdev.memcpy]
    split_ifs <;> rfl
  | ioctl _ _ =>
    simp only [ioctlEnter]
    split_ifs <;> rfl
  | llseek _ _ =>
    simp only [llseekBase]
    split_ifs <;> rfl
  | snapped _ => rfl
  | write _ _ => rfl
  | loaded _ => rfl
  | added _ => rfl
  | sampled _ => rfl
  | gathered _ => rfl
  | based _ => rfl

lemma OpenFile.Acts.opens {setpos : VfsSetpos} {i : ℕ} {s s' : Store} {x x' : OpenFile}
    (hx : x.Sound) (h : OpenFile.Acts setpos i s x s' x') :
    s'.dev.opens + UInt64.ofNat x.opened.toNat = s.dev.opens + UInt64.ofNat x'.opened.toNat := by
  cases h with
  | opened hnew hstep =>
    cases hstep
    rw [hnew]
    exact UInt64.add_zero _
  | proceed hcurrent hstep => rw [step_opens (hx.current _ hcurrent).2.2 hstep]
  | invoke _ _ _ _ _ _ _ => rfl
  | succeed _ _ => rfl
  | fail _ _ => rfl

/-! ### All clients -/

lemma Store.Sound.bytes_eq {s : Store} {f : CounterFile} (h : s.Sound f) :
    f.bytes = s.dev.buf.take s.dev.len := by
  rw [h.shows.buf_eq, h.shows.len_eq, padded, List.take_left]

section Runs

variable {setpos : VfsSetpos} {s s' : Pool Store OpenFile} {ls : List Pool.Label}

theorem openFiles_sound (h : (openFiles setpos).lts.Reachable s) :
    (∃ f, s.store.Sound f) ∧ ∀ x ∈ s.procs, x.Sound := by
  refine System.invariant (I := fun s : Store => ∃ f, s.Sound f) (J := OpenFile.Sound) ?_ ?_ ?_ h
  · rintro s rfl
    exact ⟨{}, represents_init, CounterFile.object.explains_nil, by simp⟩
  · rintro x rfl
    exact ⟨by decide, rfl, by simp⟩
  · intro i s x s' x' hs hx hact
    exact hx.step hs hact

theorem log_of_clients (h : (openFiles setpos).lts.Reachable s) :
    (∀ e ∈ s.store.log, e.call < s.procs.length) ∧
      ∀ (i : ℕ) (x : OpenFile), s.procs[i]? = some x → s.store.entriesOf i = x.entries := by
  refine System.log_of_procs Store.log Entry.call (fun e => (e.request, e.response))
    OpenFile.entries ?_ ?_ ?_ h
  · rintro s rfl
    rfl
  · rintro x rfl
    rfl
  · intro s i x store x' hr hi hact
    exact hact.logs ((openFiles_sound hr).2 x (List.mem_of_getElem? hi))

theorem opens_eq (h : (openFiles setpos).lts.Reachable s) :
    s.store.dev.opens = UInt64.ofNat (s.count OpenFile.opened) := by
  refine h.invariant
    (I := fun s => s.store.dev.opens = UInt64.ofNat (s.count OpenFile.opened)) ?_ ?_
  · rintro ⟨_, _⟩ ⟨rfl, rfl⟩
    rfl
  · intro s l s' hr ih hs
    cases hs with
    | @enter x hx =>
      obtain rfl : x = {} := hx
      rw [Pool.count_enter]
      exact ih
    | @act i x x' store hi hact =>
      have hopens := hact.opens ((openFiles_sound hr).2 x (List.mem_of_getElem? hi))
      have hcount := Pool.count_act OpenFile.opened hi x' store
      rw [ih, ← UInt64.ofNat_add, ← hcount, UInt64.ofNat_add] at hopens
      exact UInt64.add_left_inj _ |>.mp hopens

/-- Once a section is over, its place in the order is fixed. -/
theorem log_isPrefix (h : (openFiles setpos).lts.Reachable s)
    (hpath : (openFiles setpos).lts.Path s ls s') : s.store.log <+: s'.store.log := by
  induction hpath with
  | nil s => exact List.prefix_rfl
  | @cons s u s' l ls hs _ ih =>
    refine List.IsPrefix.trans ?_ (ih (h.step hs))
    cases hs with
    | enter _ => exact List.prefix_rfl
    | @act i x x' store hi hact =>
      rcases hact.logs ((openFiles_sound h).2 x (List.mem_of_getElem? hi)) with
        ⟨hlog, -⟩ | ⟨e, -, hlog, -⟩
      · exact hlog ▸ List.prefix_rfl
      · exact hlog ▸ List.prefix_append _ _

end Runs

/-- Any number of clients, each with its open file, whatever copies and allocations fail and however
they interleave: the sections, in their order, are what one file with a counter answers, an order in
which the calls of each client stand as it has made them and which is never changed later. Each
client's calls start where the one before has left its offset, return what they have to, and leave
it within the device. And the device knows how many clients have opened it. -/
theorem open_files_share_one_file (setpos : VfsSetpos) (s : Pool Store OpenFile)
    (h : (openFiles setpos).lts.Reachable s) :
    (∃ f : CounterFile,
      CounterFile.object.run (s.store.log.map (·.request)) =
        (f, s.store.log.map (·.response)) ∧
      f.bytes = s.store.dev.buf.take s.store.dev.len ∧ f.counter = s.store.dev.counter) ∧
    (∀ i (x : OpenFile), s.procs[i]? = some x → s.store.entriesOf i = x.entries ∧
      Session 0 x.past x.fpos ∧ 0 ≤ x.fpos ∧ x.fpos ≤ bufSize) ∧
    (∀ ls s', (openFiles setpos).lts.Path s ls s' → s.store.log <+: s'.store.log) ∧
    s.store.dev.opens = UInt64.ofNat (s.count OpenFile.opened) := by
  obtain ⟨⟨f, hf⟩, hclients⟩ := openFiles_sound h
  refine ⟨⟨f, ?_, hf.bytes_eq, hf.shows.counter_eq.symm⟩, ?_, fun ls s' => log_isPrefix h,
    opens_eq h⟩
  · have hexplains := hf.explains
    rw [SeqObject.Explains, List.map_map, List.map_map] at hexplains
    exact hexplains
  · intro i x hi
    have hx := hclients x (List.mem_of_getElem? hi)
    exact ⟨(log_of_clients h).2 i x hi, hx.session, hx.fpos_le⟩

namespace Client

/-- One client has written two bytes, and not got back yet, when another has read the first. -/
lemma reachable_readFirst : ∃ (s : Pool Store OpenFile) (w x : OpenFile),
    (openFiles setpos).lts.Reachable s ∧ s.procs = [w, x] ∧
      w.entries = [(.write 0 [1, 2], .count 2)] ∧ x.entries = [(.read 0 1, .bytes [1])] ∧
      (∀ y ∈ w.calls, y.op = .write [1, 2]) ∧ (∀ y ∈ x.calls, y.op = .read 1) ∧
      w.calls.flatMap Call.sent = [1, 2] ∧ x.past.flatMap Call.received = [1] := by
  have hopened := LTS.Reachable.init (A := (openFiles setpos).lts) (s := ⟨{}, []⟩) ⟨rfl, rfl⟩
    |>.step (.enter (x := ({} : OpenFile)) (Eq.refl ({} : OpenFile)))
    |>.step (.act (i := 0) rfl (.opened rfl rfl))
    |>.step (.enter (x := ({} : OpenFile)) (Eq.refl ({} : OpenFile)))
    |>.step (.act (i := 1) rfl (.opened rfl rfl))
  have hwritten := hopened
    |>.step (.act (i := 0) rfl (.invoke (.write [1, 2]) 0 0 true rfl rfl (by decide)))
    |>.step (.act (i := 0) rfl (.proceed rfl rfl))
    |>.step (.act (i := 0) rfl (.proceed rfl rfl))
  have hread := hwritten
    |>.step (.act (i := 1) rfl (.invoke (.read 1) 0 0 true rfl rfl (by decide)))
    |>.step (.act (i := 1) rfl (.proceed rfl rfl))
    |>.step (.act (i := 1) rfl (.proceed rfl rfl))
    |>.step (.act (i := 1) rfl (.succeed rfl rfl))
  exact ⟨_, _, _, hread, rfl, by decide, by decide, by decide, by decide, by decide, by decide⟩

end Client

/-- Both have opened the device, and each has its own section in the one order. -/
theorem open_files_share_one_file_readFirst :
    ∃ s : Pool Store OpenFile, s.store.entriesOf 0 = [(.write 0 [1, 2], .count 2)] ∧
      s.store.entriesOf 1 = [(.read 0 1, .bytes [1])] ∧
      s.store.dev.opens = UInt64.ofNat (s.count OpenFile.opened) := by
  obtain ⟨s, w, x, hs, hprocs, hwrote, hread, -⟩ := Client.reachable_readFirst
  obtain ⟨-, hclients, -, hopens⟩ := open_files_share_one_file Client.setpos s hs
  have hi : s.procs[0]? = some w := congrArg (·[0]?) hprocs
  have hj : s.procs[1]? = some x := congrArg (·[1]?) hprocs
  exact ⟨s, (hclients 0 w hi).1.trans hwrote, (hclients 1 x hj).1.trans hread, hopens⟩

end Kmod
