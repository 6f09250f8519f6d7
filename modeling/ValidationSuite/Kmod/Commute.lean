import ValidationSuite.Kmod.Errors

/-!
# Writes that are apart

Any number of `valdev_write` calls whose ranges have no byte in common, in any interleaving of their
steps: they leave the same device behind, which has the data of each of them in its range.
-/

namespace Kmod

open Transition SparseFile

/-! ### The writes as patches -/

lemma start_fits {start : ℤ} (h : 0 ≤ start ∧ start < bufSize) (data : ByteString) :
    start.toNat + (data.take (bufSize - start.toNat)).length ≤ bufSize := by
  rw [List.length_take]
  omega

/-- What a write copies into the buffer, cut at the capacity, or why it fails. -/
def Call.outcome (x : Call) : Except Errno (Patch UInt8 bufSize) :=
  match x.op with
  | .write data =>
    if data = [] then .ok ⟨0, [], Nat.zero_le _⟩
    else if h : 0 ≤ x.start ∧ x.start < bufSize then
      if x.alloc = false then .error .enomem
      else if x.inLeft ≠ 0 then .error .efault
      else .ok ⟨x.start.toNat, data.take (bufSize - x.start.toNat), start_fits h data⟩
    else .error .enospc
  | _ => .error .einval

attribute [ext] Valdev

/-- What the write returns. -/
def Call.result (x : Call) : Except Errno Value := x.outcome.map fun w => .written w.data.length

def Call.patch? (x : Call) : Option (Patch UInt8 bufSize) := x.outcome.toOption

/-- The device after the copy. -/
def Valdev.put (v : Valdev) (w : Patch UInt8 bufSize) : Valdev :=
  { v with buf := w.apply v.buf, len := max v.len w.stop }

/-- The device after the copies, in their order. -/
def Valdev.putAll (v : Valdev) (ws : List (Patch UInt8 bufSize)) : Valdev := ws.foldl Valdev.put v

namespace Valdev

variable {v : Valdev} {w : Patch UInt8 bufSize} {ws ws' : List (Patch UInt8 bufSize)}

lemma putAll_concat : v.putAll (ws ++ [w]) = (v.putAll ws).put w := List.foldl_concat ..

lemma putAll_buf : (v.putAll ws).buf = Patch.applyAll ws v.buf := by
  induction ws generalizing v with
  | nil => rfl
  | cons w ws ih => exact ih

lemma putAll_len : (v.putAll ws).len = ws.foldl (fun n w => max n w.stop) v.len := by
  induction ws generalizing v with
  | nil => rfl
  | cons w ws ih => exact ih

lemma putAll_counter (v : Valdev) (ws : List (Patch UInt8 bufSize)) :
    (v.putAll ws).counter = v.counter ∧ (v.putAll ws).opens = v.opens := by
  induction ws generalizing v with
  | nil => exact ⟨rfl, rfl⟩
  | cons w ws ih => exact ih (v.put w)

/-- Copies that are apart may be made in any order. -/
lemma putAll_perm (hbuf : v.buf.length = bufSize) (hapart : ws.Pairwise Patch.Apart)
    (hperm : ws'.Perm ws) : v.putAll ws' = v.putAll ws := by
  have hlen : (v.putAll ws').len = (v.putAll ws).len := by
    rw [putAll_len, putAll_len]
    exact hperm.foldl_eq' (fun _ _ _ _ _ => by omega) _
  have hbytes : (v.putAll ws').buf = (v.putAll ws).buf := by
    rw [putAll_buf, putAll_buf]
    exact Patch.applyAll_perm hbuf hapart hperm
  obtain ⟨hcounter, hopens⟩ := putAll_counter v ws
  obtain ⟨hcounter', hopens'⟩ := putAll_counter v ws'
  exact Valdev.ext hbytes hlen (hcounter'.trans hcounter.symm) (hopens'.trans hopens.symm)

lemma le_foldl_max (n : ℕ) : n ≤ ws.foldl (fun n w => max n w.stop) n := by
  induction ws generalizing n with
  | nil => exact le_rfl
  | cons w ws ih => exact (le_max_left n w.stop).trans (ih _)

/-- The length is behind every copy. -/
lemma stop_le_putAll (hw : w ∈ ws) : w.stop ≤ (v.putAll ws).len := by
  rw [putAll_len]
  generalize v.len = n
  induction ws generalizing n with
  | nil => cases hw
  | cons u ws ih =>
    rcases List.mem_cons.mp hw with rfl | hw
    · exact (le_max_right n w.stop).trans (le_foldl_max _)
    · exact ih hw _

lemma putAll_len_le (hlen : v.len ≤ bufSize) : (v.putAll ws).len ≤ bufSize := by
  induction ws generalizing v with
  | nil => exact hlen
  | cons w ws ih => exact ih (v := v.put w) (max_le hlen w.fits)

lemma put_nil {h : 0 + ([] : ByteString).length ≤ bufSize} : v.put ⟨0, [], h⟩ = v := by
  refine Valdev.ext ?_ ?_ rfl rfl
  · simp [put, Patch.apply, splice]
  · simp [put, Patch.stop]

/-- The copy of a write. -/
lemma memcpy_eq {start : ℤ} (h : 0 ≤ start ∧ start < bufSize)
    {tmp : ByteString} (htmp : start.toNat + tmp.length ≤ bufSize) :
    (v.memcpy start tmp).1 = v.put ⟨start.toNat, tmp, htmp⟩ := by
  have hb : bufSize = 4096 := rfl
  have hloff : toLoff (start + tmp.length) = start + tmp.length :=
    toLoff_of_small (by omega) (by omega)
  have hsmall := toU32_of_small (x := start + tmp.length) (by omega) (by omega)
  have hmax : (if start + tmp.length > v.len then toU32 (start + tmp.length) else v.len) =
      max v.len (start.toNat + tmp.length) := by
    split_ifs <;> omega
  apply Valdev.ext
  · simp only [memcpy, hloff]
    split_ifs <;> rfl
  · simp only [memcpy, hloff]
    rw [put, Patch.stop, ← hmax]
    split_ifs <;> rfl
  · simp only [memcpy, hloff]
    split_ifs <;> rfl
  · simp only [memcpy, hloff]
    split_ifs <;> rfl

end Valdev

/-! ### The steps of a write -/

/-- What the write is still going to copy. -/
def Call.pending (x : Call) : Option (Patch UInt8 bufSize) :=
  match x.phase with
  | .returned _ => none
  | _ => x.patch?

/-- How far the write `x₀` has come. -/
inductive Call.Writing (x₀ : Call) : Call → Prop
  | entered : Writing x₀ x₀
  | staged {w : Patch UInt8 bufSize} (hw : x₀.outcome = .ok w)
      (hstart : 0 ≤ x₀.start ∧ x₀.start < bufSize) (hoffset : w.offset = x₀.start.toNat) :
      Writing x₀ (x₀.goto (.staged w.data))
  | returned {x : Call} (h : x.phase = .returned x₀.result) : Writing x₀ x

/-- The step copies nothing, or all that the write is going to copy. -/
def Copies (t : Store) (x : Call) (t' : Store) (x' : Call) : Prop :=
  (t'.dev = t.dev ∧ x'.pending = x.pending) ∨
    ∃ w, x.pending = some w ∧ x'.pending = none ∧ t'.dev = t.dev.put w

section Steps

variable {setpos : VfsSetpos} {i : ℕ} {t t' : Store} {x₀ x x' : Call} {data : ByteString}

lemma Call.pending_returned {ret : Except Errno Value} (h : x.phase = .returned ret) :
    x.pending = none := by
  rw [pending, h]

lemma Call.outcome_of_ne_nil (hop : x₀.op = .write data) (hne : data ≠ []) :
    x₀.outcome = if h : 0 ≤ x₀.start ∧ x₀.start < bufSize then
      if x₀.alloc = false then .error .enomem
      else if x₀.inLeft ≠ 0 then .error .efault
      else .ok ⟨x₀.start.toNat, data.take (bufSize - x₀.start.toNat), start_fits h data⟩
    else .error .enospc := by
  simp only [outcome, hop, if_neg hne]

/-- A write that fails. -/
lemma writing_failed {e : Errno} (houtcome : x₀.outcome = .error e) :
    x₀.Writing (x₀.finish (.error e)) ∧ Copies t x₀ t (x₀.finish (.error e)) := by
  refine ⟨.returned ?_, .inl ⟨rfl, ?_⟩⟩
  · rw [Call.result, houtcome]
    rfl
  · have hnone : x₀.patch? = none := by rw [Call.patch?, houtcome]; rfl
    rw [Call.pending_returned (Call.phase_finish _ _), Call.pending]
    split <;> simp [hnone]

/-- A write on its way to the section. -/
lemma writeStage_copies (hphase : x₀.phase = .entered) (hpos : x₀.pos = x₀.start)
    (hop : x₀.op = .write data) :
    x₀.Writing (writeStage x₀ data) ∧ Copies t x₀ t (writeStage x₀ data) := by
  have hpending : x₀.pending = x₀.patch? := by rw [Call.pending, hphase]
  simp only [writeStage]
  split_ifs with h0 hend halloc hleft
  · obtain rfl : data = [] := List.length_eq_zero_iff.mp h0
    have houtcome : x₀.outcome = .ok ⟨0, [], Nat.zero_le _⟩ := by simp [Call.outcome, hop]
    refine ⟨.returned ?_, .inr ⟨⟨0, [], Nat.zero_le _⟩, ?_, rfl, Valdev.put_nil.symm⟩⟩
    · rw [Call.result, houtcome]
      rfl
    · rw [hpending, Call.patch?, houtcome]
      rfl
  all_goals have hne : data ≠ [] := fun h => h0 (by simp [h])
  · apply writing_failed
    rw [Call.outcome_of_ne_nil hop hne, dif_neg (by omega)]
  · have hrange : 0 ≤ x₀.start ∧ x₀.start < bufSize := by omega
    apply writing_failed
    rw [Call.outcome_of_ne_nil hop hne, dif_pos hrange, if_neg (by simp [halloc]), if_pos hleft]
  · have hrange : 0 ≤ x₀.start ∧ x₀.start < bufSize := by omega
    have hsub : toSize (bufSize - toSize x₀.pos) = bufSize - x₀.pos.toNat :=
      toSize_sub (by omega) (by omega) le_rfl
    have htmp : data.take (min data.length (toSize (bufSize - toSize x₀.pos))) =
        data.take (bufSize - x₀.start.toNat) := by
      rw [hsub, hpos, Nat.min_comm, ← List.take_take, List.take_length]
    have houtcome : x₀.outcome =
        .ok ⟨x₀.start.toNat, data.take (bufSize - x₀.start.toNat), start_fits hrange data⟩ := by
      rw [Call.outcome_of_ne_nil hop hne, dif_pos hrange, if_neg (by simp [halloc]), if_neg hleft]
    rw [htmp]
    exact ⟨.staged houtcome hrange rfl, .inl ⟨rfl, hpending.symm⟩⟩
  · have hrange : 0 ≤ x₀.start ∧ x₀.start < bufSize := by omega
    apply writing_failed
    rw [Call.outcome_of_ne_nil hop hne, dif_pos hrange, if_pos (by simpa using halloc)]

/-- The section of a write. -/
lemma writeSection_copies (hpos : x₀.pos = x₀.start) {w : Patch UInt8 bufSize}
    (hw : x₀.outcome = .ok w) (hstart : 0 ≤ x₀.start ∧ x₀.start < bufSize)
    (hoffset : w.offset = x₀.start.toNat) :
    x₀.Writing (writeSection i t (x₀.goto (.staged w.data)) data w.data).2 ∧
      Copies t (x₀.goto (.staged w.data))
        (writeSection i t (x₀.goto (.staged w.data)) data w.data).1
        (writeSection i t (x₀.goto (.staged w.data)) data w.data).2 := by
  have hfits : x₀.start.toNat + w.data.length ≤ bufSize := hoffset ▸ w.fits
  have hdev : (t.dev.memcpy x₀.pos w.data).1 = t.dev.put w := by
    rw [hpos, Valdev.memcpy_eq hstart hfits]
    congr 1
    exact Patch.ext hoffset.symm rfl
  refine ⟨.returned ?_, .inr ⟨w, ?_, rfl, hdev⟩⟩
  · rw [Call.result, hw]
    rfl
  · show x₀.outcome.toOption = some w
    rw [hw]
    rfl

/-- A step of a write. -/
lemma step_copies (hx₀ : (valdev setpos).enter x₀) (hop : x₀.op = .write data)
    (hx : x₀.Writing x) (h : step setpos i t x = some (t', x')) :
    x₀.Writing x' ∧ Copies t x t' x' := by
  obtain ⟨hphase, hpos, -⟩ := hx₀
  cases hx with
  | entered =>
    simp only [step, hphase, hop, Option.some.injEq, Prod.mk.injEq] at h
    obtain ⟨rfl, rfl⟩ := h
    exact writeStage_copies hphase hpos hop
  | @staged w hw hstart hoffset =>
    have hstep : step setpos i t (x₀.goto (.staged w.data)) =
        some (writeSection i t (x₀.goto (.staged w.data)) data w.data) := by
      simp only [step, Call.goto, hop]
    rw [hstep] at h
    obtain ⟨rfl, rfl⟩ := Prod.mk.inj (Option.some.inj h)
    exact writeSection_copies hpos hw hstart hoffset
  | returned hreturned => simp [step, hreturned] at h

end Steps

/-! ### Runs of writes -/

section Runs

variable {setpos : VfsSetpos} {s u u' : Pool Store Call} {calls : List Call} {k : ℕ}

/-- The writes `calls`, made in the state `s`, are on their way as `cs`, and their sections so far
have copied `ws`. -/
structure Underway (s : Pool Store Call) (calls : List Call) (u : Pool Store Call)
    (ws : List (Patch UInt8 bufSize)) (cs : List Call) : Prop where
  procs_eq : u.procs = s.procs ++ cs
  dev_eq : u.store.dev = s.store.dev.putAll ws
  copied : (ws ++ cs.filterMap Call.pending).Perm (calls.filterMap Call.patch?)
  length_eq : cs.length = calls.length
  writing : ∀ (k : ℕ) (x₀ x : Call), calls[k]? = some x₀ → cs[k]? = some x → x₀.Writing x

namespace Underway

variable {ws : List (Patch UInt8 bufSize)} {cs : List Call}

lemma start (hcalls : ∀ x ∈ calls, (valdev setpos).enter x) :
    Underway s calls ⟨s.store, s.procs ++ calls⟩ [] calls where
  procs_eq := rfl
  dev_eq := rfl
  copied := by
    have hpending : calls.filterMap Call.pending = calls.filterMap Call.patch? := by
      refine List.filterMap_congr fun x hx => ?_
      rw [Call.pending, (hcalls x hx).1]
    rw [List.nil_append, hpending]
  length_eq := rfl
  writing k x₀ x h₀ hx := by
    obtain rfl := Option.some.inj (h₀.symm.trans hx)
    exact .entered

/-- Where the `k`th of the writes is. -/
lemma procs_get (h : Underway s calls u ws cs) (k : ℕ) :
    u.procs[s.procs.length + k]? = cs[k]? := by
  rw [h.procs_eq, List.getElem?_append_right (Nat.le_add_right _ _), Nat.add_sub_cancel_left]

/-- A step of the `k`th of the writes. -/
lemma act (h : Underway s calls u ws cs)
    (hcalls : ∀ x ∈ calls, (valdev setpos).enter x ∧ ∃ data, x.op = .write data)
    (hk : k < calls.length) (hs : (valdev setpos).lts.step u (.act (s.procs.length + k)) u') :
    ∃ ws' cs', Underway s calls u' ws' cs' := by
  obtain ⟨x₀, h₀⟩ : ∃ x₀, calls[k]? = some x₀ := ⟨_, List.getElem?_eq_getElem hk⟩
  obtain ⟨hx₀, data, hop⟩ := hcalls x₀ (List.mem_of_getElem? h₀)
  cases hs with
  | @act _ x x' store hi hx =>
    rw [h.procs_get] at hi
    obtain ⟨hwriting, hcopies⟩ := step_copies hx₀ hop (h.writing k x₀ x h₀ hi) hx
    have hprocs : u.procs.set (s.procs.length + k) x' = s.procs ++ cs.set k x' := by
      rw [h.procs_eq, List.set_append_right _ _ (by omega), Nat.add_sub_cancel_left]
    have hall : ∀ (j : ℕ) (y₀ y : Call), calls[j]? = some y₀ → (cs.set k x')[j]? = some y →
        y₀.Writing y := by
      intro j y₀ y hy₀ hy
      rcases Pool.of_getElem?_set hy with ⟨rfl, rfl⟩ | ⟨-, hy⟩
      · obtain rfl := Option.some.inj (h₀.symm.trans hy₀)
        exact hwriting
      · exact h.writing j y₀ y hy₀ hy
    have hlength : (cs.set k x').length = calls.length := by rw [List.length_set, h.length_eq]
    rcases hcopies with ⟨hdev, hpending⟩ | ⟨w, hpending, hdone, hdev⟩
    · refine ⟨ws, cs.set k x', hprocs, hdev.trans h.dev_eq, ?_, hlength, hall⟩
      exact ((Pool.filterMap_set hi hpending).append_left ws).trans h.copied
    · refine ⟨ws ++ [w], cs.set k x', hprocs, ?_, ?_, hlength, hall⟩
      · rw [Valdev.putAll_concat, ← h.dev_eq]
        exact hdev
      · rw [List.append_assoc]
        exact ((Pool.filterMap_set_none hi hpending hdone).append_left ws).trans h.copied

/-- When all have returned, all is copied. -/
lemma all_copied (h : Underway s calls u ws cs)
    (hreturned : ∀ k < calls.length, ∃ x ret, u.procs[s.procs.length + k]? = some x ∧
      x.phase = .returned ret) : ws.Perm (calls.filterMap Call.patch?) := by
  have hnone : cs.filterMap Call.pending = [] := by
    rw [List.filterMap_eq_nil_iff]
    intro x hx
    obtain ⟨k, hk⟩ := List.mem_iff_getElem?.mp hx
    have hlt := (List.getElem?_eq_some_iff.mp hk).1
    obtain ⟨y, ret, hy, hphase⟩ := hreturned k (h.length_eq ▸ hlt)
    rw [h.procs_get] at hy
    obtain rfl := Option.some.inj (hk.symm.trans hy)
    exact Call.pending_returned hphase
  have hcopied := h.copied
  rwa [hnone, List.append_nil] at hcopied

end Underway

lemma Call.Writing.result_eq {x₀ x : Call} (h : x₀.Writing x) (hentered : x₀.phase = .entered)
    {ret : Except Errno Value} (hphase : x.phase = .returned ret) : ret = x₀.result := by
  cases h with
  | entered =>
    rw [hentered] at hphase
    cases hphase
  | staged _ _ _ => cases hphase
  | returned h => exact Phase.returned.inj (hphase.symm.trans h)

/-- Made in the state `s`, the calls `calls` take their steps, in any order, until all of them have
returned. -/
def Completes (setpos : VfsSetpos) (s : Pool Store Call) (calls : List Call)
    (u : Pool Store Call) : Prop :=
  (∃ ls, (valdev setpos).lts.Path ⟨s.store, s.procs ++ calls⟩ ls u ∧
    ∀ l ∈ ls, ∃ k < calls.length, l = .act (s.procs.length + k)) ∧
  ∀ k < calls.length, ∃ x ret, u.procs[s.procs.length + k]? = some x ∧ x.phase = .returned ret

lemma underway {ls : List Pool.Label}
    (hcalls : ∀ x ∈ calls, (valdev setpos).enter x ∧ ∃ data, x.op = .write data)
    (h : (valdev setpos).lts.Path ⟨s.store, s.procs ++ calls⟩ ls u)
    (hls : ∀ l ∈ ls, ∃ k < calls.length, l = .act (s.procs.length + k)) :
    ∃ ws cs, Underway s calls u ws cs := by
  refine h.invariant (I := fun u ls => (∀ l ∈ ls, ∃ k < calls.length,
    l = .act (s.procs.length + k)) → ∃ ws cs, Underway s calls u ws cs) ?_ ?_ hls
  · exact fun _ => ⟨[], calls, .start fun x hx => (hcalls x hx).1⟩
  · intro ls u l u' _ ih hs hls
    obtain ⟨ws, cs, hunderway⟩ := ih fun l hl => hls l (List.mem_append_left _ hl)
    obtain ⟨k, hk, rfl⟩ := hls l (by simp)
    exact hunderway.act hcalls hk hs

end Runs

/-! ### Reading back -/

/-- A read of the bytes that the copy `w` has written. -/
def readOf (w : Patch UInt8 bufSize) : Call := { op := .read w.data.length, start := w.offset }

lemma syscall_readOf {setpos : VfsSetpos} {i : ℕ} {t : Store} {w : Patch UInt8 bufSize}
    (hstop : w.stop ≤ t.dev.len) (hlen : t.dev.len ≤ bufSize)
    (hdata : slice w.offset w.data.length t.dev.buf = w.data) :
    (syscall setpos i t (readOf w)).2.phase = .returned (.ok (.read w.data.length w.data)) := by
  have hentered : step setpos i t (readOf w) =
      some (readSection i t (readOf w) w.data.length) := rfl
  rw [syscall, runAlone, hentered]
  rcases eq_or_ne w.data [] with hnil | hne
  · simp only [readSection, hnil, List.length_nil, if_true]
    rfl
  · have hpos : 0 < w.data.length := List.length_pos_iff.mpr hne
    have hoffset : ¬ ((w.offset : ℤ) < 0 ∨ (w.offset : ℤ) ≥ t.dev.len) := by
      rw [Patch.stop] at hstop
      omega
    have hclamp : t.dev.clamp w.offset w.data.length = w.data.length := by
      rw [Patch.stop] at hstop
      rw [Valdev.clamp, toSize_sub (by omega) (by omega) hlen]
      omega
    have hsnap : t.dev.kmemdup w.offset w.data.length = w.data := by
      rw [Valdev.kmemdup, Int.toNat_natCast, hdata]
    simp only [readSection, readOf, if_neg hpos.ne', if_neg hoffset, hclamp, hsnap, if_true]
    rfl

/-- Writes that are apart commute: whatever is in the device, and in whatever order the writes
`calls` get to their sections, they leave the same device, each of them returns the same, each
returns its own data when it is read back, and no byte changes that no write covers. -/
theorem disjoint_writes_commute (setpos : VfsSetpos) (s : Pool Store Call)
    (h : (valdev setpos).lts.Reachable s) (calls : List Call)
    (hcalls : ∀ x ∈ calls, (valdev setpos).enter x ∧ ∃ data, x.op = .write data)
    (hapart : (calls.filterMap Call.patch?).Pairwise Patch.Apart) :
    ∃ dev : Valdev,
      (∀ u, Completes setpos s calls u → u.store.dev = dev ∧
        ∀ (k : ℕ) (x₀ : Call), calls[k]? = some x₀ → ∃ x, u.procs[s.procs.length + k]? = some x ∧
          x.phase = .returned x₀.result) ∧
      (∀ w ∈ calls.filterMap Call.patch?, ∀ (i : ℕ) (t : Store), t.dev = dev →
        (syscall setpos i t (readOf w)).2.phase =
          .returned (.ok (.read w.data.length w.data))) ∧
      ∀ b, (∀ w ∈ calls.filterMap Call.patch?, ¬ w.Covers b) →
        dev.buf[b]? = s.store.dev.buf[b]? := by
  obtain ⟨-, ⟨hlen, hbuf, -⟩, -⟩ := valdev_refines_file setpos s h
  refine ⟨s.store.dev.putAll (calls.filterMap Call.patch?), ?_, ?_, ?_⟩
  · rintro u ⟨⟨ls, hpath, hls⟩, hreturned⟩
    obtain ⟨ws, cs, hunderway⟩ := underway hcalls hpath hls
    refine ⟨?_, fun k x₀ h₀ => ?_⟩
    · rw [hunderway.dev_eq]
      exact Valdev.putAll_perm hbuf hapart (hunderway.all_copied hreturned)
    · have hk := (List.getElem?_eq_some_iff.mp h₀).1
      obtain ⟨x, ret, hx, hphase⟩ := hreturned k hk
      have hcs : cs[k]? = some x := by rwa [hunderway.procs_get] at hx
      have hresult := (hunderway.writing k x₀ x h₀ hcs).result_eq
        (hcalls x₀ (List.mem_of_getElem? h₀)).1.1 hphase
      exact ⟨x, hx, hresult ▸ hphase⟩
  · intro w hw i t hdev
    apply syscall_readOf (hdev ▸ Valdev.stop_le_putAll hw) (hdev ▸ Valdev.putAll_len_le hlen)
    refine Patch.slice_eq_data fun b hb => ?_
    rw [hdev, Valdev.putAll_buf]
    exact Patch.getElem?_applyAll_of_covers hbuf hapart hw hb
  · intro b hb
    rw [Valdev.putAll_buf]
    exact Patch.getElem?_applyAll_of_not_covers hbuf hb

namespace Client

/-- Two bytes, of which the last one of the device has room for one. -/
def endWrite : Call := { op := .write [7, 8], start := 4095 }

lemma apart_writes : ([gapWrite, endWrite].filterMap Call.patch?).Pairwise Patch.Apart := by
  have hpatches : [gapWrite, endWrite].filterMap Call.patch? =
      [⟨3, [1, 2], by decide⟩, ⟨4095, [7], by decide⟩] := rfl
  rw [hpatches, List.pairwise_pair]
  rintro b ⟨⟨-, hb⟩, hb', -⟩
  have hstop : b < 5 := hb
  have hoffset : 4095 ≤ b := hb'
  omega

/-- Either of the two may go first. -/
lemma completes_writes : ∃ u u', Completes setpos ⟨{}, []⟩ [gapWrite, endWrite] u ∧
    Completes setpos ⟨{}, []⟩ [gapWrite, endWrite] u' ∧
    u.store.log.map (·.call) = [0, 1] ∧ u'.store.log.map (·.call) = [1, 0] := by
  have hstaged := LTS.Path.nil (A := (valdev setpos).lts) ⟨{}, [gapWrite, endWrite]⟩
    |>.concat (.act (i := 0) rfl rfl)
    |>.concat (.act (i := 1) rfl rfl)
  have hgap := hstaged.concat (.act (i := 0) rfl rfl) |>.concat (.act (i := 1) rfl rfl)
  have hend := hstaged.concat (.act (i := 1) rfl rfl) |>.concat (.act (i := 0) rfl rfl)
  refine ⟨_, _, ⟨⟨_, hgap, by decide⟩, ?_⟩, ⟨⟨_, hend, by decide⟩, ?_⟩, rfl, rfl⟩
  · intro k hk
    match k, hk with
    | 0, _ => exact ⟨_, _, rfl, rfl⟩
    | 1, _ => exact ⟨_, _, rfl, rfl⟩
  · intro k hk
    match k, hk with
    | 0, _ => exact ⟨_, _, rfl, rfl⟩
    | 1, _ => exact ⟨_, _, rfl, rfl⟩

end Client

/-- On the empty device, both orders of two writes leave the same device, from which the last byte
is read back. -/
theorem disjoint_writes_commute_either_first :
    ∃ u u' : Pool Store Call, u.store.log.map (·.call) = [0, 1] ∧
      u'.store.log.map (·.call) = [1, 0] ∧ u.store.dev = u'.store.dev ∧
      (syscall Client.setpos 2 u.store { op := .read 1, start := 4095 }).2.phase =
        .returned (.ok (.read 1 [7])) := by
  obtain ⟨u, u', hu, hu', hgap, hend⟩ := Client.completes_writes
  obtain ⟨dev, hruns, hread, -⟩ := disjoint_writes_commute Client.setpos ⟨{}, []⟩
    (.init ⟨rfl, rfl⟩) [Client.gapWrite, Client.endWrite]
    (by
      intro x hx
      simp only [List.mem_cons, List.not_mem_nil, or_false] at hx
      rcases hx with rfl | rfl <;> exact ⟨⟨rfl, rfl, rfl⟩, _, rfl⟩)
    Client.apart_writes
  have hdev := (hruns u hu).1
  have hmem : (⟨4095, [7], by decide⟩ : Patch UInt8 bufSize) ∈
      [Client.gapWrite, Client.endWrite].filterMap Call.patch? := .tail _ (.head _)
  exact ⟨u, u', hgap, hend, hdev.trans (hruns u' hu').1.symm, hread _ hmem 2 u.store hdev⟩

end Kmod
