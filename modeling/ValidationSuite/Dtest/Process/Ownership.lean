import Mathlib.Data.List.Perm.Basic
import ValidationSuite.Dtest.Process.Basic

/-!
# Who has which descriptor

At any time the agent has open what it had at first, and for each call of `run_process` the
descriptors that the call has to close. A call changes nothing but its own.
-/

namespace Dtest.Process

open ByteString Descriptors Transition

variable {strerror : ℤ → ByteString} {spec : RunSpec} {o : Outcomes} {i : ℕ}

/-- What a step of the `i`th call, with the descriptors `l`, does to a table. -/
inductive Change (i : ℕ) (t : Table File) (l : List (Handle File)) :
    Table File → List (Handle File) → Prop
  | keep {l' : List (Handle File)} (h : l.Perm l') : Change i t l t l'
  | pipe (s : Stream) {l' : List (Handle File)} (h : (l ++ (newPipe t i s).handles).Perm l') :
      Change i t l (t.pipe (.readEnd i s) (.writeEnd i s)) l'
  | mark {x : Handle File} {rest l' : List (Handle File)} (h : l.Perm (x :: rest))
      (h' : l'.Perm (markHandle x :: rest)) : Change i t l (t.mark x.1) l'
  | close {x : Handle File} {l' : List (Handle File)} (h : l.Perm (x :: l')) :
      Change i t l (t.close x.1) l'

/-- The write ends first, as they are closed before the others. -/
lemma handles_perm (p : Pipes) :
    p.handles.Perm [p.out.wr, p.err.wr, p.exec.wr, p.exec.rd, p.out.rd, p.err.rd] := by
  classical
  rw [List.perm_iff_count]
  intro h
  simp only [Pipes.handles, Pipe.handles, List.count_append, List.count_cons, List.count_nil]
  omega

lemma CallerStep.change {w w' : World} {ph ph' : Phase}
    (h : CallerStep strerror spec o i w ph w' ph') :
    Change i w.fds ph.owned w'.fds ph'.owned := by
  cases h with
  | refuse | pipeOutFails | pipeErrFails | pipeExecFails => exact .keep (.refl _)
  | pipeOut => exact .pipe .out (.refl _)
  | pipeErr => exact .pipe .err (.refl _)
  | pipeExec => exact .pipe .exec (.refl _)
  | @mark p =>
    have hperm (h : Handle File) :
        [p.out.rd, p.out.wr, p.err.rd, p.err.wr, p.exec.rd, h].Perm
          (h :: [p.out.rd, p.out.wr, p.err.rd, p.err.wr, p.exec.rd]) :=
      List.perm_append_singleton h [p.out.rd, p.out.wr, p.err.rd, p.err.wr, p.exec.rd]
    exact .mark (hperm p.exec.wr) (hperm (markHandle p.exec.wr))
  | @fork p => exact .keep (handles_perm p)
  | forkFails | abandoned | readErrno | readEof | readFails | reap | supervise | finish =>
    exact .keep (.refl _)
  | abandon | closeWrite | closeStatus | closeErrno | close => exact .close (.refl _)
  | markOut => exact .mark (.refl _) (.refl _)
  | @markErr p => exact .mark (x := p.err.rd) (.swap _ _ []) (.swap _ _ [])

/-- The call has these descriptors open. -/
structure Owns (i : ℕ) (t : Table File) (l : List (Handle File)) : Prop where
  get : ∀ h ∈ l, t.get h.1 = some h.2
  call : ∀ h ∈ l, h.2.file.call? = some i
  nodup : (l.map Prod.fst).Nodup

variable {t t' : Table File} {l l' : List (Handle File)}

lemma Owns.perm (h : Owns i t l) (hl : l.Perm l') : Owns i t l' where
  get x hx := h.get x (hl.mem_iff.mpr hx)
  call x hx := h.call x (hl.mem_iff.mpr hx)
  nodup := (hl.map Prod.fst).nodup_iff.mp h.nodup

/-- New descriptors get numbers that were free. -/
lemma Owns.pipe (h : Owns i t l) (s : Stream) :
    Owns i (t.pipe (.readEnd i s) (.writeEnd i s)) (l ++ (newPipe t i s).handles) := by
  have hrd := t.get_add_lowest ⟨File.readEnd i s, false⟩
  refine ⟨fun x hx => ?_, fun x hx => ?_, ?_⟩
  · rcases List.mem_append.mp hx with hx | hx
    · exact Table.get_add_of_get (Table.get_add_of_get (h.get x hx) _) _
    · rcases List.mem_pair.mp hx with rfl | rfl
      · exact Table.get_add_of_get hrd _
      · exact Table.get_add_lowest _ _
  · rcases List.mem_append.mp hx with hx | hx
    · exact h.call x hx
    · rcases List.mem_pair.mp hx with rfl | rfl
      · rfl
      · rfl
  · rw [List.map_append, List.nodup_append]
    refine ⟨h.nodup, ?_, ?_⟩
    · exact List.nodup_cons.mpr ⟨fun hmem => Table.lowest_ne_of_get hrd (List.mem_singleton.mp hmem),
        List.nodup_singleton _⟩
    · intro n hn m hm
      obtain ⟨x, hx, rfl⟩ := List.mem_map.mp hn
      rcases List.mem_pair.mp hm with rfl | rfl
      · exact Table.lowest_ne_of_get (h.get x hx)
      · exact Table.lowest_ne_of_get (Table.get_add_of_get (h.get x hx) _)

lemma Owns.ne_of_cons {x y : Handle File} (h : Owns i t (x :: l)) (hy : y ∈ l) : y.1 ≠ x.1 := by
  have hx := (List.nodup_cons.mp h.nodup).1
  rintro heq
  exact hx (heq ▸ List.mem_map_of_mem hy)

lemma Owns.mark {x : Handle File} (h : Owns i t (x :: l)) :
    Owns i (t.mark x.1) (markHandle x :: l) where
  get y hy := by
    rw [Table.get_mark]
    rcases List.mem_cons.mp hy with rfl | hy
    · rw [markHandle, if_pos rfl, h.get x List.mem_cons_self]
      rfl
    · rw [if_neg (h.ne_of_cons hy), h.get y (List.mem_cons_of_mem _ hy)]
  call y hy := by
    rcases List.mem_cons.mp hy with rfl | hy
    · exact h.call x List.mem_cons_self
    · exact h.call y (List.mem_cons_of_mem _ hy)
  nodup := h.nodup

lemma Owns.close {x : Handle File} (h : Owns i t (x :: l)) : Owns i (t.close x.1) l where
  get y hy := by
    rw [Table.get_close_ne _ (h.ne_of_cons hy), h.get y (List.mem_cons_of_mem _ hy)]
  call y hy := h.call y (List.mem_cons_of_mem _ hy)
  nodup := (List.nodup_cons.mp h.nodup).2

/-- A step of a call leaves it with what it has open. -/
lemma Change.owns (hc : Change i t l t' l') (h : Owns i t l) : Owns i t' l' := by
  cases hc with
  | keep hl => exact h.perm hl
  | pipe s hl => exact (h.pipe s).perm hl
  | mark hl hl' => exact (h.perm hl).mark.perm hl'.symm
  | close hl => exact (h.perm hl).close

/-- A step of a call leaves other descriptors as they are. -/
lemma Change.frame (hc : Change i t l t' l') (h : Owns i t l) {n : ℕ} {d : Descriptors.Entry File}
    (hd : d.file.call? ≠ some i) (hn : t.get n = some d) : t'.get n = some d := by
  have hother {x : Handle File} {rest : List (Handle File)} (hl : l.Perm (x :: rest)) :
      n ≠ x.1 := by
    rintro rfl
    have hx := hl.mem_iff.mpr List.mem_cons_self
    rw [h.get x hx] at hn
    exact hd (Option.some.inj hn ▸ h.call x hx)
  cases hc with
  | keep => exact hn
  | pipe => exact Table.get_add_of_get (Table.get_add_of_get hn _) _
  | mark hl => rw [Table.get_mark, if_neg (hother hl), hn]
  | close hl => rw [Table.get_close_ne _ (hother hl), hn]

/-- What is open after a step of a call is the call's, or was open before and was not the call's. -/
lemma Change.back (hc : Change i t l t' l') (h : Owns i t l) {n : ℕ} {d : Descriptors.Entry File}
    (hn : t'.get n = some d) : (n, d) ∈ l' ∨ t.get n = some d ∧ (n, d) ∉ l := by
  by_cases hmem : (n, d) ∈ l'
  · exact .inl hmem
  refine .inr ?_
  cases hc with
  | keep hl => exact ⟨hn, fun hl' => hmem (hl.mem_iff.mp hl')⟩
  | pipe s hl =>
    have hnew : (n, d) ∉ l ++ (newPipe t i s).handles := fun hl' => hmem (hl.mem_iff.mp hl')
    rw [List.mem_append, not_or] at hnew
    refine ⟨?_, hnew.1⟩
    rcases Table.of_get_add hn with ⟨rfl, rfl⟩ | hn
    · exact absurd (List.mem_pair.mpr (.inr rfl)) hnew.2
    · rcases Table.of_get_add hn with ⟨rfl, rfl⟩ | hn
      · exact absurd (List.mem_pair.mpr (.inl rfl)) hnew.2
      · exact hn
  | @mark x rest _ hl hl' =>
    have hx := h.get x (hl.mem_iff.mpr List.mem_cons_self)
    rw [Table.get_mark] at hn
    split_ifs at hn with heq
    · rw [hx] at hn
      obtain rfl := heq
      obtain rfl := Option.some.inj hn
      exact absurd (hl'.mem_iff.mpr List.mem_cons_self) hmem
    · refine ⟨hn, fun hin => ?_⟩
      rcases List.mem_cons.mp (hl.mem_iff.mp hin) with rfl | hin
      · exact heq rfl
      · exact hmem (hl'.mem_iff.mpr (List.mem_cons_of_mem _ hin))
  | @close x _ hl =>
    obtain ⟨hne, hn⟩ := Table.of_get_close hn
    refine ⟨hn, fun hin => ?_⟩
    rcases List.mem_cons.mp (hl.mem_iff.mp hin) with rfl | hin
    · exact hne rfl
    · exact hmem hin

/-! ### All calls together -/

variable {init : Table ℕ}

lemma ChildStep.fds {w w' : World} (h : ChildStep o i w w') : w'.fds = w.fds := by
  cases h <;> rfl

/-- The agent has open what it had at first and what the calls have to close. -/
structure Booked (init : Table ℕ) (s : Pool World Run) : Prop where
  owns : ∀ (i : ℕ) (x : Run), s.procs[i]? = some x → Owns i s.store.fds x.phase.owned
  back : ∀ n d, s.store.fds.get n = some d → (init.map .other).get n = some d ∨
    ∃ (i : ℕ) (x : Run), s.procs[i]? = some x ∧ (n, d) ∈ x.phase.owned
  init : ∀ n d, (init.map .other).get n = some d → s.store.fds.get n = some d

/-- What the agent had at first is no pipe of a call. -/
lemma call?_of_get_map {n : ℕ} {d : Descriptors.Entry File}
    (h : (init.map File.other).get n = some d) :
    d.file.call? = none := by
  rw [Table.get_map] at h
  obtain ⟨e, -, rfl⟩ := Option.map_eq_some_iff.mp h
  rfl

lemma Booked.enter {s : Pool World Run} (h : Booked init s) {x : Run} (hx : x.phase = .started) :
    Booked init { s with procs := s.procs ++ [x] } where
  owns j y hy := by
    rcases Pool.of_getElem?_concat hy with hy | ⟨-, rfl⟩
    · exact h.owns j y hy
    · rw [hx]
      exact ⟨nofun, nofun, List.nodup_nil⟩
  back n d hn := by
    refine (h.back n d hn).imp_right fun ⟨j, y, hy, hmem⟩ => ⟨j, y, ?_, hmem⟩
    exact List.getElem?_append_left (List.getElem?_eq_some_iff.mp hy).1 ▸ hy
  init := h.init

/-- A step of one call, as it changes the table and what the call has open. -/
lemma Booked.act {s : Pool World Run} (h : Booked init s) {x x' : Run} {w' : World}
    (hi : s.procs[i]? = some x)
    (hc : Change i s.store.fds x.phase.owned w'.fds x'.phase.owned) :
    Booked init ⟨w', s.procs.set i x'⟩ where
  owns j y hy := by
    rcases Pool.of_getElem?_set hy with ⟨rfl, rfl⟩ | ⟨hne, hy⟩
    · exact hc.owns (h.owns j x hi)
    · have hown := h.owns j y hy
      refine ⟨fun z hz => ?_, hown.call, hown.nodup⟩
      refine hc.frame (h.owns i x hi) ?_ (hown.get z hz)
      rw [hown.call z hz]
      exact fun heq => hne (Option.some.inj heq)
  back n d hn := by
    rcases hc.back (h.owns i x hi) hn with hmem | ⟨hn, hmem⟩
    · exact .inr ⟨i, x', List.getElem?_set_self (List.getElem?_eq_some_iff.mp hi).1, hmem⟩
    · refine (h.back n d hn).imp_right fun ⟨j, y, hy, hmem'⟩ => ⟨j, y, ?_, hmem'⟩
      rw [List.getElem?_set_ne, hy]
      rintro rfl
      rw [hi] at hy
      exact hmem (Option.some.inj hy ▸ hmem')
  init n d hn := by
    refine hc.frame (h.owns i x hi) ?_ (h.init n d hn)
    rw [call?_of_get_map hn]
    exact nofun

theorem booked {s : Pool World Run} (h : (processes strerror init).lts.Reachable s) :
    Booked init s := by
  apply h.invariant
  · rintro s ⟨hs, hnone⟩
    have hfds : s.store.fds = init.map .other := by rw [show s.store = _ from hs]
    refine ⟨fun i x hx => ?_, fun n d hn => .inl (hfds ▸ hn), fun n d hn => hfds ▸ hn⟩
    rw [hnone] at hx
    cases hx
  · intro s l s' _ ih hs
    cases hs with
    | enter hx => exact ih.enter hx
    | @act i x x' w' hi hx =>
      apply ih.act hi
      rcases hx with ⟨ph, hcaller, rfl⟩ | ⟨hchild, rfl⟩
      · exact hcaller.change
      · rw [hchild.fds]
        exact .keep (.refl _)

end Dtest.Process
