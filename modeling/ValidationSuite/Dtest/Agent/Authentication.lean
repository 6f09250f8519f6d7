import ValidationSuite.Dtest.Agent.Capacity

/-!
# The token of an agent

The comparison of the token looks at all bytes that two strings have in common and at their lengths,
and still is equality. So an agent with a token lets nobody in who does not present it, and the
handler of a call without it does nothing but answer.
-/

namespace Dtest

open Transition ByteString

/-! ### The comparison -/

/-- A byte stays zero as long as nothing but zeros is collected in it. -/
lemma foldl_or_eq_zero (l : List UInt8) (diff : UInt8) :
    l.foldl (· ||| ·) diff = 0 ↔ diff = 0 ∧ ∀ x ∈ l, x = 0 := by
  induction l generalizing diff with
  | nil => simp
  | cons x l ih =>
    rw [List.foldl_cons, ih, UInt8.or_eq_zero_iff, List.forall_mem_cons, and_assoc]

/-- Strings of one length whose bytes do not differ are equal. -/
lemma zipWith_xor_eq_zero {a b : ByteString} (h : a.length = b.length) :
    (∀ x ∈ List.zipWith (· ^^^ ·) a b, x = 0) ↔ a = b := by
  induction a generalizing b with
  | nil => simp [List.length_eq_zero_iff.mp h.symm]
  | cons c a ih =>
    obtain ⟨d, b, rfl⟩ := List.exists_cons_of_length_eq_add_one h.symm
    rw [List.zipWith_cons_cons, List.forall_mem_cons, ih (Nat.succ.inj h), UInt8.xor_eq_zero_iff,
      List.cons.injEq]

lemma constantTimeEquals_iff (a b : ByteString) : constantTimeEquals a b = true ↔ a = b := by
  rw [constantTimeEquals, beq_iff_eq, foldl_or_eq_zero]
  split_ifs with hlength
  · -- the flag of the lengths is never taken back
    refine iff_of_false (fun h => absurd h.1 (by decide)) ?_
    rintro rfl
    exact hlength rfl
  · rw [zipWith_xor_eq_zero (not_not.mp hlength)]
    exact and_iff_right rfl

example : constantTimeEquals [0x80] [0x80, 0x00] = false := by decide

/-! ### The gate -/

/-- What is there at most once is found. -/
lemma find?_of_countP_le_one {α : Type*} {p : α → Bool} {l : List α} {x : α}
    (h : l.countP p ≤ 1) (hx : x ∈ l) (hp : p x = true) : l.find? p = some x := by
  induction l with
  | nil => cases hx
  | cons y l ih =>
    rw [List.countP_cons] at h
    rcases List.mem_cons.mp hx with rfl | hx
    · exact List.find?_cons_of_pos hp
    · have hpos : 0 < l.countP p := List.countP_pos_iff.mpr ⟨x, hx, hp⟩
      by_cases hy : p y = true
      · rw [if_pos hy] at h
        omega
      · rw [List.find?_cons_of_neg hy]
        exact ih (by omega) hx

namespace AgentService

variable {svc : AgentService} {metadata : List (ByteString × ByteString)}

lemma authenticate_eq_none_iff (htoken : svc.opts.token ≠ [])
    (hone : metadata.countP (fun kv => kv.1 == lit "authorization") ≤ 1) :
    svc.authenticate metadata = none ↔
      (lit "authorization", lit "Bearer " ++ svc.opts.token) ∈ metadata := by
  have hempty : svc.opts.token.isEmpty = false := List.isEmpty_eq_false_iff.mpr htoken
  rw [authenticate, hempty, if_neg Bool.false_ne_true]
  constructor
  · intro h
    split at h
    · cases h
    · next kv hfind =>
      split_ifs at h with hequal
      have hkey := List.find?_some hfind
      have hvalue : kv.2 = lit "Bearer " ++ svc.opts.token := (constantTimeEquals_iff _ _).mp hequal
      rw [← beq_iff_eq.mp hkey, ← hvalue]
      exact List.mem_of_find?_eq_some hfind
  · intro h
    rw [find?_of_countP_le_one hone h (beq_self_eq_true _)]
    exact if_pos ((constantTimeEquals_iff _ _).mpr rfl)

/-- Whoever is not let in is told so. -/
lemma code_of_authenticate {st : Status} (h : svc.authenticate metadata = some st) :
    st.code = .unauthenticated := by
  unfold authenticate at h
  split_ifs at h
  split at h
  · rw [← Option.some.inj h]
  · split_ifs at h
    rw [← Option.some.inj h]

lemma getInfo_of_authenticate {st : Status} (h : svc.authenticate metadata = some st)
    (cpus : UInt32) : svc.getInfo cpus metadata = .error st := by
  rw [getInfo, h]

lemma check_of_authenticate {c : Incoming RunTaskRequest} {st : Status}
    (h : svc.authenticate c.metadata = some st) : svc.check c = some st := by
  rw [check, h]

end AgentService

/-- The comparison is equality, so an agent with a token lets in who presents exactly this token.
Nobody else gets the reply of `GetInfo`, and the handler of a `RunTask` call without the token
neither writes a reply nor touches `running_` nor starts a command, whatever else the agent does. -/
theorem token_gate_exact :
    (∀ a b : ByteString, constantTimeEquals a b = true ↔ a = b) ∧
    ∀ svc : AgentService, svc.opts.token ≠ [] → ∀ metadata : List (ByteString × ByteString),
      metadata.countP (fun kv => kv.1 == lit "authorization") ≤ 1 →
        (svc.authenticate metadata = none ↔
          (lit "authorization", lit "Bearer " ++ svc.opts.token) ∈ metadata) ∧
        ((lit "authorization", lit "Bearer " ++ svc.opts.token) ∉ metadata →
          ∃ st, st.code = .unauthenticated ∧
            (∀ cpus, svc.getInfo cpus metadata = .error st) ∧
            ∀ s, svc.requests.lts.Reachable s → ∀ i x, s.procs[i]? = some x →
              x.call.metadata = metadata →
                (x.phase = .arrived ∨ x.phase = .finished (.error st)) ∧
                (executing x = false ∧ counted x = false) ∧
                ∀ s', Pool.Step svc.requests s (.act i) s' → s'.store = s.store) := by
  refine ⟨constantTimeEquals_iff, ?_⟩
  intro svc htoken metadata hone
  have hiff := AgentService.authenticate_eq_none_iff htoken hone
  refine ⟨hiff, ?_⟩
  intro hmissing
  obtain ⟨st, hst⟩ := Option.ne_none_iff_exists'.mp (hiff.not.mpr hmissing)
  refine ⟨st, AgentService.code_of_authenticate hst, AgentService.getInfo_of_authenticate hst, ?_⟩
  rintro s h i x hi rfl
  have hcheck := AgentService.check_of_authenticate hst
  have hphase := AgentService.of_check_eq_some h (List.mem_of_getElem? hi) hcheck
  obtain ⟨hidle, hstore⟩ := AgentService.idle_of_check_eq_some h hi hcheck
  exact ⟨hphase, hidle, hstore⟩

/-- An agent with a token. -/
def gated : AgentService := .make { token := lit "t0ken" } none

/-- Who spells the scheme differently is not let in. -/
theorem token_gate_exact_scheme :
    gated.authenticate [(lit "authorization", lit "Bearer t0ken")] = none ∧
    ∃ st, st.code = .unauthenticated ∧
      (∀ cpus, gated.getInfo cpus [(lit "authorization", lit "bearer t0ken")] = .error st) ∧
      ∀ s, gated.requests.lts.Reachable s → ∀ i x, s.procs[i]? = some x →
        x.call.metadata = [(lit "authorization", lit "bearer t0ken")] →
          (x.phase = .arrived ∨ x.phase = .finished (.error st)) ∧
          (executing x = false ∧ counted x = false) ∧
          ∀ s', Pool.Step gated.requests s (.act i) s' → s'.store = s.store :=
  ⟨(token_gate_exact.2 gated (by decide) _ (by decide)).1.mpr (by decide),
    (token_gate_exact.2 gated (by decide) _ (by decide)).2 (by decide)⟩

end Dtest
