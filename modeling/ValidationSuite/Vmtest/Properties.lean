import ValidationSuite.Vmtest.Harness

/-!
# What the test cases leave alone

Most of what a test case does only calls into the world outside. Such a piece keeps every
invariant that guests may stop under, so a test case keeps an invariant once `ensure_vm`,
`release_vm` and the soak loop do.
-/

namespace Vmtest

open ByteString Exceptional

variable {env : Env} {cfg : Config} {I E : World → Prop} {α β : Type}

/-- The invariant holds on while calls pass and guests stop. -/
def Stable (env : Env) (I : World → Prop) : Prop := ∀ w, I w → I (w.advance env)

lemma spec_call (hI : Stable env I) (answer : ℕ → α) :
    Spec I (call env answer) (fun _ => I) E := fun w h => hI w h

/-- A call that never fails. -/
lemma spec_attempt (hI : Stable env I) {what : String} {answer : ℕ → Option ByteString}
    (hanswer : ∀ n, answer n = none) : Spec I (attempt env what answer) (fun _ => I) E := by
  refine Spec.bind (Q := fun error w => error = none ∧ I w)
    (fun w h => ⟨hanswer w.calls, hI w h⟩) fun error => ?_
  cases error with
  | none => exact Spec.pure fun _ h => h.2
  | some error => exact fun _ h => by cases h.1

lemma spec_pollUntil {pred : Harness Bool} (h : Spec I pred (fun _ => I) E) (n : ℕ) :
    Spec I (pollUntil pred n) (fun _ => I) E := by
  induction n with
  | zero => exact h
  | succ n ih =>
    refine h.bind fun b => ?_
    split_ifs
    · exact Spec.pure fun _ h => h
    · exact ih

lemma spec_waitUntil (hI : Stable env I) {pred : Harness Bool}
    (h : Spec I pred (fun _ => I) E) : Spec I (waitUntil env pred) (fun _ => I) E :=
  (spec_call hI _).bind fun n => spec_pollUntil h n

/-- The piece does nothing but call into the world outside. -/
def Neutral (env : Env) (x : Harness α) : Prop := ∀ I, Stable env I → Keeps I x

namespace Neutral

lemma pure (a : α) : Neutral env (Pure.pure a : Harness α) :=
  fun _ _ => Spec.pure fun _ h => h

lemma throw (e : Failure) : Neutral env (MonadExcept.throw e : Harness α) :=
  fun _ _ => Spec.throw fun _ h => h

lemma bind {x : Harness α} {f : α → Harness β} (hx : Neutral env x)
    (hf : ∀ a, Neutral env (f a)) : Neutral env (x >>= f) :=
  fun I hI => (hx I hI).bind fun a => hf a I hI

lemma ite {c : Prop} [Decidable c] {x y : Harness α} (hx : Neutral env x)
    (hy : Neutral env y) : Neutral env (if c then x else y) := by
  split_ifs
  · exact hx
  · exact hy

lemma call (answer : ℕ → α) : Neutral env (Vmtest.call env answer) :=
  fun _ hI => spec_call hI answer

lemma attempt (what : String) (answer : ℕ → Option ByteString) :
    Neutral env (Vmtest.attempt env what answer) := by
  refine (call answer).bind fun error => ?_
  cases error with
  | none => exact pure ()
  | some error => exact throw _

lemma require (cond : Bool) (msg : ByteString) : Neutral env (Vmtest.require cond msg) :=
  ite (pure ()) (throw _)

lemma requireEq (actual expected : ℤ) (what : ByteString) :
    Neutral env (Vmtest.requireEq actual expected what) :=
  require _ _

lemma waitUntil {pred : Harness Bool} (h : Neutral env pred) :
    Neutral env (Vmtest.waitUntil env pred) :=
  fun I hI => spec_waitUntil hI (h I hI)

lemma state (vm : DomainId) : Neutral env (Domain.state env vm) := by
  intro I hI w h
  rw [Domain.state]
  cases env.state w.calls with
  | error error => exact hI w h
  | ok st => exact hI w h

/-- Asking for the agent never throws. -/
lemma spec_agentAlive (hI : Stable env I) (vm : DomainId) :
    Spec I (Vmtest.agentAlive env vm) (fun _ => I) E :=
  Spec.tryCatch ((attempt _ _ I hI).bind fun _ => Spec.pure fun _ h => h) fun _ =>
    Spec.pure fun _ h => h

lemma agentAlive (vm : DomainId) : Neutral env (Vmtest.agentAlive env vm) :=
  fun _ hI => spec_agentAlive hI vm

lemma stateBecomes (vm : DomainId) (want : DomState) :
    Neutral env (Vmtest.stateBecomes env vm want) :=
  waitUntil ((state vm).bind fun _ => pure _)

lemma hasStopped (vm : DomainId) : Neutral env (Vmtest.hasStopped env vm) :=
  (stateBecomes vm .gone).bind fun _ => ite (pure true) ((state vm).bind fun _ => pure _)

lemma guestSh (vm : DomainId) : Neutral env (Vmtest.guestSh env vm) := by
  refine (call _).bind fun res => ?_
  cases res with
  | error failure => exact throw failure
  | ok res => exact pure res

lemma parseInt (what : String) (bits : ℕ) (s : ByteString) :
    Neutral env (Vmtest.parseInt what bits s) := by
  rw [Vmtest.parseInt]
  cases integer? s with
  | none => exact throw _
  | some n => exact ite (pure n) (throw _)

lemma vcpus (vm : DomainId) : Neutral env (Domain.vcpus env vm) := by
  refine (call _).bind fun res => ?_
  cases res with
  | error error => exact throw _
  | ok n => exact pure n

end Neutral

/-! ### The test cases -/

/-- A test case on the shared guest keeps what `ensure_vm` keeps. -/
lemma keeps_of_neutral (hI : Stable env I) (hensure : Keeps I (Context.ensureVm env cfg))
    {rest : DomainId → Harness α} (hrest : ∀ vm, Neutral env (rest vm)) :
    Keeps I (Context.ensureVm env cfg >>= rest) :=
  hensure.bind fun vm => hrest vm I hI

/-- A test case keeps an invariant that the shared guest and the soak loop keep. -/
theorem keeps_of_mem_buildTests (hI : Stable env I) (hensure : Keeps I (Context.ensureVm env cfg))
    (hrelease : Keeps I (Context.releaseVm env)) (hsoak : Keeps I (tBootDestroySoak env cfg))
    {t : TestCase} (ht : t ∈ buildTests env cfg) : Keeps I t.fn := by
  simp only [buildTests, List.mem_cons, List.not_mem_nil, or_false] at ht
  rcases ht with rfl | rfl | rfl | rfl | rfl | rfl | rfl | rfl | rfl
  · refine keeps_of_neutral hI hensure fun vm => ?_
    refine (Neutral.state vm).bind fun first => (Neutral.state vm).bind fun second => ?_
    refine (Neutral.require _ _).bind fun _ => ?_
    refine (Neutral.agentAlive vm).bind fun _ => ?_
    exact (Neutral.require _ _).bind fun _ => (Neutral.vcpus vm).bind fun _ =>
      Neutral.requireEq _ _ _
  · refine keeps_of_neutral hI hensure fun vm => ?_
    refine (Neutral.attempt _ _).bind fun _ => ?_
    refine (Neutral.stateBecomes vm _).bind fun _ => (Neutral.require _ _).bind fun _ => ?_
    refine (Neutral.attempt _ _).bind fun _ => ?_
    refine (Neutral.stateBecomes vm _).bind fun _ => (Neutral.require _ _).bind fun _ => ?_
    exact (Neutral.waitUntil (Neutral.agentAlive vm)).bind fun _ => Neutral.require _ _
  · refine keeps_of_neutral hI hensure fun vm => ?_
    refine (Neutral.guestSh vm).bind fun r => (Neutral.requireEq _ _ _).bind fun _ => ?_
    exact (Neutral.parseInt _ _ _).bind fun _ => Neutral.requireEq _ _ _
  · refine keeps_of_neutral hI hensure fun vm => ?_
    refine (Neutral.guestSh vm).bind fun r => (Neutral.requireEq _ _ _).bind fun _ => ?_
    refine (Neutral.parseInt _ _ _).bind fun _ => ?_
    exact (Neutral.require _ _).bind fun _ => Neutral.require _ _
  · refine keeps_of_neutral hI hensure fun vm => ?_
    refine (Neutral.guestSh vm).bind fun r => (Neutral.requireEq _ _ _).bind fun _ => ?_
    exact Neutral.require _ _
  · refine keeps_of_neutral hI hensure fun vm => ?_
    refine (Neutral.guestSh vm).bind fun r => (Neutral.require _ _).bind fun _ => ?_
    exact Neutral.requireEq _ _ _
  · refine keeps_of_neutral hI hensure fun vm => ?_
    refine (Neutral.guestSh vm).bind fun r => (Neutral.requireEq _ _ _).bind fun _ => ?_
    exact (Neutral.require _ _).bind fun _ => Neutral.require _ _
  · refine hensure.bind fun vm => (Neutral.attempt _ _ I hI).bind fun _ => ?_
    have hwait : Neutral env (waitUntil env do
        let st ← Domain.state env vm
        return st == .gone || st == .shutOff) :=
      Neutral.waitUntil ((Neutral.state vm).bind fun _ => Neutral.pure _)
    exact (hwait I hI).bind fun _ => (Neutral.require _ _ I hI).bind fun _ => hrelease
  · exact hsoak

/-- No exception of a test case gets past the loop that runs it. -/
lemma spec_runTest {t : TestCase} (ht : Keeps I t.fn) :
    Spec I (runTest env t) (fun _ => I) fun _ => False := by
  refine Spec.bind (Q := fun _ => I) ?_ fun r =>
    Spec.bind (Q := fun _ => I) (Spec.get fun _ h => h) fun w => Spec.pure fun _ h => h
  refine Spec.tryCatch (ht.bind fun _ => Spec.pure fun _ h => h) fun e => ?_
  cases e <;> exact Spec.pure fun _ h => h

lemma spec_runLoop (hboundary : ∀ w, I w → I (boundary w).2) {tests : List TestCase}
    (htests : ∀ t ∈ tests, Keeps I t.fn) :
    Spec I (runLoop env cfg tests) (fun _ => I) fun _ => False := by
  induction tests with
  | nil => exact Spec.pure fun _ h => h
  | cons t ts ih =>
    obtain ⟨ht, hts⟩ := List.forall_mem_cons.mp htests
    rw [runLoop]
    split_ifs
    · refine (spec_runTest ht).bind fun r => ?_
      exact Spec.bind (Q := fun _ => I) (Spec.update hboundary) fun _ =>
        (ih hts).bind fun rs => Spec.pure fun _ h => h
    · exact ih hts

end Vmtest
