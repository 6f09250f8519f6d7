import Mathlib.Logic.Basic

/-!
# Checks that fail with a message

Computations in `Except` made of checks: when they succeed, and that none of them fails with a
given message.
-/

namespace Except

variable {ε α β σ : Type*}

/-- The value of `o`, or the failure `e`. -/
def demand (o : Option α) (e : ε) : Except ε α :=
  match o with
  | some a => .ok a
  | none => .error e

/-- Fails as `e` says if there is a `bad` value. -/
def refuse (bad : Option α) (e : α → ε) : Except ε Unit :=
  match bad with
  | some a => .error (e a)
  | none => .ok ()

/-- `x` does not fail with the message `e`. -/
def NeverFails (e : ε) (x : Except ε α) : Prop := x ≠ .error e

@[simp] lemma demand_eq_ok {o : Option α} {e : ε} {a : α} : demand o e = .ok a ↔ o = some a := by
  cases o <;> simp [demand]

@[simp] lemma refuse_eq_ok {bad : Option α} {e : α → ε} {u : Unit} :
    refuse bad e = .ok u ↔ bad = none := by
  cases bad <;> simp [refuse]

lemma bind_eq_ok {α β : Type _} {x : Except ε α} {f : α → Except ε β} {b : β} :
    x >>= f = .ok b ↔ ∃ a, x = .ok a ∧ f a = .ok b := by
  cases x with
  | error e => simp [bind, Except.bind]
  | ok a => simp [bind, Except.bind]

lemma neverFails_ok (e : ε) (a : α) : NeverFails e (.ok a) := fun h => by cases h

lemma neverFails_demand {e e' : ε} {o : Option α} (h : e' ≠ e) : NeverFails e (demand o e') := by
  cases o with
  | none => exact fun heq => h (by simpa [demand] using heq)
  | some a => exact neverFails_ok e a

lemma neverFails_refuse {e : ε} {bad : Option α} {e' : α → ε} (h : ∀ a, e' a ≠ e) :
    NeverFails e (refuse bad e') := by
  cases bad with
  | none => exact neverFails_ok e ()
  | some a => exact fun heq => h a (by simpa [refuse] using heq)

lemma NeverFails.bind {α β : Type _} {e : ε} {x : Except ε α} {f : α → Except ε β}
    (hx : NeverFails e x) (hf : ∀ a, NeverFails e (f a)) : NeverFails e (x >>= f) := by
  cases x with
  | error e' =>
    intro (heq : (error e' : Except ε β) = error e)
    injection heq with heq
    exact hx (heq ▸ rfl)
  | ok a => exact hf a

lemma NeverFails.foldlM {α σ : Type _} {e : ε} {f : σ → α → Except ε σ}
    (hf : ∀ s a, NeverFails e (f s a)) (l : List α) (s : σ) : NeverFails e (l.foldlM f s) := by
  induction l generalizing s with
  | nil => exact neverFails_ok e s
  | cons a l ih =>
    rw [List.foldlM_cons]
    exact (hf s a).bind ih

end Except
