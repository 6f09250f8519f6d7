import Mathlib.Logic.Basic

/-!
# Programs with a state and exceptions

A program reads and changes a state and returns a value or throws; what it did to the state before
it throws stays done. The rules of its pre- and postconditions follow the way the program is put
together.
-/

/-- A program over the states `σ` that throws values of `ε`. -/
def Exceptional (σ ε α : Type) : Type := σ → Except ε α × σ

namespace Exceptional

variable {σ ε α β : Type}

protected def pure (a : α) : Exceptional σ ε α := fun s => (.ok a, s)

protected def bind (x : Exceptional σ ε α) (f : α → Exceptional σ ε β) : Exceptional σ ε β :=
  fun s => match x s with
  | (.ok a, s) => f a s
  | (.error e, s) => (.error e, s)

protected def throw (e : ε) : Exceptional σ ε α := fun s => (.error e, s)

protected def tryCatch (x : Exceptional σ ε α) (h : ε → Exceptional σ ε α) : Exceptional σ ε α :=
  fun s => match x s with
  | (.ok a, s) => (.ok a, s)
  | (.error e, s) => h e s

instance : Monad (Exceptional σ ε) where
  pure := Exceptional.pure
  bind := Exceptional.bind

instance : MonadExceptOf ε (Exceptional σ ε) where
  throw := Exceptional.throw
  tryCatch := Exceptional.tryCatch

instance : MonadStateOf σ (Exceptional σ ε) where
  get := fun s => (.ok s, s)
  set s := fun _ => (.ok (), s)
  modifyGet f := fun s => (.ok (f s).1, (f s).2)

section Run

variable {x : Exceptional σ ε α} {f : α → Exceptional σ ε β} {h : ε → Exceptional σ ε α} {s s' : σ}
  {a : α} {e : ε}

lemma bind_of_ok (hx : x s = (.ok a, s')) : (x >>= f) s = f a s' := by
  show Exceptional.bind x f s = f a s'
  rw [Exceptional.bind, hx]

lemma bind_of_error (hx : x s = (.error e, s')) : (x >>= f) s = (.error e, s') := by
  show Exceptional.bind x f s = (.error e, s')
  rw [Exceptional.bind, hx]

@[simp] lemma ofExcept_apply (r : Except ε α) (s : σ) :
    (ofExcept r : Exceptional σ ε α) s = (r, s) := by
  cases r <;> rfl

end Run

/-- From a state with `P` the program returns a value with `Q`, or throws and leaves `E`. -/
def Spec (P : σ → Prop) (x : Exceptional σ ε α) (Q : α → σ → Prop) (E : σ → Prop) : Prop :=
  ∀ s, P s → match x s with
    | (.ok a, s') => Q a s'
    | (.error _, s') => E s'

/-- The program keeps `I`, whether it returns or throws. -/
def Keeps (I : σ → Prop) (x : Exceptional σ ε α) : Prop := Spec I x (fun _ => I) I

variable {P P' I E F : σ → Prop} {Q Q' : α → σ → Prop} {R : β → σ → Prop}

namespace Spec

variable {x : Exceptional σ ε α}

lemma consequence (h : Spec P x Q E) (hP : ∀ s, P' s → P s) (hQ : ∀ a s, Q a s → Q' a s)
    (hE : ∀ s, E s → F s) : Spec P' x Q' F := by
  intro s hs
  have hx := h s (hP s hs)
  rcases hr : x s with ⟨e | a, s'⟩ <;> rw [hr] at hx
  · exact hE s' hx
  · exact hQ a s' hx

lemma pure {a : α} (h : ∀ s, P s → Q a s) : Spec P (Pure.pure a : Exceptional σ ε α) Q E := h

lemma throw {e : ε} (h : ∀ s, P s → E s) :
    Spec P (MonadExcept.throw e : Exceptional σ ε α) Q E := h

lemma bind {f : α → Exceptional σ ε β} (hx : Spec P x Q E) (hf : ∀ a, Spec (Q a) (f a) R E) :
    Spec P (x >>= f) R E := by
  intro s hs
  have hx := hx s hs
  show match Exceptional.bind x f s with | (.ok b, s') => R b s' | (.error _, s') => E s'
  rw [Exceptional.bind]
  rcases hr : x s with ⟨e | a, s'⟩ <;> rw [hr] at hx
  · exact hx
  · exact hf a s' hx

lemma tryCatch {h : ε → Exceptional σ ε α} (hx : Spec P x Q F)
    (hh : ∀ e, Spec F (h e) Q E) : Spec P (MonadExcept.tryCatch x h) Q E := by
  intro s hs
  have hx := hx s hs
  show match Exceptional.tryCatch x h s with | (.ok a, s') => Q a s' | (.error _, s') => E s'
  rw [Exceptional.tryCatch]
  rcases hr : x s with ⟨e | a, s'⟩ <;> rw [hr] at hx
  · exact hh e s' hx
  · exact hx

lemma get {Q : σ → σ → Prop} (h : ∀ s, P s → Q s s) :
    Spec P (MonadState.get : Exceptional σ ε σ) Q E := h

lemma update {f : σ → σ} {Q : Unit → σ → Prop} (h : ∀ s, P s → Q () (f s)) :
    Spec P (modify f : Exceptional σ ε Unit) Q E := h

end Spec

end Exceptional
