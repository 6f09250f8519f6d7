import Mathlib.Data.List.Induction

/-!
# Sequential objects

An object that answers requests one at a time, and the answers it gives to a list of requests. A
concurrent implementation is compared with it through the log of the requests it has carried out,
in order, and of the answers it has given. What is to be shown of the entries of a log goes by
induction over `Runs`.
-/

namespace Transition

variable {A O R : Type*}

/-- An object with states `A` that answers requests `O` with responses `R`. -/
structure SeqObject (A O R : Type*) where
  init : A
  apply : A → O → A × R

namespace SeqObject

variable (X : SeqObject A O R)

/-- The state after a list of requests, and the responses. -/
def run (ops : List O) : A × List R :=
  ops.foldl (fun s o => ((X.apply s.1 o).1, s.2 ++ [(X.apply s.1 o).2])) (X.init, [])

/-- The log is what the object does when it is given the requests of the log, and `a` is the state
it is left in. -/
def Explains (log : List (O × R)) (a : A) : Prop := X.run (log.map (·.1)) = (a, log.map (·.2))

lemma explains_nil : X.Explains [] X.init := rfl

variable {X}

lemma Explains.concat {log : List (O × R)} {a : A} (h : X.Explains log a) (o : O) :
    X.Explains (log ++ [(o, (X.apply a o).2)]) (X.apply a o).1 := by
  have hrun := h
  rw [Explains, run] at hrun
  rw [Explains, run, List.map_append, List.foldl_append, hrun]
  simp

variable (X) in
/-- From the state `a`, the object answers the requests of the log as the log says, and is left in
`a'`. -/
def Runs : A → List (O × R) → A → Prop
  | a, [], a' => a' = a
  | a, e :: log, a' => (X.apply a e.1).2 = e.2 ∧ Runs (X.apply a e.1).1 log a'

variable {log log' : List (O × R)} {e : O × R} {a a' : A}

lemma runs_append : X.Runs a (log ++ log') a' ↔ ∃ m, X.Runs a log m ∧ X.Runs m log' a' := by
  induction log generalizing a with
  | nil => simp [Runs]
  | cons e log ih => simp only [List.cons_append, Runs, ih, and_assoc, exists_and_left]

lemma Explains.of_concat (h : X.Explains (log ++ [e]) a') :
    ∃ a, X.Explains log a ∧ (X.apply a e.1).2 = e.2 ∧ a' = (X.apply a e.1).1 := by
  rw [Explains, run, List.map_append, List.map_append, List.foldl_append] at h
  obtain ⟨hstate, hanswers⟩ := Prod.ext_iff.mp h
  obtain ⟨hbefore, hlast⟩ := List.append_inj' hanswers rfl
  exact ⟨_, Prod.ext rfl hbefore, (List.cons.inj hlast).1, hstate.symm⟩

lemma Explains.runs (h : X.Explains log a) : X.Runs X.init log a := by
  induction log using List.reverseRecOn generalizing a with
  | nil => exact (Prod.ext_iff.mp h).1.symm
  | append_singleton log e ih =>
    obtain ⟨m, hlog, hanswer, rfl⟩ := h.of_concat
    exact runs_append.mpr ⟨m, ih hlog, hanswer, rfl⟩

end SeqObject

end Transition
