import Mathlib.Data.List.Infix

/-!
# Command lines

A loop over the arguments of a program. Each argument is an option that stands alone, one that takes
the next argument as its value, or a reason to stop. What holds of the options in any order and
number holds of the whole command line.
-/

namespace CommandLine

variable {α σ ε : Type*}

/-- What an argument is to the loop. The value of an option may be rejected. -/
inductive Action (α σ ε : Type*) where
  | flag (f : σ → σ)
  | value (missing : ε) (f : α → σ → Except ε σ)
  | stop (e : ε)

/-- An option whose value is always accepted. -/
abbrev Action.set (missing : ε) (f : α → σ → σ) : Action α σ ε :=
  .value missing fun v s => .ok (f v s)

/-- The loop: what has been read, and the reason it has stopped early. -/
def read (opt : α → Action α σ ε) : List α → σ → σ × Option ε
  | [], s => (s, none)
  | a :: rest, s =>
    match opt a with
    | .stop e => (s, some e)
    | .flag f => read opt rest (f s)
    | .value missing f =>
      match rest with
      | [] => (s, some missing)
      | v :: rest =>
        match f v s with
        | .error e => (s, some e)
        | .ok s => read opt rest s

variable {opt : α → Action α σ ε} {a v : α} {rest argv : List α} {s s' : σ} {e missing : ε}

lemma read_nil (opt : α → Action α σ ε) (s : σ) : read opt [] s = (s, none) := rfl

lemma read_flag {f : σ → σ} (h : opt a = .flag f) :
    read opt (a :: rest) s = read opt rest (f s) := by
  rw [read, h]

lemma read_value {f : α → σ → Except ε σ} (h : opt a = .value missing f)
    (hv : f v s = .ok s') : read opt (a :: v :: rest) s = read opt rest s' := by
  rw [read, h]
  simp only [hv]

/-- The invariant rule. An option is somewhere on the command line, with its value behind it. -/
theorem read_invariant {I : σ → Prop} (h : I s)
    (hflag : ∀ a ∈ argv, ∀ f, opt a = .flag f → ∀ s, I s → I (f s))
    (hvalue : ∀ a v, [a, v] <:+: argv → ∀ missing f, opt a = .value missing f →
      ∀ s s', f v s = .ok s' → I s → I s') :
    I (read opt argv s).1 := by
  -- the arguments still to come are the end of the command line
  have hrest : ∀ rest : List α, rest <:+ argv → ∀ s, I s → I (read opt rest s).1 := by
    intro rest hsuffix s hs
    fun_induction read opt rest s with
    | case1 s => exact hs
    | case2 a rest s e hopt => exact hs
    | case3 a rest s f hopt ih =>
      refine ih ((List.suffix_cons a rest).trans hsuffix) ?_
      exact hflag a (hsuffix.subset List.mem_cons_self) f hopt s hs
    | case4 a s missing f hopt => exact hs
    | case5 a s missing f hopt v rest e hv => exact hs
    | case6 a s missing f hopt v rest s' hv ih =>
      have hpair : [a, v] <:+: argv :=
        (List.prefix_append [a, v] rest).isInfix.trans hsuffix.isInfix
      refine ih ?_ (hvalue a v hpair missing f hopt s s' hv hs)
      exact (List.suffix_cons v rest).trans ((List.suffix_cons a _).trans hsuffix)
  exact hrest argv (List.suffix_refl argv) s h

/-- What holds of every complaint of an option holds of the complaint about a command line. -/
theorem read_error {P : ε → Prop} (hstop : ∀ a e, opt a = .stop e → P e)
    (hmissing : ∀ a missing f, opt a = .value missing f → P missing)
    (hrejected : ∀ a missing f, opt a = .value missing f → ∀ v s e, f v s = .error e → P e)
    (h : read opt argv s = (s', some e)) : P e := by
  fun_induction read opt argv s with
  | case1 s => cases h
  | case2 a rest s e' hopt =>
    obtain rfl := Option.some.inj (congrArg Prod.snd h)
    exact hstop a e' hopt
  | case3 a rest s f hopt ih => exact ih h
  | case4 a s missing f hopt =>
    obtain rfl := Option.some.inj (congrArg Prod.snd h)
    exact hmissing a missing f hopt
  | case5 a s missing f hopt v rest e' hv =>
    obtain rfl := Option.some.inj (congrArg Prod.snd h)
    exact hrejected a missing f hopt v s e' hv
  | case6 a s missing f hopt v rest u hv ih => exact ih h

/-- What is read without a complaint is read in front of anything else. -/
theorem read_append {argv' : List α} (h : read opt argv s = (s', none)) :
    read opt (argv ++ argv') s = read opt argv' s' := by
  fun_induction read opt argv s with
  | case1 s =>
    obtain rfl : s = s' := congrArg Prod.fst h
    rfl
  | case2 a rest s e hopt => cases h
  | case3 a rest s f hopt ih => rw [List.cons_append, read_flag hopt, ih h]
  | case4 a s missing f hopt => cases h
  | case5 a s missing f hopt v rest e hv => cases h
  | case6 a s missing f hopt v rest s' hv ih =>
    rw [List.cons_append, List.cons_append, read_value hopt hv, ih h]

end CommandLine
