import Mathlib.Algebra.Order.Field.Rat
import Mathlib.Algebra.Order.Group.Unbundled.Abs
import Mathlib.Data.List.Enum
import Mathlib.Data.NNRat.Defs
import Mathlib.Order.Bounds.Basic
import Mathlib.Tactic.Linarith
import Mathlib.Tactic.Positivity
import ValidationSuite.Library.ByteString

/-!
# Comparing arrays

`allclose` of `cudatest/src/reference.cpp` and `cudatest/include/cudatest/reference.hpp`. A `float`
is a multiple of 2⁻¹⁴⁹, an infinity or a NaN, and so is a `double` a number, an infinity or a NaN;
the operations of `double` round the exact result, and overflow.
-/

namespace Cudatest.Allclose

open ByteString

/-! ### Numbers -/

/-- A number with its sign, which zeros have too. -/
def signed (negative : Bool) (magnitude : ℚ) : ℚ := if negative then -magnitude else magnitude

/-- A `float`, but for the payload of a NaN. -/
inductive Value where
  | nan (negative : Bool)
  | inf (negative : Bool)
  | finite (negative : Bool) (units : ℕ)
  deriving DecidableEq

namespace Value

def isNan : Value → Bool
  | nan _ => true
  | _ => false

def isInf : Value → Bool
  | inf _ => true
  | _ => false

/-- The number that a value is; 0 if it is none. -/
def toRat : Value → ℚ
  | finite negative units => signed negative (units / 2 ^ 149)
  | _ => 0

/-- A zero of either sign. -/
def isZero : Value → Bool
  | finite _ units => units == 0
  | _ => false

/-- `==` -/
def equals : Value → Value → Bool
  | inf s, inf s' => s == s'
  | finite s m, finite s' m' => (finite s m).toRat == (finite s' m').toRat
  | _, _ => false

end Value

/-- A number or an infinity. -/
inductive Extended where
  | bot
  | number (q : ℚ)
  | top
  deriving DecidableEq

namespace Extended

def le : Extended → Extended → Bool
  | bot, _ => true
  | _, top => true
  | number p, number q => p ≤ q
  | _, _ => false

instance : LE Extended := ⟨fun x y => x.le y = true⟩

instance (x y : Extended) : Decidable (x ≤ y) := inferInstanceAs (Decidable (_ = true))

@[simp] lemma number_le_number {p q : ℚ} : number p ≤ number q ↔ p ≤ q := decide_eq_true_iff

@[simp] lemma bot_le (x : Extended) : bot ≤ x := rfl

@[simp] lemma le_top (x : Extended) : x ≤ top := by cases x <;> rfl

@[simp] lemma not_number_le_bot (q : ℚ) : ¬number q ≤ bot := Bool.false_ne_true

@[simp] lemma not_top_le_number (q : ℚ) : ¬top ≤ number q := Bool.false_ne_true

@[simp] lemma not_top_le_bot : ¬top ≤ bot := Bool.false_ne_true

instance : Preorder Extended where
  le_refl x := by cases x <;> simp
  le_trans x y z hxy hyz := by
    cases x <;> cases y <;> cases z <;> simp_all
    exact hxy.trans hyz

end Extended

/-- A `double`, likewise. -/
inductive Double where
  | nan (negative : Bool)
  | inf (negative : Bool)
  | finite (negative : Bool) (magnitude : ℚ≥0)

/-- What it is in comparisons; nothing, if it is a NaN. -/
def Double.value : Double → Option Extended
  | nan _ => none
  | inf negative => some (if negative then .bot else .top)
  | finite negative magnitude => some (.number (signed negative magnitude))

/-- `<=` -/
def Double.AtMost (x y : Double) : Prop := ∃ a ∈ x.value, ∃ b ∈ y.value, a ≤ b

def Double.IsZero (x : Double) : Prop := x.value = some (.number 0)

def Double.Nonneg (x : Double) : Prop := ∃ a ∈ x.value, .number 0 ≤ a

/-- How `double` rounds, were there no largest number. -/
structure Rounding where
  round : ℚ → ℚ
  mono : Monotone round
  round_zero : round 0 = 0
  /-- a difference of `float`s does not underflow -/
  underflow : ∀ q, round q = 0 → |q| < 1 / 2 ^ 149
  /-- the largest number there is -/
  largest : ℚ
  largest_nonneg : 0 ≤ largest

namespace Rounding

variable (R : Rounding)

/-- The result of an operation that is `q` exactly. -/
def result (q : ℚ) : Extended :=
  if R.largest < R.round q then .top
  else if R.round q < -R.largest then .bot
  else .number (R.round q)

/-- The product with a number that is not negative. -/
def times (x : Extended) (q : ℚ) : Option Extended :=
  match x with
  | .number r => some (R.result (r * q))
  | x => if q = 0 then none else some x

def plus : Extended → Extended → Option Extended
  | .number r, .number r' => some (R.result (r + r'))
  | .top, .bot => none
  | .bot, .top => none
  | .number _, x => some x
  | x, _ => some x

end Rounding

/-! ### The comparison -/

structure CompareResult where
  ok : Bool := true
  firstBad : ℕ := 0
  maxAbsErr : ℚ := 0
  maxRelErr : ℚ := 0
  message : ByteString := []

/-- The arguments after the arrays, and what a stream writes for numbers. -/
structure Tolerance where
  rtol : Double
  atol : Double
  equalNan : Bool := false
  showValue : Value → ByteString
  showDouble : Double → ByteString

variable (R : Rounding) (t : Tolerance)

/-- Differences of `float`s do not overflow, nor do their quotients. -/
def absErr (a e : Value) : ℚ :=
  if a.isNan || e.isNan || a.isInf || e.isInf then 0 else |R.round (a.toRat - e.toRat)|

def relErr (a e : Value) : ℚ :=
  if a.isNan || e.isNan || a.isInf || e.isInf then 0
  else if e.toRat ≠ 0 then R.round (absErr R a e / |e.toRat|) else 0

/-- `atol + rtol * std::fabs(e)` -/
def bound (e : Value) : Option Extended := do
  let rtol ← t.rtol.value
  let atol ← t.atol.value
  R.plus atol (← R.times rtol |e.toRat|)

/-- The variable `match`. -/
def isMatch (a e : Value) : Bool :=
  if a.isNan || e.isNan then t.equalNan && a.isNan && e.isNan
  -- same-signed infinity only
  else if a.isInf || e.isInf then a.equals e
  else match bound R t e with
    | none => false
    | some b => .number (absErr R a e) ≤ b

def mismatch (i : ℕ) (a e : Value) : ByteString :=
  lit "mismatch at index " ++ ofNat i ++ lit ": actual=" ++ t.showValue a ++ lit " expected=" ++
    t.showValue e ++ lit " (rtol=" ++ t.showDouble t.rtol ++ lit ", atol=" ++
    t.showDouble t.atol ++ lit ")"

/-- The body of the loop. -/
def visit (res : CompareResult) (i : ℕ) (a e : Value) : CompareResult :=
  let bad := !isMatch R t a e && res.ok
  { ok := if bad then false else res.ok
    firstBad := if bad then i else res.firstBad
    maxAbsErr := if absErr R a e > res.maxAbsErr then absErr R a e else res.maxAbsErr
    maxRelErr := if relErr R a e > res.maxRelErr then relErr R a e else res.maxRelErr
    message := if bad then mismatch t i a e else res.message }

/-- The loop, from the index `i` on. -/
def loop : ℕ → List (Value × Value) → CompareResult → CompareResult
  | _, [], res => res
  | i, (a, e) :: rest, res => loop (i + 1) rest (visit R t res i a e)

def allclose (actual expected : List Value) : CompareResult :=
  if actual.length ≠ expected.length then
    { ok := false
      message := lit "size mismatch: " ++ ofNat actual.length ++ lit " vs " ++
        ofNat expected.length }
  else loop R t 0 (actual.zip expected) {}

/-! ### The loop -/

variable {R t} {res : CompareResult} {i : ℕ} {a e : Value} {actual expected : List Value}
  {ps : List (Value × Value)}

/-- The errors are maxima. -/
lemma loop_maxAbsErr : (loop R t i ps res).maxAbsErr =
    (ps.map fun p => absErr R p.1 p.2).foldl max res.maxAbsErr := by
  induction ps generalizing i res with
  | nil => rfl
  | cons p ps ih => rw [loop, ih, List.map_cons, List.foldl_cons, visit, max_def_lt]

lemma loop_maxRelErr : (loop R t i ps res).maxRelErr =
    (ps.map fun p => relErr R p.1 p.2).foldl max res.maxRelErr := by
  induction ps generalizing i res with
  | nil => rfl
  | cons p ps ih => rw [loop, ih, List.map_cons, List.foldl_cons, visit, max_def_lt]

/-- The first mismatch counts. -/
lemma loop_of_not_ok (hres : res.ok = false) :
    (loop R t i ps res).ok = false ∧ (loop R t i ps res).firstBad = res.firstBad ∧
      (loop R t i ps res).message = res.message := by
  induction ps generalizing i res with
  | nil => exact ⟨hres, rfl, rfl⟩
  | cons p ps ih =>
    have hvisit : (visit R t res i p.1 p.2).ok = false ∧
        (visit R t res i p.1 p.2).firstBad = res.firstBad ∧
        (visit R t res i p.1 p.2).message = res.message := by
      simp [visit, hres]
    rw [loop]
    obtain ⟨hok, hfirst, hmessage⟩ := ih hvisit.1
    exact ⟨hok, hfirst.trans hvisit.2.1, hmessage.trans hvisit.2.2⟩

/-- What the loop says about the elements. -/
def Says (R : Rounding) (t : Tolerance) (i : ℕ) (ps : List (Value × Value)) (res : CompareResult) :
    Prop :=
  if res.ok then (∀ p ∈ ps, isMatch R t p.1 p.2 = true) ∧ res.message = []
  else ∃ good bad rest, ps = good ++ bad :: rest ∧ (∀ p ∈ good, isMatch R t p.1 p.2 = true) ∧
    isMatch R t bad.1 bad.2 = false ∧ res.firstBad = i + good.length ∧
    res.message = mismatch t res.firstBad bad.1 bad.2

lemma says_loop (hres : res.ok = true) (hmessage : res.message = []) :
    Says R t i ps (loop R t i ps res) := by
  induction ps generalizing i res with
  | nil =>
    rw [loop, Says, if_pos hres]
    exact ⟨nofun, hmessage⟩
  | cons p ps ih =>
    rw [loop]
    cases hp : isMatch R t p.1 p.2 with
    | true =>
      have hvisit : (visit R t res i p.1 p.2).ok = true ∧
          (visit R t res i p.1 p.2).message = [] := by
        simp [visit, hp, hres, hmessage]
      have hrest := ih (i := i + 1) hvisit.1 hvisit.2
      rw [Says] at hrest ⊢
      split_ifs at hrest ⊢
      · exact ⟨List.forall_mem_cons.mpr ⟨hp, hrest.1⟩, hrest.2⟩
      · obtain ⟨good, bad, rest, rfl, hgood, hbad, hfirst, htext⟩ := hrest
        refine ⟨p :: good, bad, rest, rfl, List.forall_mem_cons.mpr ⟨hp, hgood⟩, hbad, ?_, htext⟩
        rw [hfirst, List.length_cons]
        omega
    | false =>
      have hvisit : (visit R t res i p.1 p.2).ok = false ∧
          (visit R t res i p.1 p.2).firstBad = i ∧
          (visit R t res i p.1 p.2).message = mismatch t i p.1 p.2 := by
        simp [visit, hp, hres]
      have hloop := @loop_of_not_ok R t (visit R t res i p.1 p.2) (i + 1) ps hvisit.1
      obtain ⟨hok, hfirst, htext⟩ := hloop
      rw [Says, if_neg (by rw [hok]; exact Bool.false_ne_true)]
      refine ⟨[], p, ps, rfl, nofun, hp, hfirst.trans hvisit.2.1, ?_⟩
      rw [htext, hfirst, hvisit.2.1, hvisit.2.2]

lemma isGreatest_foldl_max (l : List ℚ) (m : ℚ) :
    IsGreatest {x | x = m ∨ x ∈ l} (l.foldl max m) := by
  induction l generalizing m with
  | nil =>
    refine ⟨.inl rfl, ?_⟩
    rintro x (rfl | hx)
    · exact le_rfl
    · cases hx
  | cons y l ih =>
    obtain ⟨hmem, hub⟩ := ih (max m y)
    refine ⟨?_, ?_⟩
    · rw [List.foldl_cons]
      rcases hmem with h | h
      · rcases max_choice m y with hmax | hmax
        · exact .inl (h.trans hmax)
        · exact .inr (List.mem_cons.mpr (.inl (h.trans hmax)))
      · exact .inr (List.mem_cons_of_mem _ h)
    · have hmax : max m y ≤ l.foldl max (max m y) := hub (.inl rfl)
      rintro x (rfl | hx)
      · exact (le_max_left x y).trans hmax
      · rcases List.mem_cons.mp hx with rfl | hx
        · exact (le_max_right m x).trans hmax
        · exact hub (.inr hx)

/-- Arrays of different lengths never match. Otherwise the result says whether all elements match,
names the first pair that does not, and has the greatest errors of all pairs. -/
theorem allclose_reports (R : Rounding) (t : Tolerance) (actual expected : List Value) :
    if actual.length = expected.length then
      Says R t 0 (actual.zip expected) (allclose R t actual expected) ∧
        IsGreatest {x | x = 0 ∨ x ∈ (actual.zip expected).map fun p => absErr R p.1 p.2}
          (allclose R t actual expected).maxAbsErr ∧
        IsGreatest {x | x = 0 ∨ x ∈ (actual.zip expected).map fun p => relErr R p.1 p.2}
          (allclose R t actual expected).maxRelErr
    else (allclose R t actual expected).ok = false := by
  by_cases h : actual.length = expected.length
  · rw [if_pos h, allclose, if_neg (not_not.mpr h), loop_maxAbsErr, loop_maxRelErr]
    exact ⟨says_loop rfl rfl, isGreatest_foldl_max _ 0, isGreatest_foldl_max _ 0⟩
  · rw [if_neg h, allclose, if_pos h]

/-! ### Tolerances -/

lemma allclose_ok_iff : (allclose R t actual expected).ok = true ↔
    actual.length = expected.length ∧
      ∀ p ∈ actual.zip expected, isMatch R t p.1 p.2 = true := by
  rw [allclose]
  split_ifs with h
  · exact iff_of_false nofun fun h' => h h'.1
  · have hsays : Says R t 0 (actual.zip expected) (loop R t 0 (actual.zip expected) {}) :=
      says_loop rfl rfl
    rw [Says] at hsays
    rw [and_iff_right (not_not.mp h)]
    split_ifs at hsays with hok
    · exact iff_of_true hok hsays.1
    · obtain ⟨good, bad, rest, hps, -, hbad, -, -⟩ := hsays
      refine iff_of_false hok fun hall => ?_
      rw [hall bad (hps ▸ List.mem_append_right good List.mem_cons_self)] at hbad
      cases hbad

/-- More exact results are not larger when they have been rounded. -/
lemma result_mono {p q : ℚ} (h : p ≤ q) : R.result p ≤ R.result q := by
  have hround := R.mono h
  unfold Rounding.result
  split_ifs <;> simp <;> linarith

lemma result_nonneg {q : ℚ} (h : 0 ≤ q) : .number 0 ≤ R.result q := by
  have hround : 0 ≤ R.round q := R.round_zero ▸ R.mono h
  have hlargest := R.largest_nonneg
  unfold Rounding.result
  split_ifs
  · simp
  · linarith
  · simpa using hround

lemma result_zero : R.result 0 = .number 0 := by
  have hlargest := R.largest_nonneg
  rw [Rounding.result, R.round_zero, if_neg (not_lt.mpr hlargest), if_neg (by linarith)]

lemma eq_inf_of_value {x : Double} (h : x.value = some .top) : x = .inf false := by
  cases x with
  | nan negative => cases h
  | inf negative => cases negative with
    | true => cases h
    | false => rfl
  | finite negative magnitude => cases h

/-- A number is 0 if and only if it has no units. -/
lemma toRat_eq_zero (hnan : ¬(a.isNan = true ∨ e.isNan = true))
    (hinf : ¬(a.isInf = true ∨ e.isInf = true)) : e.toRat = 0 ↔ e.isZero = true := by
  cases e with
  | nan negative => exact absurd (.inr rfl) hnan
  | inf negative => exact absurd (.inr rfl) hinf
  | finite negative units =>
    rw [Value.toRat, Value.isZero, beq_iff_eq, signed]
    cases negative <;> simp

lemma bound_eq_some {b : Extended} : bound R t e = some b ↔ ∃ rtol atol product,
    t.rtol.value = some rtol ∧ t.atol.value = some atol ∧
      R.times rtol |e.toRat| = some product ∧ R.plus atol product = some b := by
  simp only [bound, Option.bind_eq_bind, Option.bind_eq_some_iff]
  constructor
  · rintro ⟨rtol, hrtol, atol, hatol, product, hproduct, hsum⟩
    exact ⟨rtol, atol, product, hrtol, hatol, hproduct, hsum⟩
  · rintro ⟨rtol, atol, product, hrtol, hatol, hproduct, hsum⟩
    exact ⟨rtol, hrtol, atol, hatol, product, hproduct, hsum⟩

lemma times_inf {x : Extended} (hx : x = .bot ∨ x = .top) (q : ℚ) :
    R.times x q = if q = 0 then none else some x := by
  rcases hx with rfl | rfl
  · rfl
  · rfl

lemma times_of_nonneg {r : Extended} {q : ℚ} (hr : .number 0 ≤ r) (hq : 0 ≤ q) :
    (R.times r q = none ↔ r = .top ∧ q = 0) ∧ ∀ p, R.times r q = some p → .number 0 ≤ p := by
  cases r with
  | bot => simp at hr
  | number r =>
    refine ⟨by simp [Rounding.times], ?_⟩
    rintro p ⟨⟩
    exact result_nonneg (mul_nonneg (Extended.number_le_number.mp hr) hq)
  | top =>
    by_cases hzero : q = 0
    · simp [Rounding.times, hzero]
    · refine ⟨by simp [Rounding.times, hzero], fun p hp => ?_⟩
      rw [times_inf (.inr rfl), if_neg hzero] at hp
      obtain rfl := Option.some.inj hp
      simp

lemma plus_of_nonneg {x y : Extended} (hx : .number 0 ≤ x) (hy : .number 0 ≤ y) :
    ∃ b, R.plus x y = some b ∧ .number 0 ≤ b := by
  cases x with
  | bot => simp at hx
  | number r =>
    cases y with
    | bot => simp at hy
    | number r' =>
      rw [Extended.number_le_number] at hx hy
      exact ⟨_, rfl, result_nonneg (add_nonneg hx hy)⟩
    | top => exact ⟨.top, rfl, hy⟩
  | top =>
    cases y with
    | bot => simp at hy
    | number r' => exact ⟨.top, rfl, hx⟩
    | top => exact ⟨.top, rfl, hx⟩

/-- More tolerance makes the product larger, unless it becomes a NaN. -/
lemma times_mono {r r' p : Extended} {q : ℚ} (hr : r ≤ r') (hq : 0 ≤ q)
    (hnan : r' = .top → r = .top ∨ q ≠ 0) (hp : R.times r q = some p) :
    ∃ p', R.times r' q = some p' ∧ p ≤ p' := by
  cases r with
  | bot =>
    rw [times_inf (.inl rfl)] at hp
    split_ifs at hp with hzero
    obtain rfl := Option.some.inj hp
    cases r' with
    | number r' => exact ⟨_, rfl, Extended.bot_le _⟩
    | bot => exact ⟨.bot, by rw [times_inf (.inl rfl), if_neg hzero], le_rfl⟩
    | top => exact ⟨.top, by rw [times_inf (.inr rfl), if_neg hzero], Extended.bot_le _⟩
  | number r =>
    obtain rfl := Option.some.inj hp
    cases r' with
    | bot => simp at hr
    | number r' =>
      exact ⟨_, rfl, result_mono (mul_le_mul_of_nonneg_right (Extended.number_le_number.mp hr) hq)⟩
    | top =>
      have hzero : q ≠ 0 := (hnan rfl).resolve_left nofun
      exact ⟨.top, by rw [times_inf (.inr rfl), if_neg hzero], Extended.le_top _⟩
  | top =>
    cases r' with
    | bot => simp at hr
    | number r' => simp at hr
    | top => exact ⟨p, hp, le_rfl⟩

/-- A sum that is not negative has no summand that is `-∞`. -/
lemma ne_bot_of_plus {x y b : Extended} (hb : R.plus x y = some b) (hzero : .number 0 ≤ b) :
    x ≠ .bot ∧ y ≠ .bot := by
  constructor
  · rintro rfl
    cases y with
    | top => cases hb
    | _ =>
      obtain rfl := Option.some.inj hb
      simp at hzero
  · rintro rfl
    cases x with
    | top => cases hb
    | _ =>
      obtain rfl := Option.some.inj hb
      simp at hzero

lemma plus_mono {x x' y y' b : Extended} (hx : x ≤ x') (hy : y ≤ y') (hb : R.plus x y = some b)
    (hzero : .number 0 ≤ b) : ∃ b', R.plus x' y' = some b' ∧ b ≤ b' := by
  obtain ⟨hxbot, hybot⟩ := ne_bot_of_plus hb hzero
  cases x with
  | bot => exact absurd rfl hxbot
  | number r =>
    cases y with
    | bot => exact absurd rfl hybot
    | number s =>
      obtain rfl := Option.some.inj hb
      cases x' with
      | bot => simp at hx
      | number r' =>
        cases y' with
        | bot => simp at hy
        | number s' =>
          rw [Extended.number_le_number] at hx hy
          exact ⟨_, rfl, result_mono (add_le_add hx hy)⟩
        | top => exact ⟨.top, rfl, Extended.le_top _⟩
      | top =>
        cases y' with
        | bot => simp at hy
        | _ => exact ⟨.top, rfl, Extended.le_top _⟩
    | top =>
      cases y' with
      | bot => simp at hy
      | number s' => simp at hy
      | top =>
        cases x' with
        | bot => simp at hx
        | _ => exact ⟨.top, rfl, Extended.le_top _⟩
  | top =>
    cases x' with
    | bot => simp at hx
    | number r' => simp at hx
    | top =>
      cases y' with
      | bot =>
        cases y with
        | bot => exact absurd rfl hybot
        | _ => simp at hy
      | _ => exact ⟨.top, rfl, Extended.le_top _⟩

lemma absErr_nonneg (a e : Value) : 0 ≤ absErr R a e := by
  rw [absErr]
  split_ifs
  · exact le_rfl
  · exact abs_nonneg _

/-- More tolerance accepts more. -/
lemma isMatch_mono {t' : Tolerance} (hrtol : t.rtol.AtMost t'.rtol) (hatol : t.atol.AtMost t'.atol)
    (hnan : t.equalNan = true → t'.equalNan = true)
    (hzero : t'.rtol = .inf false → t.rtol = .inf false ∨ e.isZero = false)
    (h : isMatch R t a e = true) : isMatch R t' a e = true := by
  rw [isMatch] at h ⊢
  split_ifs at h ⊢ with hnans hinfs
  · simp only [Bool.and_eq_true] at h ⊢
    exact ⟨⟨hnan h.1.1, h.1.2⟩, h.2⟩
  · exact h
  · cases hb : bound R t e with
    | none => simp [hb] at h
    | some b =>
      simp only [hb, decide_eq_true_eq] at h
      have hb0 : .number 0 ≤ b := (Extended.number_le_number.mpr (absErr_nonneg a e)).trans h
      obtain ⟨r, x, p, hr, hx, hp, hsum⟩ := bound_eq_some.mp hb
      obtain ⟨_, hr₁, r', hr', hrr'⟩ := hrtol
      obtain ⟨_, hx₁, x', hx', hxx'⟩ := hatol
      obtain rfl := Option.some.inj (hr.symm.trans hr₁)
      obtain rfl := Option.some.inj (hx.symm.trans hx₁)
      have hnone : r' = .top → r = .top ∨ |e.toRat| ≠ 0 := by
        rintro rfl
        refine (hzero (eq_inf_of_value hr')).imp (fun hinf => ?_) fun hne => ?_
        · rw [hinf] at hr
          exact (Option.some.inj hr).symm
        · rw [abs_ne_zero, ne_eq, toRat_eq_zero (by simpa using hnans) (by simpa using hinfs), hne]
          exact Bool.false_ne_true
      obtain ⟨p', hp', hpp'⟩ := times_mono hrr' (abs_nonneg _) hnone hp
      obtain ⟨b', hb', hbb'⟩ := plus_mono hxx' hpp' hsum hb0
      have hbound : bound R t' e = some b' := bound_eq_some.mpr ⟨r', x', p', hr', hx', hp', hb'⟩
      simp only [hbound, decide_eq_true_eq]
      exact h.trans hbb'

lemma absErr_self (a : Value) : absErr R a a = 0 := by
  rw [absErr, sub_self, R.round_zero, abs_zero, ite_self]

/-- With tolerances that are not negative, a number matches itself, unless it is a zero and the
product with an infinite `rtol` a NaN. -/
lemma isMatch_self (hrtol : t.rtol.Nonneg) (hatol : t.atol.Nonneg) : isMatch R t a a = true ↔
    (a.isNan = true → t.equalNan = true) ∧ (a.isZero = true → t.rtol ≠ .inf false) := by
  obtain ⟨r, hr, hr0⟩ := hrtol
  obtain ⟨x, hx, hx0⟩ := hatol
  cases a with
  | nan negative => simp [isMatch, Value.isNan, Value.isZero]
  | inf negative => simp [isMatch, Value.isNan, Value.isInf, Value.isZero, Value.equals]
  | finite negative units =>
    have hzero := @toRat_eq_zero (.finite negative units) (.finite negative units)
      (by simp [Value.isNan]) (by simp [Value.isInf])
    have habs := abs_nonneg (Value.finite negative units).toRat
    obtain ⟨hnone, hnonneg⟩ := times_of_nonneg (R := R) hr0 habs
    have htop : t.rtol = .inf false ↔ r = .top := by
      constructor
      · intro h
        rw [Option.mem_def, h] at hr
        exact (Option.some.inj hr).symm
      · rintro rfl
        exact eq_inf_of_value hr
    rw [isMatch, if_neg (by simp [Value.isNan]), if_neg (by simp [Value.isInf]), absErr_self]
    have hnan : (Value.finite negative units).isNan = true → t.equalNan = true := nofun
    rw [and_iff_right hnan, ne_eq, htop, ← hzero]
    cases hp : R.times r |(Value.finite negative units).toRat| with
    | none =>
      obtain ⟨rfl, hq⟩ := hnone.mp hp
      have hbound : bound R t (.finite negative units) = none := by
        simp [bound, Option.mem_def.mp hr, Option.mem_def.mp hx, hp]
      rw [hbound]
      exact iff_of_false nofun fun h => h (abs_eq_zero.mp hq) rfl
    | some p =>
      obtain ⟨b, hsum, hb⟩ := plus_of_nonneg (R := R) hx0 (hnonneg p hp)
      have hbound : bound R t (.finite negative units) = some b :=
        bound_eq_some.mpr ⟨r, x, p, hr, hx, hp, hsum⟩
      rw [hbound]
      refine iff_of_true (decide_eq_true hb) fun hq hr => ?_
      rw [hnone.mpr ⟨hr, abs_eq_zero.mpr hq⟩] at hp
      cases hp

/-- Two floats that differ by less than a unit are the same. -/
lemma toRat_eq_of_lt (h : |a.toRat - e.toRat| < 1 / 2 ^ 149) : a.toRat = e.toRat := by
  have hunits : ∀ v : Value, ∃ k : ℤ, v.toRat = k / 2 ^ 149 := by
    intro v
    cases v with
    | nan negative => exact ⟨0, by simp [Value.toRat]⟩
    | inf negative => exact ⟨0, by simp [Value.toRat]⟩
    | finite negative units =>
      cases negative with
      | false => exact ⟨units, by simp [Value.toRat, signed]⟩
      | true => exact ⟨-units, by simp [Value.toRat, signed, neg_div]⟩
  obtain ⟨k, hk⟩ := hunits a
  obtain ⟨l, hl⟩ := hunits e
  rw [hk, hl, ← sub_div, abs_div, abs_of_pos (by positivity : (0 : ℚ) < 2 ^ 149),
    div_lt_div_iff_of_pos_right (by positivity), ← Int.cast_sub, ← Int.cast_abs] at h
  have hlt : |k - l| < 1 := by exact_mod_cast h
  rw [hk, hl, sub_eq_zero.mp (Int.abs_lt_one_iff.mp hlt)]

/-- Without tolerance, what is equal matches, NaNs aside. -/
lemma isMatch_of_zero (hrtol : t.rtol.IsZero) (hatol : t.atol.IsZero) : isMatch R t a e = true ↔
    a.equals e = true ∨ a.isNan = true ∧ e.isNan = true ∧ t.equalNan = true := by
  have hbound : bound R t e = some (.number 0) := by
    refine bound_eq_some.mpr ⟨_, _, .number 0, hrtol, hatol, ?_, ?_⟩
    · rw [Rounding.times, zero_mul, result_zero]
    · rw [Rounding.plus, add_zero, result_zero]
  cases a with
  | nan negative => cases e <;> simp [isMatch, Value.isNan, Value.equals, and_comm]
  | inf negative => cases e <;> simp [isMatch, Value.isNan, Value.isInf, Value.equals]
  | finite negative units =>
    cases e with
    | nan negative => simp [isMatch, Value.isNan, Value.equals]
    | inf negative => simp [isMatch, Value.isNan, Value.isInf, Value.equals]
    | finite negative' units' =>
      rw [isMatch, if_neg (by simp [Value.isNan]), if_neg (by simp [Value.isInf]), hbound]
      simp only [decide_eq_true_eq, Extended.number_le_number, absErr, Value.isNan, Value.isInf,
        Bool.or_false, Bool.false_eq_true, if_false, false_and, or_false, Value.equals, beq_iff_eq]
      constructor
      · intro h
        exact toRat_eq_of_lt (R.underflow _ (abs_nonpos_iff.mp h))
      · intro h
        rw [h, sub_self, R.round_zero, abs_zero]

/-- With tolerances that are not negative, an array matches itself, unless it has a NaN and these
are not to be equal, or a zero and `rtol` is infinite. More tolerance accepts more, unless `rtol`
becomes infinite and a zero is expected. No tolerance accepts what is equal, a zero for a zero of
the other sign too, and NaNs if these are to be equal. -/
theorem allclose_tolerates (R : Rounding) (t : Tolerance) (actual expected : List Value) :
    (t.rtol.Nonneg → t.atol.Nonneg → ((allclose R t actual actual).ok = true ↔
      ∀ a ∈ actual, (a.isNan = true → t.equalNan = true) ∧
        (a.isZero = true → t.rtol ≠ .inf false))) ∧
    (∀ t' : Tolerance, t.rtol.AtMost t'.rtol → t.atol.AtMost t'.atol →
      (t.equalNan = true → t'.equalNan = true) →
      (t'.rtol = .inf false → t.rtol = .inf false ∨ ∀ e ∈ expected, e.isZero = false) →
      (allclose R t actual expected).ok = true → (allclose R t' actual expected).ok = true) ∧
    (t.rtol.IsZero → t.atol.IsZero → ((allclose R t actual expected).ok = true ↔
      List.Forall₂ (fun a e => a.equals e = true ∨
        a.isNan = true ∧ e.isNan = true ∧ t.equalNan = true) actual expected)) := by
  refine ⟨fun hrtol hatol => ?_, fun t' hrtol hatol hnan hzero h => ?_, fun hrtol hatol => ?_⟩
  · have hzip : actual.zip actual = actual.map fun a => (a, a) := by
      simpa using List.zip_map' (f := id) (g := id) (l := actual)
    rw [allclose_ok_iff, and_iff_right rfl, hzip, List.forall_mem_map]
    exact forall₂_congr fun a _ => isMatch_self hrtol hatol
  · obtain ⟨hlength, hall⟩ := allclose_ok_iff.mp h
    refine allclose_ok_iff.mpr ⟨hlength, fun p hp => ?_⟩
    refine isMatch_mono hrtol hatol hnan (fun hinf => ?_) (hall p hp)
    exact (hzero hinf).imp_right fun hne => hne p.2 (List.of_mem_zip hp).2
  · rw [allclose_ok_iff, List.forall₂_iff_zip]
    refine and_congr_right fun _ => ?_
    rw [Prod.forall]
    exact forall₃_congr fun a e _ => isMatch_of_zero hrtol hatol

/-- Small numbers are not rounded. -/
def Rounding.exact : Rounding where
  round := id
  mono := monotone_id
  round_zero := rfl
  underflow q h := by
    rw [show q = 0 from h, abs_zero]
    positivity
  largest := 2 ^ 1023
  largest_nonneg := by positivity

/-- No tolerance, and an infinite one. -/
def noTolerance : Tolerance := ⟨.finite false 0, .finite false 0, false, fun _ => [], fun _ => []⟩

def infiniteTolerance : Tolerance := { noTolerance with rtol := .inf false }

/-- The zeros of both signs are close without tolerance; with an infinite one a zero is not even
close to itself, but all numbers are close to one. -/
theorem allclose_tolerates_zeros :
    (allclose .exact noTolerance [.finite false 0] [.finite true 0]).ok = true ∧
    (allclose .exact infiniteTolerance [.finite false 0] [.finite false 0]).ok = false ∧
    (allclose .exact infiniteTolerance [.finite true 3] [.finite true 3]).ok = true := by
  have hnone : noTolerance.rtol.Nonneg ∧ noTolerance.atol.Nonneg :=
    ⟨⟨_, rfl, by decide⟩, ⟨_, rfl, by decide⟩⟩
  have hnil : noTolerance.rtol.IsZero := rfl
  have hinf : infiniteTolerance.rtol.Nonneg := ⟨.top, rfl, by decide⟩
  obtain ⟨hself, -, -⟩ := allclose_tolerates .exact infiniteTolerance [.finite false 0] []
  obtain ⟨-, -, hzero⟩ := allclose_tolerates .exact noTolerance [.finite false 0] [.finite true 0]
  obtain ⟨hsame, hmore, -⟩ :=
    allclose_tolerates .exact noTolerance [.finite true 3] [.finite true 3]
  refine ⟨(hzero hnil hnil).mpr (.cons (.inl ?_) .nil), ?_, ?_⟩
  · simp [Value.equals, Value.toRat, signed]
  · rw [Bool.eq_false_iff]
    intro h
    exact ((hself hinf hnone.2).mp h _ (List.mem_singleton_self _)).2 rfl rfl
  · refine hmore infiniteTolerance ⟨_, rfl, .top, rfl, by decide⟩ ⟨_, rfl, _, rfl, le_rfl⟩ id
      (fun _ => .inr (by decide)) ?_
    refine (hsame hnone.1 hnone.2).mpr fun a ha => ?_
    obtain rfl := List.mem_singleton.mp ha
    exact ⟨nofun, nofun⟩

end Cudatest.Allclose
