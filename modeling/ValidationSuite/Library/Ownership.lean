import Mathlib.Data.Finset.Card
import Mathlib.Logic.Function.Basic

/-!
# Unique owners

Resources that are held by variables, each by exactly one: what taking one, giving it up and passing
it on do to this. A resource that others depend on counts the references to it.
-/

namespace Ownership

variable {V H : Type*}

/-- Every resource there is has one owner, and nobody owns what is not there. -/
structure Unique (owner : V → Option H) (live : Finset H) : Prop where
  owned : ∀ h, h ∈ live ↔ ∃ x, owner x = some h
  inj : ∀ x y h, owner x = some h → owner y = some h → x = y

namespace Unique

variable {owner : V → Option H} {live : Finset H} {x y : V} {h : H}

lemma empty : Unique (fun _ : V => (none : Option H)) ∅ :=
  ⟨fun _ => ⟨fun h => absurd h (Finset.notMem_empty _), nofun⟩, nofun⟩

lemma mem (hu : Unique owner live) (hx : owner x = some h) : h ∈ live := (hu.owned h).mpr ⟨x, hx⟩

variable [DecidableEq V] [DecidableEq H]

/-- A variable that owns nothing takes a new resource. -/
lemma acquire (hu : Unique owner live) (hx : owner x = none) (hh : h ∉ live) :
    Unique (Function.update owner x (some h)) (insert h live) where
  owned k := by
    rw [Finset.mem_insert, hu.owned k]
    constructor
    · rintro (rfl | ⟨y, hy⟩)
      · exact ⟨x, Function.update_self _ _ _⟩
      · have hyx : y ≠ x := by
          rintro rfl
          rw [hx] at hy
          cases hy
        exact ⟨y, by rw [Function.update_of_ne hyx, hy]⟩
    · rintro ⟨y, hy⟩
      by_cases hyx : y = x
      · subst hyx
        rw [Function.update_self] at hy
        exact .inl (Option.some.inj hy).symm
      · rw [Function.update_of_ne hyx] at hy
        exact .inr ⟨y, hy⟩
  inj y z k hy hz := by
    -- the new resource belongs to nobody else
    have hnew : ∀ y, y ≠ x → owner y ≠ some h := fun y _ hy => hh (hu.mem hy)
    by_cases hyx : y = x
    · by_cases hzx : z = x
      · rw [hyx, hzx]
      · subst hyx
        rw [Function.update_self] at hy
        rw [Function.update_of_ne hzx, ← hy] at hz
        exact absurd hz (hnew z hzx)
    · by_cases hzx : z = x
      · subst hzx
        rw [Function.update_self] at hz
        rw [Function.update_of_ne hyx, ← hz] at hy
        exact absurd hy (hnew y hyx)
      · rw [Function.update_of_ne hyx] at hy
        rw [Function.update_of_ne hzx] at hz
        exact hu.inj y z k hy hz

/-- A variable gives its resource up. -/
lemma release (hu : Unique owner live) (hx : owner x = some h) :
    Unique (Function.update owner x none) (live.erase h) where
  owned k := by
    rw [Finset.mem_erase, hu.owned k]
    constructor
    · rintro ⟨hne, y, hy⟩
      have hyx : y ≠ x := by
        rintro rfl
        rw [hx] at hy
        exact hne (Option.some.inj hy).symm
      exact ⟨y, by rw [Function.update_of_ne hyx, hy]⟩
    · rintro ⟨y, hy⟩
      have hyx : y ≠ x := by
        rintro rfl
        rw [Function.update_self] at hy
        cases hy
      rw [Function.update_of_ne hyx] at hy
      refine ⟨?_, y, hy⟩
      rintro rfl
      exact hyx (hu.inj y x k hy hx)
  inj y z k hy hz := by
    have hof : ∀ y, Function.update owner x none y = some k → owner y = some k := by
      intro y hy
      by_cases hyx : y = x
      · subst hyx
        rw [Function.update_self] at hy
        cases hy
      · rwa [Function.update_of_ne hyx] at hy
    exact hu.inj y z k (hof y hy) (hof z hz)

/-- A variable that owns nothing takes over what another one owns. -/
lemma transfer (hu : Unique owner live) (hx : owner x = none) (hxy : x ≠ y) :
    Unique (Function.update (Function.update owner y none) x (owner y)) live := by
  cases hy : owner y with
  | none =>
    have hsame : Function.update (Function.update owner y none) x none = owner := by
      rw [← hy, Function.update_eq_self, hy, ← hx, Function.update_eq_self]
    rwa [hsame]
  | some h =>
    have hrelease := hu.release hy
    have hacquire := hrelease.acquire (x := x) (h := h) (by rwa [Function.update_of_ne hxy])
      (Finset.notMem_erase h live)
    rwa [Finset.insert_erase (hu.mem hy)] at hacquire

end Unique

/-! ### Counted references -/

variable {C : Type*} [DecidableEq C]

/-- A reference is counted for a resource that is owned, and for each thing that is on it. -/
def Counted (refs : C → ℕ) (owned : Finset C) (dependents : Finset H) (on : H → C) : Prop :=
  ∀ c, refs c = (if c ∈ owned then 1 else 0) + (dependents.filter (on · = c)).card

namespace Counted

variable {refs : C → ℕ} {owned : Finset C} {dependents : Finset H} {on : H → C} {c : C} {k : H}

lemma empty (on : H → C) : Counted (fun _ => 0) ∅ ∅ on := fun _ => rfl

lemma pos_iff (h : Counted refs owned dependents on) :
    0 < refs c ↔ c ∈ owned ∨ ∃ k ∈ dependents, on k = c := by
  rw [h c, Nat.add_pos_iff_pos_or_pos, Finset.card_pos, Finset.filter_nonempty_iff]
  refine or_congr_left ?_
  split_ifs with hc
  · exact iff_of_true Nat.one_pos hc
  · exact iff_of_false (Nat.lt_irrefl 0) hc

lemma own (h : Counted refs owned dependents on) (hc : c ∉ owned) :
    Counted (Function.update refs c (refs c + 1)) (insert c owned) dependents on := by
  intro d
  by_cases hd : d = c
  · subst hd
    rw [Function.update_self, h d, if_neg hc, if_pos (Finset.mem_insert_self d owned)]
    omega
  · rw [Function.update_of_ne hd, h d]
    simp only [Finset.mem_insert, hd, false_or]

lemma disown (h : Counted refs owned dependents on) (hc : c ∈ owned) :
    Counted (Function.update refs c (refs c - 1)) (owned.erase c) dependents on := by
  intro d
  by_cases hd : d = c
  · subst hd
    rw [Function.update_self, h d, if_pos hc, if_neg (Finset.notMem_erase d owned)]
    omega
  · rw [Function.update_of_ne hd, h d]
    simp only [Finset.mem_erase, ne_eq, hd, not_false_eq_true, true_and]

variable [DecidableEq H]

/-- Something new is on `c`. -/
lemma attach (h : Counted refs owned dependents on) (hk : k ∉ dependents) :
    Counted (Function.update refs c (refs c + 1)) owned (insert k dependents)
      (Function.update on k c) := by
  have hold : ∀ d, dependents.filter (Function.update on k c · = d) =
      dependents.filter (on · = d) := by
    intro d
    refine Finset.filter_congr fun j hj => ?_
    rw [Function.update_of_ne]
    rintro rfl
    exact hk hj
  intro d
  rw [Finset.filter_insert, Function.update_self, hold d]
  by_cases hd : c = d
  · subst hd
    have hnew : k ∉ dependents.filter (on · = c) := fun hmem => hk (Finset.mem_filter.mp hmem).1
    rw [Function.update_self, h c, if_pos rfl, Finset.card_insert_of_notMem hnew, Nat.add_assoc]
  · rw [Function.update_of_ne (Ne.symm hd), h d, if_neg hd]

lemma detach (h : Counted refs owned dependents on) (hk : k ∈ dependents) :
    Counted (Function.update refs (on k) (refs (on k) - 1)) owned (dependents.erase k) on := by
  intro d
  rw [Finset.filter_erase]
  by_cases hd : d = on k
  · subst hd
    have hmem : k ∈ dependents.filter (on · = on k) := Finset.mem_filter.mpr ⟨hk, rfl⟩
    have hpos : 0 < (dependents.filter (on · = on k)).card := Finset.card_pos.mpr ⟨k, hmem⟩
    rw [Function.update_self, h (on k), Finset.card_erase_of_mem hmem, Nat.add_sub_assoc hpos]
  · have hnot : k ∉ dependents.filter (on · = d) := fun hmem =>
      hd (Finset.mem_filter.mp hmem).2.symm
    rw [Function.update_of_ne hd, h d, Finset.erase_eq_of_notMem hnot]

end Counted

end Ownership
