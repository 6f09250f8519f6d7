import Mathlib.Data.List.TakeWhile
import ValidationSuite.Dtest.Jobs

/-!
# What labels mean

A label or a requirement is a key, with a value behind the first `=` if there is one. The string
comparisons of `labels_satisfy` amount to comparing keys and values.
-/

namespace Dtest

open ByteString

def equalsSign : UInt8 := '='.toNat.toUInt8

/-- What is before the first `=`. -/
def keyOf (s : ByteString) : ByteString := s.takeWhile (· != equalsSign)

/-- What is behind the first `=`, if there is one. -/
def valueOf (s : ByteString) : Option ByteString := (s.dropWhile (· != equalsSign)).tail?

/-- The label `l` has the key of the requirement, and its value if it asks for one. -/
def Provides (l req : ByteString) : Prop :=
  keyOf l = keyOf req ∧ ∀ v, valueOf req = some v → valueOf l = some v

/-- Each requirement is provided by a label. -/
def Satisfies (agentLabels needs : List ByteString) : Prop :=
  ∀ req ∈ needs, ∃ l ∈ agentLabels, Provides l req

instance (l req : ByteString) : Decidable (Provides l req) :=
  match h : valueOf req with
  | none => decidable_of_iff (keyOf l = keyOf req) (by simp [Provides, h])
  | some v => decidable_of_iff (keyOf l = keyOf req ∧ valueOf l = some v) (by simp [Provides, h])

instance (agentLabels needs : List ByteString) : Decidable (Satisfies agentLabels needs) :=
  inferInstanceAs (Decidable (∀ _ ∈ _, _))

section Split

variable {k v s : ByteString}

lemma bne_of_notMem (h : equalsSign ∉ s) : ∀ c ∈ s, (c != equalsSign) = true := by
  intro c hc
  have hne : c ≠ equalsSign := fun heq => h (heq ▸ hc)
  simpa using hne

lemma keyOf_of_notMem (h : equalsSign ∉ s) : keyOf s = s := by
  rw [keyOf, List.takeWhile_eq_self_iff]
  exact bne_of_notMem h

lemma valueOf_of_notMem (h : equalsSign ∉ s) : valueOf s = none := by
  rw [valueOf, List.dropWhile_eq_nil_iff.mpr (bne_of_notMem h), List.tail?_nil]

lemma keyOf_append (h : equalsSign ∉ k) : keyOf (k ++ equalsSign :: v) = k := by
  rw [keyOf, List.takeWhile_append_of_pos (bne_of_notMem h),
    List.takeWhile_cons_of_neg (by simp), List.append_nil]

lemma valueOf_append (h : equalsSign ∉ k) : valueOf (k ++ equalsSign :: v) = some v := by
  rw [valueOf, List.dropWhile_append_of_pos (bne_of_notMem h),
    List.dropWhile_cons_of_neg (by simp), List.tail?_cons]

/-- A string is a key alone, or a key and a value. -/
lemma notMem_or_append (s : ByteString) :
    equalsSign ∉ s ∨ ∃ k v, equalsSign ∉ k ∧ s = k ++ equalsSign :: v := by
  by_cases h : equalsSign ∈ s
  · obtain ⟨k, v, hs, hk⟩ := List.eq_append_cons_of_mem h
    exact .inr ⟨k, v, hk, hs⟩
  · exact .inl h

/-- A key with its `=` is in front of a pair only if it is the key of the pair. -/
lemma isPrefixOf_append_iff {k' : ByteString} (hk : equalsSign ∉ k) (hk' : equalsSign ∉ k') :
    (k ++ lit "=").isPrefixOf (k' ++ equalsSign :: v) = true ↔ k' = k := by
  rw [List.isPrefixOf_iff_prefix]
  constructor
  · rintro ⟨w, hw⟩
    have hkeys := congrArg keyOf hw
    rw [List.append_assoc, keyOf_append hk'] at hkeys
    exact hkeys.symm.trans (keyOf_append hk)
  · rintro rfl
    exact ⟨v, by rw [List.append_assoc]; rfl⟩

end Split

/-- The comparison of `labels_satisfy` compares keys and values. -/
lemma labelMeets_iff (req l : ByteString) : labelMeets req l = true ↔ Provides l req := by
  rcases notMem_or_append req with hreq | ⟨k, v, hk, rfl⟩
  · -- a requirement without a value
    have hno : req.contains '='.toNat.toUInt8 = false := by simpa [equalsSign] using hreq
    rw [labelMeets, hno, Provides, keyOf_of_notMem hreq, valueOf_of_notMem hreq]
    simp only [Bool.false_eq_true, if_false, Bool.or_eq_true, beq_iff_eq, reduceCtorEq,
      false_implies, implies_true, and_true]
    rcases notMem_or_append l with hl | ⟨k', v', hk', rfl⟩
    · rw [keyOf_of_notMem hl, or_iff_left]
      rw [List.isPrefixOf_iff_prefix]
      intro hfront
      exact hl (hfront.subset (List.mem_append_right _ (List.mem_singleton_self _)))
    · rw [keyOf_append hk', isPrefixOf_append_iff hreq hk', or_iff_right]
      rintro rfl
      exact hreq (List.mem_append_right _ List.mem_cons_self)
  · have hyes : (k ++ equalsSign :: v).contains '='.toNat.toUInt8 = true := by
      simp [equalsSign]
    rw [labelMeets, hyes, Provides, keyOf_append hk, valueOf_append hk]
    simp only [if_true, beq_iff_eq, Option.some.injEq, forall_eq']
    rcases notMem_or_append l with hl | ⟨k', v', hk', rfl⟩
    · rw [valueOf_of_notMem hl]
      refine iff_of_false ?_ nofun
      rintro rfl
      exact hl (List.mem_append_right _ List.mem_cons_self)
    · rw [keyOf_append hk', valueOf_append hk', Option.some.injEq]
      constructor
      · intro heq
        have hkeys := congrArg keyOf heq
        have hvalues := congrArg valueOf heq
        rw [keyOf_append hk', keyOf_append hk] at hkeys
        rw [valueOf_append hk', valueOf_append hk] at hvalues
        exact ⟨hkeys, Option.some.inj hvalues⟩
      · rintro ⟨rfl, rfl⟩
        rfl

/-- `labels_satisfy` decides whether the labels satisfy the requirements. -/
theorem labelsSatisfy_iff (agentLabels needs : List ByteString) :
    labelsSatisfy agentLabels needs = true ↔ Satisfies agentLabels needs := by
  simp only [labelsSatisfy, List.all_eq_true, List.any_eq_true, labelMeets_iff]
  rfl

/-- The key is not enough for a requirement with a value, nor a prefix of the key for one
without. -/
example : labelsSatisfy [lit "gpu=a100", lit "kvm"] [lit "gpu", lit "kvm"] = true ∧
    labelsSatisfy [lit "gpu=a100"] [lit "gpu=h100"] = false ∧
    labelsSatisfy [lit "gpu-count=2"] [lit "gpu"] = false := by decide

end Dtest
