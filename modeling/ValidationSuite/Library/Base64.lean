import ValidationSuite.Library.ByteString

/-!
# Base64

The standard encoding of bytes: three bytes are four groups of six bits, each group is a letter of
the alphabet, and `=` stands for the letters that are missing at the end.
-/

namespace Base64

open ByteString

def alphabet : ByteString :=
  lit "ABCDEFGHIJKLMNOPQRSTUVWXYZabcdefghijklmnopqrstuvwxyz0123456789+/"

def letter (v : ℕ) : UInt8 := alphabet.getD v 0

/-- The byte `=`. -/
def pad : UInt8 := 0x3d

/-- The groups of six bits of a byte string, the last one filled up with zeros. -/
def sextets : ByteString → List ℕ
  | [] => []
  | [a] => [a.toNat / 4, a.toNat % 4 * 16]
  | [a, b] => [a.toNat / 4, a.toNat % 4 * 16 + b.toNat / 16, b.toNat % 16 * 4]
  | a :: b :: c :: s =>
    a.toNat / 4 :: (a.toNat % 4 * 16 + b.toNat / 16) :: (b.toNat % 16 * 4 + c.toNat / 64) ::
      c.toNat % 64 :: sextets s

def unpadded (s : ByteString) : ByteString := (sextets s).map letter

/-- The encoding of a byte string, as long as a multiple of four. -/
def encode (s : ByteString) : ByteString :=
  unpadded s ++ List.replicate ((3 - s.length % 3) % 3) pad

lemma sextets_lt (s : ByteString) : ∀ v ∈ sextets s, v < 64 := by
  induction s using sextets.induct with
  | case1 => simp [sextets]
  | case2 a =>
    have ha := a.toNat_lt
    simp only [sextets, List.forall_mem_cons]
    exact ⟨by omega, by omega, nofun⟩
  | case3 a b =>
    have ha := a.toNat_lt
    have hb := b.toNat_lt
    simp only [sextets, List.forall_mem_cons]
    exact ⟨by omega, by omega, by omega, nofun⟩
  | case4 a b c s ih =>
    have ha := a.toNat_lt
    have hb := b.toNat_lt
    have hc := c.toNat_lt
    simp only [sextets, List.forall_mem_cons]
    exact ⟨by omega, by omega, by omega, by omega, ih⟩

lemma idxOf?_letter : ∀ v < 64, alphabet.idxOf? (letter v) = some v := by decide

lemma lt_of_idxOf? {c : UInt8} {v : ℕ} (h : alphabet.idxOf? c = some v) : v < 64 := by
  rw [List.idxOf?_eq_some_iff] at h
  exact h.1

end Base64
