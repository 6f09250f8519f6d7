import Mathlib.Data.List.Lex
import ValidationSuite.Library.ByteString
import ValidationSuite.Library.SortedMap

/-!
# JSON values

JSON values as a parser with 64-bit numbers and ordered objects yields them: an integer that fits
is signed or unsigned, any other number is a float, given by its bits. The keys of an object are
unique and in byte order.
-/

instance UInt8.instLinearOrder : LinearOrder UInt8 where
  le_refl := UInt8.le_refl
  le_trans _ _ _ := UInt8.le_trans
  lt_iff_le_not_ge a b := by simp only [UInt8.lt_iff_toNat_lt, UInt8.le_iff_toNat_le]; omega
  le_antisymm _ _ := UInt8.le_antisymm
  le_total := UInt8.le_total
  toDecidableLE := inferInstance
  toDecidableEq := inferInstance
  toDecidableLT := inferInstance

inductive Json where
  | null
  | bool (b : Bool)
  | signed (i : Int64)
  | unsigned (n : UInt64)
  | float (bits : UInt64)
  | string (s : ByteString)
  | array (elements : List Json)
  | object (members : SortedMap ByteString Json)

namespace Json

/-- The mathematical value of an integer. -/
def integer? : Json → Option ℤ
  | signed i => some i.toInt
  | unsigned n => some n.toNat
  | _ => none

def string? : Json → Option ByteString
  | string s => some s
  | _ => none

def elements? : Json → Option (List Json)
  | array es => some es
  | _ => none

def members? : Json → Option (SortedMap ByteString Json)
  | object m => some m
  | _ => none

/-- The value an integer has once converted to a signed 64-bit one; 0 for anything else. -/
def toLong : Json → ℤ
  | signed i => i.toInt
  | unsigned n => n.toInt64.toInt
  | _ => 0

lemma string?_eq_some {v : Json} {s : ByteString} : v.string? = some s ↔ v = string s := by
  cases v <;> simp [string?]

lemma elements?_eq_some {v : Json} {es : List Json} : v.elements? = some es ↔ v = array es := by
  cases v <;> simp [elements?]

lemma members?_eq_some {v : Json} {m : SortedMap ByteString Json} :
    v.members? = some m ↔ v = object m := by
  cases v <;> simp [members?]

lemma toInt_toInt64 (n : UInt64) : n.toInt64.toInt = (n.toNat : ℤ).bmod (2 ^ 64) :=
  BitVec.toInt_eq_toNat_bmod _

/-- The conversion keeps an integer that a signed 64-bit one can hold; a larger one turns
negative. -/
lemma toLong_eq {v : Json} {n : ℤ} (h : v.integer? = some n) :
    v.toLong = n ∨ (2 ^ 63 ≤ n ∧ v.toLong < 0) := by
  cases v with
  | signed i => exact .inl (by simpa [integer?, toLong] using h)
  | unsigned u =>
    obtain rfl : (u.toNat : ℤ) = n := by simpa [integer?] using h
    have hlt : u.toNat < 2 ^ 64 := u.toNat_lt
    simp only [toLong, toInt_toInt64]
    rcases lt_or_ge u.toNat (2 ^ 63) with hsmall | hlarge
    · left
      rw [Int.bmod_eq_of_le] <;> omega
    · right
      refine ⟨by exact_mod_cast hlarge, ?_⟩
      rw [Int.bmod_eq_emod]
      split_ifs <;> omega
  | _ => simp [integer?] at h

end Json
