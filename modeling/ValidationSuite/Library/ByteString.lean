import Mathlib.Data.UInt

/-!
# Byte strings

A `std::string` or a C buffer is the list of its bytes. Literals are written as ASCII text.
-/

/-- A string of bytes. -/
abbrev ByteString := List UInt8

namespace ByteString

/-- The bytes of an ASCII literal. -/
def lit (s : String) : ByteString := s.toList.map fun c => c.toNat.toUInt8

/-- The decimal digits of a natural number, as `std::to_string` writes them. -/
def ofNat (n : ℕ) : ByteString := (Nat.toDigits 10 n).map fun c => c.toNat.toUInt8

/-- The decimal form of an integer, as `std::to_string` writes it. -/
def ofInt (n : ℤ) : ByteString := if n < 0 then lit "-" ++ ofNat n.natAbs else ofNat n.natAbs

def isSpace (c : UInt8) : Bool := c == 0x20 || (0x09 ≤ c && c ≤ 0x0d)

def isDigit (c : UInt8) : Bool := 0x30 ≤ c && c ≤ 0x39

/-- The number that the leading decimal digits write. -/
def digits (s : ByteString) : ℕ :=
  (s.takeWhile isDigit).foldl (fun n c => 10 * n + (c.toNat - 0x30)) 0

/-- The integer at the start of a string, after white space and a sign, as `strtol` reads it. -/
def integer? (s : ByteString) : Option ℤ :=
  let unsigned (s : ByteString) : Option ℕ :=
    if (s.head?.map isDigit).getD false then some (digits s) else none
  match s.dropWhile isSpace with
  | [] => none
  | c :: rest =>
    if c = '-'.toNat.toUInt8 then (unsigned rest).map fun n => -(n : ℤ)
    else if c = '+'.toNat.toUInt8 then (unsigned rest).map fun n => (n : ℤ)
    else (unsigned (c :: rest)).map fun n => (n : ℤ)

/-- The byte string `s` has `t` somewhere in it. -/
def hasInfix (s t : ByteString) : Bool := s.tails.any fun u => t.isPrefixOf u

lemma isDigit_of_mem_ofNat {n : ℕ} {c : UInt8} (h : c ∈ ofNat n) : isDigit c = true := by
  obtain ⟨d, hd, rfl⟩ := List.mem_map.mp h
  obtain ⟨hzero, hnine⟩ :=
    Char.isDigit_iff_toNat.mp (Nat.isDigit_of_mem_toDigits (by decide) (by decide) hd)
  have hzero : 0x30 ≤ d.toNat := hzero
  have hnine : d.toNat ≤ 0x39 := hnine
  have hbyte : d.toNat.toUInt8.toNat = d.toNat := Nat.mod_eq_of_lt (by omega)
  simp [isDigit, UInt8.le_iff_toNat_le, hbyte, hzero, hnine]

lemma ofInt_natCast (n : ℕ) : ofInt n = ofNat n := by
  rw [ofInt, if_neg (by omega), Int.natAbs_natCast]

/-! ### Joined strings -/

lemma intercalate_cons (sep x : ByteString) (xs : List ByteString) :
    sep.intercalate (x :: xs) = x ++ xs.flatMap (sep ++ ·) := by
  induction xs generalizing x with
  | nil => simp [List.intercalate]
  | cons y ys ih =>
    rw [List.intercalate_cons_cons, ih y, List.flatMap_cons, List.append_assoc, List.append_assoc]

/-- A loop that writes a separator unless it has not written anything yet. -/
lemma foldl_join (sep : ByteString) {out : ByteString} (hout : out ≠ []) (xs : List ByteString) :
    xs.foldl (fun out x => out ++ ((if out.isEmpty then [] else sep) ++ x)) out =
      out ++ xs.flatMap (sep ++ ·) := by
  induction xs generalizing out with
  | nil => simp
  | cons x xs ih =>
    have hne : out ++ (sep ++ x) ≠ [] := List.append_ne_nil_of_left_ne_nil hout _
    rw [List.foldl_cons, List.isEmpty_eq_false_iff.mpr hout, if_neg Bool.false_ne_true, ih hne,
      List.flatMap_cons, List.append_assoc]

/-- Such a loop joins strings that are not empty. -/
lemma foldl_join_nil (sep : ByteString) {xs : List ByteString} (h : ∀ x ∈ xs, x ≠ []) :
    xs.foldl (fun out x => out ++ ((if out.isEmpty then [] else sep) ++ x)) [] =
      sep.intercalate xs := by
  cases xs with
  | nil => rfl
  | cons x xs =>
    rw [List.foldl_cons, intercalate_cons]
    exact foldl_join sep (h x (.head _)) xs

end ByteString
