import ValidationSuite.Library.ByteString
import Mathlib.Data.List.TakeWhile

/-!
# Decimal numbers

Reading back what has been written in decimal, and where `strtol` stops.
-/

namespace ByteString

/-- Where `strtol` stops: behind the number, or at the start of a string without one. -/
def integerEnd (s : ByteString) : ByteString :=
  let unsigned (t : ByteString) : ByteString :=
    if (t.head?.map isDigit).getD false then t.dropWhile isDigit else s
  match s.dropWhile isSpace with
  | [] => s
  | c :: rest =>
    if c = '-'.toNat.toUInt8 then unsigned rest
    else if c = '+'.toNat.toUInt8 then unsigned rest
    else unsigned (c :: rest)

/-- The text goes on with something other than a digit, or ends. -/
def NoDigit (s : ByteString) : Prop := ∀ c, s.head? = some c → isDigit c = false

lemma NoDigit.nil : NoDigit [] := nofun

section

variable {s rest : ByteString} {c : UInt8}

lemma takeWhile_digits (hs : ∀ c ∈ s, isDigit c = true) (hrest : NoDigit rest) :
    (s ++ rest).takeWhile isDigit = s := by
  rw [List.takeWhile_append_of_pos hs]
  cases rest with
  | nil => simp
  | cons c rest => rw [List.takeWhile_cons_of_neg (by simp [hrest c rfl]), List.append_nil]

lemma dropWhile_digits (hs : ∀ c ∈ s, isDigit c = true) (hrest : NoDigit rest) :
    (s ++ rest).dropWhile isDigit = rest := by
  rw [List.dropWhile_append_of_pos hs]
  cases rest with
  | nil => rfl
  | cons c rest => rw [List.dropWhile_cons_of_neg (by simp [hrest c rfl])]

lemma range_of_isDigit (hc : isDigit c = true) : 0x30 ≤ c.toNat ∧ c.toNat ≤ 0x39 := by
  simpa [isDigit, UInt8.le_iff_toNat_le] using hc

lemma not_isSpace_of_isDigit (hc : isDigit c = true) : isSpace c = false := by
  obtain ⟨hlo, hhi⟩ := range_of_isDigit hc
  have hne : c ≠ 0x20 := by
    rintro rfl
    exact absurd hlo (by decide)
  have hle : ¬ c ≤ 0x0d := fun h => by
    have h : c.toNat ≤ 0x0d := h
    omega
  simp [isSpace, hne, hle]

/-- A digit is no sign. -/
lemma ne_sign_of_isDigit (hc : isDigit c = true) :
    c ≠ '-'.toNat.toUInt8 ∧ c ≠ '+'.toNat.toUInt8 := by
  constructor
  · rintro rfl
    exact absurd hc (by decide)
  · rintro rfl
    exact absurd hc (by decide)

lemma integer?_of_isDigit (hc : isDigit c = true) :
    integer? (c :: rest) = some (digits (c :: rest) : ℤ) := by
  rw [integer?, List.dropWhile_cons_of_neg (by simp [not_isSpace_of_isDigit hc])]
  simp only [ne_sign_of_isDigit hc, if_false, List.head?_cons, Option.map_some, Option.getD_some,
    hc, if_true]
  rfl

lemma integerEnd_of_isDigit (hc : isDigit c = true) :
    integerEnd (c :: rest) = (c :: rest).dropWhile isDigit := by
  rw [integerEnd, List.dropWhile_cons_of_neg (by simp [not_isSpace_of_isDigit hc])]
  simp only [ne_sign_of_isDigit hc, if_false, List.head?_cons, Option.map_some, Option.getD_some,
    hc, if_true]

end

lemma ofNat_ne_nil (n : ℕ) : ofNat n ≠ [] := by
  simp [ofNat, Nat.toDigits_ne_nil]

/-- A number with nothing but digits in front is read back. -/
lemma digits_ofNat_append (n : ℕ) {rest : ByteString} (hrest : NoDigit rest) :
    digits (ofNat n ++ rest) = n := by
  have hbyte : ∀ d ∈ Nat.toDigits 10 n, d.toNat.toUInt8.toNat = d.toNat := by
    intro d hd
    obtain ⟨_, hnine⟩ :=
      Char.isDigit_iff_toNat.mp (Nat.isDigit_of_mem_toDigits (by decide) (by decide) hd)
    have hnine : d.toNat ≤ 0x39 := hnine
    exact Nat.mod_eq_of_lt (by omega)
  rw [digits, takeWhile_digits (fun _ => isDigit_of_mem_ofNat) hrest, ofNat, List.foldl_map]
  calc (Nat.toDigits 10 n).foldl (fun m d => 10 * m + (d.toNat.toUInt8.toNat - 0x30)) 0
      = (Nat.toDigits 10 n).foldl (fun m d => 10 * m + (d.toNat - '0'.toNat)) 0 := by
        apply List.foldl_ext
        intro m d hd
        rw [hbyte d hd]
        rfl
    _ = n := by rw [← Nat.ofDigitChars_eq_foldl, Nat.ofDigitChars_ten_toDigits]

lemma integer?_ofNat_append (n : ℕ) {rest : ByteString} (hrest : NoDigit rest) :
    integer? (ofNat n ++ rest) = some (n : ℤ) := by
  obtain ⟨c, cs, hcs⟩ := List.exists_cons_of_ne_nil (ofNat_ne_nil n)
  have hc : isDigit c = true := isDigit_of_mem_ofNat (n := n) (hcs ▸ List.mem_cons_self)
  have hread := digits_ofNat_append n hrest
  rw [hcs, List.cons_append] at hread ⊢
  rw [integer?_of_isDigit hc, hread]

lemma integerEnd_ofNat_append (n : ℕ) {rest : ByteString} (hrest : NoDigit rest) :
    integerEnd (ofNat n ++ rest) = rest := by
  obtain ⟨c, cs, hcs⟩ := List.exists_cons_of_ne_nil (ofNat_ne_nil n)
  have hc : isDigit c = true := isDigit_of_mem_ofNat (n := n) (hcs ▸ List.mem_cons_self)
  have hdrop := dropWhile_digits (s := ofNat n) (fun _ => isDigit_of_mem_ofNat) hrest
  rw [hcs, List.cons_append] at hdrop ⊢
  rw [integerEnd_of_isDigit hc, hdrop]

lemma integer?_ofNat (n : ℕ) : integer? (ofNat n) = some (n : ℤ) := by
  simpa using integer?_ofNat_append n NoDigit.nil

lemma integerEnd_ofNat (n : ℕ) : integerEnd (ofNat n) = [] := by
  simpa using integerEnd_ofNat_append n NoDigit.nil

end ByteString
