import ValidationSuite.Library.Base64
import ValidationSuite.Library.Xml

/-!
# Strings in and out

`xml_escape` and `base64_decode` of `vmtest/src/util.cpp`. The loop of the decoder is a fold of one
step over the positions of the letters that stand before the first `=`; a step takes six bits into
the accumulator and gives a byte back once there are eight.
-/

namespace Vmtest

open ByteString

/-! ### Escaping -/

def xmlEscapeByte (c : UInt8) : ByteString :=
  if c = '&'.toNat.toUInt8 then lit "&amp;"
  else if c = '<'.toNat.toUInt8 then lit "&lt;"
  else if c = '>'.toNat.toUInt8 then lit "&gt;"
  else if c = '"'.toNat.toUInt8 then lit "&quot;"
  else if c = '\''.toNat.toUInt8 then lit "&apos;"
  else [c]

def xmlEscape (s : ByteString) : ByteString := s.flatMap xmlEscapeByte

/-- Every byte is read back, and none of the markup is left. -/
lemma xmlEscape_escapes : Xml.Escapes xmlEscapeByte id where
  inert c := by
    unfold xmlEscapeByte
    split_ifs with hamp hlt hgt hquot
    · decide
    · decide
    · decide
    · decide
    · decide
    · intro b hb
      obtain rfl := List.mem_singleton.mp hb
      exact ⟨hlt, hgt, hquot⟩
  decode_append c s := by
    unfold xmlEscapeByte
    split_ifs with hamp hlt hgt hquot hapos
    · subst hamp; rfl
    · subst hlt; rfl
    · subst hgt; rfl
    · subst hquot; rfl
    · subst hapos; rfl
    · rw [Xml.decode, List.singleton_append, Xml.decodeFrom, if_neg hamp]
      rfl

lemma apos_notMem_xmlEscapeByte (c : UInt8) : '\''.toNat.toUInt8 ∉ xmlEscapeByte c := by
  unfold xmlEscapeByte
  split_ifs with hamp hlt hgt hquot hapos
  · decide
  · decide
  · decide
  · decide
  · decide
  · rw [List.mem_singleton]
    exact Ne.symm hapos

/-- Between quotes of either kind the text is one value. -/
lemma quoted_xmlEscape {q : UInt8} (hq : Xml.IsQuote q) (s : ByteString) :
    Xml.Quoted q (xmlEscape s) := by
  obtain rfl | rfl := hq
  · exact xmlEscape_escapes.plain_flatMap s
  · exact xmlEscape_escapes.quoted_flatMap apos_notMem_xmlEscapeByte s

lemma decode_xmlEscape (s : ByteString) : Xml.decode (xmlEscape s) = some s := by
  rw [xmlEscape, xmlEscape_escapes.decode_flatMap, List.map_id]

lemma scan_xmlEscape (s : ByteString) :
    Xml.scan (xmlEscape s) = some ((xmlEscape s).map .char) :=
  xmlEscape_escapes.scan_flatMap s

/-! ### Base64 -/

/-- The variable `kChars`. -/
def kChars : ByteString :=
  lit "ABCDEFGHIJKLMNOPQRSTUVWXYZabcdefghijklmnopqrstuvwxyz0123456789+/"

/-- The variables of the loop. `val` is an `int` that is never negative. -/
structure Base64State where
  out : ByteString := []
  val : ℕ := 0
  bits : ℤ := -8

namespace Base64State

/-- The sum `(val << 6) + pos`, before it is masked. -/
def shifted (d : Base64State) (pos : ℕ) : ℕ := (d.val <<< 6) + pos

/-- The body of the loop after a letter at position `pos` of `kChars` was read. -/
def push (d : Base64State) (pos : ℕ) : Base64State :=
  let val := d.shifted pos &&& 0xFFFFFF
  let bits := d.bits + 6
  if 0 ≤ bits then
    { out := d.out ++ [((val >>> bits.toNat) &&& 0xFF).toUInt8], val := val, bits := bits - 8 }
  else { d with val := val, bits := bits }

/-- The loop over the input. -/
def run (d : Base64State) : ByteString → Base64State
  | [] => d
  | c :: s =>
    if c = Base64.pad then d
    else match kChars.idxOf? c with
      | none => d.run s
      | some pos => (d.push pos).run s

end Base64State

def base64Decode (s : ByteString) : ByteString := (Base64State.run {} s).out

/-- The positions of the letters before the first `=`. -/
def positions (s : ByteString) : List ℕ :=
  (s.takeWhile (· ≠ Base64.pad)).filterMap fun c => kChars.idxOf? c

/-- A byte that `base64_decode` does not skip. -/
def Significant (c : UInt8) : Prop := c ∈ kChars ∨ c = Base64.pad

instance : DecidablePred Significant := fun c => inferInstanceAs (Decidable (c ∈ kChars ∨ _))

example : base64Decode (lit "Zm9v\nYmE=ignored") = lit "fooba" := by decide

/-! ### The letters that count -/

@[simp] lemma positions_nil : positions [] = [] := rfl

@[simp] lemma positions_pad_cons (s : ByteString) : positions (Base64.pad :: s) = [] := by
  simp [positions]

lemma positions_skip {c : UInt8} (hpad : c ≠ Base64.pad) (h : kChars.idxOf? c = none)
    (s : ByteString) : positions (c :: s) = positions s := by
  simp [positions, hpad, h]

lemma ne_pad {c : UInt8} {pos : ℕ} (h : kChars.idxOf? c = some pos) : c ≠ Base64.pad := by
  rintro rfl
  have hnone : kChars.idxOf? Base64.pad = none := by decide
  simp [hnone] at h

lemma positions_letter {c : UInt8} {pos : ℕ} (h : kChars.idxOf? c = some pos) (s : ByteString) :
    positions (c :: s) = pos :: positions s := by
  have hpad := ne_pad h
  simp [positions, hpad, h]

/-- The three kinds of bytes the loop meets. -/
lemma byte_cases (c : UInt8) :
    c = Base64.pad ∨ (c ≠ Base64.pad ∧ kChars.idxOf? c = none) ∨
      ∃ pos, kChars.idxOf? c = some pos := by
  by_cases hpad : c = Base64.pad
  · exact .inl hpad
  · cases h : kChars.idxOf? c with
    | none => exact .inr (.inl ⟨hpad, rfl⟩)
    | some pos => exact .inr (.inr ⟨pos, rfl⟩)

lemma positions_append_pad (s t : ByteString) :
    positions (s ++ Base64.pad :: t) = positions s := by
  induction s with
  | nil => simp
  | cons c s ih =>
    obtain rfl | ⟨hpad, h⟩ | ⟨pos, h⟩ := byte_cases c
    · simp
    · rw [List.cons_append, positions_skip hpad h, positions_skip hpad h, ih]
    · rw [List.cons_append, positions_letter h, positions_letter h, ih]

lemma positions_filter (s : ByteString) : positions (s.filter (Significant ·)) = positions s := by
  induction s with
  | nil => rfl
  | cons c s ih =>
    obtain rfl | ⟨hpad, h⟩ | ⟨pos, h⟩ := byte_cases c
    · simp [Significant]
    · have hskip : ¬ Significant c := by
        simpa [Significant, hpad] using List.idxOf?_eq_none_iff.mp h
      rw [List.filter_cons_of_neg (by simpa using hskip), positions_skip hpad h, ih]
    · have hkeep : Significant c := .inl (List.isSome_idxOf?.mp (by simp [h]))
      rw [List.filter_cons_of_pos (by simpa using hkeep), positions_letter h, positions_letter h,
        ih]

/-- The bytes that are skipped make no difference, wherever they stand. -/
lemma positions_congr {s t : ByteString} (h : s.filter (Significant ·) = t.filter (Significant ·)) :
    positions s = positions t := by
  rw [← positions_filter s, h, positions_filter t]

lemma positions_map_letter {vs : List ℕ} (h : ∀ v ∈ vs, v < 64) :
    positions (vs.map Base64.letter) = vs := by
  induction vs with
  | nil => rfl
  | cons v vs ih =>
    obtain ⟨hv, hvs⟩ := List.forall_mem_cons.mp h
    rw [List.map_cons, positions_letter (Base64.idxOf?_letter v hv), ih hvs]

lemma positions_unpadded (s : ByteString) : positions (Base64.unpadded s) = Base64.sextets s :=
  positions_map_letter (Base64.sextets_lt s)

lemma positions_encode (s : ByteString) : positions (Base64.encode s) = Base64.sextets s := by
  rw [Base64.encode]
  cases (3 - s.length % 3) % 3 with
  | zero => rw [List.replicate_zero, List.append_nil, positions_unpadded]
  | succ n => rw [List.replicate_succ, positions_append_pad, positions_unpadded]

lemma length_positions (s : ByteString) :
    (positions s).length = ((s.takeWhile (· ≠ Base64.pad)).filter kChars.contains).length := by
  rw [positions, List.length_filterMap_eq_countP, ← List.countP_eq_length_filter]
  apply List.countP_congr
  intro c _
  simp [List.isSome_idxOf?]

namespace Base64State

lemma run_eq_foldl (d : Base64State) (s : ByteString) : d.run s = (positions s).foldl push d := by
  induction s generalizing d with
  | nil => rfl
  | cons c s ih =>
    obtain rfl | ⟨hpad, h⟩ | ⟨pos, h⟩ := byte_cases c
    · rw [positions_pad_cons]
      rfl
    · rw [positions_skip hpad h, run, if_neg hpad, h]
      exact ih d
    · rw [positions_letter h, run, if_neg (ne_pad h), h]
      exact ih (d.push pos)

/-! ### What a step does -/

lemma masked_eq (d : Base64State) (pos : ℕ) :
    d.shifted pos &&& 0xFFFFFF = (d.val * 64 + pos) % 2 ^ 24 := by
  rw [shifted, Nat.shiftLeft_eq]
  exact Nat.and_two_pow_sub_one_eq_mod _ 24

/-- Too few bits for a byte: they are kept. -/
lemma push_keep {d : Base64State} (h : d.bits < -6) (pos : ℕ) :
    d.push pos = ⟨d.out, (d.val * 64 + pos) % 2 ^ 24, d.bits + 6⟩ := by
  rw [push, if_neg (by omega), masked_eq]

/-- There are `k` bits more than a byte has: the byte above them is given back. -/
lemma push_emit {d : Base64State} {k : ℕ} (h : d.bits = k - 6) (pos : ℕ) :
    d.push pos = ⟨d.out ++ [((d.val * 64 + pos) % 2 ^ 24 / 2 ^ k % 2 ^ 8).toUInt8],
      (d.val * 64 + pos) % 2 ^ 24, k - 8⟩ := by
  have hbits : d.bits + 6 = k := by omega
  have hbyte (n : ℕ) : (n >>> k) &&& 0xFF = n / 2 ^ k % 2 ^ 8 := by
    rw [Nat.shiftRight_eq_div_pow]
    exact Nat.and_two_pow_sub_one_eq_mod _ 8
  rw [push, hbits, if_pos (Int.natCast_nonneg k), Int.toNat_natCast, masked_eq, hbyte]

/-- The bits in the accumulator that no byte has taken, and what the loop keeps of the input. -/
structure Inv (n : ℕ) (d : Base64State) : Prop where
  low : -8 ≤ d.bits
  high : d.bits < 0
  even : d.bits % 2 = 0
  val : d.val < 2 ^ 24
  length : 8 * d.out.length + (d.bits + 8) = 6 * n

lemma inv_init : Inv 0 {} := ⟨by decide, by decide, by decide, by decide, by decide⟩

lemma Inv.push {n : ℕ} {d : Base64State} (h : Inv n d) (pos : ℕ) : Inv (n + 1) (d.push pos) := by
  obtain ⟨hlow, hhigh, heven, -, hlength⟩ := h
  have hval : (d.val * 64 + pos) % 2 ^ 24 < 2 ^ 24 := Nat.mod_lt _ (by decide)
  by_cases hbits : d.bits < -6
  · rw [push_keep hbits]
    exact ⟨by simp only; omega, by simp only; omega, by simp only; omega, hval,
      by simp only; omega⟩
  · obtain ⟨k, hk⟩ := Int.eq_ofNat_of_zero_le (show 0 ≤ d.bits + 6 by omega)
    rw [push_emit (k := k) (by omega)]
    exact ⟨by simp only; omega, by simp only; omega, by simp only; omega, hval,
      by simp only [List.length_append, List.length_singleton]; omega⟩

lemma Inv.foldl {n : ℕ} {d : Base64State} (h : Inv n d) (vs : List ℕ) :
    Inv (n + vs.length) (vs.foldl Base64State.push d) := by
  induction vs generalizing n d with
  | nil => exact h
  | cons v vs ih =>
    rw [List.foldl_cons, List.length_cons, Nat.add_comm vs.length, ← Nat.add_assoc]
    exact ih (h.push v)

lemma inv_run (s : ByteString) : Inv (positions s).length (Base64State.run {} s) := by
  rw [run_eq_foldl]
  simpa using inv_init.foldl (positions s)

/-! ### Whole groups -/

/-- Inside a group: the bytes given back, the last letter, and how many of its bits are left. -/
structure Reads (d : Base64State) (out : ByteString) (v k : ℕ) : Prop where
  out_eq : d.out = out
  last : d.val % 64 = v
  bits_eq : d.bits = k - 8

/-- The first letter of a group gives nothing back, whatever is left in the accumulator. -/
lemma Reads.first {d : Base64State} (h : d.bits = -8) {v : ℕ} (hv : v < 64) :
    Reads (d.push v) d.out v 6 := by
  rw [push_keep (by omega)]
  exact ⟨rfl, by simp only; omega, by simp only; omega⟩

/-- A byte depends on the last two letters only. -/
lemma Reads.next {d : Base64State} {out : ByteString} {u v k : ℕ} (h : Reads d out u (k + 2))
    (hk : k = 0 ∨ k = 2 ∨ k = 4) (hv : v < 64) {x : UInt8}
    (hx : (u * 64 + v) / 2 ^ k % 2 ^ 8 = x.toNat) :
    Reads (d.push v) (out ++ [x]) v k := by
  obtain ⟨rfl, rfl, hbits⟩ := h
  have hlow : (d.val * 64 + v) % 2 ^ 24 / 2 ^ k % 2 ^ 8 = x.toNat := by
    rw [← hx]
    obtain rfl | rfl | rfl := hk
    all_goals omega
  rw [push_emit (k := k) (by omega), hlow, Nat.toUInt8_eq, UInt8.ofNat_toNat]
  exact ⟨rfl, by simp only; omega, rfl⟩

/-- A group of bytes comes out as it went in. -/
lemma foldl_sextets {d : Base64State} (h : d.bits = -8) (s : ByteString) :
    ((Base64.sextets s).foldl push d).out = d.out ++ s := by
  induction s using Base64.sextets.induct generalizing d with
  | case1 => simp [Base64.sextets]
  | case2 a =>
    have ha := a.toNat_lt
    simp only [Base64.sextets, List.foldl_cons, List.foldl_nil]
    have h₁ := Reads.first h (v := a.toNat / 4) (by omega)
    exact (h₁.next (by omega) (by omega) (by omega)).out_eq
  | case3 a b =>
    have ha := a.toNat_lt
    have hb := b.toNat_lt
    simp only [Base64.sextets, List.foldl_cons, List.foldl_nil]
    have h₁ := Reads.first h (v := a.toNat / 4) (by omega)
    have h₂ := h₁.next (by omega) (v := a.toNat % 4 * 16 + b.toNat / 16) (by omega)
      (x := a) (by omega)
    have h₃ := h₂.next (by omega) (v := b.toNat % 16 * 4) (by omega) (x := b) (by omega)
    rw [h₃.out_eq, List.append_assoc, List.singleton_append]
  | case4 a b c s ih =>
    have ha := a.toNat_lt
    have hb := b.toNat_lt
    have hc := c.toNat_lt
    simp only [Base64.sextets, List.foldl_cons]
    have h₁ := Reads.first h (v := a.toNat / 4) (by omega)
    have h₂ := h₁.next (by omega) (v := a.toNat % 4 * 16 + b.toNat / 16) (by omega)
      (x := a) (by omega)
    have h₃ := h₂.next (by omega) (v := b.toNat % 16 * 4 + c.toNat / 64) (by omega)
      (x := b) (by omega)
    have h₄ := h₃.next (by omega) (v := c.toNat % 64) (by omega) (x := c) (by omega)
    rw [ih h₄.bits_eq, h₄.out_eq]
    simp

end Base64State

lemma base64Decode_eq_foldl (s : ByteString) :
    base64Decode s = ((positions s).foldl Base64State.push {}).out := by
  rw [base64Decode, Base64State.run_eq_foldl]

/-- The loop gives back a byte string from its letters, with the padding or without it; it skips
what is no letter and stops at the first `=`; its accumulator stays an `int`. -/
theorem base64Decode_correct :
    (∀ b, base64Decode (Base64.encode b) = b ∧ base64Decode (Base64.unpadded b) = b) ∧
    (∀ s t, s.filter (Significant ·) = t.filter (Significant ·) →
      base64Decode s = base64Decode t) ∧
    (∀ s t, base64Decode (s ++ Base64.pad :: t) = base64Decode s) ∧
    (∀ s, (base64Decode s).length =
      6 * ((s.takeWhile (· ≠ Base64.pad)).filter kChars.contains).length / 8) ∧
    ∀ s, (Base64State.run {} s).val < 2 ^ 31 ∧
      ∀ c pos, kChars.idxOf? c = some pos → (Base64State.run {} s).shifted pos < 2 ^ 31 := by
  refine ⟨fun b => ⟨?_, ?_⟩, fun s t h => ?_, fun s t => ?_, fun s => ?_, fun s => ⟨?_, ?_⟩⟩
  · rw [base64Decode_eq_foldl, positions_encode, Base64State.foldl_sextets rfl]
    rfl
  · rw [base64Decode_eq_foldl, positions_unpadded, Base64State.foldl_sextets rfl]
    rfl
  · rw [base64Decode_eq_foldl, base64Decode_eq_foldl, positions_congr h]
  · rw [base64Decode_eq_foldl, base64Decode_eq_foldl, positions_append_pad]
  · obtain ⟨hlow, hhigh, -, -, hlength⟩ := Base64State.inv_run s
    rw [← length_positions, base64Decode]
    omega
  · have hval := (Base64State.inv_run s).val
    omega
  · intro c pos hpos
    have hval := (Base64State.inv_run s).val
    have hlt := Base64.lt_of_idxOf? hpos
    rw [Base64State.shifted, Nat.shiftLeft_eq]
    omega

end Vmtest
