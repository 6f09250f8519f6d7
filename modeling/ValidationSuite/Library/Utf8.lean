import ValidationSuite.Library.ByteString

/-!
# UTF-8

Byte strings that encode characters with a given property. Such a string can be taken apart at
every byte that may begin a character, in particular at any ASCII byte.
-/

namespace Utf8

open ByteString

def encode (cs : List Char) : ByteString := cs.flatMap String.utf8EncodeChar

/-- The string is the encoding of characters that satisfy `p`. -/
def Valid (p : Char → Prop) (s : ByteString) : Prop :=
  ∃ cs : List Char, (∀ c ∈ cs, p c) ∧ encode cs = s

/-- The character of an ASCII byte. -/
def asciiChar (x : UInt8) : Char := Char.ofNat x.toNat

/-- ASCII characters that satisfy `p`. -/
def Ascii (p : Char → Prop) (s : ByteString) : Prop := ∀ x ∈ s, x < 0x80 ∧ p (asciiChar x)

instance (p : Char → Prop) [DecidablePred p] (s : ByteString) : Decidable (Ascii p s) :=
  List.decidableBAll _ s

variable {p q : Char → Prop} {a b s : ByteString} {x : UInt8}

/-! ### Single characters -/

lemma toNat_asciiChar (hx : x < 0x80) : (asciiChar x).val.toNat = x.toNat := by
  have hlt : x.toNat < 0x80 := hx
  have hvalid : x.toNat.isValidChar := .inl (by omega)
  rw [asciiChar, Char.ofNat, dif_pos hvalid]
  rfl

lemma encodeChar_ascii (hx : x < 0x80) : String.utf8EncodeChar (asciiChar x) = [x] := by
  have hlt : x.toNat < 0x80 := hx
  rw [String.utf8EncodeChar, toNat_asciiChar hx, if_pos (by omega), UInt8.ofNat_toNat]

lemma le_toNat_of_not_ascii {c : Char} (h : ∀ x < 0x80, c ≠ asciiChar x) : 0x80 ≤ c.toNat := by
  by_contra hlt
  have hbyte : (UInt8.ofNat c.toNat).toNat = c.toNat := by
    rw [UInt8.toNat_ofNat']
    omega
  apply h (UInt8.ofNat c.toNat)
  · rw [UInt8.lt_iff_toNat_lt, hbyte]
    exact not_le.mp hlt
  · rw [asciiChar, hbyte, Char.ofNat_toNat]

/-- Only the encoding of an ASCII character has an ASCII byte in it. -/
lemma eq_asciiChar_of_mem {c : Char} (h : x ∈ String.utf8EncodeChar c) (hx : x < 0x80) :
    c = asciiChar x := by
  have hbyte : ∀ n, x = UInt8.ofNat n → x.toNat = n % 256 := by
    rintro n rfl
    exact UInt8.toNat_ofNat'
  have hlt : x.toNat < 0x80 := hx
  -- the bytes of the longer encodings have their highest bit set
  have hhigh : ∀ n, x = UInt8.ofNat n → n % 256 < 0x80 := fun n hn => hbyte n hn ▸ hlt
  unfold String.utf8EncodeChar at h
  dsimp only at h
  split_ifs at h with hone htwo hthree
  · have hlt : c.val.toNat < 256 := by omega
    have hval : x.toNat = c.toNat :=
      (hbyte _ (List.mem_singleton.mp h)).trans (Nat.mod_eq_of_lt hlt)
    rw [asciiChar, hval, Char.ofNat_toNat]
  all_goals
    exfalso
    simp only [List.mem_cons, List.not_mem_nil, or_false] at h
  · rcases h with h | h
    all_goals have hlow := hhigh _ h
    all_goals omega
  · rcases h with h | h | h
    all_goals have hlow := hhigh _ h
    all_goals omega
  · rcases h with h | h | h | h
    all_goals have hlow := hhigh _ h
    all_goals omega

lemma firstByte_head {c : Char} {t : ByteString} (h : String.utf8EncodeChar c = x :: t) :
    x.IsUTF8FirstByte := by
  have hget : (String.utf8EncodeChar c)[0]? = some x := by rw [h]; rfl
  obtain ⟨hlt, hget⟩ := List.getElem?_eq_some_iff.mp hget
  exact hget ▸ UInt8.isUTF8FirstByte_getElem_zero_utf8EncodeChar

lemma firstByte_of_ascii (hx : x < 0x80) : x.IsUTF8FirstByte :=
  firstByte_head (encodeChar_ascii hx)

/-- Past its first byte, an encoding has no byte that begins a character. -/
lemma not_firstByte {c : Char} (ha : a ≠ []) (h : String.utf8EncodeChar c = a ++ x :: b) :
    ¬ x.IsUTF8FirstByte := by
  have hget : (String.utf8EncodeChar c)[a.length]? = some x := by rw [h]; simp
  obtain ⟨hlt, hget⟩ := List.getElem?_eq_some_iff.mp hget
  rw [← hget, UInt8.isUTF8FirstByte_getElem_utf8EncodeChar]
  exact mt List.length_eq_zero_iff.mp ha

/-! ### Strings -/

namespace Valid

lemma nil : Valid p [] := ⟨[], nofun, rfl⟩

lemma append (ha : Valid p a) (hb : Valid p b) : Valid p (a ++ b) := by
  obtain ⟨cs, hcs, rfl⟩ := ha
  obtain ⟨ds, hds, rfl⟩ := hb
  refine ⟨cs ++ ds, ?_, List.flatMap_append⟩
  intro c hc
  exact (List.mem_append.mp hc).elim (hcs c) (hds c)

lemma char {c : Char} (hc : p c) : Valid p (String.utf8EncodeChar c) :=
  ⟨[c], by simpa using hc, by simp [encode]⟩

/-- A string is the encoding of its first character followed by a string. -/
lemma cons (h : Valid p (x :: s)) :
    ∃ c t, p c ∧ Valid p t ∧ String.utf8EncodeChar c ++ t = x :: s := by
  obtain ⟨cs, hcs, hs⟩ := h
  cases cs with
  | nil => cases hs
  | cons c cs =>
    exact ⟨c, encode cs, hcs c (.head cs), ⟨cs, fun d hd => hcs d (.tail c hd), rfl⟩, hs⟩

lemma firstByte (h : Valid p (x :: s)) : x.IsUTF8FirstByte := by
  obtain ⟨c, t, -, -, hs⟩ := h.cons
  cases hc : String.utf8EncodeChar c with
  | nil => exact absurd hc String.utf8EncodeChar_ne_nil
  | cons y u =>
    rw [hc] at hs
    obtain rfl := (List.cons.inj hs).1
    exact firstByte_head hc

/-- A string may be taken apart before a byte that begins a character. -/
lemma split (h : Valid p (a ++ x :: b)) (hx : x.IsUTF8FirstByte) :
    Valid p a ∧ Valid p (x :: b) := by
  obtain ⟨cs, hcs, hs⟩ := h
  induction cs generalizing a with
  | nil => simp [encode] at hs
  | cons c cs ih =>
    have ih := fun {a} => ih (a := a) fun d hd => hcs d (.tail c hd)
    rw [encode, List.flatMap_cons] at hs
    rcases List.append_eq_append_iff.mp hs with ⟨a', rfl, hrest⟩ | ⟨b', hc, hrest⟩
    · -- the first character is in front
      obtain ⟨ha', hb⟩ := ih hrest
      exact ⟨.append (.char (hcs c (.head cs))) ha', hb⟩
    · cases b' with
      | nil =>
        rw [List.append_nil] at hc
        subst hc
        refine ⟨.char (hcs c (.head cs)), ?_⟩
        exact ⟨cs, fun d hd => hcs d (.tail c hd), hrest.symm⟩
      | cons y b' =>
        obtain rfl := (List.cons.inj hrest).1
        by_cases ha : a = []
        · subst ha
          exact ⟨.nil, c :: cs, hcs, hs⟩
        · exact absurd hx (not_firstByte ha hc)

/-- An ASCII byte is a character of its own. -/
lemma ascii_cons (hx : x < 0x80) : Valid p (x :: s) ↔ p (asciiChar x) ∧ Valid p s := by
  constructor
  · intro h
    obtain ⟨c, t, hc, ht, hs⟩ := h.cons
    have hmem : x ∈ String.utf8EncodeChar c := by
      cases hcode : String.utf8EncodeChar c with
      | nil => exact absurd hcode String.utf8EncodeChar_ne_nil
      | cons y u =>
        rw [hcode] at hs
        rw [(List.cons.inj hs).1]
        exact .head u
    obtain rfl := eq_asciiChar_of_mem hmem hx
    rw [encodeChar_ascii hx] at hs
    exact ⟨hc, (List.cons.inj hs).2 ▸ ht⟩
  · rintro ⟨hx', hs⟩
    have hchar := Valid.char hx'
    rw [encodeChar_ascii hx] at hchar
    exact hchar.append hs

end Valid

namespace Ascii

lemma nil : Ascii p [] := nofun

lemma valid_append (ha : Ascii p a) : Valid p (a ++ b) ↔ Valid p b := by
  induction a with
  | nil => rfl
  | cons x a ih =>
    obtain ⟨hx, hp⟩ := ha x (.head a)
    rw [List.cons_append, Valid.ascii_cons hx, ih fun y hy => ha y (.tail x hy)]
    exact and_iff_right hp

lemma append (ha : Ascii p a) (hb : Ascii p b) : Ascii p (a ++ b) :=
  fun x hx => (List.mem_append.mp hx).elim (ha x) (hb x)

lemma valid (ha : Ascii p a) : Valid p a := by
  have h : Valid p (a ++ []) := ha.valid_append.mpr .nil
  rwa [List.append_nil] at h

/-- Between two strings, ASCII characters keep them apart. -/
lemma valid_append_append (hs : Ascii p s) (hne : s ≠ []) :
    Valid p (a ++ (s ++ b)) ↔ Valid p a ∧ Valid p b := by
  constructor
  · intro h
    obtain ⟨x, t, rfl⟩ := List.exists_cons_of_ne_nil hne
    obtain ⟨ha, hb⟩ := h.split (firstByte_of_ascii (hs x (.head t)).1)
    exact ⟨ha, hs.valid_append.mp hb⟩
  · rintro ⟨ha, hb⟩
    exact ha.append (hs.valid_append.mpr hb)

end Ascii

/-- In front of any other string, it only depends on `P` whether the string is valid. -/
def Stands (p : Char → Prop) (s : ByteString) (P : Prop) : Prop :=
  ∀ t, Valid p (s ++ t) ↔ P ∧ Valid p t

namespace Stands

variable {P Q : Prop}

lemma valid_iff (h : Stands p s P) : Valid p s ↔ P := by
  rw [← List.append_nil s, h]
  exact and_iff_left .nil

lemma congr (h : Stands p s P) (hPQ : P ↔ Q) : Stands p s Q := fun t => by rw [h, hPQ]

lemma append (ha : Stands p a P) (hb : Stands p b Q) : Stands p (a ++ b) (P ∧ Q) := fun t => by
  rw [List.append_assoc, ha, hb, and_assoc]

lemma of_ascii (h : Ascii p s) : Stands p s True := fun t => by rw [h.valid_append, true_and]

lemma between (a : ByteString) (h : Ascii p s) (hne : s ≠ []) : Stands p (a ++ s) (Valid p a) :=
  fun t => by rw [List.append_assoc, h.valid_append_append hne]

/-- ASCII characters around do not matter. -/
lemma around (hs : Stands p s P) (ha : Ascii p a) (hb : Ascii p b) : Stands p (a ++ s ++ b) P :=
  ((of_ascii ha).append hs |>.append (of_ascii hb)).congr (by simp)

lemma flatten {α : Type*} {f : α → Prop} {l : List α} {pieces : List ByteString}
    (h : List.Forall₂ (fun x piece => Stands p piece (f x)) l pieces) :
    Stands p pieces.flatten (∀ x ∈ l, f x) := by
  induction h with
  | nil => exact (of_ascii .nil).congr (by simp)
  | cons hx _ ih => exact (hx.append ih).congr (by simp)

lemma flatMap {α : Type*} {f : α → Prop} {g : α → ByteString} {l : List α}
    (h : ∀ x ∈ l, Stands p (g x) (f x)) : Stands p (l.flatMap g) (∀ x ∈ l, f x) :=
  flatten (List.forall₂_map_right_iff.mpr (List.forall₂_same.mpr h))

end Stands

/-! ### Replacing ASCII characters -/

/-- `f` writes ASCII characters as ASCII strings that satisfy `p` and leaves other bytes alone. -/
structure Replaces (p q : Char → Prop) (f : UInt8 → ByteString) : Prop where
  ascii : ∀ x < 0x80, Ascii p (f x) ∧ f x ≠ [] ∧ q (asciiChar x)
  other : ∀ x, ¬ x < 0x80 → f x = [x]
  agree : ∀ c : Char, (∀ x < 0x80, c ≠ asciiChar x) → (p c ↔ q c)

namespace Replaces

variable {f : UInt8 → ByteString}

lemma flatMap_encodeChar (h : Replaces p q f) {c : Char} (hc : ∀ x < 0x80, c ≠ asciiChar x) :
    (String.utf8EncodeChar c).flatMap f = String.utf8EncodeChar c := by
  have hall : ∀ x ∈ String.utf8EncodeChar c, f x = [x] := fun x hx =>
    h.other x fun hlt => hc x hlt (eq_asciiChar_of_mem hx hlt)
  calc (String.utf8EncodeChar c).flatMap f = (String.utf8EncodeChar c).flatMap fun x => [x] :=
        List.flatMap_congr hall
    _ = String.utf8EncodeChar c := List.flatMap_singleton' _

/-- Bytes that are not ASCII come from themselves. -/
lemma of_flatMap_eq (h : Replaces p q f) (ha : ∀ x ∈ a, ¬ x < 0x80) (hs : s.flatMap f = a ++ b) :
    ∃ t, s = a ++ t ∧ t.flatMap f = b := by
  induction a generalizing s with
  | nil => exact ⟨s, rfl, hs⟩
  | cons x a ih =>
    cases s with
    | nil => cases hs
    | cons y s =>
      rw [List.flatMap_cons] at hs
      by_cases hy : y < 0x80
      · obtain ⟨hascii, hne, -⟩ := h.ascii y hy
        obtain ⟨z, u, hz⟩ := List.exists_cons_of_ne_nil hne
        rw [hz] at hs hascii
        exact absurd ((List.cons.inj hs).1 ▸ (hascii z (.head u)).1) (ha x (.head a))
      · rw [h.other y hy] at hs
        obtain ⟨hxy, htail⟩ := List.cons.inj hs
        subst hxy
        obtain ⟨t, rfl, ht⟩ := ih (fun z hz => ha z (.tail _ hz)) htail
        exact ⟨t, rfl, ht⟩

theorem valid_flatMap (h : Replaces p q f) (s : ByteString) :
    Valid p (s.flatMap f) ↔ Valid q s := by
  constructor
  · intro hs
    -- by the length: each step takes one character off the string
    induction hn : s.length using Nat.strong_induction_on generalizing s with
    | _ n ih =>
      subst hn
      cases s with
      | nil => exact .nil
      | cons x s =>
        by_cases hx : x < 0x80
        · obtain ⟨hascii, -, hq⟩ := h.ascii x hx
          rw [List.flatMap_cons, hascii.valid_append] at hs
          exact (Valid.ascii_cons hx).mpr ⟨hq, ih _ (Nat.lt_succ_self _) s hs rfl⟩
        · obtain ⟨c, t, hc, ht, hcode⟩ : ∃ c t, p c ∧ Valid p t ∧
              String.utf8EncodeChar c ++ t = (x :: s).flatMap f := by
            rw [List.flatMap_cons, h.other x hx] at hs ⊢
            exact hs.cons
          have hother : ∀ y < 0x80, c ≠ asciiChar y := by
            rintro y hy rfl
            rw [encodeChar_ascii hy, List.flatMap_cons, h.other x hx] at hcode
            exact hx ((List.cons.inj hcode).1 ▸ hy)
          obtain ⟨u, hu, rfl⟩ := h.of_flatMap_eq
            (fun y hy hlt => hother y hlt (eq_asciiChar_of_mem hy hlt)) hcode.symm
          have hlength := congrArg List.length hu
          rw [List.length_append, String.length_utf8EncodeChar] at hlength
          have hpos := c.utf8Size_pos
          rw [hu]
          exact .append (.char ((h.agree c hother).mp hc)) (ih u.length (by omega) u ht rfl)
  · rintro ⟨cs, hcs, rfl⟩
    induction cs with
    | nil => exact .nil
    | cons c cs ih =>
      have ih := ih fun d hd => hcs d (.tail c hd)
      rw [encode, List.flatMap_cons, List.flatMap_append]
      refine .append ?_ ih
      by_cases hc : ∃ x < 0x80, c = asciiChar x
      · obtain ⟨x, hx, rfl⟩ := hc
        rw [encodeChar_ascii hx, List.flatMap_singleton]
        exact (h.ascii x hx).1.valid
      · have hc : ∀ x < 0x80, c ≠ asciiChar x := fun x hx hcx => hc ⟨x, hx, hcx⟩
        rw [h.flatMap_encodeChar hc]
        exact .char ((h.agree c hc).mpr (hcs c (.head cs)))

end Replaces

end Utf8
