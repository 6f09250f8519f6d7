import ValidationSuite.Library.ByteString

/-!
# XML as a sequence of tags

A scanner takes a byte string apart into its tags and the bytes between them. It knows XML without
comments, `CDATA` sections, document types and processing instructions; any of these makes it fail,
as does a tag that is not complete. Whether the elements are closed in the right order, and what
the entities stand for, is asked of its result.
-/

namespace Xml

open ByteString

inductive Kind where
  | declaration
  | opening
  | closing
  | empty
  deriving DecidableEq

structure Tag where
  kind : Kind
  name : ByteString
  /-- The names and the values, as the values stand between their quotes. -/
  attributes : List (ByteString × ByteString) := []
  deriving DecidableEq

inductive Token where
  | tag (t : Tag)
  | char (c : UInt8)
  deriving DecidableEq

/-! ### Scanning -/

def isNameStart (c : UInt8) : Bool :=
  (0x41 ≤ c && c ≤ 0x5a) || (0x61 ≤ c && c ≤ 0x7a) || c == '_'.toNat.toUInt8 ||
    c == ':'.toNat.toUInt8 || 0x80 ≤ c

def isNameByte (c : UInt8) : Bool :=
  isNameStart c || isDigit c || c == '-'.toNat.toUInt8 || c == '.'.toNat.toUInt8

def isName : ByteString → Bool
  | [] => false
  | c :: s => isNameStart c && s.all isNameByte

/-- Where the scanner stands. A tag is what has been read of it. -/
inductive Mode where
  | text
  /-- before the name -/
  | start (kind : Kind)
  | name (t : Tag)
  /-- after white space in a tag -/
  | between (t : Tag)
  | key (t : Tag) (k : ByteString)
  | equals (t : Tag) (k : ByteString)
  | value (t : Tag) (k : ByteString) (quote : UInt8) (v : ByteString)
  /-- after the closing quote -/
  | valueEnd (t : Tag)
  /-- only `>` may follow -/
  | last (t : Tag)

/-- What may follow a name, a value or white space in a tag. -/
def tagEnd (t : Tag) (c : UInt8) : Option (Option Token × Mode) :=
  if c == '>'.toNat.toUInt8 && t.kind ≠ .declaration then some (some (.tag t), .text)
  else if c == '/'.toNat.toUInt8 && t.kind = .opening then
    some (none, .last { t with kind := .empty })
  else if c == '?'.toNat.toUInt8 && t.kind = .declaration then some (none, .last t)
  else if isSpace c then some (none, .between t)
  else none

/-- The token that is complete with the next byte, and where the scanner goes. -/
def Mode.next (c : UInt8) : Mode → Option (Option Token × Mode)
  | text => some (if c == '<'.toNat.toUInt8 then (none, start .opening) else (some (.char c), text))
  | start kind =>
    if isNameStart c then some (none, name ⟨kind, [c], []⟩)
    else if c == '/'.toNat.toUInt8 && kind = .opening then some (none, start .closing)
    else if c == '?'.toNat.toUInt8 && kind = .opening then some (none, start .declaration)
    else none
  | name t =>
    if isNameByte c then some (none, name { t with name := t.name ++ [c] }) else tagEnd t c
  | between t =>
    if isNameStart c && t.kind ≠ .closing then some (none, key t [c]) else tagEnd t c
  | key t k =>
    if isNameByte c then some (none, key t (k ++ [c]))
    else if c == '='.toNat.toUInt8 then some (none, equals t k)
    else none
  | equals t k =>
    if c == '"'.toNat.toUInt8 || c == '\''.toNat.toUInt8 then some (none, value t k c []) else none
  | value t k quote v =>
    if c == quote then some (none, valueEnd { t with attributes := t.attributes ++ [(k, v)] })
    else if c == '<'.toNat.toUInt8 then none
    else some (none, value t k quote (v ++ [c]))
  | valueEnd t => tagEnd t c
  | last t => if c == '>'.toNat.toUInt8 then some (some (.tag t), text) else none

def scanFrom : Mode → ByteString → Option (List Token)
  | .text, [] => some []
  | _, [] => none
  | m, c :: s => (m.next c).bind fun (token, m') => (scanFrom m' s).map (token.toList ++ ·)

/-- The tags of a byte string and the bytes between them. -/
def scan (s : ByteString) : Option (List Token) := scanFrom .text s

lemma scanFrom_cons {m m' : Mode} {c : UInt8} {token : Option Token} (s : ByteString)
    (h : m.next c = some (token, m')) :
    scanFrom m (c :: s) = (scanFrom m' s).map (token.toList ++ ·) := by
  rw [scanFrom, h]
  rfl

lemma scanFrom_silent {m n : Mode} {c : UInt8} (s : ByteString)
    (h : m.next c = some (none, n)) : scanFrom m (c :: s) = scanFrom n s := by
  rw [scanFrom_cons s h]
  simp

/-- What is scanned up to the end of a tag or of a text does not depend on what follows. -/
lemma scanFrom_append {s : ByteString} (t : ByteString) {m : Mode} {a : List Token}
    (h : scanFrom m s = some a) : scanFrom m (s ++ t) = (scan t).map (a ++ ·) := by
  induction s generalizing m a with
  | nil =>
    cases m with
    | text =>
      obtain rfl : [] = a := by simpa [scanFrom] using h
      simp [scan]
    | _ => simp [scanFrom] at h
  | cons c s ih =>
    rw [scanFrom, Option.bind_eq_some_iff] at h
    obtain ⟨⟨token, m'⟩, hnext, h⟩ := h
    obtain ⟨b, hb, rfl⟩ := Option.map_eq_some_iff.mp h
    rw [List.cons_append, scanFrom_cons _ hnext, ih hb, Option.map_map]
    congr 1
    funext c
    simp

lemma scan_append {s t : ByteString} {a b : List Token} (hs : scan s = some a)
    (ht : scan t = some b) : scan (s ++ t) = some (a ++ b) := by
  rw [scan, scanFrom_append t hs, ht]
  rfl

@[simp] lemma scan_nil : scan [] = some [] := rfl

/-- The pieces of a text may be scanned one by one. -/
lemma scan_flatten : ∀ {pieces : List ByteString} {parts : List (List Token)},
    List.Forall₂ (fun piece part => scan piece = some part) pieces parts →
      scan pieces.flatten = some parts.flatten
  | _, _, .nil => rfl
  | _, _, .cons h hs => scan_append h (scan_flatten hs)

/-- A text without `<` is scanned as it is. -/
lemma scan_text {s : ByteString} (h : ∀ c ∈ s, c ≠ '<'.toNat.toUInt8) :
    scan s = some (s.map .char) := by
  induction s with
  | nil => rfl
  | cons c s ih =>
    have hc : Mode.text.next c = some (some (.char c), .text) := by
      simpa [Mode.next] using h c (.head s)
    rw [scan, scanFrom_cons s hc]
    have ih := ih fun b hb => h b (.tail c hb)
    rw [scan] at ih
    rw [ih]
    rfl

/-! ### Writing tags -/

/-- The two bytes that can enclose a value. -/
def IsQuote (q : UInt8) : Prop := q = '"'.toNat.toUInt8 ∨ q = '\''.toNat.toUInt8

/-- What may stand between two quotes of a kind. -/
def Quoted (q : UInt8) (s : ByteString) : Prop := ∀ c ∈ s, c ≠ '<'.toNat.toUInt8 ∧ c ≠ q

instance (q : UInt8) (s : ByteString) : Decidable (Quoted q s) := List.decidableBAll _ s

/-- What may stand between double quotes. -/
def Plain (s : ByteString) : Prop := ∀ c ∈ s, c ≠ '<'.toNat.toUInt8 ∧ c ≠ '"'.toNat.toUInt8

instance (s : ByteString) : Decidable (Plain s) := List.decidableBAll _ s

def renderAttributeWith (q : UInt8) (a : ByteString × ByteString) : ByteString :=
  lit " " ++ a.1 ++ lit "=" ++ [q] ++ a.2 ++ [q]

def renderAttribute (a : ByteString × ByteString) : ByteString :=
  lit " " ++ a.1 ++ lit "=\"" ++ a.2 ++ lit "\""

namespace Tag

/-- A tag with its values between quotes of a kind. -/
def renderWith (q : UInt8) (t : Tag) : ByteString :=
  (match t.kind with
    | .declaration => lit "<?"
    | .closing => lit "</"
    | .opening | .empty => lit "<") ++
  t.name ++ t.attributes.flatMap (renderAttributeWith q) ++
  match t.kind with
    | .declaration => lit "?>"
    | .empty => lit "/>"
    | .opening | .closing => lit ">"

def render (t : Tag) : ByteString :=
  (match t.kind with
    | .declaration => lit "<?"
    | .closing => lit "</"
    | .opening | .empty => lit "<") ++
  t.name ++ t.attributes.flatMap renderAttribute ++
  match t.kind with
    | .declaration => lit "?>"
    | .empty => lit "/>"
    | .opening | .closing => lit ">"

structure WellFormedWith (q : UInt8) (t : Tag) : Prop where
  name : isName t.name = true
  keys : ∀ a ∈ t.attributes, isName a.1 = true
  values : ∀ a ∈ t.attributes, Quoted q a.2
  closing : t.kind = .closing → t.attributes = []

instance (q : UInt8) (t : Tag) : Decidable (t.WellFormedWith q) :=
  decidable_of_iff (isName t.name = true ∧ (∀ a ∈ t.attributes, isName a.1 = true) ∧
      (∀ a ∈ t.attributes, Quoted q a.2) ∧ (t.kind = .closing → t.attributes = []))
    ⟨fun ⟨hname, hkeys, hvalues, hclosing⟩ => ⟨hname, hkeys, hvalues, hclosing⟩,
      fun h => ⟨h.name, h.keys, h.values, h.closing⟩⟩

structure WellFormed (t : Tag) : Prop where
  name : isName t.name = true
  keys : ∀ a ∈ t.attributes, isName a.1 = true
  values : ∀ a ∈ t.attributes, Plain a.2
  closing : t.kind = .closing → t.attributes = []

end Tag

section Scan

variable {t : Tag} {k v : ByteString} {c q : UInt8} (s : ByteString)

lemma isNameStart.isNameByte (h : isNameStart c = true) : isNameByte c = true := by
  simp [Xml.isNameByte, h]

lemma scanFrom_name {n : ByteString} (hn : n.all isNameByte = true) :
    scanFrom (.name t) (n ++ s) = scanFrom (.name { t with name := t.name ++ n }) s := by
  induction n generalizing t with
  | nil => simp
  | cons c n ih =>
    simp only [List.all_cons, Bool.and_eq_true] at hn
    rw [List.cons_append, scanFrom_silent (n := .name { t with name := t.name ++ [c] }),
      ih hn.2]
    · simp
    · simp [Mode.next, hn.1]

lemma scanFrom_start {kind : Kind} {n : ByteString} (hn : isName n = true) :
    scanFrom (.start kind) (n ++ s) = scanFrom (.name ⟨kind, n, []⟩) s := by
  match n with
  | [] => cases hn
  | c :: n =>
    simp only [isName, Bool.and_eq_true] at hn
    rw [List.cons_append, scanFrom_silent (n := .name ⟨kind, [c], []⟩), scanFrom_name s hn.2]
    · rfl
    · simp [Mode.next, hn.1]

lemma scanFrom_key {n : ByteString} (hn : n.all isNameByte = true) :
    scanFrom (.key t k) (n ++ s) = scanFrom (.key t (k ++ n)) s := by
  induction n generalizing k with
  | nil => simp
  | cons c n ih =>
    simp only [List.all_cons, Bool.and_eq_true] at hn
    rw [List.cons_append, scanFrom_silent (n := .key t (k ++ [c])), ih hn.2]
    · simp
    · simp [Mode.next, hn.1]

lemma scanFrom_value {w : ByteString} (hw : Quoted q w) :
    scanFrom (.value t k q v) (w ++ s) = scanFrom (.value t k q (v ++ w)) s := by
  induction w generalizing v with
  | nil => simp
  | cons c w ih =>
    have hc := hw c (.head w)
    rw [List.cons_append, scanFrom_silent (n := .value t k q (v ++ [c])),
      ih fun b hb => hw b (.tail c hb)]
    · simp
    · rw [Mode.next, if_neg (by simpa using hc.2), if_neg (by simpa using hc.1)]

/-- After a name and after a value the same may follow. -/
lemma scanFrom_name_end (hc : isNameByte c = false) :
    scanFrom (.name t) (c :: s) = scanFrom (.valueEnd t) (c :: s) := by
  simp only [scanFrom, Mode.next, hc, Bool.false_eq_true, if_false]

lemma tagEnd_space (t : Tag) : tagEnd t 0x20 = some (none, .between t) := by
  simp [tagEnd, isSpace]

lemma scanFrom_attribute (hq : IsQuote q) (ht : t.kind ≠ .closing) (hk : isName k = true)
    (hv : Quoted q v) :
    scanFrom (.valueEnd t) (renderAttributeWith q (k, v) ++ s) =
      scanFrom (.valueEnd { t with attributes := t.attributes ++ [(k, v)] }) s := by
  match k with
  | [] => cases hk
  | c :: k =>
    simp only [isName, Bool.and_eq_true] at hk
    have hspace : (Mode.valueEnd t).next 0x20 = some (none, .between t) := tagEnd_space t
    have hstart : (Mode.between t).next c = some (none, .key t [c]) := by
      simp [Mode.next, hk.1, ht]
    have hequals : (Mode.key t (c :: k)).next 0x3d = some (none, .equals t (c :: k)) := rfl
    have hquote : (Mode.equals t (c :: k)).next q = some (none, .value t (c :: k) q []) := by
      rcases hq with rfl | rfl <;> rfl
    have hend : (Mode.value t (c :: k) q v).next q =
        some (none, .valueEnd { t with attributes := t.attributes ++ [(c :: k, v)] }) := by
      simp [Mode.next]
    have hspell : renderAttributeWith q (c :: k, v) ++ s =
        0x20 :: c :: (k ++ 0x3d :: q :: (v ++ q :: s)) := by
      simp [renderAttributeWith, lit]
    rw [hspell, scanFrom_silent _ hspace, scanFrom_silent _ hstart, scanFrom_key _ hk.2]
    exact (scanFrom_silent _ hequals).trans <| (scanFrom_silent _ hquote).trans <|
      (scanFrom_value _ hv).trans (scanFrom_silent _ hend)

lemma scanFrom_attributes {as : List (ByteString × ByteString)} (hq : IsQuote q)
    (ht : t.kind ≠ .closing) (hkeys : ∀ a ∈ as, isName a.1 = true)
    (hvalues : ∀ a ∈ as, Quoted q a.2) :
    scanFrom (.valueEnd t) (as.flatMap (renderAttributeWith q) ++ s) =
      scanFrom (.valueEnd { t with attributes := t.attributes ++ as }) s := by
  induction as generalizing t with
  | nil => simp
  | cons a as ih =>
    rw [List.flatMap_cons, List.append_assoc,
      scanFrom_attribute _ hq ht (hkeys a (.head as)) (hvalues a (.head as)), ih]
    · simp
    · exact ht
    · exact fun b hb => hkeys b (.tail a hb)
    · exact fun b hb => hvalues b (.tail a hb)

end Scan

section Render

variable {kind : Kind} {n : ByteString} {as : List (ByteString × ByteString)} {q : UInt8}
  (hq : IsQuote q)

include hq in
/-- The scanner goes through name and attributes up to the end of the tag. -/
lemma scanFrom_start_attributes {s : ByteString} (hkind : kind = .closing → as = [])
    (hname : isName n = true) (hkeys : ∀ a ∈ as, isName a.1 = true)
    (hvalues : ∀ a ∈ as, Quoted q a.2)
    (hs : (s.head?.map isNameByte).getD true = false) :
    scanFrom (.start kind) (n ++ (as.flatMap (renderAttributeWith q) ++ s)) =
      scanFrom (.valueEnd ⟨kind, n, as⟩) s := by
  rw [scanFrom_start _ hname]
  cases as with
  | nil =>
    cases s with
    | nil => cases hs
    | cons c s => exact scanFrom_name_end s hs
  | cons a as =>
    -- the first attribute does not continue the name
    rw [List.flatMap_cons]
    exact (scanFrom_name_end _ (by decide)).trans
      (scanFrom_attributes (t := ⟨kind, n, []⟩) s hq (fun h => nomatch hkind h) hkeys hvalues)

lemma scan_lt (s : ByteString) : scan (0x3c :: s) = scanFrom (.start .opening) s := by
  rw [scan, scanFrom_silent (n := .start .opening)]
  rfl

include hq in
/-- A tag is scanned as it is written. -/
theorem scan_renderWith {t : Tag} (h : t.WellFormedWith q) :
    scan (t.renderWith q) = some [.tag t] := by
  obtain ⟨kind, n, as⟩ := t
  obtain ⟨hname, hkeys, hvalues, hclosing⟩ := h
  dsimp only at hname hkeys hvalues hclosing
  cases kind with
  | opening =>
    have hrender : Tag.renderWith q ⟨.opening, n, as⟩ =
        0x3c :: (n ++ (as.flatMap (renderAttributeWith q) ++ [0x3e])) := by
      simp [Tag.renderWith, lit]
    rw [hrender, scan_lt, scanFrom_start_attributes hq hclosing hname hkeys hvalues rfl]
    rfl
  | empty =>
    -- up to its slash it could be an opening tag
    have hclosing : Kind.opening = .closing → as = [] := nofun
    have hrender : Tag.renderWith q ⟨.empty, n, as⟩ =
        0x3c :: (n ++ (as.flatMap (renderAttributeWith q) ++ [0x2f, 0x3e])) := by
      simp [Tag.renderWith, lit]
    rw [hrender, scan_lt, scanFrom_start_attributes hq hclosing hname hkeys hvalues rfl]
    rfl
  | closing =>
    have hrender : Tag.renderWith q ⟨.closing, n, as⟩ =
        0x3c :: 0x2f :: (n ++ (as.flatMap (renderAttributeWith q) ++ [0x3e])) := by
      simp [Tag.renderWith, lit]
    rw [hrender, scan_lt, scanFrom_silent (n := .start .closing) _ rfl,
      scanFrom_start_attributes hq hclosing hname hkeys hvalues rfl]
    rfl
  | declaration =>
    have hrender : Tag.renderWith q ⟨.declaration, n, as⟩ =
        0x3c :: 0x3f :: (n ++ (as.flatMap (renderAttributeWith q) ++ [0x3f, 0x3e])) := by
      simp [Tag.renderWith, lit]
    rw [hrender, scan_lt, scanFrom_silent (n := .start .declaration) _ rfl,
      scanFrom_start_attributes hq hclosing hname hkeys hvalues rfl]
    rfl

/-- With double quotes. -/
lemma render_eq (t : Tag) : t.render = t.renderWith '"'.toNat.toUInt8 := by
  have hattribute : renderAttribute = renderAttributeWith '"'.toNat.toUInt8 := by
    funext a
    simp [renderAttribute, renderAttributeWith, lit]
  rw [Tag.render, hattribute, Tag.renderWith]

theorem scan_render {t : Tag} (h : t.WellFormed) : scan t.render = some [.tag t] := by
  rw [render_eq]
  exact scan_renderWith (.inl rfl) ⟨h.name, h.keys, h.values, h.closing⟩

end Render

/-! ### Entities -/

/-- The byte that a named entity stands for. -/
def entity? (name : ByteString) : Option UInt8 :=
  if name = lit "amp" then some '&'.toNat.toUInt8
  else if name = lit "lt" then some '<'.toNat.toUInt8
  else if name = lit "gt" then some '>'.toNat.toUInt8
  else if name = lit "quot" then some '"'.toNat.toUInt8
  else if name = lit "apos" then some '\''.toNat.toUInt8
  else none

/-- With the name of the entity read so far. -/
def decodeFrom : Option ByteString → ByteString → Option ByteString
  | none, [] => some []
  | some _, [] => none
  | none, c :: s =>
    if c = '&'.toNat.toUInt8 then decodeFrom (some []) s else (decodeFrom none s).map (c :: ·)
  | some name, c :: s =>
    if c = ';'.toNat.toUInt8 then
      (entity? name).bind fun b => (decodeFrom none s).map (b :: ·)
    else decodeFrom (some (name ++ [c])) s

/-- The text that an attribute or a text of a document stands for. -/
def decode (s : ByteString) : Option ByteString := decodeFrom none s

lemma decode_of_no_entity {s : ByteString} (h : ∀ c ∈ s, c ≠ '&'.toNat.toUInt8) :
    decode s = some s := by
  induction s with
  | nil => rfl
  | cons c s ih =>
    have ih : decodeFrom none s = some s := ih fun b hb => h b (.tail c hb)
    rw [decode, decodeFrom, if_neg (h c (.head s)), ih]
    rfl

/-- Nothing in the string begins or ends a tag or a value. -/
def Inert (s : ByteString) : Prop :=
  ∀ c ∈ s, c ≠ '<'.toNat.toUInt8 ∧ c ≠ '>'.toNat.toUInt8 ∧ c ≠ '"'.toNat.toUInt8

instance (s : ByteString) : Decidable (Inert s) := List.decidableBAll _ s

/-- Writing `f c` for each byte `c` neither begins nor ends a tag or a value, and it is read as
`g c`. -/
structure Escapes (f : UInt8 → ByteString) (g : UInt8 → UInt8) : Prop where
  inert : ∀ c, Inert (f c)
  decode_append : ∀ c s, decode (f c ++ s) = (decode s).map (g c :: ·)

namespace Escapes

variable {f : UInt8 → ByteString} {g : UInt8 → UInt8}

lemma plain_flatMap (h : Escapes f g) (s : ByteString) : Plain (s.flatMap f) := by
  intro b hb
  obtain ⟨c, -, hb⟩ := List.mem_flatMap.mp hb
  exact ⟨(h.inert c b hb).1, (h.inert c b hb).2.2⟩

lemma quoted_flatMap (h : Escapes f g) {q : UInt8} (hq : ∀ c, q ∉ f c) (s : ByteString) :
    Quoted q (s.flatMap f) := by
  intro b hb
  obtain ⟨c, -, hb⟩ := List.mem_flatMap.mp hb
  exact ⟨(h.inert c b hb).1, ne_of_mem_of_not_mem hb (hq c)⟩

lemma decode_flatMap (h : Escapes f g) (s : ByteString) :
    decode (s.flatMap f) = some (s.map g) := by
  induction s with
  | nil => rfl
  | cons c s ih => rw [List.flatMap_cons, h.decode_append, ih, Option.map_some, List.map_cons]

lemma scan_flatMap (h : Escapes f g) (s : ByteString) :
    scan (s.flatMap f) = some ((s.flatMap f).map .char) :=
  scan_text fun b hb => (h.plain_flatMap s b hb).1

end Escapes

/-- The characters that XML 1.0 allows. -/
def IsChar (c : Char) : Prop :=
  c.toNat = 0x9 ∨ c.toNat = 0xa ∨ c.toNat = 0xd ∨ (0x20 ≤ c.toNat ∧ c.toNat ≤ 0xd7ff) ∨
    (0xe000 ≤ c.toNat ∧ c.toNat ≤ 0xfffd) ∨ (0x10000 ≤ c.toNat ∧ c.toNat ≤ 0x10ffff)

instance : DecidablePred IsChar := fun _ => inferInstanceAs (Decidable (_ ∨ _))

/-! ### Elements -/

def tags (tokens : List Token) : List Tag :=
  tokens.filterMap fun
    | .tag t => some t
    | .char _ => none

/-- Does an element of the name begin with the tag? -/
def Tag.starts (n : ByteString) (t : Tag) : Bool :=
  (t.kind == .opening || t.kind == .empty) && t.name == n

/-- What the attribute of the name stands for. -/
def Tag.attribute? (t : Tag) (k : ByteString) : Option ByteString :=
  (t.attributes.lookup k).bind decode

/-- The number of elements of the name. -/
def count (n : ByteString) (tokens : List Token) : ℕ := (tags tokens).countP (Tag.starts n)

/-- The text up to the next tag. -/
def leadingText : List Token → ByteString
  | .char c :: tokens => c :: leadingText tokens
  | _ => []

/-- The tags that begin an element of the name, each with the text that comes after it. -/
def elements (n : ByteString) : List Token → List (Tag × ByteString)
  | [] => []
  | .char _ :: tokens => elements n tokens
  | .tag t :: tokens =>
    if t.starts n then (t, leadingText tokens) :: elements n tokens else elements n tokens

/-- The elements that are open after the tags, the innermost one first, unless a closing tag does
not belong to the innermost element. -/
def closes : List ByteString → List Tag → Option (List ByteString)
  | stack, [] => some stack
  | stack, t :: ts =>
    match t.kind, stack with
    | .declaration, _ | .empty, _ => closes stack ts
    | .opening, _ => closes (t.name :: stack) ts
    | .closing, [] => none
    | .closing, n :: stack => if n = t.name then closes stack ts else none

/-- Every element is closed, and in the right order. -/
def Balanced (ts : List Tag) : Prop := closes [] ts = some []

instance (ts : List Tag) : Decidable (Balanced ts) := inferInstanceAs (Decidable (_ = _))

/-- The tags of an element, and those of its content. -/
inductive Element (t : Tag) : List Tag → List Tag → Prop
  | empty (h : t.kind = .empty) : Element t [] [t]
  | enclosing (h : t.kind = .opening) {inner : List Tag} (hinner : Balanced inner) :
      Element t inner (t :: inner ++ [⟨.closing, t.name, []⟩])

section

variable {ts us : List Tag} {stack : List ByteString}

lemma closes_append : closes stack (ts ++ us) = (closes stack ts).bind fun st => closes st us := by
  fun_induction closes stack ts <;> simp_all [closes]

lemma closes_stack {top stack' : List ByteString} (h : closes top ts = some stack') :
    closes (top ++ stack) ts = some (stack' ++ stack) := by
  fun_induction closes top ts generalizing stack' <;> simp_all [closes]

namespace Balanced

lemma closes_eq (h : Balanced ts) (stack : List ByteString) : closes stack ts = some stack :=
  closes_stack h

lemma append (h : Balanced ts) (hus : Balanced us) : Balanced (ts ++ us) := by
  rw [Balanced, closes_append, h, Option.bind_some, hus]

lemma flatten : ∀ {l : List (List Tag)}, (∀ ts ∈ l, Balanced ts) → Balanced l.flatten
  | [], _ => rfl
  | _ :: _, h => (h _ (.head _)).append (flatten fun ts hts => h ts (.tail _ hts))

end Balanced

lemma Element.balanced {t : Tag} (h : Element t ts us) : Balanced us := by
  cases h with
  | empty h => simp [Balanced, closes, h]
  | enclosing h hinner =>
    simp [Balanced, closes, h, closes_append, hinner.closes_eq]

end

lemma closing_wellFormed {n : ByteString} (hn : isName n = true) :
    Tag.WellFormed ⟨.closing, n, []⟩ :=
  ⟨hn, nofun, nofun, fun _ => rfl⟩

/-- An element with a content is scanned as its tags around the content. -/
lemma scan_element {t : Tag} (ht : t.WellFormed) {s : ByteString} {inner : List Token}
    (hinner : scan s = some inner) :
    scan (t.render ++ s ++ Tag.render ⟨.closing, t.name, []⟩) =
      some (.tag t :: inner ++ [.tag ⟨.closing, t.name, []⟩]) :=
  scan_append (scan_append (scan_render ht) hinner) (scan_render (closing_wellFormed ht.name))

@[simp] lemma tags_nil : tags [] = [] := rfl

@[simp] lemma tags_tag (t : Tag) (tokens : List Token) :
    tags (.tag t :: tokens) = t :: tags tokens := rfl

@[simp] lemma tags_append (a b : List Token) : tags (a ++ b) = tags a ++ tags b :=
  List.filterMap_append ..

@[simp] lemma tags_chars (s : ByteString) : tags (s.map .char) = [] := by
  induction s with
  | nil => rfl
  | cons c s ih => exact ih

/-! ### Documents in pieces -/

/-- A tag, or a text between two of them. -/
inductive Piece where
  | tag (t : Tag)
  | text (s : ByteString)

namespace Piece

def renderWith (q : UInt8) : Piece → ByteString
  | tag t => t.renderWith q
  | text s => s

def WellFormedWith (q : UInt8) : Piece → Prop
  | tag t => t.WellFormedWith q
  | text s => ∀ c ∈ s, c ≠ '<'.toNat.toUInt8

instance (q : UInt8) : (p : Piece) → Decidable (p.WellFormedWith q)
  | tag t => inferInstanceAs (Decidable (t.WellFormedWith q))
  | text s => List.decidableBAll (fun c => c ≠ '<'.toNat.toUInt8) s

def tokens : Piece → List Token
  | tag t => [.tag t]
  | text s => s.map .char

def tags : Piece → List Tag
  | tag t => [t]
  | text _ => []

end Piece

lemma tags_pieces (pieces : List Piece) :
    tags (pieces.flatMap Piece.tokens) = pieces.flatMap Piece.tags := by
  induction pieces with
  | nil => rfl
  | cons p pieces ih =>
    rw [List.flatMap_cons, List.flatMap_cons, tags_append, ih]
    cases p with
    | tag t => rfl
    | text s => rw [Piece.tokens, tags_chars, Piece.tags]

/-- A document is scanned piece by piece. -/
theorem scan_pieces {q : UInt8} (hq : IsQuote q) {pieces : List Piece}
    (h : ∀ p ∈ pieces, p.WellFormedWith q) :
    scan (pieces.flatMap (Piece.renderWith q)) = some (pieces.flatMap Piece.tokens) := by
  induction pieces with
  | nil => rfl
  | cons p pieces ih =>
    obtain ⟨hp, hpieces⟩ := List.forall_mem_cons.mp h
    rw [List.flatMap_cons, List.flatMap_cons]
    apply scan_append _ (ih hpieces)
    cases p with
    | tag t => exact scan_renderWith hq hp
    | text s => exact scan_text hp

@[simp] lemma leadingText_tag (t : Tag) (tokens : List Token) :
    leadingText (.tag t :: tokens) = [] := rfl

@[simp] lemma leadingText_chars_append (s : ByteString) (tokens : List Token) :
    leadingText (s.map .char ++ tokens) = s ++ leadingText tokens := by
  induction s with
  | nil => rfl
  | cons c s ih => exact congrArg (c :: ·) ih

@[simp] lemma elements_nil (n : ByteString) : elements n [] = [] := rfl

@[simp] lemma elements_tag (n : ByteString) (t : Tag) (tokens : List Token) :
    elements n (.tag t :: tokens) =
      if t.starts n then (t, leadingText tokens) :: elements n tokens else elements n tokens := rfl

@[simp] lemma elements_chars_append (n s : ByteString) (tokens : List Token) :
    elements n (s.map .char ++ tokens) = elements n tokens := by
  induction s with
  | nil => rfl
  | cons c s ih => exact ih

@[simp] lemma elements_chars (n s : ByteString) : elements n (s.map .char) = [] := by
  simpa using elements_chars_append n s []

lemma leadingText_append_tag (a : List Token) (t : Tag) (b : List Token) :
    leadingText (a ++ .tag t :: b) = leadingText a := by
  induction a with
  | nil => rfl
  | cons token a ih =>
    cases token with
    | char c => exact congrArg (c :: ·) ih
    | tag u => rfl

/-- The text of an element does not go beyond the next tag. -/
lemma elements_append_tag (n : ByteString) (a : List Token) (t : Tag) (b : List Token) :
    elements n (a ++ .tag t :: b) = elements n a ++ elements n (.tag t :: b) := by
  induction a with
  | nil => rfl
  | cons token a ih =>
    cases token with
    | char c => exact ih
    | tag u =>
      rw [List.cons_append, elements, elements, leadingText_append_tag, ih]
      split_ifs <;> rfl

@[simp] lemma starts_closing (n m : ByteString) (as : List (ByteString × ByteString)) :
    Tag.starts n ⟨.closing, m, as⟩ = false := rfl

/-- Pieces in which no element of the name begins. -/
lemma elements_pieces_append {n : ByteString} {pieces : List Piece}
    (h : ∀ t ∈ pieces.flatMap Piece.tags, t.starts n = false) (tokens : List Token) :
    elements n (pieces.flatMap Piece.tokens ++ tokens) = elements n tokens := by
  induction pieces with
  | nil => rfl
  | cons p pieces ih =>
    rw [List.flatMap_cons, List.forall_mem_append] at h
    rw [List.flatMap_cons, List.append_assoc]
    cases p with
    | tag t =>
      rw [Piece.tokens, List.singleton_append, elements_tag,
        if_neg (by simpa using h.1 t (.head _)), ih h.2]
    | text s => rw [Piece.tokens, elements_chars_append, ih h.2]

/-- The elements are the tags that begin them. -/
lemma map_fst_elements (n : ByteString) (tokens : List Token) :
    (elements n tokens).map Prod.fst = (tags tokens).filter (Tag.starts n) := by
  induction tokens with
  | nil => rfl
  | cons token tokens ih =>
    cases token with
    | char c => exact ih
    | tag t => cases h : t.starts n <;> simp [h, ih]

lemma count_eq_length_elements (n : ByteString) (tokens : List Token) :
    count n tokens = (elements n tokens).length := by
  rw [count, List.countP_eq_length_filter, ← map_fst_elements, List.length_map]

@[simp] lemma count_append (n : ByteString) (a b : List Token) :
    count n (a ++ b) = count n a + count n b := by
  simp [count]

end Xml
