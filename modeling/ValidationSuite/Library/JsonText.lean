import ValidationSuite.Library.ByteString

/-!
# JSON texts

A reader of JSON that takes one byte after the other: where it stands in a value, with the arrays
and objects around it on a stack. It accepts what the grammar of JSON derives. A number keeps the
text it is written as and an object the order of its members; bytes from 0x80 on stand for
themselves.
-/

namespace JsonText

open ByteString

inductive Value where
  | null
  | bool (b : Bool)
  | number (text : ByteString)
  | string (s : ByteString)
  | array (elements : List Value)
  | object (members : List (ByteString × Value))

/-! ### Strings -/

/-- Where the reader stands in a string. In a `\u` escape it keeps how many digits are missing, what
the digits so far come to, and the first half of a pair of surrogates. -/
inductive StringMode where
  | plain
  | escape
  | hex (missing value : ℕ) (high : Option ℕ)
  /-- the second half of the pair must follow -/
  | lowSlash (high : ℕ)
  | lowU (high : ℕ)

/-- Between the bytes and the escapes of a string. -/
def StringMode.isPlain : StringMode → Bool
  | plain => true
  | _ => false

/-- The byte that a backslash and a letter stand for. -/
def shortEscape? (c : UInt8) : Option UInt8 :=
  if c = '"'.toNat.toUInt8 ∨ c = '\\'.toNat.toUInt8 ∨ c = '/'.toNat.toUInt8 then some c
  else if c = 'b'.toNat.toUInt8 then some 0x08
  else if c = 'f'.toNat.toUInt8 then some 0x0c
  else if c = 'n'.toNat.toUInt8 then some 0x0a
  else if c = 'r'.toNat.toUInt8 then some 0x0d
  else if c = 't'.toNat.toUInt8 then some 0x09
  else none

def hexDigit? (c : UInt8) : Option ℕ :=
  if isDigit c then some (c.toNat - 0x30)
  else if 0x61 ≤ c ∧ c ≤ 0x66 then some (c.toNat - 0x61 + 10)
  else if 0x41 ≤ c ∧ c ≤ 0x46 then some (c.toNat - 0x41 + 10)
  else none

/-- What the four digits of an escape stand for, perhaps with those of the escape before it. -/
def codeUnit (value : ℕ) : Option ℕ → Option (ByteString × StringMode)
  | none =>
    if 0xd800 ≤ value ∧ value < 0xdc00 then some ([], .lowSlash value)
    else if 0xdc00 ≤ value ∧ value < 0xe000 then none
    else some (String.utf8EncodeChar (Char.ofNat value), .plain)
  | some high =>
    if 0xdc00 ≤ value ∧ value < 0xe000 then
      some (String.utf8EncodeChar
        (Char.ofNat (0x10000 + (high - 0xd800) * 0x400 + (value - 0xdc00))), .plain)
    else none

/-- The bytes that the next byte of a string adds, and where the reader goes. The quote that ends
the string is not one of its bytes. -/
def StringMode.next (c : UInt8) : StringMode → Option (ByteString × StringMode)
  | plain =>
    if c = '\\'.toNat.toUInt8 then some ([], escape)
    else if c = '"'.toNat.toUInt8 ∨ c < 0x20 then none
    else some ([c], plain)
  | escape =>
    if c = 'u'.toNat.toUInt8 then some ([], hex 4 0 none)
    else (shortEscape? c).map fun b => ([b], plain)
  | hex missing value high =>
    (hexDigit? c).bind fun d =>
      if missing = 1 then codeUnit (16 * value + d) high
      else some ([], hex (missing - 1) (16 * value + d) high)
  | lowSlash high => if c = '\\'.toNat.toUInt8 then some ([], lowU high) else none
  | lowU high => if c = 'u'.toNat.toUInt8 then some ([], hex 4 0 (some high)) else none

def unescapeFrom : StringMode → ByteString → Option ByteString
  | .plain, [] => some []
  | _, [] => none
  | m, c :: s => (m.next c).bind fun (out, m') => (unescapeFrom m' s).map (out ++ ·)

/-- The string that is written between the quotes, unless it cannot stand there. -/
def unescape (s : ByteString) : Option ByteString := unescapeFrom .plain s

lemma unescapeFrom_cons {m m' : StringMode} {c : UInt8} {out : ByteString}
    (h : m.next c = some (out, m')) (s : ByteString) :
    unescapeFrom m (c :: s) = (unescapeFrom m' s).map (out ++ ·) := by
  rw [unescapeFrom, h]
  rfl

lemma unescapeFrom_silent {m m' : StringMode} {c : UInt8} (h : m.next c = some ([], m'))
    (s : ByteString) : unescapeFrom m (c :: s) = unescapeFrom m' s := by
  rw [unescapeFrom_cons h]
  exact Option.map_id_apply

/-! ### Numbers -/

/-- What has been read of a number. -/
inductive NumberMode where
  | minus
  | zero
  | integer
  | point
  | fraction
  | exponent
  | exponentSign
  | exponentDigits

namespace NumberMode

/-- Where a number begins. -/
def start? (c : UInt8) : Option NumberMode :=
  if c = '-'.toNat.toUInt8 then some minus
  else if c = '0'.toNat.toUInt8 then some zero
  else if isDigit c then some integer
  else none

/-- After the digits before the point. -/
def afterInteger (c : UInt8) : Option NumberMode :=
  if c = '.'.toNat.toUInt8 then some point
  else if c = 'e'.toNat.toUInt8 ∨ c = 'E'.toNat.toUInt8 then some exponent
  else none

def next (c : UInt8) : NumberMode → Option NumberMode
  | minus => if c = '0'.toNat.toUInt8 then some zero else if isDigit c then some integer else none
  | zero => afterInteger c
  | integer => if isDigit c then some integer else afterInteger c
  | point => if isDigit c then some fraction else none
  | fraction =>
    if isDigit c then some fraction
    else if c = 'e'.toNat.toUInt8 ∨ c = 'E'.toNat.toUInt8 then some exponent
    else none
  | exponent =>
    if c = '+'.toNat.toUInt8 ∨ c = '-'.toNat.toUInt8 then some exponentSign
    else if isDigit c then some exponentDigits
    else none
  | exponentSign => if isDigit c then some exponentDigits else none
  | exponentDigits => if isDigit c then some exponentDigits else none

/-- May the number end here? -/
def complete : NumberMode → Bool
  | zero | integer | fraction | exponentDigits => true
  | minus | point | exponent | exponentSign => false

end NumberMode

/-! ### Values -/

/-- An array or an object that is not closed yet, with what has been read of it. -/
inductive Frame where
  | array (elements : List Value)
  | object (members : List (ByteString × Value))
  /-- an object in which the value of a key comes next -/
  | member (members : List (ByteString × Value)) (key : ByteString)

/-- Where the reader stands, inside the frames around it. -/
inductive Mode where
  /-- before a value; at the start of an array it may be closed instead -/
  | value (start : Bool)
  /-- before a key; at the start of an object it may be closed instead -/
  | key (start : Bool)
  | colon (key : ByteString)
  | string (isKey : Bool) (m : StringMode) (s : ByteString)
  /-- the rest of `null`, `true` or `false` -/
  | word (rest : ByteString) (v : Value)
  | number (m : NumberMode) (text : ByteString)
  /-- after an element or a member -/
  | after
  /-- after the value of the whole text -/
  | done (v : Value)

abbrev State := Mode × List Frame

def isSpace (c : UInt8) : Bool := c == 0x20 || c == 0x09 || c == 0x0a || c == 0x0d

/-- A value is complete. -/
def complete (v : Value) : List Frame → Option State
  | [] => some (.done v, [])
  | .array es :: frames => some (.after, .array (es ++ [v]) :: frames)
  | .member ms k :: frames => some (.after, .object (ms ++ [(k, v)]) :: frames)
  | .object _ :: _ => none

/-- The next byte after a complete value. -/
def afterNext (c : UInt8) : State → Option State
  | (.after, .array es :: frames) =>
    if isSpace c then some (.after, .array es :: frames)
    else if c = ','.toNat.toUInt8 then some (.value false, .array es :: frames)
    else if c = ']'.toNat.toUInt8 then complete (.array es) frames
    else none
  | (.after, .object ms :: frames) =>
    if isSpace c then some (.after, .object ms :: frames)
    else if c = ','.toNat.toUInt8 then some (.key false, .object ms :: frames)
    else if c = '}'.toNat.toUInt8 then complete (.object ms) frames
    else none
  | (.done v, []) => if isSpace c then some (.done v, []) else none
  | _ => none

/-- The next byte where a value is expected. -/
def valueNext (start : Bool) (c : UInt8) (frames : List Frame) : Option State :=
  if isSpace c then some (.value start, frames)
  else if c = '"'.toNat.toUInt8 then some (.string false .plain [], frames)
  else if c = '\x7b'.toNat.toUInt8 then some (.key true, .object [] :: frames)
  else if c = '['.toNat.toUInt8 then some (.value true, .array [] :: frames)
  else if c = 'n'.toNat.toUInt8 then some (.word (lit "ull") .null, frames)
  else if c = 't'.toNat.toUInt8 then some (.word (lit "rue") (.bool true), frames)
  else if c = 'f'.toNat.toUInt8 then some (.word (lit "alse") (.bool false), frames)
  else if c = ']'.toNat.toUInt8 ∧ start then
    match frames with
    | .array es :: frames => complete (.array es) frames
    | _ => none
  else (NumberMode.start? c).map fun m => (.number m [c], frames)

def keyNext (start : Bool) (c : UInt8) (frames : List Frame) : Option State :=
  if isSpace c then some (.key start, frames)
  else if c = '"'.toNat.toUInt8 then some (.string true .plain [], frames)
  else if c = '\x7d'.toNat.toUInt8 ∧ start then
    match frames with
    | .object ms :: frames => complete (.object ms) frames
    | _ => none
  else none

/-- The next byte of a string, or the quote after it. -/
def stringNext (isKey : Bool) (m : StringMode) (s : ByteString) (c : UInt8)
    (frames : List Frame) : Option State :=
  if m.isPlain ∧ c = '"'.toNat.toUInt8 then
    if isKey then some (.colon s, frames) else complete (.string s) frames
  else (m.next c).map fun (out, m') => (.string isKey m' (s ++ out), frames)

def next (c : UInt8) : State → Option State
  | (.value start, frames) => valueNext start c frames
  | (.key start, frames) => keyNext start c frames
  | (.colon k, frames) =>
    if isSpace c then some (.colon k, frames)
    else if c = ':'.toNat.toUInt8 then
      match frames with
      | .object ms :: frames => some (.value false, .member ms k :: frames)
      | _ => none
    else none
  | (.string isKey m s, frames) => stringNext isKey m s c frames
  | (.word rest v, frames) =>
    match rest with
    | [] => none
    | [b] => if c = b then complete v frames else none
    | b :: rest => if c = b then some (.word rest v, frames) else none
  | (.number m text, frames) =>
    match m.next c with
    | some m' => some (.number m' (text ++ [c]), frames)
    | none => if m.complete then (complete (.number text) frames).bind (afterNext c) else none
  | st => afterNext c st

def run (st : State) : ByteString → Option State
  | [] => some st
  | c :: s => (next c st).bind fun st' => run st' s

/-- The value of a text that has been read to its end. -/
def finish : State → Option Value
  | (.done v, []) => some v
  | (.number m text, []) => if m.complete then some (.number text) else none
  | _ => none

def parse (s : ByteString) : Option Value := (run (.value false, []) s).bind finish

/-! ### Reading in parts -/

lemma run_append (st : State) (s t : ByteString) :
    run st (s ++ t) = (run st s).bind fun st' => run st' t := by
  induction s generalizing st with
  | nil => rfl
  | cons c s ih =>
    rw [List.cons_append, run, run, Option.bind_assoc]
    exact congrArg _ (funext fun st' => ih st')

lemma run_trans {st st' : State} {s : ByteString} (h : run st s = some st') (t : ByteString) :
    run st (s ++ t) = run st' t := by
  rw [run_append, h, Option.bind_some]

/-- Inside a string, what `unescapeFrom` says about its bytes. -/
lemma run_string {m : StringMode} {s t : ByteString} (h : unescapeFrom m s = some t)
    (isKey : Bool) (a : ByteString) (frames : List Frame) :
    run (.string isKey m a, frames) s = some (.string isKey .plain (a ++ t), frames) := by
  induction s generalizing m t a with
  | nil =>
    cases m with
    | plain =>
      obtain rfl : [] = t := by simpa [unescapeFrom] using h
      rw [List.append_nil]
      rfl
    | _ => simp [unescapeFrom] at h
  | cons c s ih =>
    rw [unescapeFrom, Option.bind_eq_some_iff] at h
    obtain ⟨⟨out, m'⟩, hnext, h⟩ := h
    obtain ⟨u, hu, rfl⟩ := Option.map_eq_some_iff.mp h
    -- the quote that ends a string is none of its bytes
    have hquote : ¬ (m.isPlain ∧ c = '"'.toNat.toUInt8) := by
      rintro ⟨hplain, rfl⟩
      cases m with
      | plain => simp [StringMode.next] at hnext
      | _ => simp [StringMode.isPlain] at hplain
    have hstep : next c (.string isKey m a, frames) =
        some (.string isKey m' (a ++ out), frames) := by
      rw [next, stringNext, if_neg hquote, hnext]
      rfl
    rw [run, hstep, Option.bind_some, ih hu, List.append_assoc]

end JsonText
