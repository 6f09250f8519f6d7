import Mathlib.Data.List.Basic
import ValidationSuite.Library.ByteString

/-!
# Absolute paths

An absolute path as a string of bytes and as the list of its components, its normal form, and what
it means for one path to lie below another.
-/

namespace Path

open ByteString

def slash : UInt8 := '/'.toNat.toUInt8

/-- A path that starts at the root. -/
def Absolute (p : ByteString) : Prop := p.head? = some slash

instance (p : ByteString) : Decidable (Absolute p) := inferInstanceAs (Decidable (_ = _))

/-- What stands before the first slash, and the segments after it. -/
def split : ByteString → ByteString × List ByteString
  | [] => ([], [])
  | c :: p => if c = slash then ([], (split p).1 :: (split p).2) else (c :: (split p).1, (split p).2)

/-- The segments between the slashes. -/
def segments (p : ByteString) : List ByteString := (split p).1 :: (split p).2

/-- The segments that are not empty. -/
def components (p : ByteString) : List ByteString := (segments p).filter fun s => !s.isEmpty

/-- The path with the given components, each after a slash. -/
def render (cs : List ByteString) : ByteString := cs.flatMap fun c => slash :: c

/-- A name that stands for itself. -/
structure Component (c : ByteString) : Prop where
  nonempty : c ≠ []
  noSlash : slash ∉ c
  notDot : c ≠ lit "."
  notDotDot : c ≠ lit ".."

/-- An absolute path in normal form: its components, and possibly one slash at the end. Without
components the slash at the end is the root. -/
inductive Normal : ByteString → Prop
  | file {cs : List ByteString} (hcs : ∀ c ∈ cs, Component c) (hne : cs ≠ []) : Normal (render cs)
  | dir {cs : List ByteString} (hcs : ∀ c ∈ cs, Component c) : Normal (render cs ++ [slash])

@[simp] lemma render_nil : render [] = [] := rfl

lemma render_cons (c : ByteString) (cs : List ByteString) :
    render (c :: cs) = slash :: (c ++ render cs) := rfl

lemma render_append (cs ds : List ByteString) : render (cs ++ ds) = render cs ++ render ds :=
  List.flatMap_append

lemma split_slash (p : ByteString) : split (slash :: p) = ([], segments p) := by
  rw [split, if_pos rfl, segments]

lemma split_append {c : ByteString} (hc : slash ∉ c) (p : ByteString) :
    split (c ++ p) = (c ++ (split p).1, (split p).2) := by
  induction c with
  | nil => rfl
  | cons b c ih =>
    obtain ⟨hb, hc⟩ := not_or.mp fun h => hc (List.mem_cons.mpr h)
    rw [List.cons_append, split, if_neg (Ne.symm hb), ih hc]
    rfl

lemma split_render {cs : List ByteString} (hcs : ∀ c ∈ cs, Component c) :
    split (render cs) = ([], cs) := by
  induction cs with
  | nil => rfl
  | cons c cs ih =>
    obtain ⟨hc, hcs⟩ := List.forall_mem_cons.mp hcs
    rw [render_cons, split_slash, segments, split_append hc.noSlash, ih hcs, List.append_nil]

lemma split_render_append {cs : List ByteString} (hcs : ∀ c ∈ cs, Component c)
    (rest : ByteString) : split (render cs ++ slash :: rest) = ([], cs ++ segments rest) := by
  induction cs with
  | nil => exact split_slash rest
  | cons c cs ih =>
    obtain ⟨hc, hcs⟩ := List.forall_mem_cons.mp hcs
    rw [render_cons, List.cons_append, split_slash, segments, List.append_assoc,
      split_append hc.noSlash, ih hcs, List.append_nil, List.cons_append]

lemma filter_components {cs : List ByteString} (hcs : ∀ c ∈ cs, Component c) :
    cs.filter (fun s => !s.isEmpty) = cs :=
  List.filter_eq_self.mpr fun c hc => by simpa using (hcs c hc).nonempty

/-- The components of a normal form are what it is made of. -/
@[simp] lemma components_render {cs : List ByteString} (hcs : ∀ c ∈ cs, Component c) :
    components (render cs) = cs := by
  rw [components, segments, split_render hcs, List.filter_cons_of_neg (by simp),
    filter_components hcs]

@[simp] lemma components_render_slash {cs : List ByteString} (hcs : ∀ c ∈ cs, Component c) :
    components (render cs ++ [slash]) = cs := by
  rw [components, segments, split_render_append hcs, List.filter_cons_of_neg (by simp),
    List.filter_append, filter_components hcs]
  exact List.append_nil cs

lemma getLast?_render {cs : List ByteString} (hcs : ∀ c ∈ cs, Component c) :
    (render cs).getLast? ≠ some slash := by
  rcases List.eq_nil_or_concat cs with rfl | ⟨ds, c, hcs'⟩
  · exact nofun
  · rw [List.concat_eq_append] at hcs'
    subst hcs'
    have hc : Component c := hcs c (by simp)
    obtain ⟨b, hb⟩ : ∃ b, c.getLast? = some b :=
      ⟨_, List.getLast?_eq_some_getLast hc.nonempty⟩
    have hlast : (render (ds ++ [c])).getLast? = some b := by
      rw [render_append, render_cons, render_nil, List.append_nil, ← List.singleton_append]
      simp only [List.getLast?_append, hb, Option.some_or]
    rw [hlast, Ne, Option.some.injEq]
    rintro rfl
    exact hc.noSlash (List.mem_of_getLast? hb)

/-- A normal form is its components, with or without a slash at the end. -/
lemma Normal.eq_render {p : ByteString} (h : Normal p) :
    p = render (components p) ∨ p = render (components p) ++ [slash] := by
  cases h with
  | file hcs _ => exact .inl (by rw [components_render hcs])
  | dir hcs => exact .inr (by rw [components_render_slash hcs])

lemma Normal.component {p : ByteString} (h : Normal p) : ∀ c ∈ components p, Component c := by
  cases h with
  | file hcs _ => rwa [components_render hcs]
  | dir hcs => rwa [components_render_slash hcs]

/-- The path with one slash at the end. -/
def asDir (p : ByteString) : ByteString := if p.getLast? = some slash then p else p ++ [slash]

lemma Normal.asDir {p : ByteString} (h : Normal p) :
    asDir p = render (components p) ++ [slash] := by
  cases h with
  | file hcs _ => rw [components_render hcs, Path.asDir, if_neg (getLast?_render hcs)]
  | dir hcs =>
    rw [components_render_slash hcs, Path.asDir, if_pos]
    exact List.getLast?_concat

/-- `t` lies below `d`: it has the components of `d` and at least one more. -/
def Below (d t : ByteString) : Prop :=
  ∃ c cs, components t = components d ++ c :: cs

/-- Comparing bytes tells whether a path lies below a directory: the slash at the end of the
directory is part of the comparison. -/
theorem Normal.below_iff {d t : ByteString} (hd : Normal d) (ht : Normal t) :
    ((Path.asDir d).length < t.length ∧ Path.asDir d <+: t) ↔ Below d t := by
  rw [hd.asDir, Below]
  constructor
  · rintro ⟨hlt, rest, hrest⟩
    rw [List.append_assoc, List.singleton_append] at hrest
    have hsplit := split_render_append hd.component rest
    rw [hrest] at hsplit
    rcases ht.eq_render with heq | heq
    · rw [heq, split_render ht.component, Prod.mk.injEq] at hsplit
      exact ⟨_, _, hsplit.2⟩
    · rw [heq, split_render_append ht.component, Prod.mk.injEq] at hsplit
      have hsegments : components t ++ [[]] = components d ++ segments rest := hsplit.2
      rcases List.eq_nil_or_concat (split rest).2 with hnil | ⟨more, last, hmore⟩
      · -- one segment after the slash: `t` is the directory itself
        rw [segments, hnil] at hsegments
        obtain ⟨hcs, -⟩ := List.append_inj' hsegments rfl
        rw [heq, hcs] at hlt
        exact absurd hlt (lt_irrefl _)
      · rw [segments, hmore, List.concat_eq_append, ← List.cons_append, ← List.append_assoc]
          at hsegments
        exact ⟨_, _, (List.append_inj' hsegments rfl).1⟩
  · rintro ⟨c, cs, hcs⟩
    have hc : Component c := ht.component c (by simp [hcs])
    have hpos : 0 < c.length := List.length_pos_iff.mpr hc.nonempty
    have hrender : render (components t) =
        render (components d) ++ [slash] ++ (c ++ render cs) := by
      rw [hcs, render_append, render_cons, List.append_assoc, List.singleton_append]
    rcases ht.eq_render with heq | heq <;> rw [heq, hrender]
    · exact ⟨by simp only [List.length_append]; omega, List.prefix_append _ _⟩
    · rw [List.append_assoc (render (components d) ++ [slash])]
      exact ⟨by simp only [List.length_append]; omega, List.prefix_append _ _⟩

/-! ### Lexical normalisation -/

/-- The components read so far, and one segment more. -/
def push (cs : List ByteString) (s : ByteString) : List ByteString :=
  if s = [] ∨ s = lit "." then cs
  else if s = lit ".." then cs.dropLast
  else cs ++ [s]

/-- The normal form of an absolute path as text alone gives it: `.` stands for the directory it is
in, `..` undoes the component before it, and a path that ends in a slash, `.` or `..` keeps a slash
at its end. -/
def lexicallyNormal (p : ByteString) : ByteString :=
  let cs := (segments p).foldl push []
  if cs = [] ∨ (segments p).getLast? ∈ [some [], some (lit "."), some (lit "..")] then
    render cs ++ [slash]
  else render cs

lemma noSlash_of_mem_segments {p s : ByteString} (h : s ∈ segments p) : slash ∉ s := by
  induction p generalizing s with
  | nil => simp_all [segments, split]
  | cons c p ih =>
    by_cases hc : c = slash
    · rw [hc, segments, split_slash] at h
      rcases List.mem_cons.mp h with rfl | h
      · exact List.not_mem_nil
      · exact ih h
    · simp only [segments, split, if_neg hc] at h
      rcases List.mem_cons.mp h with rfl | h
      · exact fun hmem => (List.mem_cons.mp hmem).elim (fun heq => hc heq.symm)
          (ih (List.mem_cons_self ..))
      · exact ih (List.mem_cons_of_mem _ h)

lemma component_push {cs : List ByteString} (hcs : ∀ c ∈ cs, Component c) {s : ByteString}
    (hs : slash ∉ s) : ∀ c ∈ push cs s, Component c := by
  simp only [push]
  split_ifs with hskip hup
  · exact hcs
  · exact fun c hc => hcs c (List.mem_of_mem_dropLast hc)
  · obtain ⟨hne, hdot⟩ := not_or.mp hskip
    exact List.forall_mem_append.mpr ⟨hcs, List.forall_mem_singleton.mpr ⟨hne, hs, hdot, hup⟩⟩

lemma component_foldl_push {ss : List ByteString} (hss : ∀ s ∈ ss, slash ∉ s)
    {cs : List ByteString} (hcs : ∀ c ∈ cs, Component c) :
    ∀ c ∈ ss.foldl push cs, Component c := by
  induction ss generalizing cs with
  | nil => exact hcs
  | cons s ss ih =>
    obtain ⟨hs, hss⟩ := List.forall_mem_cons.mp hss
    exact ih hss (component_push hcs hs)

theorem normal_lexicallyNormal (p : ByteString) : Normal (lexicallyNormal p) := by
  have hcs : ∀ c ∈ (segments p).foldl push [], Component c :=
    component_foldl_push (fun s => noSlash_of_mem_segments) nofun
  simp only [lexicallyNormal]
  split_ifs with hdir
  · exact .dir hcs
  · exact .file hcs fun hnil => hdir (.inl hnil)

end Path
