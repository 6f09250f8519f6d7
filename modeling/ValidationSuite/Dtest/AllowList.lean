import ValidationSuite.Dtest.Policy
import ValidationSuite.Library.Path

/-!
# What an allow list permits

The comparison of `check_command` (`dtest/src/policy.cpp`) works on bytes. On paths in normal form
it means what the allow list says: a command is permitted if an entry names it, or if an entry
names a directory it lies below.
-/

namespace Dtest

open ByteString Path

/-- `canonical`: `std::filesystem::weakly_canonical`, or the lexical normal form where that
reports an error. -/
def canonical (weaklyCanonical : ByteString → Option ByteString) (p : ByteString) : ByteString :=
  (weaklyCanonical p).getD (lexicallyNormal p)

/-- The entry is the command, or a directory above it. An entry that ends in a slash is a
directory. -/
def Covers (canon : ByteString → ByteString) (entry argv0 : ByteString) : Prop :=
  entry.getLast? ≠ some Path.slash ∧ canon argv0 = canon entry ∨
    entry.getLast? = some Path.slash ∧ Below (canon entry) (canon argv0)

variable {canon : ByteString → ByteString} {policy : Policy} {entry argv0 : ByteString}

lemma slash_eq : slash = Path.slash := rfl

lemma entryAllows_file (hne : entry ≠ []) (hfile : entry.getLast? ≠ some Path.slash) :
    entryAllows canon (canon argv0) entry = true ↔ canon argv0 = canon entry := by
  have hlast : ¬(entry.getLast? == some Path.slash) = true := fun h => hfile (beq_iff_eq.mp h)
  rw [entryAllows, if_neg (by simpa using hne), slash_eq]
  simp only [hlast, Bool.false_eq_true, if_false, beq_iff_eq]

lemma entryAllows_dir (hdir : entry.getLast? = some Path.slash) :
    entryAllows canon (canon argv0) entry = true ↔
      (asDir (canon entry)).length < (canon argv0).length ∧
        asDir (canon entry) <+: canon argv0 := by
  have hne : ¬entry.isEmpty = true := fun h => by
    rw [List.isEmpty_iff.mp h] at hdir
    cases hdir
  rw [entryAllows, if_neg hne, slash_eq]
  simp only [hdir, beq_self_eq_true, if_true, Bool.and_eq_true, decide_eq_true_eq,
    List.isPrefixOf_iff_prefix, beq_iff_eq, asDir]

lemma entryAllows_iff (hcanon : ∀ p, Absolute p → Normal (canon p))
    (hentry : entry = [] ∨ Absolute entry) (hargv0 : Absolute argv0) :
    entryAllows canon (canon argv0) entry = true ↔ entry ≠ [] ∧ Covers canon entry argv0 := by
  rcases hentry with rfl | hentry
  · simp [entryAllows]
  · have hne : entry ≠ [] := by
      rintro rfl
      cases hentry
    rw [Covers, and_iff_right hne]
    by_cases hdir : entry.getLast? = some Path.slash
    · rw [entryAllows_dir hdir, (hcanon entry hentry).below_iff (hcanon argv0 hargv0)]
      simp only [hdir, ne_eq, not_true, false_and, true_and, false_or]
    · rw [entryAllows_file hne hdir]
      simp only [hdir, ne_eq, not_false_iff, true_and, false_and, or_false]

/-- No refusal is without a reason. -/
lemma checkCommand_eq_nil (hany : policy.allowAny = false) :
    checkCommand canon policy argv0 = [] ↔
      Absolute argv0 ∧ ∃ entry ∈ policy.allow, entryAllows canon (canon argv0) entry = true := by
  rw [checkCommand, if_neg (by simp [hany]), slash_eq]
  by_cases habs : Absolute argv0
  · rw [if_neg (fun h => bne_iff_ne.mp h habs), ← List.any_eq_true]
    split_ifs with hallow
    · simp only [habs, hallow, true_and]
    · simp only [habs, hallow, true_and, Bool.false_eq_true, iff_false]
      exact List.append_ne_nil_of_right_ne_nil _ (by simp [lit])
  · rw [if_pos (bne_iff_ne.mpr habs)]
    simp only [habs, false_and, iff_false]
    exact List.append_ne_nil_of_right_ne_nil _ (by simp [lit])

lemma permitted_iff (argv0 : ByteString) (hcanon : ∀ p, Absolute p → Normal (canon p))
    (hany : policy.allowAny = false)
    (hallow : ∀ entry ∈ policy.allow, entry = [] ∨ Absolute entry) :
    checkCommand canon policy argv0 = [] ↔
      Absolute argv0 ∧ ∃ entry ∈ policy.allow, entry ≠ [] ∧ Covers canon entry argv0 := by
  rw [checkCommand_eq_nil hany]
  refine and_congr_right fun habs => exists_congr fun entry => and_congr_right fun hmem => ?_
  exact entryAllows_iff hcanon (hallow entry hmem) habs

/-- Nothing is below a directory but what has all its components and more. -/
lemma not_covers_dir {dir : ByteString} (hdir : dir.getLast? = some Path.slash)
    (h : ¬Below (canon dir) (canon argv0)) : ¬Covers canon dir argv0 := by
  rintro (⟨hfile, -⟩ | ⟨-, hbelow⟩)
  · exact hfile hdir
  · exact h hbelow

/-- The allow list means what it says: a command is permitted exactly if it is an absolute path
that an entry names, or that lies below a directory an entry names. So the spelling of a path does
not matter, and neither the directory itself is permitted nor a sibling whose name goes on after
that of the directory. -/
theorem allow_list_sound_and_complete (canon : ByteString → ByteString)
    (hcanon : ∀ p, Absolute p → Normal (canon p)) (policy : Policy)
    (hany : policy.allowAny = false)
    (hallow : ∀ entry ∈ policy.allow, entry = [] ∨ Absolute entry) (argv0 : ByteString) :
    (checkCommand canon policy argv0 = [] ↔
      Absolute argv0 ∧ ∃ entry ∈ policy.allow, entry ≠ [] ∧ Covers canon entry argv0) ∧
    (∀ argv0', Absolute argv0 → Absolute argv0' → canon argv0 = canon argv0' →
      (checkCommand canon policy argv0 = [] ↔ checkCommand canon policy argv0' = [])) ∧
    (∀ dir, dir.getLast? = some Path.slash → (∀ entry ∈ policy.allow, entry = [] ∨ entry = dir) →
      (components (canon argv0) = components (canon dir) →
        checkCommand canon policy argv0 ≠ []) ∧
      (∀ above name more below, components (canon dir) = above ++ [name] → more ≠ [] →
        components (canon argv0) = above ++ (name ++ more) :: below →
        checkCommand canon policy argv0 ≠ [])) := by
  have hiff : ∀ argv0, _ := fun argv0 => permitted_iff argv0 hcanon hany hallow
  refine ⟨hiff argv0, ?_, ?_⟩
  · intro argv0' habs habs' heq
    simp only [hiff, habs, habs', Covers, heq]
  · intro dir hdir honly
    have hrefused : ¬Below (canon dir) (canon argv0) → checkCommand canon policy argv0 ≠ [] := by
      intro hbelow hpermitted
      obtain ⟨-, entry, hmem, hne, hcovers⟩ := (hiff argv0).mp hpermitted
      obtain rfl := (honly entry hmem).resolve_left hne
      exact not_covers_dir hdir hbelow hcovers
    refine ⟨fun heq => hrefused ?_, fun above name more below hname hmore heq => hrefused ?_⟩
    · rintro ⟨c, cs, hcs⟩
      rw [heq] at hcs
      exact absurd hcs (by simp)
    · rintro ⟨c, cs, hcs⟩
      rw [heq, hname, List.append_assoc] at hcs
      have hhead := (List.cons.inj (List.append_cancel_left hcs)).1
      exact hmore (List.append_right_eq_self.mp hhead)

/-- A path that leaves the allowed directory through `..` is judged by where it leads. -/
theorem allow_list_bin :
    checkCommand (canonical fun _ => none) { allow := [lit "/usr/bin/"] }
      (lit "/usr/bin/./tools//cc") = [] ∧
    checkCommand (canonical fun _ => none) { allow := [lit "/usr/bin/"] }
      (lit "/usr/bin/../sbin/x") ≠ [] := by
  have hcanon : ∀ p, Absolute p → Normal (canonical (fun _ => none) p) :=
    fun p _ => normal_lexicallyNormal p
  have hallow : ∀ entry ∈ [lit "/usr/bin/"], entry = [] ∨ Absolute entry := by decide
  constructor
  · refine (allow_list_sound_and_complete _ hcanon { allow := [lit "/usr/bin/"] } rfl hallow
      _).1.mpr ⟨by decide, lit "/usr/bin/", by decide, by decide, .inr ⟨by decide, ?_⟩⟩
    exact ⟨lit "tools", [lit "cc"], by decide⟩
  · intro hpermitted
    obtain ⟨-, entry, hmem, -, hcovers⟩ := (allow_list_sound_and_complete _ hcanon
      { allow := [lit "/usr/bin/"] } rfl hallow _).1.mp hpermitted
    obtain rfl := List.mem_singleton.mp hmem
    refine not_covers_dir (by decide) ?_ hcovers
    rintro ⟨c, cs, hcs⟩
    have hbin : lit "sbin" = lit "bin" := (List.cons.inj (List.cons.inj hcs).2).1
    exact absurd hbin (by decide)

end Dtest
