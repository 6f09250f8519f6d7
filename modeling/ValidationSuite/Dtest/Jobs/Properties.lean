import Mathlib.Data.Fin.VecNotation
import ValidationSuite.Dtest.Jobs.Language

/-!
# The parser accepts the job-file language

Each reader of the parser succeeds exactly on the values the language allows, with the meaning they
have there; no failure comes without a message.
-/

namespace Dtest

open ByteString Except

/-! ### The readers -/

lemma isIntIn_eq_some {v : Json} {lo hi n : ℤ} (hlo : 0 ≤ lo) (hhi : hi < 2 ^ 63) :
    isIntIn v lo hi = some n ↔ v.integer? = some n ∧ lo ≤ n ∧ n ≤ hi := by
  cases hv : v.integer? with
  | none => simp [isIntIn, hv]
  | some k =>
    have hlong := Json.toLong_eq hv
    simp only [isIntIn, hv, Option.isSome_some, if_true, Option.some.injEq]
    split_ifs with hout
    · simp only [false_iff]
      rintro ⟨rfl, hn⟩
      omega
    · rw [Option.some.injEq]
      omega

lemma foldlM_strings {es : List Json} {out r : List ByteString} :
    es.foldlM (fun out e => e.string?.map fun s => out ++ [s]) out = some r ↔
      ∃ ss : List ByteString, es = ss.map .string ∧ r = out ++ ss := by
  induction es generalizing out with
  | nil =>
    simp only [List.foldlM_nil, Option.pure_def, Option.some.injEq]
    constructor
    · rintro rfl
      exact ⟨[], rfl, (List.append_nil _).symm⟩
    · rintro ⟨ss, hss, rfl⟩
      rw [List.map_eq_nil_iff.mp hss.symm, List.append_nil]
  | cons e es ih =>
    simp only [List.foldlM_cons, Option.bind_eq_bind, Option.bind_eq_some_iff,
      Option.map_eq_some_iff, Json.string?_eq_some, ih]
    constructor
    · rintro ⟨_, ⟨s, rfl, rfl⟩, ss, rfl, rfl⟩
      exact ⟨s :: ss, rfl, by rw [List.append_assoc, List.singleton_append]⟩
    · rintro ⟨ss, hss, rfl⟩
      obtain ⟨s, ss, rfl, rfl, rfl⟩ := List.map_eq_cons_iff.mp hss.symm
      exact ⟨_, ⟨s, rfl, rfl⟩, ss, rfl, by rw [List.append_assoc, List.singleton_append]⟩

lemma readStringArray_eq_some {v : Json} {out r : List ByteString} :
    readStringArray v out = some r ↔
      ∃ ss : List ByteString, v = .array (ss.map .string) ∧ r = out ++ ss := by
  simp only [readStringArray, Option.bind_eq_some_iff, Json.elements?_eq_some, foldlM_strings]
  constructor
  · rintro ⟨_, rfl, ss, rfl, rfl⟩
    exact ⟨ss, rfl, rfl⟩
  · rintro ⟨ss, rfl, rfl⟩
    exact ⟨_, rfl, ss, rfl, rfl⟩

/-- What an entry of an environment has to be. -/
def EnvEntry (e : ByteString × Json) : Prop :=
  e.1 ≠ [] ∧ '='.toNat.toUInt8 ∉ e.1 ∧ ∃ s, e.2 = .string s

lemma readEnvEntry_eq_some {out r : List (ByteString × ByteString)} {e : ByteString × Json} :
    readEnvEntry out e = some r ↔ EnvEntry e ∧
      r = AssocList.overlay out (AssocList.mapValues Json.string? [e]) := by
  cases hs : e.2.string? with
  | none =>
    have hne : ∀ s, e.2 ≠ .string s := fun s h => by simp [h, Json.string?] at hs
    simp [readEnvEntry, hs, EnvEntry, hne]
  | some s =>
    obtain ⟨key, value⟩ := e
    obtain rfl : value = .string s := Json.string?_eq_some.mp hs
    have hset : AssocList.overlay out (AssocList.mapValues Json.string? [(key, .string s)]) =
        AssocList.insert key s out := rfl
    have hvalid : EnvEntry (key, .string s) ↔
        ¬(key.isEmpty || key.contains '='.toNat.toUInt8) = true := by
      simp only [EnvEntry, Bool.or_eq_true, List.isEmpty_iff, List.contains_iff_mem, not_or,
        Json.string.injEq, exists_eq', and_true, ne_eq]
    simp only [readEnvEntry, hs]
    rw [hset, hvalid]
    split_ifs with h
    · simp only [h, not_true, false_and]
    · rw [Option.some.injEq, eq_comm]
      exact (and_iff_right h).symm

lemma foldlM_env {es : List (ByteString × Json)} {out r : List (ByteString × ByteString)} :
    es.foldlM readEnvEntry out = some r ↔
      (∀ e ∈ es, EnvEntry e) ∧
        r = AssocList.overlay out (AssocList.mapValues Json.string? es) := by
  induction es generalizing out with
  | nil => simp [AssocList.mapValues, AssocList.overlay, eq_comm]
  | cons e es ih =>
    have hcons : AssocList.mapValues Json.string? (e :: es) =
        AssocList.mapValues Json.string? [e] ++ AssocList.mapValues Json.string? es :=
      List.filterMap_append (l := [e])
    simp only [List.foldlM_cons, Option.bind_eq_bind, Option.bind_eq_some_iff,
      readEnvEntry_eq_some, ih, List.forall_mem_cons, hcons, AssocList.overlay,
      List.foldl_append]
    constructor
    · rintro ⟨_, ⟨he, rfl⟩, hes, rfl⟩
      exact ⟨⟨he, hes⟩, rfl⟩
    · rintro ⟨⟨he, hes⟩, rfl⟩
      exact ⟨_, ⟨he, rfl⟩, hes, rfl⟩

lemma readEnv_eq_some {v : Json} {r : List (ByteString × ByteString)} :
    readEnv v [] = some r ↔
      EnvObject v ∧ ∃ m, v = .object m ∧ r = AssocList.mapValues Json.string? m.entries := by
  have hvalid : ∀ m : Members, (∀ e ∈ m.entries, EnvEntry e) ↔ ∀ key value,
      m.get? key = some value →
        key ≠ [] ∧ '='.toNat.toUInt8 ∉ key ∧ ∃ s, value = Json.string s := fun m => by
    simp only [Prod.forall, SortedMap.mem_entries, EnvEntry]
  have hnil : ∀ m : Members, AssocList.overlay [] (AssocList.mapValues Json.string? m.entries) =
      AssocList.mapValues Json.string? m.entries := fun m =>
    AssocList.overlay_nil (m.sorted_entries.mapValues _)
  simp only [readEnv, Option.bind_eq_some_iff, Json.members?_eq_some, foldlM_env, hvalid, hnil,
    EnvObject]
  constructor
  · rintro ⟨m, rfl, hm, rfl⟩
    exact ⟨⟨m, rfl, hm⟩, m, rfl, rfl⟩
  · rintro ⟨⟨m, rfl, hm⟩, m', hm', rfl⟩
    obtain rfl := Json.object.inj hm'
    exact ⟨m, rfl, hm, rfl⟩

lemma checkKeys_eq_none {m : Members} {allowed : List ByteString} :
    checkKeys m allowed = none ↔ OnlyKeys m allowed := by
  simp [checkKeys, OnlyKeys]

lemma readName_eq_some {v : Json} {s : ByteString} :
    readName v = some s ↔ v = .string s ∧ s ≠ [] := by
  simp [readName, Option.filter_eq_some_iff, Json.string?_eq_some]

/-! ### Optional members -/

/-- Reading an optional member, where `P` says which values are read and `get` what they yield. -/
lemma optional_eq_ok {α : Type} {m : Members} {key : String} {read : Json → Option α}
    {fallback a : α} {message : ByteString} (P : Json → Prop) (get : Json → Option α)
    (hread : ∀ v a, read v = some a ↔ P v ∧ get v = some a) (hget : ∀ v, P v → (get v).isSome) :
    optional m key read fallback message = .ok a ↔
      Member m key P ∧ a = ((m.get? (lit key)).bind get).getD fallback := by
  cases hv : m.get? (lit key) with
  | none => simp [optional, Member, hv, eq_comm]
  | some v =>
    simp only [optional, Member, hv, demand_eq_ok, hread, Option.some.injEq, forall_eq',
      Option.bind_some]
    constructor
    · rintro ⟨hP, ha⟩
      exact ⟨hP, by rw [ha, Option.getD_some]⟩
    · rintro ⟨hP, rfl⟩
      obtain ⟨b, hb⟩ := Option.isSome_iff_exists.mp (hget v hP)
      exact ⟨hP, by rw [hb, Option.getD_some]⟩

lemma optional_int {m : Members} {key : String} {lo hi fallback n : ℤ} {message : ByteString}
    (hlo : 0 ≤ lo) (hhi : hi < 2 ^ 63) :
    optional m key (isIntIn · lo hi) fallback message = .ok n ↔
      Member m key (InRange lo hi) ∧ n = (m.int? key).getD fallback := by
  refine optional_eq_ok _ _ (fun v a => ?_) fun v ⟨n, hn, _⟩ => hn ▸ rfl
  rw [isIntIn_eq_some hlo hhi]
  constructor
  · rintro ⟨ha, h⟩
    exact ⟨⟨a, ha, h⟩, ha⟩
  · rintro ⟨⟨b, hb, h⟩, ha⟩
    obtain rfl := Option.some.inj (hb.symm.trans ha)
    exact ⟨ha, h⟩

lemma filterMap_strings (ss : List ByteString) :
    (ss.map Json.string).filterMap Json.string? = ss := by
  rw [List.filterMap_map]
  exact List.filterMap_some

lemma optional_strings {m : Members} {key : String} {fallback ss : List ByteString}
    {message : ByteString} :
    optional m key (readStringArray · []) fallback message = .ok ss ↔
      Member m key StringArray ∧ ss = (m.strings? key).getD fallback := by
  rw [optional_eq_ok StringArray fun v => v.elements?.map fun es => es.filterMap Json.string?]
  · rw [Members.strings?, Option.map_bind]
    rfl
  · intro v a
    simp only [readStringArray_eq_some, List.nil_append, StringArray, Option.map_eq_some_iff,
      Json.elements?_eq_some]
    constructor
    · rintro ⟨ss, rfl, rfl⟩
      exact ⟨⟨_, rfl⟩, _, rfl, filterMap_strings _⟩
    · rintro ⟨⟨ss, rfl⟩, es, hes, rfl⟩
      obtain rfl := Json.array.inj hes
      exact ⟨ss, rfl, filterMap_strings ss⟩
  · rintro v ⟨ss, rfl⟩
    rfl

/-- Reading an environment, where `f` is what becomes of it. -/
lemma optional_env {m : Members} {fallback env : List (ByteString × ByteString)}
    {message : ByteString} (f : List (ByteString × ByteString) → List (ByteString × ByteString))
    (hf : f [] = fallback) :
    optional m "env" (fun v => (readEnv v []).map f) fallback message = .ok env ↔
      Member m "env" EnvObject ∧ env = f m.env := by
  rw [optional_eq_ok EnvObject fun v =>
    v.members?.map fun m => f (AssocList.mapValues Json.string? m.entries)]
  · have henv : ((m.get? (lit "env")).bind fun v =>
        v.members?.map fun m => f (AssocList.mapValues Json.string? m.entries)).getD fallback =
        f m.env := by
      simp only [Members.env, Members.members?]
      cases (m.get? (lit "env")) with
      | none => exact hf.symm
      | some v =>
        cases hv : v.members? with
        | none =>
          simp only [Option.bind_some, hv]
          exact hf.symm
        | some e => simp only [Option.bind_some, hv, Option.map_some, Option.getD_some]
    rw [henv]
  · intro v a
    simp only [Option.map_eq_some_iff, readEnv_eq_some, Json.members?_eq_some]
    constructor
    · rintro ⟨_, ⟨hv, e, rfl, rfl⟩, rfl⟩
      exact ⟨hv, e, rfl, rfl⟩
    · rintro ⟨hv, e, rfl, rfl⟩
      exact ⟨_, ⟨hv, e, rfl, rfl⟩, rfl⟩
  · rintro v ⟨e, rfl, -⟩
    rfl

/-! ### Defaults and tasks -/

/-- The defaults as the parser keeps them, for a task to start from. -/
def defaultTask (d : Members) : Task where
  env := d.env
  timeoutS := (d.int? "timeout_s").getD 60
  retries := (d.int? "retries").getD 0
  needs := (d.strings? "requires").getD []

lemma readDefaults_eq_ok {v : Json} {task : Task} :
    readDefaults v = .ok task ↔ ∃ d, v = .object d ∧ DefaultsObject d ∧ task = defaultTask d := by
  have henv : ∀ (d : Members) (env : List (ByteString × ByteString)) (message : ByteString),
      optional d "env" (readEnv · []) [] message = .ok env ↔
        Member d "env" EnvObject ∧ env = d.env := fun d env message => by
    simpa only [Option.map_id, id] using optional_env id rfl
  simp only [readDefaults, bind_eq_ok, demand_eq_ok, refuse_eq_ok, Json.members?_eq_some,
    checkKeys_eq_none, optional_strings, henv, pure, Except.pure, Except.ok.injEq,
    optional_int (le_refl 0) (show (10 : ℤ) < 2 ^ 63 by decide),
    optional_int zero_le_one (show (86400 : ℤ) < 2 ^ 63 by decide)]
  constructor
  · rintro ⟨d, rfl, _, hkeys, _, ⟨htimeout, rfl⟩, _, ⟨hretries, rfl⟩, _, ⟨henv, rfl⟩,
      _, ⟨hneeds, rfl⟩, rfl⟩
    exact ⟨d, rfl, ⟨⟨htimeout, hretries, henv, hneeds⟩, hkeys⟩, rfl⟩
  · rintro ⟨d, rfl, hd, rfl⟩
    exact ⟨d, rfl, (), hd.keys, _, ⟨hd.timeoutS, rfl⟩, _, ⟨hd.retries, rfl⟩, _, ⟨hd.env, rfl⟩,
      _, ⟨hd.needs, rfl⟩, rfl⟩

lemma name_eq_some {m : Members} {name : ByteString} :
    ((m.get? (lit "name")).bind readName = some name ∧ name.find? (· < 0x20) = none) ↔
      (∃ name, m.get? (lit "name") = some (.string name) ∧ name ≠ [] ∧ ∀ b ∈ name, 0x20 ≤ b) ∧
        name = (m.string? "name").getD [] := by
  simp only [Option.bind_eq_some_iff, readName_eq_some, List.find?_eq_none, decide_eq_true_eq,
    not_lt, Members.string?]
  constructor
  · rintro ⟨⟨v, hv, rfl, hne⟩, hbytes⟩
    exact ⟨⟨name, hv, hne, hbytes⟩, by rw [hv]; rfl⟩
  · rintro ⟨⟨name', hv, hne, hbytes⟩, rfl⟩
    rw [hv]
    exact ⟨⟨_, rfl, rfl, hne⟩, hbytes⟩

lemma argv_eq_some {m : Members} {argv : List ByteString} :
    ((m.get? (lit "argv")).bind (readStringArray · [])).filter runnable = some argv ↔
      (∃ arg args, m.get? (lit "argv") = some (.array ((arg :: args).map .string)) ∧ arg ≠ []) ∧
        argv = (m.strings? "argv").getD [] := by
  have hget : ∀ ss : List ByteString, m.get? (lit "argv") = some (.array (ss.map .string)) →
      (m.strings? "argv").getD [] = ss := fun ss h => by
    simp only [Members.strings?, h, Option.bind_some, Json.elements?, Option.map_some,
      Option.getD_some, filterMap_strings]
  simp only [Option.filter_eq_some_iff, Option.bind_eq_some_iff, readStringArray_eq_some,
    List.nil_append]
  constructor
  · rintro ⟨⟨v, hv, ss, rfl, rfl⟩, hrun⟩
    cases argv with
    | nil => simp [runnable] at hrun
    | cons arg args => exact ⟨⟨arg, args, hv, by simpa [runnable] using hrun⟩, (hget _ hv).symm⟩
  · rintro ⟨⟨arg, args, hv, hne⟩, rfl⟩
    rw [hget _ hv]
    exact ⟨⟨_, hv, _, rfl, rfl⟩, by simpa [runnable] using hne⟩

lemma readTask_eq_ok {w : ByteString} {d : Members} {v : Json} {task : Task} {reps : ℤ} :
    readTask w (defaultTask d) v = .ok (task, reps) ↔
      ∃ t : Members, v = .object t ∧ TaskObject t ∧ task = elaborate d t ∧ reps = t.reps := by
  have hname : ∀ (t : Members) (P : ByteString → Prop),
      (∃ name, (t.get? (lit "name")).bind readName = some name ∧
        ∃ _ : Unit, name.find? (· < 0x20) = none ∧ P name) ↔
      (∃ name, t.get? (lit "name") = some (.string name) ∧ name ≠ [] ∧ ∀ b ∈ name, 0x20 ≤ b) ∧
        P ((t.string? "name").getD []) := fun t P => by
    simp only [exists_const, ← and_assoc, name_eq_some]
    simp only [and_assoc, exists_and_left, exists_eq_left]
  simp only [readTask, bind_eq_ok, demand_eq_ok, refuse_eq_ok, Json.members?_eq_some,
    checkKeys_eq_none, optional_strings, argv_eq_some, hname, pure, Except.pure,
    Except.ok.injEq, Prod.mk.injEq, defaultTask,
    optional_env (AssocList.overlay d.env) (rfl : _ = d.env),
    optional_int (le_refl 0) (show (10 : ℤ) < 2 ^ 63 by decide),
    optional_int zero_le_one (show (86400 : ℤ) < 2 ^ 63 by decide),
    optional_int zero_le_one (show (1000 : ℤ) < 2 ^ 63 by decide)]
  constructor
  · rintro ⟨t, rfl, _, hkeys, hname, _, ⟨hargv, rfl⟩, _, ⟨htimeout, rfl⟩, _, ⟨hretries, rfl⟩,
      _, ⟨henv, rfl⟩, _, ⟨hneeds, rfl⟩, _, ⟨hreps, rfl⟩, rfl, rfl⟩
    exact ⟨t, rfl, ⟨⟨htimeout, hretries, henv, hneeds⟩, hkeys, hname, hargv, hreps⟩,
      by simp only [elaborate, Option.getD_or], rfl⟩
  · rintro ⟨t, rfl, ht, rfl, rfl⟩
    exact ⟨t, rfl, (), ht.keys, ht.name, _, ⟨ht.argv, rfl⟩, _, ⟨ht.timeoutS, rfl⟩, _,
      ⟨ht.retries, rfl⟩, _, ⟨ht.env, rfl⟩, _, ⟨ht.needs, rfl⟩, _, ⟨ht.reps, rfl⟩,
      by simp only [elaborate, Option.getD_or], rfl⟩

/-! ### The expansion -/

lemma TaskObject.one_le_reps {t : Members} (ht : TaskObject t) : 1 ≤ t.reps := by
  have hmember := ht.reps
  simp only [Members.reps, Members.int?, Member] at hmember ⊢
  cases hv : t.get? (lit "repeat") with
  | none => exact le_refl 1
  | some v =>
    obtain ⟨n, hn, hone, -⟩ := hmember v hv
    simpa [hn] using hone

lemma copies_elaborate (d : Members) {t : Members} (ht : TaskObject t) :
    copies (elaborate d t) t.reps = expand d t := by
  have hone := ht.one_le_reps
  simp only [copies, copyName, expand, Members.expandedNames]
  by_cases hreps : t.reps = 1
  · simp [hreps, elaborate]
  · have hlt : 1 < t.reps := by omega
    simp [if_neg hreps, if_pos hlt, elaborate, Function.comp_def]

/-- The names of the tasks are distinct, and there are not too many of them. -/
def Fits (tasks : List Task) : Prop := (tasks.map Task.name).Nodup ∧ tasks.length ≤ kMaxTasks

lemma Fits.of_append {l l' : List Task} (h : Fits (l ++ l')) : Fits l :=
  ⟨(List.map_append ▸ h.1).of_append_left, by
    have hlen := h.2
    rw [List.length_append] at hlen
    omega⟩

/-- The state of the parser once it has expanded `tasks`. -/
def Expansion.of (tasks : List Task) : Expansion := ⟨(tasks.map Task.name).toFinset, tasks⟩

lemma addCopy_eq_ok {w : ByteString} {tasks : List Task} {copy : Task} {st : Expansion}
    (htasks : Fits tasks) :
    addCopy w (.of tasks) copy = .ok st ↔
      Fits (tasks ++ [copy]) ∧ st = .of (tasks ++ [copy]) := by
  have hof : (⟨insert copy.name (Expansion.of tasks).names, tasks ++ [copy]⟩ : Expansion) =
      .of (tasks ++ [copy]) := by
    simp [Expansion.of, Finset.union_comm]
  have hfits : Fits (tasks ++ [copy]) ↔
      copy.name ∉ (Expansion.of tasks).names ∧ ¬kMaxTasks < (tasks ++ [copy]).length := by
    rw [Fits, List.map_append, List.nodup_append_comm, List.map_singleton,
      List.singleton_append, List.nodup_cons, and_iff_left htasks.1, not_lt]
    simp only [Expansion.of, List.mem_toFinset]
  rw [hfits]
  simp only [addCopy, show (Expansion.of tasks).tasks = tasks from rfl, hof]
  split_ifs with hmem hlen
  · exact ⟨nofun, fun h => absurd hmem h.1.1⟩
  · exact ⟨nofun, fun h => absurd hlen h.1.2⟩
  · rw [Except.ok.injEq, eq_comm]
    exact (and_iff_right ⟨hmem, hlen⟩).symm

lemma foldlM_addCopy {w : ByteString} {tasks copies : List Task} {st : Expansion}
    (htasks : Fits tasks) :
    copies.foldlM (addCopy w) (.of tasks) = .ok st ↔
      Fits (tasks ++ copies) ∧ st = .of (tasks ++ copies) := by
  induction copies generalizing tasks with
  | nil =>
    simp only [List.foldlM_nil, pure, Except.pure, Except.ok.injEq, List.append_nil, htasks,
      true_and, eq_comm]
  | cons copy copies ih =>
    have happ : tasks ++ copy :: copies = tasks ++ [copy] ++ copies := by simp
    simp only [List.foldlM_cons, bind_eq_ok, addCopy_eq_ok htasks, happ]
    constructor
    · rintro ⟨_, ⟨hfits, rfl⟩, hrest⟩
      exact (ih hfits).mp hrest
    · rintro hrest
      exact ⟨_, ⟨hrest.1.of_append, rfl⟩, (ih hrest.1.of_append).mpr hrest⟩

lemma addTask_eq_ok {d : Members} {tasks : List Task} {v : Json} {i : ℕ} {st : Expansion}
    (htasks : Fits tasks) :
    addTask (defaultTask d) (.of tasks) (v, i) = .ok st ↔
      ∃ t : Members, v = .object t ∧ TaskObject t ∧
        Fits (tasks ++ expand d t) ∧ st = .of (tasks ++ expand d t) := by
  simp only [addTask, bind_eq_ok, Prod.exists, readTask_eq_ok]
  constructor
  · rintro ⟨_, _, ⟨t, rfl, ht, rfl, rfl⟩, hcopies⟩
    rw [copies_elaborate d ht, foldlM_addCopy htasks] at hcopies
    exact ⟨t, rfl, ht, hcopies⟩
  · rintro ⟨t, rfl, ht, hfits⟩
    refine ⟨_, _, ⟨t, rfl, ht, rfl, rfl⟩, ?_⟩
    rw [copies_elaborate d ht, foldlM_addCopy htasks]
    exact hfits

lemma foldlM_addTask {d : Members} {tasks : List Task} {vs : List Json} {i : ℕ}
    {st : Expansion} (htasks : Fits tasks) :
    (vs.zipIdx i).foldlM (addTask (defaultTask d)) (.of tasks) = .ok st ↔
      ∃ ts : List Members, vs = ts.map .object ∧ (∀ t ∈ ts, TaskObject t) ∧
        Fits (tasks ++ ts.flatMap (expand d)) ∧
        st = .of (tasks ++ ts.flatMap (expand d)) := by
  induction vs generalizing i tasks with
  | nil =>
    simp only [List.zipIdx_nil, List.foldlM_nil, pure, Except.pure, Except.ok.injEq,
      eq_comm (a := ([] : List Json)), List.map_eq_nil_iff, exists_eq_left, List.not_mem_nil,
      false_implies, implies_true, List.flatMap_nil, List.append_nil, htasks, true_and]
    exact eq_comm
  | cons v vs ih =>
    have happ : ∀ (t : Members) (ts : List Members),
        tasks ++ (t :: ts).flatMap (expand d) =
          tasks ++ expand d t ++ ts.flatMap (expand d) := fun t ts => by
      rw [List.flatMap_cons, List.append_assoc]
    simp only [List.zipIdx_cons, List.foldlM_cons, bind_eq_ok, addTask_eq_ok htasks]
    constructor
    · rintro ⟨_, ⟨t, rfl, ht, hfits, rfl⟩, hrest⟩
      obtain ⟨ts, rfl, hts, hfits, rfl⟩ := (ih hfits).mp hrest
      refine ⟨t :: ts, rfl, List.forall_mem_cons.mpr ⟨ht, hts⟩, ?_⟩
      rw [happ]
      exact ⟨hfits, rfl⟩
    · rintro ⟨ts, hts, hobj, hfits, rfl⟩
      obtain ⟨t, ts, rfl, rfl, rfl⟩ := List.map_eq_cons_iff.mp hts.symm
      obtain ⟨ht, hts⟩ := List.forall_mem_cons.mp hobj
      rw [happ] at hfits
      refine ⟨_, ⟨t, rfl, ht, hfits.of_append, rfl⟩, ?_⟩
      exact (ih hfits.of_append).mpr ⟨ts, rfl, hts, hfits, by rw [happ]⟩

/-- Whether an expansion fits is a matter of the expanded names. -/
lemma fits_flatMap {d : Members} {ts : List Members} :
    Fits (ts.flatMap (expand d)) ↔ (ts.flatMap Members.expandedNames).Nodup ∧
      (ts.flatMap Members.expandedNames).length ≤ 100000 := by
  have hnames : (ts.flatMap (expand d)).map Task.name = ts.flatMap Members.expandedNames := by
    simp only [List.map_flatMap, expand, List.map_map, Function.comp_def, List.map_id']
  rw [Fits, hnames, ← List.length_map (f := Task.name), hnames]
  rfl

/-! ### The whole file -/

lemma lit_ne_nil {s : String} (h : s ≠ "" := by simp) : lit s ≠ [] := by
  simpa [lit] using h

lemma append_lit_ne_nil {w : ByteString} {s : String} (h : s ≠ "" := by simp) :
    w ++ lit s ≠ [] :=
  List.append_ne_nil_of_right_ne_nil w (lit_ne_nil h)

lemma neverFails_optional {α : Type} {m : Members} {key : String} {read : Json → Option α}
    {fallback : α} {message : ByteString} (h : message ≠ []) :
    NeverFails [] (optional m key read fallback message) := by
  rw [optional]
  split
  · exact neverFails_ok _ _
  · exact neverFails_demand h

lemma neverFails_readDefaults (d : Json) : NeverFails [] (readDefaults d) := by
  refine (neverFails_demand lit_ne_nil).bind fun m => ?_
  refine (neverFails_refuse fun bad => append_lit_ne_nil).bind fun _ => ?_
  refine (neverFails_optional lit_ne_nil).bind fun _ => ?_
  refine (neverFails_optional lit_ne_nil).bind fun _ => ?_
  refine (neverFails_optional lit_ne_nil).bind fun _ => ?_
  refine (neverFails_optional lit_ne_nil).bind fun _ => ?_
  exact neverFails_ok _ _

lemma neverFails_readTask (w : ByteString) (defaults : Task) (t : Json) :
    NeverFails [] (readTask w defaults t) := by
  refine (neverFails_demand append_lit_ne_nil).bind fun m => ?_
  refine (neverFails_refuse fun bad => append_lit_ne_nil).bind fun _ => ?_
  refine (neverFails_demand append_lit_ne_nil).bind fun name => ?_
  refine (neverFails_refuse fun b => append_lit_ne_nil).bind fun _ => ?_
  refine (neverFails_demand append_lit_ne_nil).bind fun argv => ?_
  refine (neverFails_optional append_lit_ne_nil).bind fun _ => ?_
  refine (neverFails_optional append_lit_ne_nil).bind fun _ => ?_
  refine (neverFails_optional append_lit_ne_nil).bind fun _ => ?_
  refine (neverFails_optional append_lit_ne_nil).bind fun _ => ?_
  refine (neverFails_optional append_lit_ne_nil).bind fun _ => ?_
  exact neverFails_ok _ _

lemma neverFails_addCopy (w : ByteString) (st : Expansion) (copy : Task) :
    NeverFails [] (addCopy w st copy) := by
  simp only [addCopy]
  split_ifs
  · exact fun h => absurd (Except.error.inj h) append_lit_ne_nil
  · exact fun h => absurd (Except.error.inj h) append_lit_ne_nil
  · exact neverFails_ok _ _

lemma neverFails_readTasks (m : Members) : NeverFails [] (readTasks m) := by
  have hdefaults : NeverFails [] (readRootDefaults m) := by
    rw [readRootDefaults]
    split
    · exact neverFails_ok _ _
    · exact neverFails_readDefaults _
  have htask : ∀ defaults st t, NeverFails [] (addTask defaults st t) := fun defaults st t =>
    (neverFails_readTask _ _ _).bind fun _ => .foldlM (neverFails_addCopy _) _ _
  refine hdefaults.bind fun defaults => ?_
  refine (neverFails_demand lit_ne_nil).bind fun tasks => ?_
  exact (NeverFails.foldlM (htask defaults) _ _).bind fun _ => neverFails_ok _ _

lemma neverFails_readHeader (root : Json) : NeverFails [] (readHeader root) := by
  refine (neverFails_demand lit_ne_nil).bind fun m => ?_
  refine (neverFails_refuse fun bad => append_lit_ne_nil).bind fun _ => ?_
  refine (neverFails_optional lit_ne_nil).bind fun _ => ?_
  exact neverFails_ok _ _

lemma readHeader_eq_ok {root : Json} {m : Members} {name : ByteString} :
    readHeader root = .ok (m, name) ↔
      root = .object m ∧ OnlyKeys m rootKeys ∧
        Member m "name" (fun v => ∃ s, v = .string s ∧ s ≠ []) ∧
        name = (m.string? "name").getD (lit "dtest") := by
  have hname : ∀ (m : Members) (name fallback message : ByteString),
      optional m "name" readName fallback message = .ok name ↔
        Member m "name" (fun v => ∃ s, v = .string s ∧ s ≠ []) ∧
          name = (m.string? "name").getD fallback := fun m name fallback message => by
    refine optional_eq_ok _ _ (fun v s => ?_) ?_
    · rw [readName_eq_some, Json.string?_eq_some]
      constructor
      · rintro ⟨rfl, hne⟩
        exact ⟨⟨s, rfl, hne⟩, rfl⟩
      · rintro ⟨⟨s', rfl, hne⟩, hs⟩
        exact ⟨hs, Json.string.inj hs ▸ hne⟩
    · rintro v ⟨s, rfl, -⟩
      rfl
  simp only [readHeader, bind_eq_ok, demand_eq_ok, refuse_eq_ok, Json.members?_eq_some,
    checkKeys_eq_none, hname, pure, Except.pure, Except.ok.injEq, Prod.mk.injEq]
  constructor
  · rintro ⟨m, rfl, _, hkeys, _, ⟨hname, rfl⟩, rfl, rfl⟩
    exact ⟨rfl, hkeys, hname, rfl⟩
  · rintro ⟨rfl, hkeys, hname, rfl⟩
    exact ⟨m, rfl, (), hkeys, _, ⟨hname, rfl⟩, rfl, rfl⟩

lemma readRootDefaults_eq_ok {m : Members} {d : Task} :
    readRootDefaults m = .ok d ↔
      Member m "defaults" (fun v => ∃ d, v = .object d ∧ DefaultsObject d) ∧
        d = defaultTask m.defaults := by
  cases hv : m.get? (lit "defaults") with
  | none =>
    have hempty : m.defaults = .empty := by
      simp only [Members.defaults, Members.members?, hv, Option.bind_none, Option.getD_none]
    simp only [readRootDefaults, Member, hv, reduceCtorEq, false_implies, implies_true, true_and,
      hempty, Except.ok.injEq]
    exact eq_comm
  | some v =>
    simp only [readRootDefaults, Member, hv, Option.some.injEq, forall_eq', readDefaults_eq_ok]
    constructor
    · rintro ⟨e, rfl, he, rfl⟩
      refine ⟨⟨e, rfl, he⟩, ?_⟩
      simp only [Members.defaults, Members.members?, hv, Option.bind_some, Json.members?,
        Option.getD_some]
    · rintro ⟨⟨e, rfl, he⟩, rfl⟩
      refine ⟨e, rfl, he, ?_⟩
      simp only [Members.defaults, Members.members?, hv, Option.bind_some, Json.members?,
        Option.getD_some]

lemma readTasks_eq_ok {m : Members} {tasks : List Task} :
    readTasks m = .ok tasks ↔
      Member m "defaults" (fun v => ∃ d, v = .object d ∧ DefaultsObject d) ∧
      ∃ ts : List Members, m.get? (lit "tasks") = some (.array (ts.map .object)) ∧ ts ≠ [] ∧
        (∀ t ∈ ts, TaskObject t) ∧ (ts.flatMap Members.expandedNames).Nodup ∧
        (ts.flatMap Members.expandedNames).length ≤ 100000 ∧
        tasks = ts.flatMap (expand m.defaults) := by
  have hempty : ({} : Expansion) = .of [] := rfl
  have hfits : Fits [] := ⟨List.nodup_nil, Nat.zero_le _⟩
  simp only [readTasks, bind_eq_ok, readRootDefaults_eq_ok, demand_eq_ok, hempty, pure,
    Except.pure, Except.ok.injEq, Option.filter_eq_some_iff, Option.bind_eq_some_iff,
    Json.elements?_eq_some]
  constructor
  · rintro ⟨_, ⟨hd, rfl⟩, _, ⟨⟨_, hv, rfl⟩, hne⟩, st, hfold, rfl⟩
    obtain ⟨ts, rfl, hts, hfit, rfl⟩ := (foldlM_addTask hfits).mp hfold
    rw [List.nil_append, fits_flatMap] at hfit
    exact ⟨hd, ts, hv, by rintro rfl; simp at hne, hts, hfit.1, hfit.2, rfl⟩
  · rintro ⟨hd, ts, hv, hne, hts, hnodup, hlen, rfl⟩
    refine ⟨_, ⟨hd, rfl⟩, _, ⟨⟨_, hv, rfl⟩, by simpa using hne⟩, _,
      (foldlM_addTask hfits).mpr ⟨ts, rfl, hts, fits_flatMap.mpr ⟨hnodup, hlen⟩, rfl⟩, rfl⟩

/-- The two ways `parseRoot` ends: a message and no task, or the job that was read. -/
lemma parseRoot_cases (root : Json) :
    ((parseRoot root).error ≠ [] ∧ (parseRoot root).job.tasks = [] ∧
      ∀ m name tasks, readHeader root = .ok (m, name) → readTasks m ≠ .ok tasks) ∨
    ((parseRoot root).error = [] ∧ ∃ m, readHeader root = .ok (m, (parseRoot root).job.name) ∧
      readTasks m = .ok (parseRoot root).job.tasks) := by
  cases hheader : readHeader root with
  | error message =>
    have hres : parseRoot root = { error := message } := by simp only [parseRoot, hheader]
    rw [hres]
    exact .inl ⟨fun h : message = [] => neverFails_readHeader root (h ▸ hheader), rfl, nofun⟩
  | ok header =>
    obtain ⟨m, name⟩ := header
    cases htasks : readTasks m with
    | error message =>
      have hres : parseRoot root = { job := { name }, error := message } := by
        simp only [parseRoot, hheader, htasks]
      rw [hres]
      refine .inl ⟨fun h : message = [] => neverFails_readTasks m (h ▸ htasks), rfl, ?_⟩
      rintro m' name' tasks h
      obtain ⟨rfl, rfl⟩ := Prod.mk.inj (Except.ok.inj h)
      rw [htasks]
      exact nofun
    | ok tasks =>
      have hres : parseRoot root = { job := { name, tasks } } := by
        simp only [parseRoot, hheader, htasks]
      rw [hres]
      exact .inr ⟨rfl, m, rfl, htasks⟩

lemma jobObject_iff {root : Json} {m : Members} {name : ByteString} {tasks : List Task} :
    (readHeader root = .ok (m, name) ∧ readTasks m = .ok tasks) ↔
      ∃ ts, JobObject root m ts ∧ ⟨name, tasks⟩ = elaborateFile m ts := by
  simp only [readHeader_eq_ok, readTasks_eq_ok, elaborateFile, JobFile.mk.injEq]
  constructor
  · rintro ⟨⟨hroot, hkeys, hname, rfl⟩, hd, ts, htasks, hne, hts, hnodup, hlen, rfl⟩
    exact ⟨ts, ⟨hroot, hkeys, hname, hd, htasks, hne, hts, hnodup, hlen⟩, rfl, rfl⟩
  · rintro ⟨ts, h, rfl, rfl⟩
    exact ⟨⟨h.root, h.keys, h.name, rfl⟩, h.defaults, ts, h.tasks, h.nonempty, h.task,
      h.distinct, h.limit, rfl⟩

lemma parseRoot_error_iff (root : Json) :
    (parseRoot root).error = [] ↔ ∃ m ts, JobObject root m ts := by
  rcases parseRoot_cases root with ⟨herror, -, hnone⟩ | ⟨herror, m, hheader, htasks⟩
  · refine ⟨fun h => absurd h herror, ?_⟩
    rintro ⟨m, ts, hobj⟩
    obtain ⟨hheader, htasks⟩ := jobObject_iff.mpr ⟨ts, hobj, rfl⟩
    exact absurd htasks (hnone _ _ _ hheader)
  · obtain ⟨ts, hobj, -⟩ := jobObject_iff.mp ⟨hheader, htasks⟩
    exact ⟨fun _ => ⟨m, ts, hobj⟩, fun _ => herror⟩

lemma parseRoot_job {root : Json} {m : Members} {ts : List Members} (h : JobObject root m ts) :
    (parseRoot root).job = elaborateFile m ts := by
  obtain ⟨hheader, htasks⟩ := jobObject_iff.mpr ⟨ts, h, rfl⟩
  rcases parseRoot_cases root with ⟨herror, -, -⟩ | ⟨-, m', hheader', htasks'⟩
  · exact absurd ((parseRoot_error_iff root).mpr ⟨m, ts, h⟩) herror
  · obtain ⟨rfl, hname⟩ := Prod.mk.inj (Except.ok.inj (hheader'.symm.trans hheader))
    exact JobFile.ext hname (Except.ok.inj (htasks'.symm.trans htasks))

lemma parseJobs_error_iff (parse : ByteString → Option Json) (text : ByteString) :
    (parseJobs parse text).error = [] ↔
      ∃ root m ts, parse text = some root ∧ JobObject root m ts := by
  cases hparse : parse text with
  | none => simp [parseJobs, hparse, lit_ne_nil]
  | some root => simp [parseJobs, hparse, parseRoot_error_iff]

lemma parseJobs_job {parse : ByteString → Option Json} {text : ByteString} {root : Json}
    {m : Members} {ts : List Members} (hparse : parse text = some root)
    (h : JobObject root m ts) : (parseJobs parse text).job = elaborateFile m ts := by
  simp only [parseJobs, hparse, parseRoot_job h]

lemma parseJobs_of_error {parse : ByteString → Option Json} {text : ByteString}
    (h : (parseJobs parse text).error ≠ []) : (parseJobs parse text).job.tasks = [] := by
  cases hparse : parse text with
  | none => simp only [parseJobs, hparse]
  | some root =>
    simp only [parseJobs, hparse] at h ⊢
    rcases parseRoot_cases root with ⟨-, hnil, -⟩ | ⟨herror, -⟩
    · exact hnil
    · exact absurd herror h

/-- The parser accepts exactly the job files, yields the job each describes, and no task
otherwise. -/
theorem parseJobs_language (parse : ByteString → Option Json) (text : ByteString) :
    ((parseJobs parse text).error = [] ↔
      ∃ root m ts, parse text = some root ∧ JobObject root m ts) ∧
    (∀ root m ts, parse text = some root → JobObject root m ts →
      (parseJobs parse text).job = elaborateFile m ts) ∧
    ((parseJobs parse text).error ≠ [] → (parseJobs parse text).job.tasks = []) :=
  ⟨parseJobs_error_iff parse text, fun _ _ _ hparse h => parseJobs_job hparse h,
    parseJobs_of_error⟩

/-- One task called `a` that is to run `reps` times. -/
def repeatedTask (reps : UInt64) : Json :=
  .object ⟨[lit "tasks"], by decide, ![.array [.object ⟨[lit "argv", lit "name", lit "repeat"],
    by decide, ![.array [.string (lit "x")], .string (lit "a"), .unsigned reps]⟩]]⟩

example : (parseRoot (repeatedTask 2)).job.tasks.map Task.name = [lit "a[1]", lit "a[2]"] := by
  decide

end Dtest
