import ValidationSuite.Dtest.Jobs.Parse

/-!
# The job-file language

What a job file may say, as a predicate on its JSON value, and what it means, as a function of it.
-/

namespace Dtest

open ByteString

/-! ### The language -/

/-- An integer whose mathematical value lies in `lo..hi`. -/
def InRange (lo hi : ℤ) (v : Json) : Prop := ∃ n, v.integer? = some n ∧ lo ≤ n ∧ n ≤ hi

/-- An array of strings. -/
def StringArray (v : Json) : Prop := ∃ ss : List ByteString, v = .array (ss.map .string)

/-- An object of strings whose keys are not empty and have no `=`. -/
def EnvObject (v : Json) : Prop :=
  ∃ m, v = .object m ∧ ∀ key value, m.get? key = some value →
    key ≠ [] ∧ '='.toNat.toUInt8 ∉ key ∧ ∃ s, value = .string s

/-- The object has no keys but these. -/
def OnlyKeys (m : Members) (allowed : List ByteString) : Prop := ∀ key ∈ m.keys, key ∈ allowed

/-- If the object has the member `key`, it satisfies `P`. -/
def Member (m : Members) (key : String) (P : Json → Prop) : Prop :=
  ∀ v, m.get? (lit key) = some v → P v

/-- What the defaults and a task may both set. -/
structure Settings (m : Members) : Prop where
  timeoutS : Member m "timeout_s" (InRange 1 86400)
  retries : Member m "retries" (InRange 0 10)
  env : Member m "env" EnvObject
  needs : Member m "requires" StringArray

structure DefaultsObject (m : Members) : Prop extends Settings m where
  keys : OnlyKeys m [lit "timeout_s", lit "retries", lit "env", lit "requires"]

structure TaskObject (m : Members) : Prop extends Settings m where
  keys : OnlyKeys m [lit "name", lit "argv", lit "env", lit "timeout_s", lit "retries",
    lit "requires", lit "repeat"]
  name : ∃ name, m.get? (lit "name") = some (.string name) ∧ name ≠ [] ∧ ∀ b ∈ name, 0x20 ≤ b
  argv : ∃ arg args, m.get? (lit "argv") = some (.array ((arg :: args).map .string)) ∧ arg ≠ []
  reps : Member m "repeat" (InRange 1 1000)

/-! ### Its meaning -/

def Members.int? (m : Members) (key : String) : Option ℤ := (m.get? (lit key)).bind Json.integer?

def Members.string? (m : Members) (key : String) : Option ByteString :=
  (m.get? (lit key)).bind Json.string?

def Members.strings? (m : Members) (key : String) : Option (List ByteString) :=
  ((m.get? (lit key)).bind Json.elements?).map fun es => es.filterMap Json.string?

def Members.members? (m : Members) (key : String) : Option Members :=
  (m.get? (lit key)).bind Json.members?

/-- The environment an object sets, in key order. -/
def Members.env (m : Members) : List (ByteString × ByteString) :=
  AssocList.mapValues Json.string? ((m.members? "env").getD .empty).entries

/-- The number of copies of a task. -/
def Members.reps (m : Members) : ℤ := (m.int? "repeat").getD 1

/-- The names of the copies of a task: its own if there is one copy, else numbered from 1. -/
def Members.expandedNames (m : Members) : List ByteString :=
  let name := (m.string? "name").getD []
  if m.reps = 1 then [name]
  else (List.range' 1 m.reps.toNat).map fun i => name ++ lit "[" ++ ofNat i ++ lit "]"

/-- The task `t` describes under the defaults `d`, before its expansion. The timeout, the retries
and the requirements are its own, else the defaults', else built in; its environment is the
defaults' overlaid with its own. -/
def elaborate (d t : Members) : Task where
  name := (t.string? "name").getD []
  argv := (t.strings? "argv").getD []
  env := AssocList.overlay d.env t.env
  timeoutS := ((t.int? "timeout_s").or (d.int? "timeout_s")).getD 60
  retries := ((t.int? "retries").or (d.int? "retries")).getD 0
  needs := ((t.strings? "requires").or (d.strings? "requires")).getD []

/-- The copies of the task `t` describes under the defaults `d`. -/
def expand (d t : Members) : List Task :=
  t.expandedNames.map fun name => { elaborate d t with name }

/-- The defaults of a job file. -/
def Members.defaults (m : Members) : Members := (m.members? "defaults").getD .empty

/-- The job that the file with the members `m` and the task objects `ts` describes. -/
def elaborateFile (m : Members) (ts : List Members) : JobFile where
  name := (m.string? "name").getD (lit "dtest")
  tasks := ts.flatMap (expand m.defaults)

/-- `root` is a job file with the members `m` and the task objects `ts`. -/
structure JobObject (root : Json) (m : Members) (ts : List Members) : Prop where
  root : root = .object m
  keys : OnlyKeys m [lit "name", lit "defaults", lit "tasks"]
  name : Member m "name" fun v => ∃ s, v = .string s ∧ s ≠ []
  defaults : Member m "defaults" fun v => ∃ d, v = .object d ∧ DefaultsObject d
  tasks : m.get? (lit "tasks") = some (.array (ts.map .object))
  nonempty : ts ≠ []
  task : ∀ t ∈ ts, TaskObject t
  distinct : (ts.flatMap Members.expandedNames).Nodup
  limit : (ts.flatMap Members.expandedNames).length ≤ 100000

end Dtest
