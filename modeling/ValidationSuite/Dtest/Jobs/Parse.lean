import Mathlib.Data.Finset.Insert
import ValidationSuite.Dtest.Jobs
import ValidationSuite.Library.Check
import ValidationSuite.Library.Json

/-!
# Parsing job files

`parse_jobs` (`dtest/src/jobs.cpp`). The JSON library is the parameter `parse`, which yields
`none` for a text that is not valid JSON. An object is visited in key order.
-/

namespace Dtest

open ByteString Except

@[ext]
structure JobFile where
  name : ByteString := lit "dtest"
  tasks : List Task := []

/-- The error is empty on success. -/
structure JobParseResult where
  job : JobFile := {}
  error : ByteString := []

abbrev Members := SortedMap ByteString Json

def kMaxTasks : ℕ := 100000

def isIntIn (v : Json) (lo hi : ℤ) : Option ℤ :=
  if v.integer?.isSome then
    let x := v.toLong
    if x < lo ∨ hi < x then none else some x
  else none

/-- Which task an error is about (`where`). -/
def whereIs (i : ℕ) (t : Json) : ByteString :=
  let w := lit "tasks[" ++ ofNat i ++ lit "]"
  match (t.members?.bind (·.get? (lit "name"))).bind Json.string? with
  | some name => w ++ lit " ('" ++ name ++ lit "')"
  | none => w

/-- `out` with the strings of an array appended. -/
def readStringArray (v : Json) (out : List ByteString) : Option (List ByteString) :=
  v.elements?.bind fun es => es.foldlM (fun out e => e.string?.map fun s => out ++ [s]) out

def readEnvEntry (out : List (ByteString × ByteString)) (entry : ByteString × Json) :
    Option (List (ByteString × ByteString)) :=
  match entry.2.string? with
  | none => none
  | some s =>
    if entry.1.isEmpty || entry.1.contains '='.toNat.toUInt8 then none
    else some (AssocList.insert entry.1 s out)

/-- `out` with the entries of an object of strings set. -/
def readEnv (v : Json) (out : List (ByteString × ByteString)) :
    Option (List (ByteString × ByteString)) :=
  v.members?.bind fun m => m.entries.foldlM readEnvEntry out

/-- The first key that is not allowed. -/
def checkKeys (obj : Members) (allowed : List ByteString) : Option ByteString :=
  obj.keys.find? fun k => !allowed.contains k

/-- The member `key` as `read` takes it, or `fallback` where the object has none. -/
def optional {α : Type} (obj : Members) (key : String) (read : Json → Option α) (fallback : α)
    (message : ByteString) : Except ByteString α :=
  match obj.get? (lit key) with
  | none => .ok fallback
  | some v => demand (read v) message

def readName (v : Json) : Option ByteString := v.string?.filter fun s => !s.isEmpty

def rootKeys : List ByteString := [lit "name", lit "defaults", lit "tasks"]

def defaultsKeys : List ByteString :=
  [lit "timeout_s", lit "retries", lit "env", lit "requires"]

def taskKeys : List ByteString :=
  [lit "name", lit "argv", lit "env", lit "timeout_s", lit "retries", lit "requires",
    lit "repeat"]

def readDefaults (d : Json) : Except ByteString Task := do
  let defaults : Task := {}
  let m ← demand d.members? (lit "'defaults' must be an object")
  refuse (checkKeys m defaultsKeys) fun bad =>
    lit "unknown key '" ++ bad ++ lit "' in 'defaults'"
  let timeoutS ← optional m "timeout_s" (isIntIn · 1 86400) defaults.timeoutS
    (lit "'defaults.timeout_s' must be an integer in 1..86400")
  let retries ← optional m "retries" (isIntIn · 0 10) defaults.retries
    (lit "'defaults.retries' must be an integer in 0..10")
  let env ← optional m "env" (readEnv · defaults.env) defaults.env
    (lit "'defaults.env' must be an object of string values")
  let needs ← optional m "requires" (readStringArray · defaults.needs) defaults.needs
    (lit "'defaults.requires' must be an array of strings")
  return { defaults with timeoutS, retries, env, needs }

def readRootDefaults (root : Members) : Except ByteString Task :=
  match root.get? (lit "defaults") with
  | none => .ok {}
  | some d => readDefaults d

/-- Is the first element there, and not empty? -/
def runnable (argv : List ByteString) : Bool :=
  match argv with
  | [] => false
  | arg :: _ => !arg.isEmpty

/-- One element of `tasks`, with its `repeat` count. -/
def readTask (w : ByteString) (defaults : Task) (t : Json) : Except ByteString (Task × ℤ) := do
  let m ← demand t.members? (w ++ lit ": must be an object")
  refuse (checkKeys m taskKeys) fun bad => w ++ lit ": unknown key '" ++ bad ++ lit "'"
  let name ← demand ((m.get? (lit "name")).bind readName)
    (w ++ lit ": 'name' must be a non-empty string")
  refuse (name.find? (· < 0x20)) fun _ => w ++ lit ": 'name' contains control characters"
  let argv ← demand
    (((m.get? (lit "argv")).bind (readStringArray · defaults.argv)).filter runnable)
    (w ++ lit ": 'argv' must be a non-empty array of strings with a non-empty first element")
  let timeoutS ← optional m "timeout_s" (isIntIn · 1 86400) defaults.timeoutS
    (w ++ lit ": 'timeout_s' must be an integer in 1..86400")
  let retries ← optional m "retries" (isIntIn · 0 10) defaults.retries
    (w ++ lit ": 'retries' must be an integer in 0..10")
  let env ← optional m "env" (fun v => (readEnv v []).map (AssocList.overlay defaults.env))
    defaults.env (w ++ lit ": 'env' must be an object of string values")
  let needs ← optional m "requires" (readStringArray · []) defaults.needs
    (w ++ lit ": 'requires' must be an array of strings")
  let reps ← optional m "repeat" (isIntIn · 1 1000) 1
    (w ++ lit ": 'repeat' must be an integer in 1..1000")
  return ({ name, argv, env, timeoutS, retries, needs }, reps)

/-- The name of the `i`-th of `reps` copies of a task. -/
def copyName (name : ByteString) (reps : ℤ) (i : ℕ) : ByteString :=
  if 1 < reps then name ++ lit "[" ++ ofNat i ++ lit "]" else name

def copies (task : Task) (reps : ℤ) : List Task :=
  (List.range' 1 reps.toNat).map fun i => { task with name := copyName task.name reps i }

/-- The names seen so far and the tasks expanded so far. -/
structure Expansion where
  names : Finset ByteString := ∅
  tasks : List Task := []

def addCopy (w : ByteString) (st : Expansion) (copy : Task) : Except ByteString Expansion :=
  if copy.name ∈ st.names then
    .error (w ++ lit ": duplicate task name '" ++ copy.name ++ lit "'")
  else
    let st : Expansion := ⟨insert copy.name st.names, st.tasks ++ [copy]⟩
    if kMaxTasks < st.tasks.length then
      .error (lit "too many tasks (limit " ++ ofNat kMaxTasks ++ lit ")")
    else .ok st

def addTask (defaults : Task) (st : Expansion) (t : Json × ℕ) : Except ByteString Expansion := do
  let w := whereIs t.2 t.1
  let (task, reps) ← readTask w defaults t.1
  (copies task reps).foldlM (addCopy w) st

/-- What is read before the name of the job is set. -/
def readHeader (root : Json) : Except ByteString (Members × ByteString) := do
  let m ← demand root.members? (lit "job file must be a JSON object")
  refuse (checkKeys m rootKeys) fun bad => lit "unknown top-level key '" ++ bad ++ lit "'"
  let name ← optional m "name" readName ({} : JobFile).name
    (lit "'name' must be a non-empty string")
  return (m, name)

/-- The tasks of the file, expanded. -/
def readTasks (m : Members) : Except ByteString (List Task) := do
  let defaults ← readRootDefaults m
  let tasks ← demand
    (((m.get? (lit "tasks")).bind Json.elements?).filter fun tasks => !tasks.isEmpty)
    (lit "'tasks' must be a non-empty array")
  let st ← tasks.zipIdx.foldlM (addTask defaults) {}
  return st.tasks

def parseRoot (root : Json) : JobParseResult :=
  match readHeader root with
  | .error message => { error := message }
  | .ok (m, name) =>
    match readTasks m with
    | .error message => { job := { name }, error := message }
    | .ok tasks => { job := { name, tasks } }

def parseJobs (parse : ByteString → Option Json) (text : ByteString) : JobParseResult :=
  match parse text with
  | none => { error := lit "job file is not valid JSON" }
  | some root => parseRoot root

end Dtest
