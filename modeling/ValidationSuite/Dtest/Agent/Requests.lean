import ValidationSuite.Dtest.Agent.Basic
import ValidationSuite.Dtest.GrpcExecutor
import ValidationSuite.Dtest.Jobs.Properties

/-!
# The requests the controller makes

Whatever task comes out of a job file, the request for it is well formed in the eyes of an agent,
and asks for what the file says.
-/

namespace Dtest

open ByteString Except

/-- What the parser guarantees about a task. -/
structure Task.Parsed (task : Task) : Prop where
  argv : ∃ arg args, task.argv = arg :: args ∧ arg ≠ []
  timeoutS : 1 ≤ task.timeoutS ∧ task.timeoutS ≤ 86400
  env : AssocList.Sorted task.env

lemma Members.int?_mem {m : Members} {key : String} {lo hi n : ℤ}
    (hm : Member m key (InRange lo hi)) (hn : m.int? key = some n) : lo ≤ n ∧ n ≤ hi := by
  obtain ⟨v, hv, hint⟩ := Option.bind_eq_some_iff.mp hn
  obtain ⟨k, hk, hrange⟩ := hm v hv
  obtain rfl := Option.some.inj (hk.symm.trans hint)
  exact hrange

lemma Members.sorted_env (m : Members) : AssocList.Sorted m.env :=
  (SortedMap.sorted_entries _).mapValues _

lemma elaborate_parsed {d t : Members} (hd : Member d "timeout_s" (InRange 1 86400))
    (ht : TaskObject t) : (elaborate d t).Parsed where
  argv := by
    obtain ⟨arg, args, hargv, hne⟩ := ht.argv
    refine ⟨arg, args, ?_, hne⟩
    simp only [elaborate, Members.strings?, hargv, Option.bind_some, Json.elements?,
      Option.map_some, Option.getD_some, filterMap_strings]
  timeoutS := by
    simp only [elaborate]
    cases htask : t.int? "timeout_s" with
    | some n => exact Members.int?_mem ht.timeoutS htask
    | none =>
      cases hdefault : d.int? "timeout_s" with
      | some n => exact Members.int?_mem hd hdefault
      | none => decide
  env := d.sorted_env.overlay _

lemma JobObject.parsed {root : Json} {m : Members} {ts : List Members} (h : JobObject root m ts)
    {task : Task} (htask : task ∈ (elaborateFile m ts).tasks) : task.Parsed := by
  obtain ⟨t, ht, hexpand⟩ := List.mem_flatMap.mp htask
  obtain ⟨name, -, rfl⟩ := List.mem_map.mp hexpand
  have hd : Member m.defaults "timeout_s" (InRange 1 86400) := by
    simp only [Members.defaults, Members.members?]
    cases hv : m.get? (lit "defaults") with
    | none => exact fun v hv => by simp at hv
    | some v =>
      obtain ⟨d, rfl, hd⟩ := h.defaults v hv
      exact hd.timeoutS
  have hparsed := elaborate_parsed hd (h.task t ht)
  exact ⟨hparsed.argv, hparsed.timeoutS, hparsed.env⟩

/-- Every task of a file that parses. -/
lemma parsed_of_mem {parse : ByteString → Option Json} {text : ByteString}
    (herror : (parseJobs parse text).error = []) {task : Task}
    (htask : task ∈ (parseJobs parse text).job.tasks) : task.Parsed := by
  obtain ⟨root, m, ts, hparse, hobj⟩ := (parseJobs_error_iff parse text).mp herror
  rw [parseJobs_job hparse hobj] at htask
  exact hobj.parsed htask

namespace GrpcExecutor

/-- The milliseconds of a timeout that the parser lets through fit into 32 bits. -/
lemma request_timeoutMs {task : Task} (htask : task.Parsed) :
    ((request task).timeoutMs.toNat : ℤ) = task.timeoutS * 1000 := by
  obtain ⟨hlo, hhi⟩ := htask.timeoutS
  have hsec : (UInt32.ofInt task.timeoutS).toNat = task.timeoutS.toNat := by
    rw [UInt32.ofInt, UInt32.toNat_ofNat']
    omega
  have hmul : (request task).timeoutMs.toNat = task.timeoutS.toNat * 1000 := by
    rw [request, UInt32.toNat_mul, hsec]
    exact Nat.mod_eq_of_lt (by simp; omega)
  omega

end GrpcExecutor

/-- No check of the agent finds a request malformed that stands for a task of a parsed file. -/
lemma AgentService.check_request (svc : AgentService) {task : Task} (htask : task.Parsed)
    {c : Incoming RunTaskRequest} (hc : c.request = GrpcExecutor.request task) {st : Status}
    (hst : svc.check c = some st) : st.code ≠ .invalidArgument := by
  obtain ⟨arg, args, hargv, hne⟩ := htask.argv
  have hms := GrpcExecutor.request_timeoutMs htask
  have hbounds := htask.timeoutS
  have htimeout : ¬(c.request.timeoutMs = 0 ∨ c.request.timeoutMs > 86400000) := by
    rw [hc, ← UInt32.toNat_inj, gt_iff_lt, UInt32.lt_iff_toNat_lt]
    simp only [UInt32.toNat_zero, show (86400000 : UInt32).toNat = 86400000 from rfl]
    omega
  have hargv' : c.request.argv = arg :: args := by rw [hc, ← hargv]; rfl
  simp only [check, hargv', htimeout, if_false, List.isEmpty_iff, hne] at hst
  cases hauth : svc.authenticate c.metadata with
  | some st' =>
    obtain rfl : st' = st := by simpa [hauth] using hst
    simp only [authenticate] at hauth
    split_ifs at hauth
    split at hauth
    · cases hauth
      exact nofun
    · split_ifs at hauth
      cases hauth
      exact nofun
  | none =>
    simp only [hauth] at hst
    split_ifs at hst
    cases hst
    exact nofun

/-- A task of a file that parses is never refused as malformed, whoever sends the request for it
and wherever; the agent enforces its timeout to the millisecond and runs its arguments in its
environment, whatever order the environment arrives in. -/
theorem wellFormed_of_parsed (parse : ByteString → Option Json) (text : ByteString)
    (herror : (parseJobs parse text).error = []) (task : Task)
    (htask : task ∈ (parseJobs parse text).job.tasks) (svc : AgentService)
    (c : Incoming RunTaskRequest) (hc : c.request = GrpcExecutor.request task) :
    (∀ st, svc.check c = some st → st.code ≠ .invalidArgument) ∧
    ((svc.runSpec c.request).timeoutMs : ℤ) = task.timeoutS * 1000 ∧
    (svc.runSpec c.request).argv = task.argv ∧
    (svc.runSpec c.request).env = task.env ∧
    ∀ env, env.Perm c.request.env → AssocList.overlay [] env = task.env := by
  have hparsed := parsed_of_mem herror htask
  rw [AgentService.runSpec, hc]
  refine ⟨fun st => svc.check_request hparsed hc, GrpcExecutor.request_timeoutMs hparsed, rfl, rfl,
    fun env henv => AssocList.overlay_of_perm hparsed.env henv⟩

/-- The first copy of the task of `repeatedTask`. -/
def firstCopy : Task where
  name := lit "a[1]"
  argv := [lit "x"]

theorem wellFormed_firstCopy :
    (∀ st, (AgentService.make {} none).check { request := GrpcExecutor.request firstCopy } =
      some st → st.code ≠ .invalidArgument) ∧
    (((AgentService.make {} none).runSpec (GrpcExecutor.request firstCopy)).timeoutMs : ℤ) =
      60 * 1000 ∧
    ((AgentService.make {} none).runSpec (GrpcExecutor.request firstCopy)).argv = [lit "x"] ∧
    ((AgentService.make {} none).runSpec (GrpcExecutor.request firstCopy)).env = [] ∧
    ∀ env, env.Perm (GrpcExecutor.request firstCopy).env → AssocList.overlay [] env = [] :=
  wellFormed_of_parsed (fun _ => some (repeatedTask 2)) [] (by decide) firstCopy (by decide)
    (AgentService.make {} none) { request := GrpcExecutor.request firstCopy } rfl

end Dtest
