import ValidationSuite.Library.CommandLine
import ValidationSuite.Platcheck.Checks
import ValidationSuite.Platcheck.Text

/-!
# What the exit status of platcheck says

`render_groups` of `platcheck/src/checks.cpp` and `main` of `platcheck/src/main.cpp`. The exit
status is 0 when nothing is known to keep the host from running virtual machines, and every result
that calls for something to be done says what.
-/

namespace Platcheck

open ByteString CommandLine Words

def renderGroup (g : IommuGroup) : ByteString :=
  lit "IOMMU group " ++ ofInt g.id ++ lit "\n" ++ g.devices.flatMap fun d =>
    lit "  " ++ d.bdf ++ lit "  vendor=" ++ d.vendor ++ lit " device=" ++ d.device ++
      lit " class=" ++ d.cls ++ lit " driver=" ++
      (if d.driver.isEmpty then lit "-" else d.driver) ++ lit "\n"

def renderGroups (groups : List IommuGroup) : ByteString :=
  if groups.isEmpty then lit "No IOMMU groups found.\n" else groups.flatMap renderGroup

/-! ### The program -/

structure Settings where
  json : Bool := false
  groups : Bool := false
  root : ByteString := []
  deriving DecidableEq

/-- Why the program ends before the checks. -/
inductive Stop where
  | help
  | usage
  deriving DecidableEq

/-- The branches of the loop over the arguments. -/
def option (a : ByteString) : Action ByteString Settings Stop :=
  if a = lit "--json" then .flag fun s => { s with json := true }
  else if a = lit "--groups" then .flag fun s => { s with groups := true }
  -- without a value it is no option
  else if a = lit "--root" then .set .usage fun v s => { s with root := v }
  else if a = lit "--help" ∨ a = lit "-h" then .stop .help
  else .stop .usage

def usage (argv0 : ByteString) : ByteString :=
  lit "Usage: " ++ argv0 ++ lit " [--json] [--groups] [--root DIR]\n" ++
    lit "  --json       machine-readable output\n" ++
    lit "  --groups     also list IOMMU groups and their devices\n" ++
    lit "  --root DIR   read /proc and /sys from DIR (for testing against a fake tree)\n" ++
    lit "Exit status: 0 = no failed checks, 1 = at least one failed check, 2 = usage error\n"

/-- The exit status, and what has been written to the standard streams. -/
structure Outcome where
  status : ℤ
  out : ByteString := []
  err : ByteString := []
  deriving DecidableEq

/-- `none` if an exception is not caught. -/
def main (files : Files) (argv0 : ByteString) (args : List ByteString) : Option Outcome := do
  match CommandLine.read option args {} with
  | (_, some .help) => return { status := 0, err := usage argv0 }
  | (_, some .usage) => return { status := 2, err := usage argv0 }
  | (s, none) =>
    let results ← runAll files (rootOf s.root)
    let out := if s.json then renderJson results else renderText results
    if s.groups && !s.json then
      let groups ← readIommuGroups (files.sysfs s.root)
      return { status := exitCodeFor results, out := out ++ lit "\n" ++ renderGroups groups }
    else return { status := exitCodeFor results, out }

/-! ### Results that call for something to be done -/

/-- The result has the id, and advice where there is something to be done. -/
structure CheckResult.Advises (id : ByteString) (r : CheckResult) : Prop where
  id_eq : r.id = id
  advised : r.remediation ≠ [] ↔ r.status = .warn ∨ r.status = .fail

section Advises

variable (id title detail : ByteString) {s : Status} {remediation : ByteString}

lemma advises_quiet (hs : s = .pass ∨ s = .skip) :
    (CheckResult.make id title s detail).Advises id := by
  refine ⟨rfl, iff_of_false (fun h => h rfl) ?_⟩
  rcases hs with rfl | rfl
  · exact nofun
  · exact nofun

lemma advises_loud (hs : s = .warn ∨ s = .fail) (hrem : remediation ≠ []) :
    (CheckResult.make id title s detail remediation).Advises id :=
  ⟨rfl, iff_of_true hrem hs⟩

end Advises

variable (files : Files) (root : ByteString)

lemma checkKernel_advises : (checkKernel files root).Advises (lit "kernel") := by
  rw [checkKernel]
  split
  · exact advises_quiet _ _ _ (.inr rfl)
  · exact advises_quiet _ _ _ (.inl rfl)

lemma checkCpuVirt_advises : (checkCpuVirt files root).Advises (lit "cpu_virt") := by
  rw [checkCpuVirt]
  split
  · exact advises_quiet _ _ _ (.inr rfl)
  · split_ifs
    · exact advises_quiet _ _ _ (.inr rfl)
    · exact advises_quiet _ _ _ (.inl rfl)
    · exact advises_quiet _ _ _ (.inl rfl)
    · exact advises_loud _ _ _ (.inr rfl) (List.cons_ne_nil _ _)

lemma checkKvmDevice_advises : (checkKvmDevice files root).Advises (lit "kvm_device") := by
  rw [checkKvmDevice]
  split_ifs
  · exact advises_loud _ _ _ (.inr rfl) (List.cons_ne_nil _ _)
  · exact advises_loud _ _ _ (.inl rfl) (List.cons_ne_nil _ _)
  · exact advises_quiet _ _ _ (.inl rfl)

lemma checkKvmModule_advises : (checkKvmModule files root).Advises (lit "kvm_module") := by
  rw [checkKvmModule]
  split_ifs
  · exact advises_quiet _ _ _ (.inl rfl)
  · exact advises_quiet _ _ _ (.inl rfl)
  · exact advises_quiet _ _ _ (.inl rfl)
  · exact advises_loud _ _ _ (.inr rfl) (List.cons_ne_nil _ _)

lemma checkNestedVirt_advises : (checkNestedVirt files root).Advises (lit "nested_virt") := by
  rw [checkNestedVirt]
  split
  · split_ifs
    · exact advises_quiet _ _ _ (.inl rfl)
    · exact advises_loud _ _ _ (.inl rfl) (List.cons_ne_nil _ _)
  · exact advises_quiet _ _ _ (.inr rfl)

lemma checkVfioModules_advises : (checkVfioModules files root).Advises (lit "vfio") := by
  rw [checkVfioModules]
  split_ifs
  all_goals first
    | exact advises_quiet _ _ _ (.inl rfl)
    | exact advises_loud _ _ _ (.inl rfl) (List.cons_ne_nil _ _)

lemma checkHugepages_advises : (checkHugepages files root).Advises (lit "hugepages") := by
  rw [checkHugepages]
  split
  · exact advises_quiet _ _ _ (.inr rfl)
  · split
    · exact advises_quiet _ _ _ (.inr rfl)
    · split_ifs
      · exact advises_quiet _ _ _ (.inl rfl)
      · exact advises_loud _ _ _ (.inl rfl) (List.cons_ne_nil _ _)

lemma checkConfidentialComputing_advises :
    (checkConfidentialComputing files root).Advises (lit "confidential_computing") := by
  rw [checkConfidentialComputing]
  split_ifs
  · exact advises_quiet _ _ _ (.inl rfl)
  · exact advises_quiet _ _ _ (.inr rfl)

lemma checkIommu_advises {r : CheckResult} (h : checkIommu files root = some r) :
    r.Advises (lit "iommu") := by
  obtain ⟨groups, -, hr⟩ := Option.bind_eq_some_iff.mp h
  split_ifs at hr
  · obtain rfl := Option.some.inj hr
    exact advises_quiet _ _ _ (.inl rfl)
  · obtain rfl := Option.some.inj hr
    exact advises_loud _ _ _ (.inr rfl) (List.cons_ne_nil _ _)

/-- No device makes the check of the GPUs fail. -/
lemma visit_worst_ne_fail (g : IommuGroup) {st : Isolation} (h : st.worst ≠ .fail)
    (dev : IommuDevice) : (st.visit g dev).worst ≠ .fail := by
  have hbump : ∀ worst s : Status, worst ≠ .fail → s ≠ .fail → bump worst s ≠ .fail := by
    intro worst s hworst hs
    rw [bump]
    split_ifs
    · exact hs
    · exact hworst
  simp only [Isolation.visit, apply_ite Isolation.worst]
  split_ifs
  · exact h
  · exact hbump _ _ h nofun
  · exact hbump _ _ h nofun

lemma checkGpuIsolation_advises {fs : Sysfs} {r : CheckResult} (h : checkGpuIsolation fs = some r) :
    r.Advises (lit "gpu_isolation") ∧ r.status ≠ .fail := by
  obtain ⟨groups, -, hr⟩ := Option.bind_eq_some_iff.mp h
  have hworst : (groups.foldl (fun st (g : IommuGroup) => g.devices.foldl (Isolation.visit g) st)
      ({} : Isolation)).worst ≠ .fail := by
    refine List.foldlRecOn groups _ (motive := fun st : Isolation => st.worst ≠ .fail) nofun ?_
    intro st hst g _
    exact List.foldlRecOn g.devices _ (motive := fun st : Isolation => st.worst ≠ .fail) hst
      fun st hst dev _ => visit_worst_ne_fail g hst dev
  dsimp only at hr
  split_ifs at hr with hnone hwarn
  · obtain rfl := Option.some.inj hr
    exact ⟨advises_quiet _ _ _ (.inr rfl), nofun⟩
  · obtain rfl := Option.some.inj hr
    exact ⟨advises_loud _ _ _ (.inl hwarn) (List.cons_ne_nil _ _), hworst⟩
  · obtain rfl := Option.some.inj hr
    refine ⟨⟨rfl, iff_of_false (fun h => h rfl) ?_⟩, hworst⟩
    rintro (h | h)
    · exact hwarn h
    · exact hworst h

/-! ### What keeps a host from running virtual machines -/

/-- Nothing is known to keep the host from running virtual machines with devices of their own. -/
structure Files.Ready : Prop where
  /-- a CPU that lists its flags has one of the two -/
  cpu : ∀ info line, files.read (root ++ lit "/proc/cpuinfo") = some info →
    (getLines info).find? isFlagsLine = some line →
    ∃ flag ∈ [lit "vmx", lit "svm"], Stands isSpace flag (afterColon line)
  device : files.present (root ++ lit "/dev/kvm") = true
  kernel : ∃ mod ∈ [lit "kvm_intel", lit "kvm_amd", lit "kvm"],
    files.present (root ++ lit "/sys/module/" ++ mod) = true
  iommu : ∃ names, files.entries (root ++ lit "/sys/kernel/iommu_groups") = some names ∧
    ∃ name ∈ names, isNumber name = true

lemma cpuHasFlag_iff {info line flag : ByteString}
    (h : (getLines info).find? isFlagsLine = some line) (hflag : flag ≠ []) :
    cpuHasFlag info flag = true ↔ Stands isSpace flag (afterColon line) := by
  rw [cpuHasFlag, h]
  dsimp only
  rw [List.contains_iff_mem, splitWs, mem_words, and_iff_right hflag]

variable {files root}

lemma checkCpuVirt_fail : (checkCpuVirt files root).status ≠ .fail ↔
    ∀ info line, files.read (root ++ lit "/proc/cpuinfo") = some info →
      (getLines info).find? isFlagsLine = some line →
      ∃ flag ∈ [lit "vmx", lit "svm"], Stands isSpace flag (afterColon line) := by
  rw [checkCpuVirt]
  cases hinfo : files.read (root ++ lit "/proc/cpuinfo") with
  | none => exact iff_of_true nofun nofun
  | some info =>
    dsimp only
    cases hline : (getLines info).find? isFlagsLine with
    | none =>
      have hflags : cpuinfoHasFlagsLine info = false := by
        rw [Bool.eq_false_iff, Ne, cpuinfoHasFlagsLine_iff, hline]
        exact nofun
      rw [hflags]
      refine iff_of_true nofun ?_
      rintro _ _ ⟨⟩ hline'
      rw [hline] at hline'
      cases hline'
    | some line =>
      rw [cpuinfoHasFlagsLine_iff.mpr ⟨line, hline⟩]
      have hvmx : cpuHasFlag info (lit "vmx") = true ↔ _ :=
        cpuHasFlag_iff hline (List.cons_ne_nil _ _)
      have hsvm : cpuHasFlag info (lit "svm") = true ↔ _ :=
        cpuHasFlag_iff hline (List.cons_ne_nil _ _)
      rw [Bool.not_true, if_neg Bool.false_ne_true]
      split_ifs with h₁ h₂
      · refine iff_of_true nofun ?_
        rintro _ _ ⟨⟩ hline'
        obtain rfl := Option.some.inj (hline.symm.trans hline')
        exact ⟨_, .head _, hvmx.mp h₁⟩
      · refine iff_of_true nofun ?_
        rintro _ _ ⟨⟩ hline'
        obtain rfl := Option.some.inj (hline.symm.trans hline')
        exact ⟨_, .tail _ (.head _), hsvm.mp h₂⟩
      · refine iff_of_false (fun h => h rfl) fun h => ?_
        obtain ⟨flag, hmem, hstands⟩ := h info line rfl hline
        rcases List.mem_pair.mp hmem with rfl | rfl
        · exact h₁ (hvmx.mpr hstands)
        · exact h₂ (hsvm.mpr hstands)

lemma checkKvmDevice_fail : (checkKvmDevice files root).status ≠ .fail ↔
    files.present (root ++ lit "/dev/kvm") = true := by
  rw [checkKvmDevice]
  cases files.present (root ++ lit "/dev/kvm") with
  | false => exact iff_of_false (fun h => h rfl) nofun
  | true =>
    refine iff_of_true ?_ rfl
    rw [Bool.not_true, if_neg Bool.false_ne_true]
    split_ifs
    · exact nofun
    · exact nofun

lemma checkKvmModule_fail : (checkKvmModule files root).status ≠ .fail ↔
    ∃ mod ∈ [lit "kvm_intel", lit "kvm_amd", lit "kvm"],
      files.present (root ++ lit "/sys/module/" ++ mod) = true := by
  have hpath (mod : ByteString) : root ++ lit "/sys/module/" ++ mod =
      root ++ (lit "/sys/module/" ++ mod) := List.append_assoc _ _ _
  simp only [hpath, List.mem_cons, List.not_mem_nil, or_false, exists_eq_or_imp, exists_eq_left]
  rw [checkKvmModule]
  change _ ↔ files.present (root ++ lit "/sys/module/kvm_intel") = true ∨
    files.present (root ++ lit "/sys/module/kvm_amd") = true ∨
    files.present (root ++ lit "/sys/module/kvm") = true
  split_ifs with h₁ h₂ h₃
  · exact iff_of_true nofun (.inl h₁)
  · exact iff_of_true nofun (.inr (.inl h₂))
  · exact iff_of_true nofun (.inr (.inr h₃))
  · refine iff_of_false (fun h => h rfl) ?_
    rintro (h | h | h)
    · exact h₁ h
    · exact h₂ h
    · exact h₃ h

/-- A group is found where a name is a number. -/
lemma readIommuGroups_ne_nil {fs : Sysfs} {groups : List IommuGroup}
    (h : readIommuGroups fs = some groups) :
    groups ≠ [] ↔ ∃ entry ∈ fs.iommuGroups, isNumber entry.1 = true := by
  obtain ⟨gs, hgs, hsort⟩ := Option.bind_eq_some_iff.mp h
  obtain rfl := Option.some.inj hsort
  have hempty : gs = [] ↔ fs.iommuGroups.filter (fun entry => isNumber entry.1) = [] := by
    cases hfilter : fs.iommuGroups.filter fun entry => isNumber entry.1 with
    | nil =>
      rw [hfilter] at hgs
      exact iff_of_true (Option.some.inj hgs).symm rfl
    | cons entry entries =>
      rw [hfilter, List.mapM_cons] at hgs
      obtain ⟨g, -, hgs⟩ := Option.bind_eq_some_iff.mp hgs
      obtain ⟨rest, -, hgs⟩ := Option.bind_eq_some_iff.mp hgs
      obtain rfl := Option.some.inj hgs
      exact iff_of_false (List.cons_ne_nil _ _) (List.cons_ne_nil _ _)
  have hsorted : sortBy IommuGroup.id gs = [] ↔ gs = [] := by
    rw [← List.length_eq_zero_iff, (SortBy.perm_sortBy _ gs).length_eq, List.length_eq_zero_iff]
  rw [Ne, hsorted, hempty, List.filter_eq_nil_iff]
  simp only [not_forall, not_not, exists_prop]

lemma checkIommu_fail {r : CheckResult} (h : checkIommu files root = some r) :
    r.status ≠ .fail ↔
      ∃ names, files.entries (root ++ lit "/sys/kernel/iommu_groups") = some names ∧
        ∃ name ∈ names, isNumber name = true := by
  obtain ⟨groups, hgroups, hr⟩ := Option.bind_eq_some_iff.mp h
  have hnames : (∃ entry ∈ (files.sysfs root).iommuGroups, isNumber entry.1 = true) ↔
      ∃ names, files.entries (root ++ lit "/sys/kernel/iommu_groups") = some names ∧
        ∃ name ∈ names, isNumber name = true := by
    simp only [Files.sysfs, List.mem_map, exists_exists_and_eq_and]
    cases files.entries (root ++ lit "/sys/kernel/iommu_groups") with
    | none => simp
    | some names => simp
  rw [← hnames, ← readIommuGroups_ne_nil hgroups]
  dsimp only at hr
  by_cases hsome : (!groups.isEmpty) = true
  · rw [if_pos hsome] at hr
    obtain rfl := Option.some.inj hr
    exact iff_of_true nofun (by simpa using hsome)
  · rw [if_neg hsome] at hr
    obtain rfl := Option.some.inj hr
    exact iff_of_false (fun h => h rfl) (by simpa using hsome)

lemma exitCodeFor_eq_one {results : List CheckResult} :
    exitCodeFor results = 1 ↔ ¬exitCodeFor results = 0 := by
  induction results with
  | nil => decide
  | cons r rs ih =>
    rw [exitCodeFor]
    split_ifs
    · decide
    · exact ih

/-! ### The checks that never fail -/

lemma checkKernel_ne_fail : (checkKernel files root).status ≠ .fail := by
  rw [checkKernel]
  split
  · exact nofun
  · exact nofun

lemma checkNestedVirt_ne_fail : (checkNestedVirt files root).status ≠ .fail := by
  rw [checkNestedVirt]
  split
  · split_ifs
    · exact nofun
    · exact nofun
  · exact nofun

lemma checkVfioModules_ne_fail : (checkVfioModules files root).status ≠ .fail := by
  rw [checkVfioModules]
  split_ifs
  all_goals exact nofun

lemma checkHugepages_ne_fail : (checkHugepages files root).status ≠ .fail := by
  rw [checkHugepages]
  split
  · exact nofun
  · split
    · exact nofun
    · split_ifs
      · exact nofun
      · exact nofun

lemma checkConfidentialComputing_ne_fail :
    (checkConfidentialComputing files root).status ≠ .fail := by
  rw [checkConfidentialComputing]
  split_ifs
  · exact nofun
  · exact nofun

/-- The checks that may fail are those of what the host has to have. -/
lemma exitCodeFor_runAll {results : List CheckResult} (h : runAll files root = some results) :
    exitCodeFor results = 0 ↔ files.Ready root := by
  obtain ⟨iommu, hiommu, h⟩ := Option.bind_eq_some_iff.mp h
  obtain ⟨gpu, hgpu, h⟩ := Option.bind_eq_some_iff.mp h
  obtain rfl := Option.some.inj h
  rw [exitCodeFor_eq_zero]
  constructor
  · intro hall
    simp only [List.forall_mem_cons] at hall
    exact ⟨checkCpuVirt_fail.mp hall.2.1, checkKvmDevice_fail.mp hall.2.2.1,
      checkKvmModule_fail.mp hall.2.2.2.1, (checkIommu_fail hiommu).mp hall.2.2.2.2.2.1⟩
  · intro hready
    simp only [List.forall_mem_cons]
    exact ⟨checkKernel_ne_fail, checkCpuVirt_fail.mpr hready.cpu,
      checkKvmDevice_fail.mpr hready.device, checkKvmModule_fail.mpr hready.kernel,
      checkNestedVirt_ne_fail, (checkIommu_fail hiommu).mpr hready.iommu, checkVfioModules_ne_fail,
      checkHugepages_ne_fail, (checkGpuIsolation_advises hgpu).2,
      checkConfidentialComputing_ne_fail, nofun⟩

/-- The ids of the results, in their order. -/
def ids : List ByteString :=
  [lit "kernel", lit "cpu_virt", lit "kvm_device", lit "kvm_module", lit "nested_virt",
    lit "iommu", lit "vfio", lit "hugepages", lit "gpu_isolation", lit "confidential_computing"]

lemma runAll_advises {results : List CheckResult} (h : runAll files root = some results) :
    results.map CheckResult.id = ids ∧
      ∀ r ∈ results, (r.remediation ≠ [] ↔ r.status = .warn ∨ r.status = .fail) := by
  obtain ⟨iommu, hiommu, h⟩ := Option.bind_eq_some_iff.mp h
  obtain ⟨gpu, hgpu, h⟩ := Option.bind_eq_some_iff.mp h
  obtain rfl := Option.some.inj h
  have hall : List.Forall₂ (fun r id => CheckResult.Advises id r)
      [checkKernel files root, checkCpuVirt files root, checkKvmDevice files root,
        checkKvmModule files root, checkNestedVirt files root, iommu, checkVfioModules files root,
        checkHugepages files root, gpu, checkConfidentialComputing files root] ids :=
    .cons (checkKernel_advises files root) <| .cons (checkCpuVirt_advises files root) <|
    .cons (checkKvmDevice_advises files root) <| .cons (checkKvmModule_advises files root) <|
    .cons (checkNestedVirt_advises files root) <| .cons (checkIommu_advises files root hiommu) <|
    .cons (checkVfioModules_advises files root) <| .cons (checkHugepages_advises files root) <|
    .cons (checkGpuIsolation_advises hgpu).1 <|
    .cons (checkConfidentialComputing_advises files root) .nil
  obtain ⟨hadvised, hids⟩ :=
    (List.forall₂_and_left _ _).mp (hall.imp fun r id h => ⟨h.advised, h.id_eq⟩)
  have hids := List.forall₂_map_left_iff.mpr hids
  rw [List.forall₂_eq_eq_eq] at hids
  exact ⟨hids, hadvised⟩

/-! ### The program -/

/-- Where the arguments are accepted and no exception ends the program: the exit status is 0 if the
host is ready and 1 if not, the ten results are there in their order, with advice exactly where
something is to be done, and the standard output begins with the report of them, which a program
can read if it is JSON. -/
theorem exit_status_tells_readiness {files : Files} {argv0 : ByteString} {args : List ByteString}
    {s : Settings} {o : Outcome} (hargs : CommandLine.read option args {} = (s, none))
    (hrun : main files argv0 args = some o) :
    (o.status = 0 ↔ files.Ready (rootOf s.root)) ∧
      (o.status = 1 ↔ ¬files.Ready (rootOf s.root)) ∧ o.err = [] ∧
      ∃ results, runAll files (rootOf s.root) = some results ∧
        results.map CheckResult.id = ids ∧
        (∀ r ∈ results, (r.remediation ≠ [] ↔ r.status = .warn ∨ r.status = .fail)) ∧
        if s.json then
          (JsonText.parse o.out).bind report? = some (results, decide (o.status = 0))
        else renderText results <+: o.out := by
  rw [main, hargs] at hrun
  obtain ⟨results, hresults, hrun⟩ := Option.bind_eq_some_iff.mp hrun
  have hready := exitCodeFor_runAll hresults
  obtain ⟨hids, hadvised⟩ := runAll_advises hresults
  have hfailed : exitCodeFor results = 1 ↔ ¬files.Ready (rootOf s.root) := by
    rw [exitCodeFor_eq_one, hready]
  have hjson : (JsonText.parse (renderJson results)).bind report? =
      some (results, decide (exitCodeFor results = 0)) := by
    rw [parse_renderJson, Option.bind_some, report?_reportValue]
  dsimp only at hrun
  cases hformat : s.json with
  | true =>
    rw [hformat, Bool.not_true, Bool.and_false, if_neg Bool.false_ne_true, if_pos rfl] at hrun
    obtain rfl := Option.some.inj hrun
    exact ⟨hready, hfailed, rfl, results, hresults, hids, hadvised, hjson⟩
  | false =>
    rw [hformat, Bool.not_false, Bool.and_true, if_neg Bool.false_ne_true] at hrun
    split_ifs at hrun
    · -- the groups are listed behind the report
      obtain ⟨groups, -, hrun⟩ := Option.bind_eq_some_iff.mp hrun
      obtain rfl := Option.some.inj hrun
      refine ⟨hready, hfailed, rfl, results, hresults, hids, hadvised, ?_⟩
      rw [if_neg Bool.false_ne_true, List.append_assoc]
      exact List.prefix_append _ _
    · obtain rfl := Option.some.inj hrun
      exact ⟨hready, hfailed, rfl, results, hresults, hids, hadvised, List.prefix_refl _⟩

/-- A host that is ready. -/
def ready : Files where
  read p :=
    if p = lit "/fake/proc/cpuinfo" then some (lit "processor\t: 0\nflags\t\t: fpu svm sse\n")
    else none
  present p := p = lit "/fake/dev/kvm" || p = lit "/fake/sys/module/kvm"
  entries p := if p = lit "/fake/sys/kernel/iommu_groups" then some [lit "7"] else none

theorem exit_status_tells_readiness_ready :
    ∃ o, main ready (lit "platcheck") [lit "--root", lit "/fake/"] = some o ∧ o.status = 0 := by
  have hsome : (main ready (lit "platcheck") [lit "--root", lit "/fake/"]).isSome = true := rfl
  obtain ⟨o, ho⟩ := Option.isSome_iff_exists.mp hsome
  have hread : CommandLine.read option [lit "--root", lit "/fake/"] {} =
      ({ root := lit "/fake/" }, none) := rfl
  refine ⟨o, ho, (exit_status_tells_readiness hread ho).1.mpr ⟨?_, by decide, ?_, ?_⟩⟩
  · rintro info line hinfo hline
    have hinfo' : ready.read (rootOf (lit "/fake/") ++ lit "/proc/cpuinfo") =
      some (lit "processor\t: 0\nflags\t\t: fpu svm sse\n") := by decide
    obtain rfl := Option.some.inj (hinfo'.symm.trans hinfo)
    have hline' : (getLines (lit "processor\t: 0\nflags\t\t: fpu svm sse\n")).find? isFlagsLine =
      some (lit "flags\t\t: fpu svm sse") := by decide
    obtain rfl := Option.some.inj (hline'.symm.trans hline)
    exact ⟨lit "svm", .tail _ (.head _), (mem_words.mp (by decide)).2⟩
  · exact ⟨lit "kvm", by decide, by decide⟩
  · exact ⟨[lit "7"], by decide, lit "7", .head _, by decide⟩

end Platcheck
