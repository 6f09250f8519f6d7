import Mathlib.Data.List.DropRight
import ValidationSuite.Platcheck.Iommu
import ValidationSuite.Platcheck.Text

/-!
# The checks

The other checks of `platcheck/src/checks.cpp`, with the parsers of the files in `/proc`, over what
the checker can find out about the files below its root.
-/

namespace Platcheck

open ByteString Words

/-- The files of the system, by their paths. -/
structure Files where
  /-- `read_file` -/
  read : ByteString → Option ByteString := fun _ => none
  /-- `fs::exists` -/
  present : ByteString → Bool := fun _ => false
  /-- may be read and written by this user -/
  readWrite : ByteString → Bool := fun _ => false
  /-- the names in a directory, in the order in which the iterator returns them -/
  entries : ByteString → Option (List ByteString) := fun _ => none
  /-- the target of a symbolic link -/
  link : ByteString → Option ByteString := fun _ => none

/-- What `read_iommu_groups` reads below `root`. -/
def Files.sysfs (files : Files) (root : ByteString) : Sysfs where
  iommuGroups :=
    let base := root ++ lit "/sys/kernel/iommu_groups"
    ((files.entries base).getD []).map fun name =>
      (name, (files.entries (base ++ lit "/" ++ name ++ lit "/devices")).getD [])
  pci bdf :=
    let pci := root ++ lit "/sys/bus/pci/devices/" ++ bdf
    { vendor := files.read (pci ++ lit "/vendor")
      device := files.read (pci ++ lit "/device")
      cls := files.read (pci ++ lit "/class")
      driver := files.link (pci ++ lit "/driver") }

/-! ### Parsers -/

def splitWs (s : ByteString) : List ByteString := words isSpace s

/-- Does the line begin with `flags` and have a colon? -/
def isFlagsLine (line : ByteString) : Bool :=
  (lit "flags").isPrefixOf line && line.contains ':'.toNat.toUInt8

def cpuinfoHasFlagsLine (cpuinfo : ByteString) : Bool := (getLines cpuinfo).any isFlagsLine

lemma cpuinfoHasFlagsLine_iff {info : ByteString} :
    cpuinfoHasFlagsLine info = true ↔ ∃ line, (getLines info).find? isFlagsLine = some line := by
  rw [cpuinfoHasFlagsLine, List.any_eq_true, ← List.find?_isSome, Option.isSome_iff_exists]

/-- What is behind the first colon of a line. -/
def afterColon (line : ByteString) : ByteString :=
  (line.dropWhile fun c => c != ':'.toNat.toUInt8).drop 1

/-- Only the first CPU's flags are inspected. -/
def cpuHasFlag (cpuinfo flag : ByteString) : Bool :=
  match (getLines cpuinfo).find? isFlagsLine with
  | none => false
  | some line => (splitWs (afterColon line)).contains flag

/-- A `long` at the start of a string, as a stream reads it. -/
def readLong (s : ByteString) : Option ℤ :=
  (integer? s).filter fun n => -2 ^ 63 ≤ n && n < 2 ^ 63

def meminfoValue (meminfo key : ByteString) : Option ℤ :=
  match (getLines meminfo).find? fun line => (key ++ lit ":").isPrefixOf line with
  | none => none
  | some line => readLong (line.drop (key ++ lit ":").length)

def cmdlineHas (cmdline key : ByteString) : Bool :=
  (splitWs cmdline).any fun tok => tok == key || (key ++ lit "=").isPrefixOf tok

def cmdlineValue (cmdline key : ByteString) : Option ByteString :=
  ((splitWs cmdline).find? fun tok => (key ++ lit "=").isPrefixOf tok).map fun tok =>
    tok.drop (key ++ lit "=").length

def paramEnabled (v : ByteString) : Bool := v == lit "Y" || v == lit "y" || v == lit "1"

/-! ### The checker -/

variable (files : Files) (root : ByteString)

def checkKernel : CheckResult :=
  match files.read (root ++ lit "/proc/sys/kernel/osrelease") with
  | none => .make (lit "kernel") (lit "Kernel version") .skip (lit "osrelease not readable")
  | some rel => .make (lit "kernel") (lit "Kernel version") .pass (trim rel)

def checkCpuVirt : CheckResult :=
  let id := lit "cpu_virt"
  let title := lit "CPU virtualization extensions"
  match files.read (root ++ lit "/proc/cpuinfo") with
  | none => .make id title .skip (lit "/proc/cpuinfo not readable")
  | some info =>
    if !cpuinfoHasFlagsLine info then
      .make id title .skip
        (lit "no x86 'flags' line (non-x86 host?); rely on the /dev/kvm check")
    else if cpuHasFlag info (lit "vmx") then
      .make id title .pass (lit "Intel VT-x (vmx) present")
    else if cpuHasFlag info (lit "svm") then
      .make id title .pass (lit "AMD-V (svm) present")
    else
      .make id title .fail (lit "neither vmx nor svm present in cpu flags")
        (lit "Enable VT-x/AMD-V in firmware; if this is a VM, enable nested virtualization " ++
          lit "on the parent hypervisor.")

def checkKvmDevice : CheckResult :=
  let id := lit "kvm_device"
  let title := lit "/dev/kvm accessible"
  let dev := root ++ lit "/dev/kvm"
  if !files.present dev then
    .make id title .fail (lit "/dev/kvm does not exist")
      (lit "Load the kvm module (modprobe kvm_intel / kvm_amd) and check firmware settings.")
  else if !files.readWrite dev then
    .make id title .warn (lit "/dev/kvm exists but is not read/write for this user")
      (lit "Add your user to the 'kvm' group, or run as a user that can open /dev/kvm.")
  else .make id title .pass (lit "/dev/kvm is present and read/write")

def checkKvmModule : CheckResult :=
  let id := lit "kvm_module"
  let title := lit "KVM kernel module"
  if files.present (root ++ lit "/sys/module/kvm_intel") then
    .make id title .pass (lit "kvm_intel loaded")
  else if files.present (root ++ lit "/sys/module/kvm_amd") then
    .make id title .pass (lit "kvm_amd loaded")
  else if files.present (root ++ lit "/sys/module/kvm") then
    .make id title .pass (lit "kvm loaded (no vendor module; e.g. arm64)")
  else
    .make id title .fail (lit "no kvm module loaded")
      (lit "modprobe kvm_intel or kvm_amd (check dmesg for why it failed to load).")

/-- The parameter of a module, if it is there. -/
def readParam (mod param : ByteString) : Option ByteString :=
  files.read (root ++ lit "/sys/module/" ++ mod ++ lit "/parameters/" ++ param)

def checkNestedVirt : CheckResult :=
  let id := lit "nested_virt"
  let title := lit "Nested virtualization"
  match [lit "kvm_intel", lit "kvm_amd"].findSome? fun mod =>
      (readParam files root mod (lit "nested")).map fun v => (mod, trim v) with
  | some (mod, val) =>
    if paramEnabled val then .make id title .pass (mod ++ lit ".nested = " ++ val)
    else
      .make id title .warn (mod ++ lit ".nested = " ++ val)
        (lit "Reload with 'options " ++ mod ++
          lit " nested=1' in /etc/modprobe.d/ if you need VMs inside VMs.")
  | none => .make id title .skip (lit "no nested parameter exposed by the loaded kvm module")

def checkIommu : Option CheckResult := do
  let id := lit "iommu"
  let title := lit "IOMMU enabled"
  let groups ← readIommuGroups (files.sysfs root)
  let cmdline := readTrimmed (files.read (root ++ lit "/proc/cmdline"))
  if !groups.isEmpty then
    let pt := match cmdlineValue cmdline (lit "iommu") with
      | some pt => lit ", iommu=" ++ pt
      | none => []
    return .make id title .pass (ofNat groups.length ++ lit " IOMMU groups" ++ pt)
  else
    let option :=
      if !cmdlineHas cmdline (lit "intel_iommu") && !cmdlineHas cmdline (lit "amd_iommu") then
        lit "; kernel cmdline has no intel_iommu/amd_iommu option"
      else []
    return .make id title .fail (lit "no IOMMU groups found" ++ option)
      (lit "Enable VT-d/AMD-Vi in firmware and boot with intel_iommu=on (or amd_iommu=on) " ++
        lit "and optionally iommu=pt.")

def checkVfioModules : CheckResult :=
  let id := lit "vfio"
  let title := lit "VFIO modules"
  let vfio := files.present (root ++ lit "/sys/module/vfio")
  let pci := files.present (root ++ lit "/sys/module/vfio_pci")
  let type1 := files.present (root ++ lit "/sys/module/vfio_iommu_type1")
  let d := lit "vfio=" ++ (if vfio then lit "y" else lit "n") ++ lit " vfio_pci=" ++
    (if pci then lit "y" else lit "n") ++ lit " vfio_iommu_type1=" ++
    (if type1 then lit "y" else lit "n")
  if vfio && pci && type1 then .make id title .pass d
  else .make id title .warn d (lit "modprobe vfio-pci (only needed for PCI device passthrough).")

def checkHugepages : CheckResult :=
  let id := lit "hugepages"
  let title := lit "Hugepages reserved"
  match files.read (root ++ lit "/proc/meminfo") with
  | none => .make id title .skip (lit "/proc/meminfo not readable")
  | some info =>
    match meminfoValue info (lit "HugePages_Total") with
    | none => .make id title .skip (lit "HugePages_Total not reported")
    | some total =>
      let size := match meminfoValue info (lit "Hugepagesize") with
        | some size => lit ", Hugepagesize=" ++ ofInt size ++ lit " kB"
        | none => []
      let d := lit "HugePages_Total=" ++ ofInt total ++ size
      if total > 0 then .make id title .pass d
      else
        .make id title .warn d
          (lit "Reserve hugepages (vm.nr_hugepages) for lower-jitter, higher-throughput guests.")

/-- The variable `found` with one more name. -/
def addFound (found name : ByteString) : ByteString :=
  (if found.isEmpty then found else found ++ lit ", ") ++ name

def probe (found : ByteString) (p : ByteString × ByteString) : ByteString :=
  match readParam files root p.1 p.2 with
  | some v => if paramEnabled (trim v) then addFound found (p.1 ++ lit "." ++ p.2) else found
  | none => found

/-- What `found` is in the end. -/
def indicators : ByteString :=
  let found := [(lit "kvm_amd", lit "sev"), (lit "kvm_amd", lit "sev_es"),
    (lit "kvm_amd", lit "sev_snp"), (lit "kvm_intel", lit "tdx")].foldl (probe files root) []
  if files.present (root ++ lit "/dev/sev") then addFound found (lit "/dev/sev") else found

def checkConfidentialComputing : CheckResult :=
  let id := lit "confidential_computing"
  let title := lit "Confidential computing support (SEV/TDX)"
  let found := indicators files root
  if !found.isEmpty then .make id title .pass (lit "detected: " ++ found)
  else
    .make id title .skip
      (lit "no SEV/SEV-ES/SEV-SNP/TDX indicators exposed by this kernel or CPU")

/-- The constructor of `Checker`. -/
def rootOf (root : ByteString) : ByteString := root.rdropWhile fun c => c == Path.slash

/-- `none` if `read_iommu_groups` throws. -/
def runAll : Option (List CheckResult) := do
  let iommu ← checkIommu files root
  let gpuIsolation ← checkGpuIsolation (files.sysfs root)
  return [checkKernel files root, checkCpuVirt files root, checkKvmDevice files root,
    checkKvmModule files root, checkNestedVirt files root, iommu, checkVfioModules files root,
    checkHugepages files root, gpuIsolation, checkConfidentialComputing files root]

end Platcheck
