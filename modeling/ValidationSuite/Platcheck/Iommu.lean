import ValidationSuite.Library.Json
import ValidationSuite.Library.Path
import ValidationSuite.Library.SortBy
import ValidationSuite.Platcheck.Report

/-!
# IOMMU groups

`read_iommu_groups` and `check_gpu_isolation` of `platcheck/src/checks.cpp`, over what they read of
the file system: the directories of the groups, in the order in which the iterators return them, and
the files of the PCI devices.
-/

namespace Platcheck

open ByteString

/-! ### Helpers -/

/-- `s` without white space around it. -/
def trim (s : ByteString) : ByteString :=
  ((s.dropWhile isSpace).reverse.dropWhile isSpace).reverse

/-- `std::tolower`. -/
def toLowerByte (c : UInt8) : UInt8 := if 0x41 ≤ c ∧ c ≤ 0x5a then c + 0x20 else c

def toLower (s : ByteString) : ByteString := s.map toLowerByte

/-- `contents` is what the file has in it, if it can be read. -/
def readTrimmed (contents : Option ByteString) : ByteString := trim (contents.getD [])

/-- `std::stoi`, which throws if the number is no `int`. -/
def stoi (s : ByteString) : Option ℤ :=
  (integer? s).filter fun n => -2147483648 ≤ n && n ≤ 2147483647

/-- `std::filesystem::path::filename`. -/
def filename (p : ByteString) : ByteString := (Path.segments p).getLast (List.cons_ne_nil _ _)

/-! ### Devices and groups -/

/-- The files of a device in `/sys/bus/pci/devices`, and the target of its link `driver`. -/
structure PciFiles where
  vendor : Option ByteString := none
  device : Option ByteString := none
  cls : Option ByteString := none
  driver : Option ByteString := none
  deriving DecidableEq

/-- What lies below the root: the entries of `/sys/kernel/iommu_groups`, if it is a directory, with
the entries of their `devices`, and the PCI devices. -/
structure Sysfs where
  iommuGroups : List (ByteString × List ByteString)
  pci : ByteString → PciFiles

structure IommuDevice where
  bdf : ByteString
  vendor : ByteString
  device : ByteString
  cls : ByteString
  driver : ByteString
  deriving DecidableEq

structure IommuGroup where
  id : ℤ
  devices : List IommuDevice
  deriving DecidableEq

def readIommuDevice (pci : ByteString → PciFiles) (bdf : ByteString) : IommuDevice where
  bdf := bdf
  vendor := toLower (readTrimmed (pci bdf).vendor)
  device := toLower (readTrimmed (pci bdf).device)
  cls := toLower (readTrimmed (pci bdf).cls)
  driver := ((pci bdf).driver.map filename).getD []

/-- The entries of other names are skipped. -/
def isNumber (name : ByteString) : Bool := !name.isEmpty && name.all isDigit

def readIommuGroup (pci : ByteString → PciFiles) (entry : ByteString × List ByteString) :
    Option IommuGroup := do
  let id ← stoi entry.1
  return ⟨id, sortBy IommuDevice.bdf (entry.2.map (readIommuDevice pci))⟩

/-- `none` if a name is a number that is no `int`. -/
def readIommuGroups (fs : Sysfs) : Option (List IommuGroup) := do
  let groups ← (fs.iommuGroups.filter fun entry => isNumber entry.1).mapM (readIommuGroup fs.pci)
  return sortBy IommuGroup.id groups

/-- A number is read as the number it is, if it fits. -/
lemma stoi_of_isNumber {name : ByteString} (h : isNumber name = true)
    (hfits : digits name < 2 ^ 31) : stoi name = some (digits name : ℤ) := by
  obtain ⟨hne, hall⟩ := Bool.and_eq_true_iff.mp h
  obtain ⟨c, rest, rfl⟩ := List.exists_cons_of_ne_nil (by simpa using hne)
  have hc : isDigit c = true := List.all_eq_true.mp hall c (.head _)
  have hrange : 0x30 ≤ c.toNat ∧ c.toNat ≤ 0x39 := by
    simpa [isDigit, UInt8.le_iff_toNat_le] using hc
  have hne : ∀ d : UInt8, d.toNat < 0x30 → c ≠ d := by
    rintro d hd rfl
    omega
  have hspace : ¬ isSpace c = true := by
    simp only [isSpace, Bool.or_eq_true, Bool.and_eq_true, beq_iff_eq, decide_eq_true_eq,
      UInt8.le_iff_toNat_le]
    rintro (hblank | ⟨-, hle⟩)
    · exact hne _ (by decide) hblank
    · have hle : c.toNat ≤ 0x0d := hle
      omega
  have hread : integer? (c :: rest) = some (digits (c :: rest) : ℤ) := by
    rw [integer?, List.dropWhile_cons_of_neg hspace]
    dsimp only
    rw [if_neg (hne _ (by decide)), if_neg (hne _ (by decide)), List.head?_cons, Option.map_some,
      Option.getD_some, if_pos hc]
    rfl
  rw [stoi, hread, Option.filter_some, if_pos]
  simp only [Bool.and_eq_true, decide_eq_true_eq]
  omega

/-! ### The check -/

def isDisplayClass (c : ByteString) : Bool := (lit "0x03").isPrefixOf c

def isBridgeClass (c : ByteString) : Bool := (lit "0x06").isPrefixOf c

def isAudioClass (c : ByteString) : Bool := (lit "0x0403").isPrefixOf c

def isNvidia (d : IommuDevice) : Bool := d.vendor == lit "0x10de"

def rank : Status → ℕ
  | .fail => 3
  | .warn => 2
  | .pass => 1
  | .skip => 0

def bump (worst s : Status) : Status := if rank s > rank worst then s else worst

/-- The neighbours that `dev` should not share its group with. -/
def others (devices : List IommuDevice) (dev : IommuDevice) : List ByteString :=
  (devices.filter fun o =>
    -- bridges are fine, and so is the GPU's own HDA function
    !(o.bdf == dev.bdf || isBridgeClass o.cls || (isNvidia o && isAudioClass o.cls))).map (·.bdf)

/-- The variables of the loop over all devices. -/
structure Isolation where
  worst : Status := .skip
  detail : ByteString := []
  gpus : ℕ := 0

/-- The body of the loop. -/
def Isolation.visit (g : IommuGroup) (st : Isolation) (dev : IommuDevice) : Isolation :=
  if !isNvidia dev || !isDisplayClass dev.cls then st
  else
    let others := others g.devices dev
    let detail := if st.detail.isEmpty then st.detail else st.detail ++ lit "; "
    let detail := detail ++ dev.bdf ++ lit " (group " ++ ofInt g.id ++ lit ", driver " ++
      (if dev.driver.isEmpty then lit "none" else dev.driver) ++ lit ")"
    if others.isEmpty then ⟨bump st.worst .pass, detail, st.gpus + 1⟩
    else
      ⟨bump st.worst .warn,
        detail ++ lit " shares its group with:" ++ others.flatMap fun b => lit " " ++ b,
        st.gpus + 1⟩

/-- `make`. -/
def CheckResult.make (id title : ByteString) (s : Status) (detail : ByteString)
    (remediation : ByteString := []) : CheckResult where
  id := id
  title := title
  status := s
  detail := detail
  remediation := remediation

def checkGpuIsolation (fs : Sysfs) : Option CheckResult := do
  let id := lit "gpu_isolation"
  let title := lit "NVIDIA GPU IOMMU isolation"
  let groups ← readIommuGroups fs
  let st := groups.foldl (fun st g => g.devices.foldl (Isolation.visit g) st) {}
  if st.gpus = 0 then
    return .make id title .skip (lit "no NVIDIA display device found in any IOMMU group")
  else
    let rem :=
      if st.worst = .warn then
        lit "Endpoints sharing an IOMMU group must be passed through together. Try another slot " ++
          lit "or a platform with ACS support."
      else []
    return .make id title st.worst st.detail rem

end Platcheck
