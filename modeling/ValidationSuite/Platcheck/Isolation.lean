import ValidationSuite.Platcheck.Topology

/-!
# Isolation of GPUs

What `check_gpu_isolation` decides and says, for any set of IOMMU groups with different numbers and
different devices, and that neither the order in which the directories are read nor the letter case
of what the files say has an influence on it.
-/

namespace Platcheck

open ByteString

/-! ### What the root says -/

namespace PciFiles

/-- What a file says, in lower case. -/
def value (contents : Option ByteString) : ByteString := toLower (readTrimmed contents)

def IsNvidia (d : PciFiles) : Prop := value d.vendor = lit "0x10de"

/-- An NVIDIA display device. -/
def IsGpu (d : PciFiles) : Prop := d.IsNvidia ∧ lit "0x03" <+: value d.cls

def IsBridge (d : PciFiles) : Prop := lit "0x06" <+: value d.cls

def IsNvidiaAudio (d : PciFiles) : Prop := d.IsNvidia ∧ lit "0x0403" <+: value d.cls

/-- A device that a GPU should not share its group with. -/
def IsEndpoint (d : PciFiles) : Prop := ¬ d.IsBridge ∧ ¬ d.IsNvidiaAudio

/-- The driver of a device as it is shown. -/
def driverName (d : PciFiles) : ByteString :=
  match d.driver with
  | none => lit "none"
  | some target => if filename target = [] then lit "none" else filename target

instance : DecidablePred IsNvidia := fun _ => inferInstanceAs (Decidable (_ = _))
instance : DecidablePred IsGpu := fun _ => inferInstanceAs (Decidable (_ ∧ _))
instance : DecidablePred IsBridge := fun _ => inferInstanceAs (Decidable (_ <+: _))
instance : DecidablePred IsNvidiaAudio := fun _ => inferInstanceAs (Decidable (_ ∧ _))
instance : DecidablePred IsEndpoint := fun _ => inferInstanceAs (Decidable (_ ∧ _))

end PciFiles

/-! ### Severity -/

/-- `bump` takes the worse of two results. -/
lemma rank_bump_le {worst s : Status} {k : ℕ} :
    rank (bump worst s) ≤ k ↔ rank worst ≤ k ∧ rank s ≤ k := by
  unfold bump
  split_ifs <;> omega

/-- No worse than `k` means that nothing that came up was. -/
lemma rank_foldl_bump_le {l : List Status} {worst : Status} {k : ℕ} :
    rank (l.foldl bump worst) ≤ k ↔ rank worst ≤ k ∧ ∀ s ∈ l, rank s ≤ k := by
  induction l generalizing worst with
  | nil => simp
  | cons s l ih => rw [List.foldl_cons, ih, rank_bump_le, List.forall_mem_cons, and_assoc]

lemma eq_skip_iff_rank {s : Status} : s = .skip ↔ rank s ≤ 0 := by cases s <;> decide

lemma eq_pass_iff_rank {s : Status} : s = .pass ↔ ¬ rank s ≤ 0 ∧ rank s ≤ 1 := by
  cases s <;> decide

lemma eq_warn_iff_rank {s : Status} : s = .warn ↔ rank s ≤ 2 ∧ ¬ rank s ≤ 1 := by
  cases s <;> decide

/-! ### The loop -/

/-- What the loop comes up with for a GPU: how bad it is, and what is said about it. -/
def finding (g : IommuGroup) (dev : IommuDevice) : Status × ByteString :=
  (if (others g.devices dev).isEmpty then .pass else .warn,
    dev.bdf ++ lit " (group " ++ ofInt g.id ++ lit ", driver " ++
      (if dev.driver.isEmpty then lit "none" else dev.driver) ++ lit ")" ++
      if (others g.devices dev).isEmpty then []
      else lit " shares its group with:" ++ (others g.devices dev).flatMap fun b => lit " " ++ b)

namespace Isolation

def add (st : Isolation) (f : Status × ByteString) : Isolation where
  worst := bump st.worst f.1
  detail := st.detail ++ ((if st.detail.isEmpty then [] else lit "; ") ++ f.2)
  gpus := st.gpus + 1

lemma visit_eq (g : IommuGroup) (st : Isolation) (dev : IommuDevice) :
    st.visit g dev =
      if isNvidia dev && isDisplayClass dev.cls then st.add (finding g dev) else st := by
  unfold visit add finding
  rw [← Bool.not_and]
  cases isNvidia dev && isDisplayClass dev.cls with
  | false => rfl
  | true =>
    simp only [Bool.not_true, Bool.false_eq_true, if_false, if_true]
    split_ifs <;> simp only [List.append_assoc, List.nil_append, List.append_nil]

/-- All devices of all groups are visited, one after the other. -/
lemma foldl_visit (gs : List IommuGroup) (st : Isolation) :
    gs.foldl (fun st g => g.devices.foldl (visit g) st) st =
      (gs.flatMap fun g => (g.devices.filter fun dev => isNvidia dev && isDisplayClass dev.cls).map
        (finding g)).foldl add st := by
  rw [List.foldl_flatMap]
  congr
  funext st g
  rw [List.foldl_map, List.foldl_filter]
  congr
  funext st dev
  exact visit_eq g st dev

/-- The variables of the loop do not depend on one another. -/
lemma foldl_add (fs : List (Status × ByteString)) (st : Isolation) :
    fs.foldl add st =
      { worst := (fs.map Prod.fst).foldl bump st.worst
        detail := (fs.map Prod.snd).foldl
          (fun out x => out ++ ((if out.isEmpty then [] else lit "; ") ++ x)) st.detail
        gpus := st.gpus + fs.length } := by
  induction fs generalizing st with
  | nil => rfl
  | cons f fs ih =>
    rw [List.foldl_cons, ih, List.length_cons, Nat.add_comm fs.length, ← Nat.add_assoc]
    rfl

end Isolation

/-! ### The report -/

/-- What the detail says of a GPU: where it is, and with whom it should not be there. -/
structure GpuEntry where
  group : ℕ
  bdf : ByteString
  neighbours : List ByteString

namespace GpuEntry

variable (pci : ByteString → PciFiles)

/-- The entry of a device of the group `g`. -/
def ofDevice (g : ℕ × List ByteString) (bdf : ByteString) : GpuEntry where
  group := g.1
  bdf := bdf
  neighbours := g.2.filter fun o => o ≠ bdf ∧ (pci o).IsEndpoint

def status (e : GpuEntry) : Status := if e.neighbours = [] then .pass else .warn

def text (e : GpuEntry) : ByteString :=
  e.bdf ++ lit " (group " ++ ofNat e.group ++ lit ", driver " ++ (pci e.bdf).driverName ++
    lit ")" ++
    if e.neighbours = [] then []
    else lit " shares its group with:" ++ e.neighbours.flatMap fun b => lit " " ++ b

variable {pci}

/-- A GPU alone is fine, any other one is a warning. -/
lemma rank_status (e : GpuEntry) :
    ¬ rank e.status ≤ 0 ∧ rank e.status ≤ 2 ∧ (rank e.status ≤ 1 ↔ e.neighbours = []) := by
  unfold status
  split_ifs with h <;> simp [rank, h]

lemma text_ne_nil (e : GpuEntry) : e.text pci ≠ [] := by
  unfold text
  simp [lit]

end GpuEntry

namespace PciFiles

variable (pci : ByteString → PciFiles) (bdf : ByteString)

lemma isNvidia_read : isNvidia (readIommuDevice pci bdf) = decide (pci bdf).IsNvidia :=
  Bool.beq_eq_decide_eq _ _

lemma isDisplayClass_read :
    isDisplayClass (readIommuDevice pci bdf).cls = decide (lit "0x03" <+: value (pci bdf).cls) := by
  rw [Bool.eq_iff_iff, decide_eq_true_iff]
  exact List.isPrefixOf_iff_prefix

lemma isGpu_read :
    (isNvidia (readIommuDevice pci bdf) && isDisplayClass (readIommuDevice pci bdf).cls) =
      decide (pci bdf).IsGpu := by
  rw [isNvidia_read, isDisplayClass_read, ← Bool.decide_and]
  rfl

/-- The loop over the neighbours leaves bridges and audio functions out. -/
lemma isEndpoint_read (o : ByteString) :
    (!((readIommuDevice pci o).bdf == (readIommuDevice pci bdf).bdf ||
      isBridgeClass (readIommuDevice pci o).cls ||
        (isNvidia (readIommuDevice pci o) && isAudioClass (readIommuDevice pci o).cls))) =
      decide (o ≠ bdf ∧ (pci o).IsEndpoint) := by
  have hbridge : isBridgeClass (readIommuDevice pci o).cls = true ↔ (pci o).IsBridge :=
    List.isPrefixOf_iff_prefix
  have haudio : isAudioClass (readIommuDevice pci o).cls = true ↔
      lit "0x0403" <+: value (pci o).cls :=
    List.isPrefixOf_iff_prefix
  rw [Bool.eq_iff_iff, decide_eq_true_iff, Bool.not_eq_true', ← Bool.not_eq_true, Bool.or_eq_true,
    Bool.or_eq_true, Bool.and_eq_true, beq_iff_eq, hbridge, haudio, isNvidia_read,
    decide_eq_true_iff, not_or, not_or, and_assoc]
  exact Iff.rfl

lemma driver_read :
    (if (readIommuDevice pci bdf).driver.isEmpty then lit "none"
      else (readIommuDevice pci bdf).driver) = (pci bdf).driverName := by
  unfold readIommuDevice driverName
  cases (pci bdf).driver with
  | none => rfl
  | some target => simp only [Option.map_some, Option.getD_some, List.isEmpty_iff]

end PciFiles

lemma others_read (pci : ByteString → PciFiles) (g : ℕ × List ByteString) (bdf : ByteString) :
    others (Sysfs.toGroup pci g).devices (readIommuDevice pci bdf) =
      (GpuEntry.ofDevice pci g bdf).neighbours := by
  have hid : IommuDevice.bdf ∘ readIommuDevice pci = id := rfl
  rw [others, Sysfs.toGroup, List.filter_map, List.map_map, hid, List.map_id]
  exact congrArg (List.filter · g.2) (funext fun o => PciFiles.isEndpoint_read pci bdf o)

lemma finding_read (pci : ByteString → PciFiles) (g : ℕ × List ByteString) (bdf : ByteString) :
    finding (Sysfs.toGroup pci g) (readIommuDevice pci bdf) =
      ((GpuEntry.ofDevice pci g bdf).status, (GpuEntry.ofDevice pci g bdf).text pci) := by
  have hid : ofInt (Sysfs.toGroup pci g).id = ofNat g.1 := ofInt_natCast g.1
  rw [finding, others_read, PciFiles.driver_read, hid, GpuEntry.status, GpuEntry.text]
  simp only [List.isEmpty_iff]
  rfl

namespace Sysfs

variable (fs : Sysfs)

/-- The GPUs in the order of their groups, and in a group in their own order. -/
def report : List GpuEntry :=
  fs.topology.flatMap fun g =>
    (g.2.filter fun bdf => (fs.pci bdf).IsGpu).map (GpuEntry.ofDevice fs.pci g)

variable {fs}

/-- The loop comes up with the report. -/
lemma foldl_topology :
    (fs.topology.map (toGroup fs.pci)).foldl
        (fun st g => g.devices.foldl (Isolation.visit g) st) {} =
      { worst := (fs.report.map GpuEntry.status).foldl bump .skip
        detail := (lit "; ").intercalate (fs.report.map (GpuEntry.text fs.pci))
        gpus := fs.report.length } := by
  have hfindings : ((fs.topology.map (toGroup fs.pci)).flatMap fun g =>
      (g.devices.filter fun dev => isNvidia dev && isDisplayClass dev.cls).map (finding g)) =
        fs.report.map fun e => (e.status, e.text fs.pci) := by
    rw [report, List.map_flatMap, List.flatMap_map]
    congr
    funext g
    have hgpu := funext (PciFiles.isGpu_read fs.pci)
    have hfinding := funext (finding_read fs.pci g)
    change ((g.2.map (readIommuDevice fs.pci)).filter _).map (finding (toGroup fs.pci g)) = _
    rw [List.filter_map, List.map_map, List.map_map]
    exact congrArg₂ (fun p f => (g.2.filter p).map f) hgpu hfinding
  have htext : ∀ x ∈ fs.report.map (GpuEntry.text fs.pci), x ≠ [] := by
    intro x hx
    obtain ⟨e, -, rfl⟩ := List.mem_map.mp hx
    exact e.text_ne_nil
  rw [Isolation.foldl_visit, hfindings, Isolation.foldl_add, List.map_map, List.map_map,
    List.length_map, ← foldl_join_nil _ htext, Nat.zero_add]
  rfl

lemma mem_report {e : GpuEntry} : e ∈ fs.report ↔
    ∃ g ∈ fs.topology, ∃ bdf ∈ g.2, (fs.pci bdf).IsGpu ∧ GpuEntry.ofDevice fs.pci g bdf = e := by
  simp only [report, List.mem_flatMap, List.mem_map, List.mem_filter, decide_eq_true_eq, and_assoc]

variable (fs) in
/-- The entries name every GPU once, in the order of the groups and of the devices, each with its
neighbours in order that are neither bridges nor audio functions. -/
structure Describes (entries : List GpuEntry) : Prop where
  ordered : entries.Pairwise fun e e' => e.group < e'.group ∨ e.group = e'.group ∧ e.bdf < e'.bdf
  once : (entries.map GpuEntry.bdf).Nodup
  complete : ∀ g ∈ fs.groups, ∀ bdf ∈ g.2, (fs.pci bdf).IsGpu →
    ∃ e ∈ entries, e.group = g.1 ∧ e.bdf = bdf
  sound : ∀ e ∈ entries, ∃ g ∈ fs.groups, (e.group = g.1 ∧ e.bdf ∈ g.2 ∧ (fs.pci e.bdf).IsGpu) ∧
    e.neighbours.Pairwise (· < ·) ∧
    ∀ o, o ∈ e.neighbours ↔ o ∈ g.2 ∧ o ≠ e.bdf ∧ (fs.pci o).IsEndpoint

lemma Distinct.ordered_report (h : fs.Distinct) :
    fs.report.Pairwise fun e e' => e.group < e'.group ∨ e.group = e'.group ∧ e.bdf < e'.bdf := by
  refine List.pairwise_flatMap.mpr ⟨?_, ?_⟩
  · intro g hg
    refine List.pairwise_map.mpr (((h.pairwise_devices hg).filter _).imp ?_)
    intro bdf bdf' hlt
    exact .inr ⟨rfl, hlt⟩
  · refine h.pairwise_topology.imp ?_
    intro g g' hlt e he e' he'
    obtain ⟨bdf, -, rfl⟩ := List.mem_map.mp he
    obtain ⟨bdf', -, rfl⟩ := List.mem_map.mp he'
    exact .inl hlt

lemma Distinct.sound_report (h : fs.Distinct) {e : GpuEntry} (he : e ∈ fs.report) :
    ∃ g ∈ fs.groups, (e.group = g.1 ∧ e.bdf ∈ g.2 ∧ (fs.pci e.bdf).IsGpu) ∧
      e.neighbours.Pairwise (· < ·) ∧
      ∀ o, o ∈ e.neighbours ↔ o ∈ g.2 ∧ o ≠ e.bdf ∧ (fs.pci o).IsEndpoint := by
  obtain ⟨g, hg, bdf, hbdf, hgpu, rfl⟩ := mem_report.mp he
  have hordered := (h.pairwise_devices hg).filter fun o => o ≠ bdf ∧ (fs.pci o).IsEndpoint
  obtain ⟨g, hmem, rfl⟩ := mem_topology.mp hg
  refine ⟨g, hmem, ⟨rfl, mem_inOrder.mp hbdf, hgpu⟩, hordered, ?_⟩
  intro o
  rw [GpuEntry.ofDevice, List.mem_filter, mem_inOrder, decide_eq_true_iff]

lemma Distinct.describes_report (h : fs.Distinct) : fs.Describes fs.report where
  ordered := h.ordered_report
  once := by
    refine List.pairwise_map.mpr (h.ordered_report.imp_of_mem ?_)
    intro e e' he he' hlt hsame
    obtain ⟨g, hg, ⟨hgroup, hbdf, -⟩, -⟩ := h.sound_report he
    obtain ⟨g', hg', ⟨hgroup', hbdf', -⟩, -⟩ := h.sound_report he'
    obtain rfl := h.eq_of_mem hg hg' hbdf (hsame ▸ hbdf')
    rcases hlt with hlt | ⟨-, hlt⟩
    · exact hlt.ne (hgroup.trans hgroup'.symm)
    · exact hlt.ne hsame
  complete := by
    intro g hg bdf hbdf hgpu
    have hmem : inOrder g ∈ fs.topology := mem_topology.mpr ⟨g, hg, rfl⟩
    exact ⟨_, mem_report.mpr ⟨_, hmem, bdf, mem_inOrder.mpr hbdf, hgpu, rfl⟩, rfl, rfl⟩
  sound _ he := h.sound_report he

variable (fs) in
/-- There is a GPU in a group. -/
def HasGpu : Prop := ∃ g ∈ fs.groups, ∃ bdf ∈ g.2, (fs.pci bdf).IsGpu

variable (fs) in
/-- A GPU shares its group with a device that is neither a bridge nor an audio function. -/
def SharesGpu : Prop :=
  ∃ g ∈ fs.groups, ∃ bdf ∈ g.2, (fs.pci bdf).IsGpu ∧
    ∃ o ∈ g.2, o ≠ bdf ∧ (fs.pci o).IsEndpoint

lemma Describes.eq_nil_iff {entries : List GpuEntry} (h : fs.Describes entries) :
    entries = [] ↔ ¬ fs.HasGpu := by
  constructor
  · rintro rfl ⟨g, hg, bdf, hbdf, hgpu⟩
    obtain ⟨e, he, -⟩ := h.complete g hg bdf hbdf hgpu
    cases he
  · intro hnone
    refine List.eq_nil_iff_forall_not_mem.mpr fun e he => hnone ?_
    obtain ⟨g, hg, ⟨-, hbdf, hgpu⟩, -⟩ := h.sound e he
    exact ⟨g, hg, e.bdf, hbdf, hgpu⟩

lemma Describes.exists_neighbours_iff {entries : List GpuEntry} (h : fs.Describes entries)
    (hfs : fs.Distinct) : (∃ e ∈ entries, e.neighbours ≠ []) ↔ fs.SharesGpu := by
  constructor
  · rintro ⟨e, he, hne⟩
    obtain ⟨g, hg, ⟨-, hbdf, hgpu⟩, -, hneighbours⟩ := h.sound e he
    obtain ⟨o, ho⟩ := List.exists_mem_of_ne_nil _ hne
    exact ⟨g, hg, e.bdf, hbdf, hgpu, o, (hneighbours o).mp ho⟩
  · rintro ⟨g, hg, bdf, hbdf, hgpu, o, ho⟩
    obtain ⟨e, he, -, rfl⟩ := h.complete g hg bdf hbdf hgpu
    obtain ⟨g', hg', ⟨-, hbdf', -⟩, -, hneighbours⟩ := h.sound e he
    obtain rfl := hfs.eq_of_mem hg hg' hbdf hbdf'
    exact ⟨e, he, List.ne_nil_of_mem ((hneighbours o).mpr ho)⟩

/-! ### The severity of the report -/

variable {entries : List GpuEntry}

lemma rank_worst_le {k : ℕ} : rank ((entries.map GpuEntry.status).foldl bump .skip) ≤ k ↔
    ∀ e ∈ entries, rank e.status ≤ k := by
  rw [rank_foldl_bump_le, List.forall_mem_map]
  exact and_iff_right (Nat.zero_le k)

lemma worst_eq_skip_iff :
    (entries.map GpuEntry.status).foldl bump .skip = .skip ↔ entries = [] := by
  rw [eq_skip_iff_rank, rank_worst_le, List.eq_nil_iff_forall_not_mem]
  exact forall_congr' fun e => imp_congr_right fun _ => iff_false_intro e.rank_status.1

lemma rank_worst_le_one : rank ((entries.map GpuEntry.status).foldl bump .skip) ≤ 1 ↔
    ¬ ∃ e ∈ entries, e.neighbours ≠ [] := by
  rw [rank_worst_le]
  simp only [fun e : GpuEntry => e.rank_status.2.2, not_exists, not_and, not_not]

lemma worst_eq_pass_iff : (entries.map GpuEntry.status).foldl bump .skip = .pass ↔
    entries ≠ [] ∧ ¬ ∃ e ∈ entries, e.neighbours ≠ [] := by
  rw [eq_pass_iff_rank, rank_worst_le_one, ← eq_skip_iff_rank, worst_eq_skip_iff]

lemma worst_eq_warn_iff : (entries.map GpuEntry.status).foldl bump .skip = .warn ↔
    ∃ e ∈ entries, e.neighbours ≠ [] := by
  have hle : ∀ e ∈ entries, rank e.status ≤ 2 := fun e _ => e.rank_status.2.1
  rw [eq_warn_iff_rank, rank_worst_le, and_iff_right hle, rank_worst_le_one, not_not]

/-! ### The verdict -/

variable (fs) in
/-- What the result of the check says about the groups. -/
structure Judges (r : CheckResult) : Prop where
  skip : r.status = .skip ↔ ¬ fs.HasGpu
  warn : r.status = .warn ↔ fs.SharesGpu
  pass : r.status = .pass ↔ fs.HasGpu ∧ ¬ fs.SharesGpu
  detail : ∃ entries, fs.Describes entries ∧ r.detail =
    if entries = [] then lit "no NVIDIA display device found in any IOMMU group"
    else (lit "; ").intercalate (entries.map (GpuEntry.text fs.pci))
  remediation : r.remediation ≠ [] ↔ r.status = .warn

lemma SharesGpu.hasGpu (h : fs.SharesGpu) : fs.HasGpu := by
  obtain ⟨g, hg, bdf, hbdf, hgpu, -⟩ := h
  exact ⟨g, hg, bdf, hbdf, hgpu⟩

lemma Distinct.judges (h : fs.Distinct) : ∃ r, checkGpuIsolation fs = some r ∧ fs.Judges r := by
  have hdescribes := h.describes_report
  have hnil := hdescribes.eq_nil_iff
  have hshares := hdescribes.exists_neighbours_iff h
  simp only [checkGpuIsolation, readIommuGroups_eq h.fits, Option.bind_eq_bind, Option.bind_some,
    foldl_topology, List.length_eq_zero_iff]
  by_cases hempty : fs.report = []
  · have hnone := hnil.mp hempty
    rw [if_pos hempty]
    refine ⟨_, rfl, ?_⟩
    constructor
    · exact iff_of_true rfl hnone
    · exact iff_of_false (by decide) fun hshared => hnone hshared.hasGpu
    · exact iff_of_false (by decide) fun hpass => hnone hpass.1
    · exact ⟨fs.report, hdescribes, (if_pos hempty).symm⟩
    · exact iff_of_false (fun hne => hne rfl) (by decide)
  · rw [if_neg hempty]
    refine ⟨_, rfl, ?_⟩
    constructor
    · exact worst_eq_skip_iff.trans hnil
    · exact worst_eq_warn_iff.trans hshares
    · exact worst_eq_pass_iff.trans (and_congr (hnil.not.trans not_not) hshares.not)
    · exact ⟨fs.report, hdescribes, (if_neg hempty).symm⟩
    · dsimp only [CheckResult.make]
      split_ifs with hwarn
      · exact iff_of_true (by decide) hwarn
      · exact iff_of_false (fun hne => hne rfl) hwarn

/-! ### Order and letter case -/

lemma checkGpuIsolation_congr {fs' : Sysfs} (h : readIommuGroups fs' = readIommuGroups fs) :
    checkGpuIsolation fs' = checkGpuIsolation fs := by
  rw [checkGpuIsolation, h, checkGpuIsolation]

/-- The order in which the directories are read has no influence on the groups. -/
lemma Rearranged.readIommuGroups_eq {fs' : Sysfs} (h : Rearranged fs fs') (hfs : fs.Distinct) :
    readIommuGroups fs' = readIommuGroups fs := by
  rw [Sysfs.readIommuGroups_eq hfs.fits, Sysfs.readIommuGroups_eq (h.fits hfs), h.topology_eq hfs,
    h.pci]

end Sysfs

/-- The same letter, be it a capital one or not, or the same byte. -/
def SameLetter (c d : UInt8) : Prop :=
  c = d ∨ (0x41 ≤ c ∧ c ≤ 0x5a ∧ d = c + 0x20) ∨ (0x41 ≤ d ∧ d ≤ 0x5a ∧ c = d + 0x20)

/-- The same root with other letter case in the vendors and classes of the devices. -/
structure Sysfs.SameUpToCase (fs fs' : Sysfs) : Prop where
  iommuGroups : fs'.iommuGroups = fs.iommuGroups
  vendor : ∀ bdf, Option.Rel (List.Forall₂ SameLetter) (fs'.pci bdf).vendor (fs.pci bdf).vendor
  cls : ∀ bdf, Option.Rel (List.Forall₂ SameLetter) (fs'.pci bdf).cls (fs.pci bdf).cls
  device : ∀ bdf, (fs'.pci bdf).device = (fs.pci bdf).device
  driver : ∀ bdf, (fs'.pci bdf).driver = (fs.pci bdf).driver

lemma toNat_add_of_upper {c : UInt8} (hc : c ≤ 0x5a) : (c + 0x20).toNat = c.toNat + 0x20 := by
  have hle : c.toNat ≤ 0x5a := UInt8.le_iff_toNat_le.mp hc
  rw [UInt8.toNat_add]
  exact Nat.mod_eq_of_lt (by change c.toNat + 0x20 < 256; omega)

lemma toLowerByte_of_upper {c : UInt8} (hc : 0x41 ≤ c) (hc' : c ≤ 0x5a) :
    toLowerByte (c + 0x20) = toLowerByte c := by
  have hle : 0x41 ≤ c.toNat := UInt8.le_iff_toNat_le.mp hc
  have hlower : ¬ (0x41 ≤ c + 0x20 ∧ c + 0x20 ≤ 0x5a) := by
    rintro ⟨-, hle'⟩
    have hle' := UInt8.le_iff_toNat_le.mp hle'
    rw [toNat_add_of_upper hc'] at hle'
    exact absurd hle' (by change ¬ c.toNat + 0x20 ≤ 0x5a; omega)
  rw [toLowerByte, toLowerByte, if_neg hlower, if_pos ⟨hc, hc'⟩]

lemma SameLetter.toLowerByte_eq {c d : UInt8} (h : SameLetter c d) :
    toLowerByte c = toLowerByte d := by
  rcases h with rfl | ⟨hc, hc', rfl⟩ | ⟨hd, hd', rfl⟩
  · rfl
  · exact (toLowerByte_of_upper hc hc').symm
  · exact toLowerByte_of_upper hd hd'

/-- No letter is white space. -/
lemma isSpace_toLowerByte (c : UInt8) : isSpace (toLowerByte c) = isSpace c := by
  unfold toLowerByte
  split_ifs with h
  · have hle : 0x41 ≤ c.toNat := UInt8.le_iff_toNat_le.mp h.1
    have hspace : ∀ d : UInt8, 0x41 ≤ d.toNat → isSpace d = false := by
      intro d hd
      simp only [isSpace, Bool.or_eq_false_iff, beq_eq_false_iff_ne, Bool.and_eq_false_iff,
        decide_eq_false_iff_not, UInt8.le_iff_toNat_le]
      refine ⟨?_, .inr ?_⟩
      · rintro rfl
        exact absurd hd (by decide)
      · change ¬ d.toNat ≤ 0x0d
        omega
    rw [hspace c hle, hspace _ (by rw [toNat_add_of_upper h.2]; omega)]
  · rfl

/-- The case of letters has no influence on what is trimmed. -/
lemma toLower_trim (s : ByteString) : toLower (trim s) = trim (toLower s) := by
  have hspace : isSpace ∘ toLowerByte = isSpace := funext isSpace_toLowerByte
  simp only [toLower, trim, List.dropWhile_map, hspace, ← List.map_reverse]

lemma value_eq_of_sameLetter {c c' : Option ByteString}
    (h : Option.Rel (List.Forall₂ SameLetter) c c') : PciFiles.value c = PciFiles.value c' := by
  cases h with
  | none => rfl
  | @some s s' h =>
    have hlower : toLower s = toLower s' := by
      induction h with
      | nil => rfl
      | cons hc _ ih => exact congrArg₂ List.cons hc.toLowerByte_eq ih
    rw [PciFiles.value, PciFiles.value, readTrimmed, readTrimmed, toLower_trim, toLower_trim,
      Option.getD_some, Option.getD_some, hlower]

lemma Sysfs.SameUpToCase.readIommuGroups_eq {fs fs' : Sysfs} (h : fs.SameUpToCase fs') :
    readIommuGroups fs' = readIommuGroups fs := by
  have hdevice : readIommuDevice fs'.pci = readIommuDevice fs.pci := by
    funext bdf
    have hvendor : toLower (readTrimmed (fs'.pci bdf).vendor) = _ :=
      value_eq_of_sameLetter (h.vendor bdf)
    have hcls : toLower (readTrimmed (fs'.pci bdf).cls) = _ := value_eq_of_sameLetter (h.cls bdf)
    rw [readIommuDevice, hvendor, hcls, h.device, h.driver]
    rfl
  have hgroup : readIommuGroup fs'.pci = readIommuGroup fs.pci := by
    funext entry
    rw [readIommuGroup, hdevice, readIommuGroup]
  rw [readIommuGroups, h.iommuGroups, hgroup, readIommuGroups]

/-- For any set of groups with different numbers that fit in an `int` and different devices, the
check comes to the same verdict however the directories are read and however the files are spelled,
and the verdict is the one the topology asks for. -/
theorem gpu_isolation_correct {fs : Sysfs} (h : fs.Distinct) :
    ∃ r, checkGpuIsolation fs = some r ∧ fs.Judges r ∧
      (∀ fs', fs.Rearranged fs' → checkGpuIsolation fs' = some r) ∧
      ∀ fs', fs.SameUpToCase fs' → checkGpuIsolation fs' = some r := by
  obtain ⟨r, hr, hjudges⟩ := h.judges
  refine ⟨r, hr, hjudges, ?_, ?_⟩
  · intro fs' h'
    rw [← hr, Sysfs.checkGpuIsolation_congr (h'.readIommuGroups_eq h)]
  · intro fs' h'
    rw [← hr, Sysfs.checkGpuIsolation_congr h'.readIommuGroups_eq]

/-- A GPU that shares its group with a disk, and one that does not. -/
def shared : Sysfs where
  iommuGroups :=
    [(lit "10", [lit "02:00.1", lit "02:00.0"]), (lit "4", [lit "03:00.0", lit "01:00.0"])]
  pci bdf :=
    if bdf = lit "01:00.0" ∨ bdf = lit "02:00.0" then
      { vendor := lit "0x10DE\n", cls := lit "0x030000\n" }
    else if bdf = lit "02:00.1" then { vendor := lit "0x10de\n", cls := lit "0x040300\n" }
    else { vendor := lit "0x144d\n", cls := lit "0x010802\n" }

theorem gpu_isolation_correct_shared :
    ∃ r, checkGpuIsolation shared = some r ∧ r.status = .warn ∧
      checkGpuIsolation { shared with iommuGroups := shared.iommuGroups.reverse } = some r := by
  obtain ⟨r, hr, hjudges, hrearranged, -⟩ :=
    gpu_isolation_correct (show shared.Distinct from ⟨by decide, by decide, by decide⟩)
  refine ⟨r, hr, hjudges.warn.mpr ?_, hrearranged _ ⟨rfl, shared.iommuGroups, ?_, ?_⟩⟩
  · exact ⟨(4, [lit "03:00.0", lit "01:00.0"]), by decide, lit "01:00.0", by decide, by decide,
      lit "03:00.0", by decide, by decide, by decide⟩
  · exact List.forall₂_same.mpr fun e _ => ⟨rfl, .refl e.2⟩
  · exact (List.reverse_perm _).symm

end Platcheck
