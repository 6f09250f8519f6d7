import Mathlib.Data.List.Nodup
import Mathlib.Data.List.Pairwise
import ValidationSuite.Platcheck.Iommu

/-!
# The topology of the IOMMU groups

The groups and their devices in order are all that `read_iommu_groups` knows of the directories. If
no two groups have the same number, this does not depend on the order in which they are read.
-/

namespace Platcheck

open ByteString

namespace Sysfs

/-- The entries that are groups, with their numbers. -/
def numbered (entries : List (ByteString × List ByteString)) : List (ℕ × List ByteString) :=
  (entries.filter fun entry => isNumber entry.1).map fun entry => (digits entry.1, entry.2)

variable (fs : Sysfs)

/-- The IOMMU groups: their numbers and their devices. -/
def groups : List (ℕ × List ByteString) := numbered fs.iommuGroups

/-- The numbers of the groups fit in an `int`, no number stands for two groups, and no device is in
two groups or twice in one. -/
structure Distinct : Prop where
  fits : ∀ g ∈ fs.groups, g.1 < 2 ^ 31
  ids : (fs.groups.map Prod.fst).Nodup
  bdfs : (fs.groups.flatMap Prod.snd).Nodup

/-- The same root with its directories read in another order. -/
structure Rearranged (fs fs' : Sysfs) : Prop where
  pci : fs'.pci = fs.pci
  entries : ∃ l, List.Forall₂ (fun e e' => e.1 = e'.1 ∧ e.2.Perm e'.2) fs.iommuGroups l ∧
    l.Perm fs'.iommuGroups

/-- A group with its devices in order. -/
def inOrder (g : ℕ × List ByteString) : ℕ × List ByteString := (g.1, sortBy id g.2)

/-- The groups and their devices in order. -/
def topology : List (ℕ × List ByteString) := sortBy Prod.fst (fs.groups.map inOrder)

variable {fs} {fs' : Sysfs}

lemma mem_topology {g : ℕ × List ByteString} :
    g ∈ fs.topology ↔ ∃ g' ∈ fs.groups, inOrder g' = g := by
  rw [topology, SortBy.mem_sortBy, List.mem_map]

/-- The order of the devices in a group does not say who is in it. -/
lemma mem_inOrder {g : ℕ × List ByteString} {bdf : ByteString} : bdf ∈ (inOrder g).2 ↔ bdf ∈ g.2 :=
  SortBy.mem_sortBy

lemma map_fst_inOrder (l : List (ℕ × List ByteString)) :
    (l.map inOrder).map Prod.fst = l.map Prod.fst := by
  rw [List.map_map]
  rfl

lemma Distinct.pairwise_topology (h : fs.Distinct) :
    fs.topology.Pairwise fun g g' => g.1 < g'.1 := by
  apply SortBy.pairwise_lt
  rw [map_fst_inOrder]
  exact h.ids

lemma Distinct.pairwise_devices (h : fs.Distinct) {g : ℕ × List ByteString} (hg : g ∈ fs.topology) :
    g.2.Pairwise (· < ·) := by
  obtain ⟨g, hmem, rfl⟩ := mem_topology.mp hg
  exact SortBy.pairwise_id_lt ((List.nodup_flatMap.mp h.bdfs).1 g hmem)

/-- A device is in one group. -/
lemma Distinct.eq_of_mem (h : fs.Distinct) {g g' : ℕ × List ByteString} (hg : g ∈ fs.groups)
    (hg' : g' ∈ fs.groups) {bdf : ByteString} (hbdf : bdf ∈ g.2) (hbdf' : bdf ∈ g'.2) : g = g' := by
  by_contra hne
  have hsymm : Std.Symm (Function.onFun List.Disjoint (Prod.snd : ℕ × List ByteString → _)) :=
    ⟨fun _ _ => List.Disjoint.symm⟩
  exact (List.nodup_flatMap.mp h.bdfs).2.forall hg hg' hne hbdf hbdf'

/-! ### The order of reading -/

/-- A group in order is all that is known of its entry. -/
lemma numbered_congr {l l' : List (ByteString × List ByteString)}
    (h : List.Forall₂ (fun e e' => e.1 = e'.1 ∧ e.2.Perm e'.2) l l') :
    (numbered l).map inOrder = (numbered l').map inOrder := by
  unfold numbered
  induction h with
  | nil => rfl
  | @cons e e' _ _ he _ ih =>
    obtain ⟨hname, hdevices⟩ := he
    have hsame : inOrder (digits e.1, e.2) = inOrder (digits e'.1, e'.2) := by
      rw [inOrder, inOrder, hname, SortBy.sortBy_id_congr hdevices]
    rw [List.filter_cons, List.filter_cons, hname]
    split_ifs
    · rw [List.map_cons, List.map_cons, List.map_cons, List.map_cons, ih, hsame]
    · exact ih

lemma Rearranged.perm (h : Rearranged fs fs') :
    (fs.groups.map inOrder).Perm (fs'.groups.map inOrder) := by
  obtain ⟨l, hl, hperm⟩ := h.entries
  rw [groups, numbered_congr hl]
  exact ((hperm.filter _).map _).map _

lemma Rearranged.topology_eq (h : Rearranged fs fs') (hfs : fs.Distinct) :
    fs'.topology = fs.topology := by
  refine (SortBy.sortBy_congr ?_ h.perm).symm
  rw [map_fst_inOrder]
  exact hfs.ids

lemma Rearranged.fits (h : Rearranged fs fs') (hfs : fs.Distinct) :
    ∀ g ∈ fs'.groups, g.1 < 2 ^ 31 := by
  intro g hg
  have hmem : g.1 ∈ (fs'.groups.map inOrder).map Prod.fst := by
    rw [map_fst_inOrder]
    exact List.mem_map_of_mem hg
  have hmem' := (h.perm.map Prod.fst).mem_iff.mpr hmem
  rw [map_fst_inOrder] at hmem'
  obtain ⟨g', hg', heq⟩ := List.mem_map.mp hmem'
  exact heq ▸ hfs.fits g' hg'

/-! ### What is read -/

/-- A group of the topology as `read_iommu_groups` returns it. -/
def toGroup (pci : ByteString → PciFiles) (g : ℕ × List ByteString) : IommuGroup :=
  ⟨g.1, g.2.map (readIommuDevice pci)⟩

/-- All groups are read, and they come in order. -/
lemma readIommuGroups_eq (h : ∀ g ∈ fs.groups, g.1 < 2 ^ 31) :
    readIommuGroups fs = some (fs.topology.map (toGroup fs.pci)) := by
  have hread : ∀ entry ∈ fs.iommuGroups.filter fun entry => isNumber entry.1,
      readIommuGroup fs.pci entry = some (toGroup fs.pci (inOrder (digits entry.1, entry.2))) := by
    intro entry hentry
    have hnumber := (List.mem_filter.mp hentry).2
    have hfits := h (digits entry.1, entry.2) (List.mem_map_of_mem hentry)
    have hsort : sortBy IommuDevice.bdf (entry.2.map (readIommuDevice fs.pci)) =
        (sortBy id entry.2).map (readIommuDevice fs.pci) :=
      SortBy.sortBy_map (readIommuDevice fs.pci) (fun _ _ => Iff.rfl) entry.2
    rw [readIommuGroup, stoi_of_isNumber hnumber hfits, hsort]
    rfl
  have hsort : sortBy IommuGroup.id ((fs.groups.map inOrder).map (toGroup fs.pci)) =
      fs.topology.map (toGroup fs.pci) :=
    SortBy.sortBy_map (toGroup fs.pci) (fun _ _ => Int.ofNat_le.symm) _
  rw [readIommuGroups, MapM.eq_map hread, ← hsort, groups, numbered, List.map_map, List.map_map]
  rfl

end Sysfs

end Platcheck
