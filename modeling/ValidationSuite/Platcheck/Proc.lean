import Mathlib.Data.List.Find
import ValidationSuite.Library.Decimal
import ValidationSuite.Platcheck.Checks

/-!
# The files of `/proc`

What the parsers of `platcheck/src/checks.cpp` read of files as the kernel writes them.
-/

namespace Platcheck

open ByteString Words

def colon : UInt8 := ':'.toNat.toUInt8

/-! ### The memory -/

/-- A line such as `Hugepagesize:       2048 kB`. -/
structure MemLine where
  key : ByteString
  pad : ℕ
  value : ℕ
  unit : ByteString := []

def MemLine.render (l : MemLine) : ByteString :=
  l.key ++ lit ":" ++ List.replicate l.pad 0x20 ++ ofNat l.value ++ l.unit

structure MemLine.Proper (l : MemLine) : Prop where
  key : colon ∉ l.key
  line : newline ∉ l.render
  value : l.value < 2 ^ 63
  unit : NoDigit l.unit

def renderMeminfo (ls : List MemLine) : ByteString := ls.flatMap fun l => l.render ++ [newline]

/-- A key that is followed by a colon is the whole key. -/
lemma eq_of_prefix_colon {key key' rest : ByteString} (hkey : colon ∉ key) (hkey' : colon ∉ key')
    (h : key ++ lit ":" <+: key' ++ lit ":" ++ rest) : key = key' := by
  obtain ⟨t, ht⟩ := h
  have htake (k r : ByteString) (hk : colon ∉ k) :
      (k ++ lit ":" ++ r).takeWhile (· != colon) = k := by
    have hlit : lit ":" = [colon] := rfl
    have hall : ∀ c ∈ k, (c != colon) = true := fun c hc => by
      rw [bne_iff_ne]
      rintro rfl
      exact hk hc
    rw [List.append_assoc, List.takeWhile_append_of_pos hall, hlit, List.singleton_append,
      List.takeWhile_cons_of_neg (by simp), List.append_nil]
  rw [← htake key t hkey, ← htake key' rest hkey', ht]

lemma readLong_padded (pad : ℕ) {value : ℕ} (hvalue : value < 2 ^ 63) {unit : ByteString}
    (hunit : NoDigit unit) :
    readLong (List.replicate pad 0x20 ++ ofNat value ++ unit) = some (value : ℤ) := by
  have hspaces : ∀ s : ByteString, integer? (List.replicate pad 0x20 ++ s) = integer? s := by
    intro s
    have hblank : ∀ c ∈ List.replicate pad (0x20 : UInt8), isSpace c = true := by
      intro c hc
      obtain rfl := List.eq_of_mem_replicate hc
      rfl
    rw [integer?, integer?, List.dropWhile_append_of_pos hblank]
  rw [readLong, List.append_assoc, hspaces, integer?_ofNat_append value hunit, Option.filter_some,
    if_pos]
  simp only [Bool.and_eq_true, decide_eq_true_eq]
  omega

lemma meminfoValue_renderMeminfo {ls : List MemLine} (h : ∀ l ∈ ls, l.Proper) {key : ByteString}
    (hkey : colon ∉ key) : meminfoValue (renderMeminfo ls) key =
      (ls.find? fun l => l.key = key).map fun l => (l.value : ℤ) := by
  have hlines : getLines (renderMeminfo ls) = ls.map MemLine.render := by
    have hnewline : ∀ l ∈ ls.map MemLine.render, newline ∉ l := by
      intro l hl
      obtain ⟨m, hm, rfl⟩ := List.mem_map.mp hl
      exact (h m hm).line
    have hread := lines_flatMap hnewline []
    rw [List.append_nil, lines, List.append_nil, List.flatMap_map] at hread
    exact hread
  have hmatch : ∀ l ∈ ls, (key ++ lit ":").isPrefixOf l.render = decide (l.key = key) := by
    intro l hl
    have hrender : l.render =
        l.key ++ lit ":" ++ (List.replicate l.pad 0x20 ++ ofNat l.value ++ l.unit) := by
      simp only [MemLine.render, List.append_assoc]
    rw [Bool.eq_iff_iff, List.isPrefixOf_iff_prefix, decide_eq_true_eq, hrender]
    constructor
    · exact fun hpre => (eq_of_prefix_colon hkey (h l hl).key hpre).symm
    · rintro rfl
      exact List.prefix_append _ _
  have hfind : (ls.find? ((fun line => (key ++ lit ":").isPrefixOf line) ∘ MemLine.render)) =
      ls.find? fun l => l.key = key := List.find?_congr hmatch
  rw [meminfoValue, hlines, List.find?_map, hfind]
  cases hfound : ls.find? fun l => l.key = key with
  | none => rfl
  | some l =>
    have hl := h l (List.mem_of_find?_eq_some hfound)
    have hlkey : l.key = key := by simpa using List.find?_some hfound
    have hdrop : l.render.drop (key ++ lit ":").length =
        List.replicate l.pad 0x20 ++ ofNat l.value ++ l.unit := by
      rw [MemLine.render, hlkey, List.append_assoc, List.append_assoc, List.append_assoc,
        List.append_assoc, ← List.append_assoc key, List.drop_left, ← List.append_assoc]
    rw [Option.map_some, Option.map_some]
    dsimp only
    rw [hdrop, readLong_padded l.pad hl.value hl.unit]

/-! ### The CPU -/

/-- The flags of the first CPU, behind lines that say something else, and whatever follows. -/
def renderCpuinfo (before flags : List ByteString) (rest : ByteString) : ByteString :=
  (before.flatMap fun l => l ++ [newline]) ++
    (lit "flags\t\t: " ++ [0x20].intercalate flags ++ newline :: rest)

lemma cpuHasFlag_renderCpuinfo {before flags : List ByteString}
    (hbefore : ∀ l ∈ before, newline ∉ l ∧ isFlagsLine l = false)
    (hflags : ∀ w ∈ flags, Word isSpace w) (rest flag : ByteString) :
    cpuinfoHasFlagsLine (renderCpuinfo before flags rest) = true ∧
      (cpuHasFlag (renderCpuinfo before flags rest) flag = true ↔ flag ∈ flags) := by
  have hlit : newline ∉ lit "flags\t\t: " := by decide
  have hnewline : ∀ w ∈ flags, newline ∉ w := by
    intro w hw hmem
    exact absurd ((hflags w hw).2 _ hmem) (by decide)
  have hline : newline ∉ lit "flags\t\t: " ++ [0x20].intercalate flags := by
    rw [List.mem_append, not_or]
    exact ⟨hlit, notMem_intercalate (by decide) hnewline⟩
  have hlines : getLines (renderCpuinfo before flags rest) =
      before ++ (lit "flags\t\t: " ++ [0x20].intercalate flags) :: getLines rest := by
    rw [renderCpuinfo, getLines]
    exact (lines_flatMap (fun l hl => (hbefore l hl).1) _).trans
      (congrArg (before ++ ·) (lines_append_cons hline rest))
  have hfound : (getLines (renderCpuinfo before flags rest)).find? isFlagsLine =
      some (lit "flags\t\t: " ++ [0x20].intercalate flags) := by
    have hnone : before.find? isFlagsLine = none := by
      rw [List.find?_eq_none]
      intro l hl
      rw [(hbefore l hl).2]
      exact Bool.false_ne_true
    rw [hlines, List.find?_append, hnone, Option.none_or, List.find?_cons_of_pos]
    rfl
  have hwords : splitWs (afterColon (lit "flags\t\t: " ++ [0x20].intercalate flags)) = flags := by
    have hafter : afterColon (lit "flags\t\t: " ++ [0x20].intercalate flags) =
        0x20 :: [0x20].intercalate flags := rfl
    rw [hafter, splitWs, words_cons rfl, (words_intercalate (d := 0x20) rfl rfl hflags).1]
  refine ⟨?_, ?_⟩
  · exact cpuinfoHasFlagsLine_iff.mpr ⟨_, hfound⟩
  · rw [cpuHasFlag, hfound]
    dsimp only
    rw [hwords, List.contains_iff_mem]

/-! ### The command line -/

/-- The options of the kernel, between blanks. -/
def renderCmdline (tokens : List ByteString) : ByteString := [0x20].intercalate tokens ++ [newline]

lemma splitWs_renderCmdline {tokens : List ByteString} (h : ∀ w ∈ tokens, Word isSpace w) :
    splitWs (renderCmdline tokens) = tokens :=
  (words_intercalate rfl rfl h).2

lemma cmdlineHas_renderCmdline {tokens : List ByteString} (h : ∀ w ∈ tokens, Word isSpace w)
    (key : ByteString) : cmdlineHas (renderCmdline tokens) key = true ↔
      key ∈ tokens ∨ ∃ v, key ++ lit "=" ++ v ∈ tokens := by
  rw [cmdlineHas, splitWs_renderCmdline h, List.any_eq_true]
  constructor
  · rintro ⟨tok, htok, hmatch⟩
    rcases Bool.or_eq_true_iff.mp hmatch with heq | hpre
    · exact .inl (beq_iff_eq.mp heq ▸ htok)
    · obtain ⟨v, rfl⟩ := List.isPrefixOf_iff_prefix.mp hpre
      exact .inr ⟨v, htok⟩
  · rintro (htok | ⟨v, htok⟩)
    · exact ⟨key, htok, by simp⟩
    · refine ⟨_, htok, ?_⟩
      rw [List.isPrefixOf_iff_prefix.mpr (List.prefix_append _ _), Bool.or_true]

lemma cmdlineValue_renderCmdline {tokens : List ByteString} (h : ∀ w ∈ tokens, Word isSpace w)
    (key v : ByteString) : cmdlineValue (renderCmdline tokens) key = some v ↔
      ∃ front rest, tokens = front ++ (key ++ lit "=" ++ v) :: rest ∧
        ∀ v', key ++ lit "=" ++ v' ∉ front := by
  rw [cmdlineValue, splitWs_renderCmdline h, Option.map_eq_some_iff]
  constructor
  · rintro ⟨tok, hfound, rfl⟩
    obtain ⟨hpre, front, rest, rfl, hfront⟩ := List.find?_eq_some_iff_append.mp hfound
    obtain ⟨v, rfl⟩ := List.isPrefixOf_iff_prefix.mp hpre
    refine ⟨front, rest, ?_, fun v' hmem => ?_⟩
    · rw [List.drop_left]
    · have hnot := hfront _ hmem
      rw [List.isPrefixOf_iff_prefix.mpr (List.prefix_append _ _)] at hnot
      cases hnot
  · rintro ⟨front, rest, rfl, hfront⟩
    refine ⟨key ++ lit "=" ++ v, List.find?_eq_some_iff_append.mpr
      ⟨List.isPrefixOf_iff_prefix.mpr (List.prefix_append _ _), front, rest, rfl, ?_⟩,
      List.drop_left⟩
    intro tok htok
    rw [Bool.not_eq_true', Bool.eq_false_iff, Ne, List.isPrefixOf_iff_prefix]
    rintro ⟨v', rfl⟩
    exact hfront v' htok

/-- The checks read what is written: the value of the first line with a key, the flags of the first
CPU and no others, and the options of the command line, with the value of the first one that has
some. An option has no blanks in it, quoted or not. -/
theorem proc_files_read :
    (∀ ls : List MemLine, (∀ l ∈ ls, l.Proper) → ∀ key, colon ∉ key →
      meminfoValue (renderMeminfo ls) key =
        (ls.find? fun l => l.key = key).map fun l => (l.value : ℤ)) ∧
    (∀ before flags : List ByteString, (∀ l ∈ before, newline ∉ l ∧ isFlagsLine l = false) →
      (∀ w ∈ flags, Word isSpace w) → ∀ rest flag,
      cpuinfoHasFlagsLine (renderCpuinfo before flags rest) = true ∧
        (cpuHasFlag (renderCpuinfo before flags rest) flag = true ↔ flag ∈ flags)) ∧
    ∀ tokens : List ByteString, (∀ w ∈ tokens, Word isSpace w) → ∀ key,
      (cmdlineHas (renderCmdline tokens) key = true ↔
        key ∈ tokens ∨ ∃ v, key ++ lit "=" ++ v ∈ tokens) ∧
      ∀ v, cmdlineValue (renderCmdline tokens) key = some v ↔
        ∃ front rest, tokens = front ++ (key ++ lit "=" ++ v) :: rest ∧
          ∀ v', key ++ lit "=" ++ v' ∉ front := by
  refine ⟨fun ls h key hkey => meminfoValue_renderMeminfo h hkey, ?_, fun tokens h key => ?_⟩
  · intro before flags hbefore hflags rest flag
    exact cpuHasFlag_renderCpuinfo hbefore hflags rest flag
  · exact ⟨cmdlineHas_renderCmdline h key, cmdlineValue_renderCmdline h key⟩

/-- A host with four huge pages. -/
def hugeMeminfo : List MemLine :=
  [⟨lit "MemTotal", 8, 16384000, lit " kB"⟩, ⟨lit "HugePages_Total", 7, 4, []⟩,
    ⟨lit "Hugepagesize", 7, 2048, lit " kB"⟩]

lemma proper_hugeMeminfo : ∀ l ∈ hugeMeminfo, l.Proper := by
  have hkilo : NoDigit (lit " kB") := by
    rintro c ⟨⟩
    rfl
  intro l hl
  simp only [hugeMeminfo, List.mem_cons, List.not_mem_nil, or_false] at hl
  rcases hl with rfl | rfl | rfl
  · exact ⟨by decide, by decide +kernel, by decide, hkilo⟩
  · exact ⟨by decide, by decide +kernel, by decide, .nil⟩
  · exact ⟨by decide, by decide +kernel, by decide, hkilo⟩

theorem proc_files_read_huge :
    meminfoValue (renderMeminfo hugeMeminfo) (lit "HugePages_Total") = some 4 ∧
    (cpuHasFlag (renderCpuinfo [lit "processor\t: 0"] [lit "fpu", lit "svm"] [])
        (lit "svm") = true ∧
      ¬cpuHasFlag (renderCpuinfo [lit "processor\t: 0"] [lit "fpu", lit "svm"] [])
        (lit "vm") = true) ∧
    cmdlineValue (renderCmdline [lit "quiet", lit "iommu=pt", lit "iommu=off"]) (lit "iommu") =
      some (lit "pt") := by
  obtain ⟨hmeminfo, hcpuinfo, hcmdline⟩ := proc_files_read
  have hflag := fun flag => (hcpuinfo [lit "processor\t: 0"] [lit "fpu", lit "svm"] (by decide)
    (by decide) [] flag).2
  refine ⟨?_, ⟨(hflag _).mpr (by decide), mt (hflag _).mp (by decide)⟩, ?_⟩
  · rw [hmeminfo hugeMeminfo proper_hugeMeminfo _ (by decide)]
    rfl
  · refine ((hcmdline _ (by decide) _).2 _).mpr ⟨[lit "quiet"], [lit "iommu=off"], by decide, ?_⟩
    intro v hv
    have hhead : (lit "iommu" ++ lit "=" ++ v).head? = (lit "iommu").head? := rfl
    rw [List.mem_singleton.mp hv] at hhead
    exact absurd hhead (by decide)

end Platcheck
