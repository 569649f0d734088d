import ShellfleetAgent.Agent.Stats
import ShellfleetAgent.Lib.Utf8
import ShellfleetAgent.Proofs.AptList

/-!
# The statistics of the host: proofs

The rows of `/proc/meminfo` and of `df` as they are written, and what is read from them.
-/

namespace ShellfleetAgent.Agent.Stats

open ShellfleetAgent.Lib Text
open AptList (Blank Padding)

/-! ## Memory -/

/-- A key, and a value with or without a unit. -/
structure MemRow where
  key : Str
  before : Blank
  value : UInt64
  unit : Option (Padding × Str)
  key_plain : ':' ∉ key ∧ '\n' ∉ key
  unit_plain : ∀ u ∈ unit, IsWord isWhitespace u.2 ∧ ':' ∉ u.2

namespace MemRow

def behind (r : MemRow) : Str := r.unit.elim [] fun u => u.1.text ++ u.2

def number (r : MemRow) : Str := r.before.text ++ (decimal r.value.toNat ++ r.behind)

def text (r : MemRow) : Str := r.key ++ ':' :: r.number

end MemRow

theorem isWord_decimal (n : Nat) : IsWord isWhitespace (decimal n) :=
  ⟨decimal_ne_nil n, fun _ hc => isWhitespace_of_isDigit (isDigit_of_mem_decimal hc)⟩

theorem splitWhitespace_trim (s : Str) : splitWhitespace (trim s) = splitWhitespace s := by
  obtain ⟨front, back, hfront, hback, hs⟩ := trimMatches_split isWhitespace s
  have htrim : s = front ++ (trim s ++ back) := by
    rw [← List.append_assoc]
    exact hs
  have hwords : splitWhitespace s = wordsOf isWhitespace (front ++ (trim s ++ back)) := by
    rw [← htrim]
    rfl
  rw [hwords, wordsOf_gap hfront, wordsOf_append_gap hback]
  rfl

section Row

variable (r : MemRow)

theorem words_number : ∃ rest, splitWhitespace r.number = decimal r.value.toNat :: rest := by
  have hword := isWord_decimal r.value.toNat
  rw [splitWhitespace, MemRow.number, wordsOf_gap r.before.gap, MemRow.behind]
  cases hunit : r.unit with
  | none =>
      refine ⟨[], ?_⟩
      rw [Option.elim_none, List.append_nil, wordsOf_word hword]
  | some u =>
      exact ⟨_, wordsOf_word_gap hword u.1.gap u.1.some_text⟩

theorem mem_number {c : Char} (hc : c ∈ r.number) :
    c ∈ r.before.text ∨ c.isDigit = true ∨ ∃ u ∈ r.unit, c ∈ u.1.text ∨ c ∈ u.2 := by
  rw [MemRow.number, List.mem_append, List.mem_append, MemRow.behind] at hc
  rcases hc with hc | hc | hc
  · exact .inl hc
  · exact .inr (.inl (isDigit_of_mem_decimal hc))
  · cases hu : r.unit with
    | none =>
        rw [hu] at hc
        cases hc
    | some u =>
        rw [hu] at hc
        exact .inr (.inr ⟨u, rfl, List.mem_append.mp hc⟩)

theorem oneLine_number : '\n' ∉ r.number := by
  intro hc
  rcases mem_number r hc with hc | hc | ⟨u, hu, hc | hc⟩
  · exact r.before.oneLine hc
  · cases hc
  · exact u.1.oneLine hc
  · exact (r.unit_plain u hu).1.not_mem rfl hc

theorem plain_number : ':' ∉ r.number := by
  intro hc
  rcases mem_number r hc with hc | hc | ⟨u, hu, hc | hc⟩
  · cases r.before.gap _ hc
  · cases hc
  · cases u.1.gap _ hc
  · exact (r.unit_plain u hu).2 hc

theorem oneLine_text : '\n' ∉ r.text := by
  rw [MemRow.text, List.mem_append, List.mem_cons]
  rintro (hc | hc | hc)
  · exact r.key_plain.2 hc
  · cases hc
  · exact oneLine_number r hc

theorem meminfoLine_text : meminfoLine (stripCr r.text) = some (r.key, r.value.toNat) := by
  have hplain : ':' ∉ stripCr r.number :=
    fun hc => plain_number r ((stripCr_front r.number).subset hc)
  have hsplit : (stripCr r.text).splitOn ':' = [r.key, stripCr r.number] := by
    rw [MemRow.text, stripCr_append (by decide), List.splitOn_append_cons_self,
      List.splitOn_eq_singleton hplain, List.splitOn_eq_singleton r.key_plain.1]
    rfl
  obtain ⟨rest, hwords⟩ := words_number r
  rw [meminfoLine, hsplit]
  show (parseU64 ((splitWhitespace (trim (stripCr r.number))).headD ['0'])).map _ = _
  rw [splitWhitespace_trim, AptList.splitWhitespace_stripCr, hwords, List.headD_cons,
    parseU64_decimal r.value.toNat_lt]
  rfl

end Row

/-- What a table says of a key. -/
def told (rows : List MemRow) (key : String) : Option Nat :=
  ((rows.filter fun r => r.key = key.toList).getLast?).map fun r => r.value.toNat

theorem parseMeminfo_text (rows : List MemRow) :
    parseMeminfo (some (unlines (rows.map MemRow.text))) =
      rows.map fun r => (r.key, r.value.toNat) := by
  have hrows : (meminfoLine ∘ fun r => stripCr (MemRow.text r)) =
      some ∘ fun r => (r.key, r.value.toNat) := funext meminfoLine_text
  rw [parseMeminfo, Option.getD_some, lines_texts oneLine_text, List.filterMap_map, hrows,
    List.filterMap_eq_map]

theorem get_text (rows : List MemRow) (key : String) :
    get (parseMeminfo (some (unlines (rows.map MemRow.text)))) key = told rows key := by
  rw [parseMeminfo_text, get, told, List.filter_map, List.getLast?_map, Option.map_map]
  rfl

/-! ## The root disk -/

/-- What `df` writes of one file system, below its header. -/
structure DfTable where
  header : Str
  filesystem : Str
  total : UInt64
  used : UInt64
  gaps : Fin 3 → Padding
  behind : Str
  filesystem_word : IsWord isWhitespace filesystem
  oneLine : '\n' ∉ header ∧ '\n' ∉ behind

namespace DfTable

def words (d : DfTable) : List (Str × Str) :=
  [(d.filesystem, (d.gaps 0).text), (decimal d.total.toNat, (d.gaps 1).text),
    (decimal d.used.toNat, (d.gaps 2).text)]

def row (d : DfTable) : Str := spread d.words ++ d.behind

def text (d : DfTable) : Str := unlines [d.header, d.row]

end DfTable

section Disk

variable (d : DfTable)

theorem mem_words : ∀ e ∈ d.words, IsWord isWhitespace e.1 ∧ ∃ i, e.2 = (d.gaps i).text := by
  rw [DfTable.words, List.forall_mem_cons, List.forall_mem_cons, List.forall_mem_singleton]
  exact ⟨⟨d.filesystem_word, 0, rfl⟩, ⟨isWord_decimal _, 1, rfl⟩, ⟨isWord_decimal _, 2, rfl⟩⟩

theorem words_row : ∃ rest, splitWhitespace d.row =
    d.filesystem :: decimal d.total.toNat :: decimal d.used.toNat :: rest := by
  have hwords : ∀ e ∈ d.words, IsWord isWhitespace e.1 ∧ IsGap isWhitespace e.2 ∧ e.2 ≠ [] := by
    intro e he
    obtain ⟨hword, i, hgap⟩ := mem_words d e he
    rw [hgap]
    exact ⟨hword, (d.gaps i).gap, (d.gaps i).some_text⟩
  refine ⟨wordsOf isWhitespace d.behind, ?_⟩
  rw [splitWhitespace, DfTable.row, wordsOf_spread hwords]
  rfl

theorem oneLine_row : '\n' ∉ d.row := by
  intro hc
  rcases List.mem_append.mp hc with hc | hc
  · refine not_mem_spread (fun e he => ?_) hc
    obtain ⟨hword, i, hgap⟩ := mem_words d e he
    exact ⟨hword.not_mem rfl, hgap ▸ (d.gaps i).oneLine⟩
  · exact d.oneLine.2 hc

theorem readRootDisk_text {stderr : Bytes} :
    readRootDisk (.ok ⟨some 0, toUtf8 d.text, stderr⟩) = (d.total.toNat, d.used.toNat) := by
  have hlines : (lines d.text)[1]? = some (stripCr d.row) := by
    have hall : ∀ line ∈ [d.header, d.row], '\n' ∉ line :=
      List.forall_mem_cons.mpr ⟨d.oneLine.1, List.forall_mem_singleton.mpr (oneLine_row d)⟩
    have htext : lines (unlines [d.header, d.row] ++ []) =
        [d.header, d.row].map stripCr ++ lines [] := lines_unlines hall
    rw [List.append_nil] at htext
    rw [DfTable.text, htext]
    rfl
  obtain ⟨rest, hwords⟩ := words_row d
  have hcells : splitWhitespace (stripCr d.row) =
      d.filesystem :: decimal d.total.toNat :: decimal d.used.toNat :: rest := by
    rw [AptList.splitWhitespace_stripCr, hwords]
  have hsuccess : (⟨some 0, toUtf8 d.text, stderr⟩ : Output).success = true := rfl
  rw [readRootDisk, if_pos hsuccess, fromUtf8Lossy_encoded, hlines]
  show (cell (stripCr d.row) 1, cell (stripCr d.row) 2) = _
  rw [cell, cell, hcells]
  show ((parseU64 (decimal d.total.toNat)).getD 0, (parseU64 (decimal d.used.toNat)).getD 0) = _
  rw [parseU64_decimal d.total.toNat_lt, parseU64_decimal d.used.toNat_lt]
  rfl

end Disk

theorem readCpuCount_pos (file : Option Str) : 0 < readCpuCount file := by
  rw [readCpuCount]
  cases hn : Option.filter _ _ with
  | none => decide
  | some n =>
      obtain ⟨_, hpos⟩ := Option.filter_eq_some_iff.mp hn
      exact of_decide_eq_true hpos

variable {F : Type} {floats : Floats F} {host : StatsHost}

/-- The numbers of memory are those of the kernel's table, whatever else is in it and however
it is padded, with what is available in place of what is free where the kernel says so; those
of the root disk are what `df` writes of its file system; and there is a processor. -/
theorem stats_told {rows : List MemRow} {d : DfTable} {stderr : Bytes}
    (hmem : host.meminfo = some (unlines (rows.map MemRow.text)))
    (hdf : host.df dfArgs = .ok ⟨some 0, toUtf8 d.text, stderr⟩) :
    (snapshot floats host).memTotalKb = (told rows "MemTotal").getD 0 ∧
    (snapshot floats host).memAvailableKb =
      ((told rows "MemAvailable").or (told rows "MemFree")).getD 0 ∧
    (snapshot floats host).swapTotalKb = (told rows "SwapTotal").getD 0 ∧
    (snapshot floats host).swapFreeKb = (told rows "SwapFree").getD 0 ∧
    (snapshot floats host).rootDiskTotalKb = d.total.toNat ∧
    (snapshot floats host).rootDiskUsedKb = d.used.toNat ∧
    0 < (snapshot floats host).cpuCount := by
  have hget : ∀ key, get (parseMeminfo host.meminfo) key = told rows key := by
    intro key
    rw [hmem, get_text]
  have hdisk : readRootDisk (host.df dfArgs) = (d.total.toNat, d.used.toNat) := by
    rw [hdf, readRootDisk_text]
  simp only [snapshot, hget, hdisk]
  exact ⟨trivial, trivial, trivial, trivial, trivial, trivial, readCpuCount_pos _⟩

/-! ## A host -/

def noFloats : Floats Unit where
  zero := ()
  parseF32 _ := none
  parseSeconds _ := none

theorem isWord_kb : IsWord isWhitespace "kB".toList :=
  ⟨by decide, List.all_iff_forall_prop.mp (by decide)⟩

/-- A row in kilobytes. -/
def kbRow (key : Str) (value : UInt64) (hkey : ':' ∉ key ∧ '\n' ∉ key) : MemRow where
  key := key
  before := AptList.space.toBlank
  value := value
  unit := some (AptList.space, "kB".toList)
  key_plain := hkey
  unit_plain u hu := by
    cases hu
    exact ⟨isWord_kb, by decide⟩

def oldKernel : List MemRow :=
  [kbRow "MemTotal".toList 16321780 (by decide), kbRow "MemFree".toList 700 (by decide),
    kbRow "SwapTotal".toList 2048 (by decide)]

def rootTable : DfTable where
  header := "Filesystem 1024-blocks Used Available Capacity Mounted on".toList
  filesystem := "/dev/sda1".toList
  total := 1000
  used := 400
  gaps _ := AptList.space
  behind := "600 40% /".toList
  filesystem_word := ⟨by decide, List.all_iff_forall_prop.mp (by decide)⟩
  oneLine := by decide

/-- Its kernel does not say what is available. -/
def oldHost : StatsHost where
  meminfo := some (unlines (oldKernel.map MemRow.text))
  uptime := none
  loadavg := none
  cpuinfo := none
  osrelease := none
  hostname := none
  df _ := .ok ⟨some 0, toUtf8 rootTable.text, []⟩

theorem stats_told_old :
    told oldKernel "MemTotal" = some 16321780 ∧ told oldKernel "MemAvailable" = none ∧
    (snapshot noFloats oldHost).memAvailableKb =
      ((told oldKernel "MemAvailable").or (told oldKernel "MemFree")).getD 0 ∧
    (snapshot noFloats oldHost).rootDiskUsedKb = 400 := by
  have hmem : oldHost.meminfo = some (unlines (oldKernel.map MemRow.text)) := rfl
  have hdf : oldHost.df dfArgs = .ok ⟨some 0, toUtf8 rootTable.text, []⟩ := rfl
  obtain ⟨_, havailable, _, _, _, hused, _⟩ := @stats_told _ noFloats _ _ _ _ hmem hdf
  exact ⟨by decide, by decide, havailable, hused⟩

end ShellfleetAgent.Agent.Stats
