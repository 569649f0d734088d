import Mathlib.Data.Bool.AllAny
import ShellfleetAgent.Agent.Prune
import ShellfleetAgent.Lib.Sections
import ShellfleetAgent.Lib.Utf8

/-!
# What is reported as removed

Both parsers go through the log line by line and remember the section they are in. The
log is the end of what docker has printed: a text that is cut has lost the first header
at least, and the items under it are outside of any section.
-/

namespace ShellfleetAgent.Agent.Prune

open ShellfleetAgent.Lib Sections Text
open Docker (CommandLine combinedText combineStdoutStderr)

/-! ## The two parsers as readers of sections -/

/-- What a line of the log of a system prune is taken for. -/
def pruneMark (l : Str) : Mark Section :=
  match headed l with
  | some k => .enter k
  | none => if totalHeader.isPrefixOf l ∨ l = [] then .leave else .item

/-- What a line of the log of a volume prune is taken for. -/
def volumeMark (l : Str) : Mark Unit :=
  if "Deleted Volumes".toList.isPrefixOf l then .enter ()
  else if totalHeader.isPrefixOf l then .leave
  else if l = [] then .skip
  else .item

def PruneOutcome.removed (out : PruneOutcome) : Section → List Str
  | .containers => out.containersRemoved
  | .images => out.imagesRemoved
  | .networks => out.networksRemoved
  | .volumes => out.volumesRemoved

/-- The items of one section. -/
def under (k : Section) (items : List (Section × Str)) : List Str :=
  (items.filter fun p => p.1 = k).map Prod.snd

variable (parseDockerSize : Str → Nat)

theorem under_append (k : Section) (items later : List (Section × Str)) :
    under k (items ++ later) = under k items ++ under k later := by
  rw [under, List.filter_append, List.map_append]
  rfl

theorem removed_push (out : PruneOutcome) (l : Str) (k k' : Section) :
    (out.push l k').removed k = out.removed k ++ under k [(k', l)] := by
  cases k <;> cases k' <;> simp [PruneOutcome.push, PruneOutcome.removed, under]

theorem pruneLine_step (current : Option Section) (out : PruneOutcome) (line : Str) :
    (pruneLine parseDockerSize (current, out) line).1 = next pruneMark current (trim line) ∧
      ∀ k, (pruneLine parseDockerSize (current, out) line).2.removed k =
        out.removed k ++ under k (kept pruneMark current (trim line)).toList := by
  simp only [pruneLine, next, kept, pruneMark]
  cases headed (trim line) with
  | some k' => exact ⟨rfl, fun k => (List.append_nil _).symm⟩
  | none =>
      dsimp only
      by_cases htotal : totalHeader.isPrefixOf (trim line) = true
      · rw [if_pos htotal, if_pos (Or.inl htotal)]
        refine ⟨rfl, fun k => ?_⟩
        cases k <;> exact (List.append_nil _).symm
      · by_cases hempty : trim line = []
        · rw [if_neg htotal, if_pos hempty, if_pos (Or.inr hempty)]
          exact ⟨rfl, fun k => (List.append_nil _).symm⟩
        · rw [if_neg htotal, if_neg hempty, if_neg (not_or.mpr ⟨htotal, hempty⟩)]
          cases current with
          | some k' => exact ⟨rfl, fun k => removed_push _ _ _ _⟩
          | none => exact ⟨rfl, fun k => (List.append_nil _).symm⟩

theorem foldl_pruneLine (lines : List Str) (current : Option Section) (out : PruneOutcome)
    (k : Section) :
    (lines.foldl (pruneLine parseDockerSize) (current, out)).2.removed k =
      out.removed k ++ under k (read pruneMark current (lines.map trim)) := by
  induction lines generalizing current out with
  | nil => exact (List.append_nil _).symm
  | cons line lines ih =>
      obtain ⟨hcurrent, hout⟩ := pruneLine_step parseDockerSize current out line
      rw [List.foldl_cons, ← Prod.mk.eta (p := pruneLine parseDockerSize (current, out) line), ih,
        hout, hcurrent, List.map_cons, read_cons, under_append, List.append_assoc]

theorem volumeLine_step (inDeleted : Bool) (removed : List Str) (n : Nat) (line : Str) :
    ∃ n', volumeLine parseDockerSize (inDeleted, removed, n) line =
      ((next volumeMark (if inDeleted then some () else none) (trim line)).isSome,
        removed ++ (kept volumeMark (if inDeleted then some () else none) (trim line)).toList.map
          Prod.snd, n') := by
  simp only [volumeLine, next, kept, volumeMark]
  by_cases hheader : "Deleted Volumes".toList.isPrefixOf (trim line) = true
  · rw [if_pos hheader, if_pos hheader]
    exact ⟨n, by simp⟩
  · rw [if_neg hheader, if_neg hheader]
    by_cases htotal : totalHeader.isPrefixOf (trim line) = true
    · rw [if_pos htotal, if_pos htotal]
      exact ⟨parseDockerSize (reclaimedValue (trim line)), by simp⟩
    · rw [if_neg htotal, if_neg htotal]
      by_cases hempty : trim line = []
      · rw [if_pos hempty]
        exact ⟨n, by cases inDeleted <;> simp [hempty]⟩
      · rw [if_neg hempty]
        exact ⟨n, by cases inDeleted <;> simp [hempty]⟩

theorem foldl_volumeLine (lines : List Str) (inDeleted : Bool) (removed : List Str) (n : Nat) :
    (lines.foldl (volumeLine parseDockerSize) (inDeleted, removed, n)).2.1 =
      removed ++ (read volumeMark (if inDeleted then some () else none) (lines.map trim)).map
        Prod.snd := by
  induction lines generalizing inDeleted removed n with
  | nil => exact (List.append_nil _).symm
  | cons line lines ih =>
      obtain ⟨n', hstep⟩ := volumeLine_step parseDockerSize inDeleted removed n line
      have hcurrent : ∀ current : Option Unit,
          (if current.isSome then some () else none) = current := by
        intro current
        cases current <;> rfl
      rw [List.foldl_cons, hstep, ih, hcurrent, List.map_cons, read_cons, List.map_append,
        List.append_assoc]

/-! ## What docker prints -/

/-- An id is one line, and no white space is around it. -/
structure PrunedId where
  text : Str
  nonempty : text ≠ []
  trimmed : trim text = text
  oneLine : '\n' ∉ text

/-- The ids that were removed of one kind, if there are any. -/
structure PrunedSection where
  kind : Section
  ids : List PrunedId
  nonempty : ids ≠ []

def PrunedSection.block (p : PrunedSection) : Block Section :=
  ⟨p.kind, p.kind.header, p.ids.map PrunedId.text⟩

def totalLine (reclaimed : Str) : Str := totalHeader ++ ' ' :: reclaimed

/-- The sections, each with a blank line, and the total. -/
def printout (sections : List PrunedSection) (reclaimed : Str) : Str :=
  unlines ((sections.map PrunedSection.block).flatMap Block.lines) ++
    (totalLine reclaimed ++ ['\n'])

/-- The ids that were removed of a kind. -/
def removedIds (sections : List PrunedSection) (k : Section) : List Str :=
  (sections.filter fun p => p.kind = k).flatMap fun p => p.ids.map PrunedId.text

/-- A volume prune prints no section but that of its volumes. -/
def volumeSections (ids : List PrunedId) : List PrunedSection :=
  if h : ids = [] then [] else [⟨.volumes, ids, h⟩]

theorem mem_block_lines {p : PrunedSection} {line : Str} (h : line ∈ p.block.lines) :
    '\n' ∉ line ∧ trim line = line := by
  cases List.mem_append.mp h with
  | inl hline =>
      cases List.mem_cons.mp hline with
      | inl hheader =>
          rw [hheader]
          show '\n' ∉ p.kind.header ∧ trim p.kind.header = p.kind.header
          cases p.kind <;> decide
      | inr hid =>
          obtain ⟨id, _, rfl⟩ := List.mem_map.mp hid
          exact ⟨id.oneLine, id.trimmed⟩
  | inr hblank =>
      rw [List.mem_singleton.mp hblank]
      decide

theorem headed_eq_some {l : Str} {k : Section} (h : headed l = some k) : l = k.header := by
  have hfound := List.find?_some h
  exact of_decide_eq_true hfound

theorem headed_header (k : Section) : headed k.header = some k := by
  cases k <;> decide

theorem pruneMark_enter {l : Str} {k : Section} (h : pruneMark l = .enter k) : l = k.header := by
  unfold pruneMark at h
  split at h
  · next hheaded =>
      cases h
      exact headed_eq_some hheaded
  · split at h <;> cases h

theorem volumeMark_enter {l : Str} {k : Unit} (h : volumeMark l = .enter k) :
    "Deleted Volumes".toList <+: l := by
  unfold volumeMark at h
  split at h
  · next hheader => exact List.isPrefixOf_iff_prefix.mp hheader
  · split at h
    · cases h
    · split at h <;> cases h

/-- No end of a header is a header. -/
theorem header_torn (k : Section) : ∀ part ∈ k.header.tails, part ≠ k.header →
    headed (trim part) = none ∧ "Deleted Volumes".toList.isPrefixOf (trim part) = false := by
  cases k <;> decide

theorem printed_prune (sections : List PrunedSection) :
    Printed pruneMark (sections.map PrunedSection.block) where
  header b hb := by
    obtain ⟨p, _, rfl⟩ := List.mem_map.mp hb
    rw [pruneMark, show p.block.header = p.kind.header from rfl, headed_header]
    rfl
  torn b hb part hpart hne k hmark := by
    obtain ⟨p, _, rfl⟩ := List.mem_map.mp hb
    have hheaded := (header_torn p.kind part ((List.mem_tails _ _).mpr hpart) hne).1
    rw [pruneMark_enter hmark, headed_header] at hheaded
    cases hheaded
  blank := .inl (by decide)
  items b hb := by
    obtain ⟨p, _, rfl⟩ := List.mem_map.mp hb
    exact fun hnil => p.nonempty (List.map_eq_nil_iff.mp hnil)
  lines b hb := by
    obtain ⟨p, _, rfl⟩ := List.mem_map.mp hb
    exact fun line => mem_block_lines

/-- The same section to a reader that knows of no other. -/
def volumeBlocks (ids : List PrunedId) : List (Block Unit) :=
  if ids = [] then [] else [⟨(), Section.volumes.header, ids.map PrunedId.text⟩]

theorem volumeBlocks_cases {ids : List PrunedId} {b : Block Unit} (h : b ∈ volumeBlocks ids) :
    ids ≠ [] ∧ b = ⟨(), Section.volumes.header, ids.map PrunedId.text⟩ := by
  unfold volumeBlocks at h
  split at h
  · cases h
  · next hne => exact ⟨hne, List.mem_singleton.mp h⟩

theorem volumeBlocks_lines (ids : List PrunedId) :
    (volumeBlocks ids).flatMap Block.lines =
      ((volumeSections ids).map PrunedSection.block).flatMap Block.lines := by
  unfold volumeBlocks volumeSections
  split
  · rfl
  · rfl

theorem listed_volumeBlocks (ids : List PrunedId) :
    (listed (volumeBlocks ids)).map Prod.snd = ids.map PrunedId.text := by
  unfold volumeBlocks
  split
  · next hnil =>
      rw [hnil]
      rfl
  · simp [listed, Function.comp_def]

theorem volumeBlocks_eq_nil {ids : List PrunedId} : volumeBlocks ids = [] ↔ ids = [] := by
  unfold volumeBlocks
  split
  · next hnil => exact ⟨fun _ => hnil, fun _ => rfl⟩
  · next hne => exact ⟨nofun, fun hnil => absurd hnil hne⟩

theorem printed_volumes (ids : List PrunedId) : Printed volumeMark (volumeBlocks ids) where
  header b hb := by
    obtain ⟨_, rfl⟩ := volumeBlocks_cases hb
    show volumeMark Section.volumes.header = .enter ()
    decide
  torn b hb part hpart hne k hmark := by
    obtain ⟨_, rfl⟩ := volumeBlocks_cases hb
    have hheader := List.isPrefixOf_iff_prefix.mpr (volumeMark_enter hmark)
    rw [(header_torn .volumes part ((List.mem_tails _ _).mpr hpart) hne).2] at hheader
    cases hheader
  blank := .inr (by decide)
  items b hb := by
    obtain ⟨hne, rfl⟩ := volumeBlocks_cases hb
    exact fun hnil => hne (List.map_eq_nil_iff.mp hnil)
  lines b hb := by
    obtain ⟨hne, rfl⟩ := volumeBlocks_cases hb
    exact fun line hline => mem_block_lines (p := ⟨.volumes, ids, hne⟩) hline

/-! ## The log -/

/-- What stands behind the total. -/
def trailer (output : Output) : Str :=
  if output.stderr = [] then []
  else "\n--- stderr ---\n".toList ++ fromUtf8Lossy output.stderr

theorem combinedText_printout {output : Output} {sections : List PrunedSection} {reclaimed : Str}
    (h : fromUtf8Lossy output.stdout = printout sections reclaimed) :
    combinedText output = unlines ((sections.map PrunedSection.block).flatMap Block.lines) ++
      (totalLine reclaimed ++ '\n' :: trailer output) := by
  have hprinted : printout sections reclaimed ≠ [] := by
    intro hnil
    rw [printout, List.append_eq_nil_iff, List.append_eq_nil_iff] at hnil
    cases hnil.2.2
  have hstdout : output.stdout ≠ [] := by
    intro hnil
    rw [hnil] at h
    exact hprinted h.symm
  unfold combinedText trailer
  rw [if_neg hstdout, h]
  dsimp only
  split
  · rw [printout]
  · rw [printout, List.append_assoc, List.append_assoc, List.append_assoc]
    rfl

/-- A piece that is in no size and not on `stderr` is not behind the sections. -/
theorem not_infix_trailer {output : Output} {reclaimed piece : Str}
    (hsize : ∀ c ∈ reclaimed, isWhitespace c = false) (hline : '\n' ∉ 'D' :: piece)
    (hspace : ' ' ∈ 'D' :: piece) (hstderr : ¬ 'D' :: piece <:+: fromUtf8Lossy output.stderr) :
    ¬ 'D' :: piece <:+: totalLine reclaimed ++ '\n' :: trailer output := by
  intro hpiece
  rcases infix_line hline hpiece with htotal | htrailer
  · have hreclaimed : 'D' :: piece <:+: reclaimed := by
      have hbehind : 'D' :: piece <:+: (totalHeader ++ [' ']) ++ reclaimed := by
        rw [List.append_assoc]
        exact htotal
      exact infix_behind (by decide) hbehind
    have hwhite := hsize ' ' (hreclaimed.subset hspace)
    cases hwhite
  · unfold trailer at htrailer
    split at htrailer
    · exact absurd htrailer (by simp)
    · exact hstderr (infix_behind (by decide) htrailer)

/-- The line that a cut log begins with. -/
def cutLine (cut : Nat) : Str := "…[".toList ++ decimal cut ++ " bytes truncated]…".toList

theorem cutHeader_eq (cut : Nat) (tail : Str) :
    cutHeader cut ++ tail = cutLine cut ++ '\n' :: tail := by
  unfold cutHeader cutLine
  simp

theorem cutLine_oneLine (cut : Nat) : '\n' ∉ cutLine cut := by
  intro hmem
  rcases List.mem_append.mp hmem with hfront | hback
  · rcases List.mem_append.mp hfront with hopen | hdigit
    · exact absurd hopen (by decide)
    · exact absurd (isDigit_of_mem_decimal hdigit) (by decide)
  · exact absurd hback (by decide)

theorem trim_cutLine (cut : Nat) : ∃ more, trim (cutLine cut) = '…' :: more := by
  have hstart : '…' :: ("[".toList ++ decimal cut ++ " bytes truncated]".toList) ++ ['…'] <+:
      cutLine cut := by
    unfold cutLine
    exact ⟨[], by simp⟩
  obtain ⟨more, hmore⟩ := prefix_trim (by decide) (by decide) hstart
  exact ⟨_, hmore.symm⟩

section Log

variable {κ : Type} {mark : Str → Mark κ} {blocks : List (Block κ)} {output : Output}
  {reclaimed : Str}

def readLog (mark : Str → Mark κ) (log : Str) : List (κ × Str) :=
  read mark none ((lines log).map trim)

/-- What a reader makes of the lines that are not docker's ids. -/
structure Reader (mark : Str → Mark κ) : Prop where
  total : ∀ l, totalHeader <+: l → mark l = .leave
  cut : ∀ more k, mark ('…' :: more) ≠ .enter k

theorem reader_prune : Reader pruneMark where
  total l hl := by
    have hheaded : headed l = none := by
      cases hk : headed l with
      | none => rfl
      | some k =>
          rw [headed_eq_some hk] at hl
          cases k <;> exact absurd hl (by decide)
    rw [pruneMark, hheaded]
    exact if_pos (Or.inl (List.isPrefixOf_iff_prefix.mpr hl))
  cut more k hmark := by
    have hheader := pruneMark_enter hmark
    cases k <;> cases hheader

theorem reader_volumes : Reader volumeMark where
  total l hl := by
    have hheader : ¬"Deleted Volumes".toList.isPrefixOf l = true := by
      intro hprefix
      rcases List.prefix_or_prefix_of_prefix (List.isPrefixOf_iff_prefix.mp hprefix) hl with h | h
      · exact absurd h (by decide)
      · exact absurd h (by decide)
    rw [volumeMark, if_neg hheader, if_pos (List.isPrefixOf_iff_prefix.mpr hl)]
  cut more k hmark := absurd (List.cons_prefix_cons.mp (volumeMark_enter hmark)).1 (by decide)

theorem readLog_cut (hreader : Reader mark) (cut : Nat) (tail : Str) :
    readLog mark (cutHeader cut ++ tail) = readLog mark tail := by
  obtain ⟨more, hmore⟩ := trim_cutLine cut
  unfold readLog
  rw [cutHeader_eq, lines_line (cutLine_oneLine cut), List.map_cons, trim_stripCr,
    read_outside fun k => by rw [hmore]; exact hreader.cut more k]

theorem totalLine_oneLine (hsize : ∀ c ∈ reclaimed, isWhitespace c = false) :
    '\n' ∉ totalLine reclaimed := by
  intro hmem
  rcases List.mem_append.mp hmem with hheader | hvalue
  · exact absurd hheader (by decide)
  · cases List.mem_cons.mp hvalue with
    | inl hspace => exact absurd hspace (by decide)
    | inr hsized => exact absurd (hsize _ hsized) (by decide)

theorem total_leaves (hreader : Reader mark) (reclaimed : Str) :
    mark (trim (totalLine reclaimed)) = .leave := by
  have hstart : 'T' :: "otal reclaimed space".toList ++ [':'] <+: totalLine reclaimed :=
    List.prefix_append totalHeader _
  exact hreader.total _ (prefix_trim (by decide) (by decide) hstart)

/-- The text of the log, and that its reader understands it. -/
structure Understood (mark : Str → Mark κ) (blocks : List (Block κ)) (output : Output)
    (reclaimed : Str) : Prop where
  reader : Reader mark
  printed : Printed mark blocks
  size : ∀ c ∈ reclaimed, isWhitespace c = false
  text : combinedText output =
    unlines (blocks.flatMap Block.lines) ++ (totalLine reclaimed ++ '\n' :: trailer output)
  quiet : Quiet mark (totalLine reclaimed ++ '\n' :: trailer output)

theorem Understood.quiet_trailer (h : Understood mark blocks output reclaimed) :
    Quiet mark (trailer output) := fun piece hpiece =>
  h.quiet piece (hpiece.trans ⟨totalLine reclaimed ++ ['\n'], [], by simp⟩)

/-- All of the text is there, or nothing in it is an id. -/
def NoIdCut (blocks : List (Block κ)) (output : Output) : Prop :=
  utf8Len (combinedText output) ≤ 8000 ∨ blocks = [] ∧ CutsAt (combinedText output) 8000

theorem Understood.read_log (h : Understood mark blocks output reclaimed)
    (hitems : ∀ b ∈ blocks, ∀ item ∈ b.items, mark item = .item) (hcut : NoIdCut blocks output) :
    ∃ log, combineStdoutStderr output = some log ∧ readLog mark log = listed blocks := by
  rcases hcut with hshort | ⟨rfl, tail, htail, hlen⟩
  · refine ⟨_, keepTail_short hshort, ?_⟩
    rw [h.text]
    exact read_whole h.printed hitems (totalLine_oneLine h.size) (total_leaves h.reader _)
      h.quiet_trailer
  · by_cases hshort : utf8Len (combinedText output) ≤ 8000
    · refine ⟨_, keepTail_short hshort, ?_⟩
      rw [h.text]
      exact h.quiet.read_eq_nil List.suffix_rfl
    · refine ⟨_, (keepTail_long (Nat.not_le.mp hshort)).mpr ⟨tail, htail, hlen, rfl⟩, ?_⟩
      rw [readLog_cut h.reader]
      rw [h.text] at htail
      exact h.quiet.read_eq_nil htail

theorem Understood.noIdCut (h : Understood mark blocks output reclaimed)
    (hitems : ∀ b ∈ blocks, ∀ item ∈ b.items, mark item = .item) {log : Str}
    (hlog : combineStdoutStderr output = some log)
    (hread : (readLog mark log).length = (listed blocks).length) : NoIdCut blocks output := by
  by_cases hshort : utf8Len (combinedText output) ≤ 8000
  · exact .inl hshort
  · have hlong := Nat.not_le.mp hshort
    obtain ⟨tail, htail, hlen, rfl⟩ := (keepTail_long hlong).mp hlog
    refine .inr ⟨?_, tail, htail, hlen⟩
    by_contra hne
    rw [readLog_cut h.reader] at hread
    refine Nat.ne_of_lt (read_cut h.printed hitems hne (totalLine_oneLine h.size)
      (total_leaves h.reader _) h.quiet (h.text ▸ htail) ?_) hread
    intro hwhole
    rw [← h.text] at hwhole
    rw [← hwhole, hlen] at hlong
    exact Nat.lt_irrefl _ hlong

/-- A log from which as many items are read as there are, all of them among these, is one
in which every id is taken for an item and none is cut off. -/
theorem Understood.found_iff (h : Understood mark blocks output reclaimed)
    {found : List (κ × Str) → Prop} (hlisted : found (listed blocks))
    (hmem : ∀ items, found items → ∀ b ∈ blocks, ∀ item ∈ b.items, ∃ k, (k, item) ∈ items)
    (hlength : ∀ items, found items → items.length = (listed blocks).length) :
    (∃ log, combineStdoutStderr output = some log ∧ found (readLog mark log)) ↔
      (∀ b ∈ blocks, ∀ item ∈ b.items, mark item = .item) ∧ NoIdCut blocks output := by
  constructor
  · intro hfound
    obtain ⟨log, hlog, hfound⟩ := hfound
    have hitems : ∀ b ∈ blocks, ∀ item ∈ b.items, mark item = .item := by
      intro b hb item hitem
      obtain ⟨k, hk⟩ := hmem _ hfound b hb item hitem
      exact mark_of_mem_read hk
    exact ⟨hitems, h.noIdCut hitems hlog (hlength _ hfound)⟩
  · intro hreported
    obtain ⟨log, hlog, hread⟩ := h.read_log hreported.1 hreported.2
    refine ⟨log, hlog, ?_⟩
    rw [hread]
    exact hlisted

end Log

/-! ## What is reported -/

theorem under_named (k k' : Section) (items : List Str) :
    under k (items.map fun item => (k', item)) = if k' = k then items else [] := by
  induction items with
  | nil => exact (ite_self []).symm
  | cons item items ih =>
      rw [List.map_cons, ← List.singleton_append, under_append, ih]
      by_cases hk : k' = k
      · simp [under, hk]
      · simp [under, hk]

theorem under_listed (sections : List PrunedSection) (k : Section) :
    under k (listed (sections.map PrunedSection.block)) = removedIds sections k := by
  induction sections with
  | nil => rfl
  | cons p sections ih =>
      rw [List.map_cons, listed_cons, under_append, ih, under_named, removedIds, removedIds,
        List.filter_cons]
      have hblock : p.block.name = p.kind ∧ p.block.items = p.ids.map PrunedId.text := ⟨rfl, rfl⟩
      rw [hblock.1, hblock.2]
      by_cases hkind : p.kind = k
      · rw [if_pos hkind, if_pos (decide_eq_true hkind)]
        rfl
      · rw [if_neg hkind, if_neg (by simpa using hkind)]
        rfl

theorem length_eq_under (items : List (Section × Str)) :
    items.length = (under .containers items).length + (under .images items).length +
      (under .networks items).length + (under .volumes items).length := by
  induction items with
  | nil => rfl
  | cons p items ih =>
      obtain ⟨k, l⟩ := p
      rw [List.length_cons, ih]
      cases k <;> simp [under] <;> omega

theorem pruneMark_item {l : Str} (hne : l ≠ []) :
    pruneMark l = .item ↔ headed l = none ∧ totalHeader.isPrefixOf l = false := by
  unfold pruneMark
  cases headed l with
  | some k => simp
  | none =>
      cases totalHeader.isPrefixOf l with
      | true => simp
      | false => simp [hne]

theorem volumeMark_item {l : Str} (hne : l ≠ []) :
    volumeMark l = .item ↔
      "Deleted Volumes".toList.isPrefixOf l = false ∧ totalHeader.isPrefixOf l = false := by
  unfold volumeMark
  cases "Deleted Volumes".toList.isPrefixOf l with
  | true => simp
  | false =>
      cases totalHeader.isPrefixOf l with
      | true => simp
      | false => simp [hne]

variable {run : CommandLine → Except Str Output} {output : Output} {reclaimed : Str}

theorem systemPruneApply_removed {volumes : Bool}
    (hrun : run (Docker.systemPruneApply volumes) = .ok output)
    {removed : Section → List Str} :
    (∃ out, systemPruneApply parseDockerSize run volumes = some out ∧
        ∀ k, out.removed k = removed k) ↔
      ∃ log, combineStdoutStderr output = some log ∧
        ∀ k, under k (readLog pruneMark log) = removed k := by
  unfold systemPruneApply
  rw [hrun]
  dsimp only
  cases combineStdoutStderr output with
  | none => exact ⟨fun h => absurd h.choose_spec.1 nofun, fun h => absurd h.choose_spec.1 nofun⟩
  | some log =>
      have hremoved := fun k => foldl_pruneLine parseDockerSize (lines log) none
        { success := output.success, log,
          error := if output.success then none
            else some ("docker system prune exit ".toList ++ LogSources.debugCode output.code) } k
      constructor
      · intro h
        obtain ⟨out, hout, h⟩ := h
        cases hout
        refine ⟨log, rfl, fun k => ?_⟩
        rw [← h k, hremoved k]
        cases k <;> rfl
      · intro h
        obtain ⟨_, hlog, h⟩ := h
        cases hlog
        refine ⟨_, rfl, fun k => ?_⟩
        rw [← h k, hremoved k]
        cases k <;> rfl

theorem pruneVolumes_removed (hrun : run Docker.pruneVolumes = .ok output)
    (hsuccess : output.success = true) {removed : List Str} :
    (∃ out, pruneVolumes parseDockerSize run = some out ∧ out.removed = removed) ↔
      ∃ log, combineStdoutStderr output = some log ∧
        (readLog volumeMark log).map Prod.snd = removed := by
  unfold pruneVolumes
  rw [hrun]
  dsimp only
  cases combineStdoutStderr output with
  | none => exact ⟨fun h => absurd h.choose_spec.1 nofun, fun h => absurd h.choose_spec.1 nofun⟩
  | some log =>
      have hremoved := foldl_volumeLine parseDockerSize (lines log) false [] 0
      rw [List.nil_append] at hremoved
      rw [hsuccess]
      constructor
      · intro h
        obtain ⟨out, hout, h⟩ := h
        cases hout
        exact ⟨log, rfl, hremoved.symm.trans h⟩
      · intro h
        obtain ⟨_, hlog, h⟩ := h
        cases hlog
        exact ⟨_, rfl, hremoved.trans h⟩

theorem understood_prune {sections : List PrunedSection}
    (hsize : ∀ c ∈ reclaimed, isWhitespace c = false)
    (hstdout : fromUtf8Lossy output.stdout = printout sections reclaimed)
    (hstderr : ∀ k : Section, ¬k.header <:+: fromUtf8Lossy output.stderr) :
    Understood pruneMark (sections.map PrunedSection.block) output reclaimed where
  reader := reader_prune
  printed := printed_prune sections
  size := hsize
  text := combinedText_printout hstdout
  quiet piece hpiece k hmark := by
    have hheader : k.header <:+: totalLine reclaimed ++ '\n' :: trailer output := by
      rw [← pruneMark_enter hmark]
      exact (infix_trim piece).trans hpiece
    have hnot := hstderr k
    cases k <;> exact not_infix_trailer hsize (by decide) (by decide) hnot hheader

theorem understood_volumes {ids : List PrunedId}
    (hsize : ∀ c ∈ reclaimed, isWhitespace c = false)
    (hstdout : fromUtf8Lossy output.stdout = printout (volumeSections ids) reclaimed)
    (hstderr : ¬"Deleted Volumes".toList <:+: fromUtf8Lossy output.stderr) :
    Understood volumeMark (volumeBlocks ids) output reclaimed where
  reader := reader_volumes
  printed := printed_volumes ids
  size := hsize
  text := by
    rw [volumeBlocks_lines]
    exact combinedText_printout hstdout
  quiet piece hpiece k hmark :=
    not_infix_trailer hsize (by decide) (by decide) hstderr
      (((volumeMark_enter hmark).isInfix.trans (infix_trim piece)).trans hpiece)

theorem mem_under {k : Section} {items : List (Section × Str)} {l : Str} (h : l ∈ under k items) :
    (k, l) ∈ items := by
  obtain ⟨p, hp, rfl⟩ := List.mem_map.mp h
  obtain ⟨hmem, hkind⟩ := List.mem_filter.mp hp
  rw [← of_decide_eq_true hkind]
  exact hmem

/-- No id of a system prune reads like a header or the total, and none is lost with the
beginning of the text. -/
def Reported (sections : List PrunedSection) (output : Output) : Prop :=
  (∀ p ∈ sections, ∀ id ∈ p.ids,
    headed id.text = none ∧ totalHeader.isPrefixOf id.text = false) ∧
  (utf8Len (combinedText output) ≤ 8000 ∨ sections = [] ∧ CutsAt (combinedText output) 8000)

/-- The same of a volume prune. -/
def VolumesReported (ids : List PrunedId) (output : Output) : Prop :=
  (∀ id ∈ ids, "Deleted Volumes".toList.isPrefixOf id.text = false ∧
    totalHeader.isPrefixOf id.text = false) ∧
  (utf8Len (combinedText output) ≤ 8000 ∨ ids = [] ∧ CutsAt (combinedText output) 8000)

theorem items_of_sections {sections : List PrunedSection} :
    (∀ b ∈ sections.map PrunedSection.block, ∀ item ∈ b.items, pruneMark item = .item) ↔
      ∀ p ∈ sections, ∀ id ∈ p.ids,
        headed id.text = none ∧ totalHeader.isPrefixOf id.text = false := by
  constructor
  · intro h p hp id hid
    exact (pruneMark_item id.nonempty).mp
      (h p.block (List.mem_map_of_mem hp) id.text (List.mem_map_of_mem hid))
  · intro h b hb item hitem
    obtain ⟨p, hp, rfl⟩ := List.mem_map.mp hb
    obtain ⟨id, hid, rfl⟩ := List.mem_map.mp hitem
    exact (pruneMark_item id.nonempty).mpr (h p hp id hid)

theorem system_reported {volumes : Bool} {sections : List PrunedSection}
    (hunderstood : Understood pruneMark (sections.map PrunedSection.block) output reclaimed)
    (hrun : run (Docker.systemPruneApply volumes) = .ok output) :
    (∃ out, systemPruneApply parseDockerSize run volumes = some out ∧
      ∀ k, out.removed k = removedIds sections k) ↔ Reported sections output := by
  have hmem : ∀ items : List (Section × Str), (∀ k, under k items = removedIds sections k) →
      ∀ b ∈ sections.map PrunedSection.block, ∀ item ∈ b.items, ∃ k, (k, item) ∈ items := by
    intro items hremoved b hb item hitem
    obtain ⟨p, hp, rfl⟩ := List.mem_map.mp hb
    refine ⟨p.kind, mem_under ?_⟩
    rw [hremoved]
    exact List.mem_flatMap.mpr ⟨p, List.mem_filter.mpr ⟨hp, decide_eq_true rfl⟩, hitem⟩
  have hlength : ∀ items : List (Section × Str), (∀ k, under k items = removedIds sections k) →
      items.length = (listed (sections.map PrunedSection.block)).length := by
    intro items hremoved
    simp only [length_eq_under, hremoved, under_listed]
  rw [systemPruneApply_removed parseDockerSize hrun,
    hunderstood.found_iff (under_listed sections) hmem hlength, items_of_sections, NoIdCut,
    List.map_eq_nil_iff, Reported]

theorem items_of_volumes {ids : List PrunedId} :
    (∀ b ∈ volumeBlocks ids, ∀ item ∈ b.items, volumeMark item = .item) ↔
      ∀ id ∈ ids, "Deleted Volumes".toList.isPrefixOf id.text = false ∧
        totalHeader.isPrefixOf id.text = false := by
  constructor
  · intro h id hid
    have hblock : (⟨(), Section.volumes.header, ids.map PrunedId.text⟩ : Block Unit) ∈
        volumeBlocks ids := by
      rw [volumeBlocks, if_neg (List.ne_nil_of_mem hid)]
      exact List.mem_singleton_self _
    exact (volumeMark_item id.nonempty).mp (h _ hblock id.text (List.mem_map_of_mem hid))
  · intro h b hb item hitem
    obtain ⟨_, rfl⟩ := volumeBlocks_cases hb
    obtain ⟨id, hid, rfl⟩ := List.mem_map.mp hitem
    exact (volumeMark_item id.nonempty).mpr (h id hid)

theorem volumes_reported {ids : List PrunedId}
    (hunderstood : Understood volumeMark (volumeBlocks ids) output reclaimed)
    (hrun : run Docker.pruneVolumes = .ok output) (hsuccess : output.success = true) :
    (∃ out, pruneVolumes parseDockerSize run = some out ∧
      out.removed = ids.map PrunedId.text) ↔ VolumesReported ids output := by
  have hmem : ∀ items : List (Unit × Str), items.map Prod.snd = ids.map PrunedId.text →
      ∀ b ∈ volumeBlocks ids, ∀ item ∈ b.items, ∃ k, (k, item) ∈ items := by
    intro items hremoved b hb item hitem
    obtain ⟨_, rfl⟩ := volumeBlocks_cases hb
    rw [← hremoved] at hitem
    obtain ⟨p, hp, rfl⟩ := List.mem_map.mp hitem
    exact ⟨p.1, hp⟩
  have hlength : ∀ items : List (Unit × Str), items.map Prod.snd = ids.map PrunedId.text →
      items.length = (listed (volumeBlocks ids)).length := by
    intro items hremoved
    have hlengths := congrArg List.length (hremoved.trans (listed_volumeBlocks ids).symm)
    rwa [List.length_map, List.length_map] at hlengths
  rw [pruneVolumes_removed parseDockerSize hrun hsuccess,
    hunderstood.found_iff (listed_volumeBlocks ids) hmem hlength, items_of_volumes, NoIdCut,
    volumeBlocks_eq_nil, VolumesReported]

/-- What both report is what was printed exactly where no id reads like a header or the
total, and no id is lost with the beginning of the text. -/
theorem pruned_reported_iff (run : CommandLine → Except Str Output) (output : Output)
    (reclaimed : Str) (hsize : ∀ c ∈ reclaimed, isWhitespace c = false)
    (hsuccess : output.success = true) :
    (∀ volumes sections, run (Docker.systemPruneApply volumes) = .ok output →
      fromUtf8Lossy output.stdout = printout sections reclaimed →
      (∀ k : Section, ¬k.header <:+: fromUtf8Lossy output.stderr) →
      ((∃ out, systemPruneApply parseDockerSize run volumes = some out ∧
          ∀ k, out.removed k = removedIds sections k) ↔ Reported sections output)) ∧
    ∀ ids, run Docker.pruneVolumes = .ok output →
      fromUtf8Lossy output.stdout = printout (volumeSections ids) reclaimed →
      ¬"Deleted Volumes".toList <:+: fromUtf8Lossy output.stderr →
      ((∃ out, pruneVolumes parseDockerSize run = some out ∧
          out.removed = ids.map PrunedId.text) ↔ VolumesReported ids output) :=
  ⟨fun _ _ hrun hstdout hstderr =>
      system_reported parseDockerSize (understood_prune hsize hstdout hstderr) hrun,
    fun _ hrun hstdout hstderr =>
      volumes_reported parseDockerSize (understood_volumes hsize hstdout hstderr) hrun hsuccess⟩

/-! ## Few volumes, and many -/

def nthVolume (n : Nat) : PrunedId where
  text := 'v' :: decimal n
  nonempty := nofun
  trimmed := by
    refine trim_eq_self fun c hc => ?_
    cases List.mem_cons.mp hc with
    | inl hv =>
        rw [hv]
        decide
    | inr hdigit => exact isWhitespace_of_isDigit (isDigit_of_mem_decimal hdigit)
  oneLine := by
    intro hmem
    cases List.mem_cons.mp hmem with
    | inl hv => exact absurd hv (by decide)
    | inr hdigit => exact absurd (isDigit_of_mem_decimal hdigit) (by decide)

/-- What a volume prune prints that has removed the volumes `v0`, `v1` and so on. -/
def manyVolumes (n : Nat) : List PrunedId := (List.range n).map nthVolume

def pruneOutput (n : Nat) : Output :=
  ⟨some 0, toUtf8 (printout (volumeSections (manyVolumes n)) "0B".toList), []⟩

theorem stdout_pruneOutput (n : Nat) :
    fromUtf8Lossy (pruneOutput n).stdout =
      printout (volumeSections (manyVolumes n)) "0B".toList := fromUtf8Lossy_encoded _

theorem long_pruneOutput {n : Nat} (hn : 8000 ≤ n) :
    8000 < utf8Len (combinedText (pruneOutput n)) := by
  have hne : manyVolumes n ≠ [] := by
    intro hnil
    have hlength := congrArg List.length hnil
    rw [manyVolumes, List.length_map, List.length_range, List.length_nil] at hlength
    omega
  have hlines : ∀ ls : List Str, ls.length ≤ utf8Len (unlines ls) := by
    intro ls
    induction ls with
    | nil => exact Nat.le_refl _
    | cons line ls ih =>
        rw [unlines, List.flatMap_cons, utf8Len_append, utf8Len_append, List.length_cons]
        have hfeed : utf8Len ['\n'] = 1 := by decide
        have hrest : utf8Len (ls.flatMap (· ++ ['\n'])) = utf8Len (unlines ls) := rfl
        omega
  have hcount := hlines ((volumeBlocks (manyVolumes n)).flatMap Block.lines)
  rw [volumeBlocks, if_neg hne] at hcount
  simp only [List.flatMap_singleton, Block.lines, List.cons_append, List.length_cons,
    List.length_append, List.length_map, manyVolumes, List.length_range] at hcount
  rw [combinedText_printout (stdout_pruneOutput n), ← volumeBlocks_lines, utf8Len_append,
    volumeBlocks, if_neg hne]
  simp only [List.flatMap_singleton, Block.lines, List.cons_append, manyVolumes]
  omega

theorem silent_pruneOutput (n : Nat) (k : Section) :
    ¬k.header <:+: fromUtf8Lossy (pruneOutput n).stderr := by
  intro hheader
  have hnil := List.infix_nil.mp hheader
  cases k <;> cases hnil

/-- Two containers, a network and two volumes. -/
def printedSections : List PrunedSection :=
  [⟨.containers, [⟨"3f2a9c".toList, nofun, by decide, by decide⟩,
      ⟨"77b01e".toList, nofun, by decide, by decide⟩], nofun⟩,
    ⟨.networks, [⟨"web_default".toList, nofun, by decide, by decide⟩], nofun⟩,
    ⟨.volumes, [nthVolume 0, nthVolume 1], nofun⟩]

def systemOutput : Output :=
  ⟨some 0, toUtf8 (printout printedSections "12.5MB".toList), []⟩

theorem silent_systemOutput (k : Section) : ¬k.header <:+: fromUtf8Lossy systemOutput.stderr := by
  intro hheader
  have hnil := List.infix_nil.mp hheader
  cases k <;> cases hnil

theorem pruned_reported_sections :
    (∃ out, systemPruneApply (fun _ => 0) (fun _ => .ok systemOutput) true = some out ∧
      out.containersRemoved = ["3f2a9c".toList, "77b01e".toList] ∧ out.imagesRemoved = [] ∧
      out.networksRemoved = ["web_default".toList] ∧
      out.volumesRemoved = ["v0".toList, "v1".toList]) ∧
    ∃ out, pruneVolumes (fun _ => 0) (fun _ => .ok (pruneOutput 2)) = some out ∧
      out.removed = ["v0".toList, "v1".toList] := by
  constructor
  · have hstdout : fromUtf8Lossy systemOutput.stdout =
        printout printedSections "12.5MB".toList := fromUtf8Lossy_encoded _
    have hshort : utf8Len (combinedText systemOutput) ≤ 8000 := by
      rw [combinedText_printout hstdout]
      decide +kernel
    have hreported : Reported printedSections systemOutput := ⟨by decide, .inl hshort⟩
    obtain ⟨out, hout, hremoved⟩ := ((pruned_reported_iff (fun _ => 0) (fun _ => .ok systemOutput)
      systemOutput "12.5MB".toList (List.all_iff_forall_prop.mp (by decide)) (by decide)).1 true _
      rfl hstdout silent_systemOutput).mpr hreported
    exact ⟨out, hout, hremoved .containers, hremoved .images, hremoved .networks,
      hremoved .volumes⟩
  · have hshort : utf8Len (combinedText (pruneOutput 2)) ≤ 8000 := by
      rw [combinedText_printout (stdout_pruneOutput 2)]
      decide
    have hreported : VolumesReported (manyVolumes 2) (pruneOutput 2) := ⟨by decide, .inl hshort⟩
    have hstderr : ¬"Deleted Volumes".toList <:+: fromUtf8Lossy (pruneOutput 2).stderr := by
      intro hheader
      cases List.infix_nil.mp hheader
    exact ((pruned_reported_iff (fun _ => 0) (fun _ => .ok (pruneOutput 2)) (pruneOutput 2)
      "0B".toList (List.all_iff_forall_prop.mp (by decide)) (by decide)).2 _ rfl
      (stdout_pruneOutput 2) hstderr).mpr hreported

/-- The output of a prune of 8000 volumes is cut behind its only header. -/
theorem pruned_volumes_lost :
    fromUtf8Lossy (pruneOutput 8000).stdout =
        printout (volumeSections (manyVolumes 8000)) "0B".toList ∧
      (pruneOutput 8000).stderr = [] ∧
      (∀ size : Str → Nat,
        ¬∃ out, systemPruneApply size (fun _ => .ok (pruneOutput 8000)) true = some out ∧
          ∀ k, out.removed k = removedIds (volumeSections (manyVolumes 8000)) k) ∧
      ∀ size : Str → Nat, ¬∃ out, pruneVolumes size (fun _ => .ok (pruneOutput 8000)) = some out ∧
        out.removed = (manyVolumes 8000).map PrunedId.text := by
  have hlong := long_pruneOutput (Nat.le_refl 8000)
  have hsize : ∀ c ∈ "0B".toList, isWhitespace c = false :=
    List.all_iff_forall_prop.mp (by decide)
  have hmany : manyVolumes 8000 ≠ [] := by
    intro hnil
    have hrange := List.map_eq_nil_iff.mp hnil
    exact absurd (List.range_eq_nil.mp hrange) (by decide)
  refine ⟨stdout_pruneOutput _, rfl, fun size h => ?_, fun size h => ?_⟩
  · have hunderstood := understood_prune hsize (stdout_pruneOutput 8000) (silent_pruneOutput 8000)
    rcases ((system_reported size hunderstood rfl).mp h).2 with hshort | hnone
    · exact absurd hshort (Nat.not_le.mpr hlong)
    · have hsections := hnone.1
      unfold volumeSections at hsections
      rw [dif_neg hmany] at hsections
      cases hsections
  · have hstderr : ¬"Deleted Volumes".toList <:+: fromUtf8Lossy (pruneOutput 8000).stderr := by
      intro hheader
      cases List.infix_nil.mp hheader
    have hunderstood := understood_volumes hsize (stdout_pruneOutput 8000) hstderr
    rcases ((volumes_reported size hunderstood rfl rfl).mp h).2 with hshort | hnone
    · exact absurd hshort (Nat.not_le.mpr hlong)
    · exact hmany hnone.1

end ShellfleetAgent.Agent.Prune
