import Mathlib.Data.Bool.AllAny
import ShellfleetAgent.Agent.AptList

/-!
# What apt prints of its upgrades

A line is read word by word, so it does not matter how wide the gaps between its words
are; and the words behind the architecture are put together again with single spaces,
whatever was between them.
-/

namespace ShellfleetAgent.Agent.AptList

open ShellfleetAgent.Lib Text

/-! ## Packages and their lines -/

structure Package where
  name : Str
  source : Str
  version : Str
  arch : Str
  old : Str
  name_word : IsWord isWhitespace name
  name_plain : '/' ∉ name
  name_line : ¬"Listing".toList <+: name ∧ ¬"WARNING".toList <+: name
  source_word : IsWord isWhitespace source
  version_word : IsWord isWhitespace version
  arch_word : IsWord isWhitespace arch
  old_word : IsWord isWhitespace old
  old_open : ']' ∉ old

def Package.upgradable (p : Package) : AptUpgradable := ⟨p.name, p.old, p.version, p.source⟩

/-- White space within a line. -/
structure Blank where
  text : Str
  gap : IsGap isWhitespace text
  oneLine : '\n' ∉ text

structure Padding extends Blank where
  some_text : text ≠ []

/-- The line of a package, with any padding between its words and around it. -/
structure PackageLine where
  package : Package
  before : Blank
  sourceGap : Padding
  versionGap : Padding
  archGap : Padding
  upgradableGap : Padding
  fromGap : Padding
  behind : Blank

def PackageLine.words (l : PackageLine) : List (Str × Str) :=
  [(l.package.name ++ '/' :: l.package.source, l.sourceGap.text),
    (l.package.version, l.versionGap.text), (l.package.arch, l.archGap.text),
    ("[upgradable".toList, l.upgradableGap.text), ("from:".toList, l.fromGap.text)]

/-- The word that ends the line. -/
def PackageLine.last (l : PackageLine) : Str := l.package.old ++ [']']

def PackageLine.text (l : PackageLine) : Str :=
  l.before.text ++ (spread l.words ++ (l.last ++ l.behind.text))

inductive Row
  | blank (b : Blank)
  | package (line : PackageLine)

def Row.text : Row → Str
  | .blank b => b.text
  | .package line => line.text

def Row.package? : Row → Option Package
  | .blank _ => none
  | .package line => some line.package

/-- What apt prints: a header, a line for each package, and blank lines anywhere. -/
structure Listing where
  before : List Blank
  header : Str
  rows : List Row
  header_line : '\n' ∉ header

def Listing.lines (l : Listing) : List Str :=
  l.before.map Blank.text ++ ("Listing...".toList ++ l.header) :: l.rows.map Row.text

/-- With or without a line feed at the end. -/
def Listing.text (l : Listing) (closed : Bool) : Str :=
  if closed then unlines l.lines else (unlines l.lines).dropLast

def Listing.packages (l : Listing) : List Package := l.rows.filterMap Row.package?

/-! ## One line -/

theorem aptLine_eq (line : Str) :
    aptLine line =
      if "Listing".toList.isPrefixOf line ∨ "WARNING".toList.isPrefixOf line then none
      else aptWords (splitWhitespace line) := by
  unfold aptLine
  by_cases hempty : line = []
  · subst hempty
    rw [if_pos (.inl rfl), splitWhitespace, wordsOf_nil]
    exact (ite_self none).symm
  · simp only [hempty, false_or]

theorem isPrefixOf_stripCr {start line : Str} (hstart : start.getLast? ≠ some '\r') :
    start.isPrefixOf (stripCr line) = start.isPrefixOf line := by
  rw [Bool.eq_iff_iff, List.isPrefixOf_iff_prefix, List.isPrefixOf_iff_prefix]
  unfold stripCr
  split
  · next hlast =>
      obtain ⟨front, rfl⟩ := List.getLast?_eq_some_iff.mp hlast
      rw [List.dropLast_concat, List.prefix_concat_iff]
      refine ⟨.inr, fun h => h.resolve_left fun heq => hstart ?_⟩
      rw [heq, List.getLast?_concat]
  · exact Iff.rfl

theorem splitWhitespace_stripCr (line : Str) :
    splitWhitespace (stripCr line) = splitWhitespace line := by
  unfold stripCr
  split
  · next hlast =>
      obtain ⟨front, rfl⟩ := List.getLast?_eq_some_iff.mp hlast
      have hgap : IsGap isWhitespace ['\r'] := List.forall_mem_singleton.mpr rfl
      rw [List.dropLast_concat]
      exact (wordsOf_append_gap hgap).symm
  · rfl

theorem aptLine_stripCr (line : Str) : aptLine (stripCr line) = aptLine line := by
  rw [aptLine_eq, aptLine_eq, splitWhitespace_stripCr, isPrefixOf_stripCr (by decide),
    isPrefixOf_stripCr (by decide)]

theorem aptLine_header (header : Str) : aptLine ("Listing...".toList ++ header) = none := by
  have hstart : "Listing".toList <+: "Listing...".toList ++ header :=
    List.IsPrefix.trans (by decide) (List.prefix_append _ _)
  rw [aptLine_eq, if_pos (.inl (List.isPrefixOf_iff_prefix.mpr hstart))]

theorem aptLine_blank (b : Blank) : aptLine b.text = none := by
  have hwords : splitWhitespace (b.text ++ []) = splitWhitespace [] := wordsOf_gap b.gap
  rw [List.append_nil] at hwords
  rw [aptLine_eq, hwords, splitWhitespace, wordsOf_nil]
  exact ite_self none

/-- The old version comes out of its brackets. -/
theorem versionBefore_bracket {old : Str} (hword : IsWord isWhitespace old) (hopen : ']' ∉ old) :
    versionBefore ["[upgradable".toList, "from:".toList, old ++ [']']] = old := by
  have hjoined : [' '].intercalate ["[upgradable".toList, "from:".toList, old ++ [']']] =
      '[' :: ("upgradable from: ".toList ++ (old ++ [']'])) := by
    simp [List.intercalate]
  have hbehind : findBehind "upgradable from: ".toList
      ('[' :: ("upgradable from: ".toList ++ (old ++ [']']))) = some (old ++ [']']) :=
    Eq.trans (findBehind_later (by decide)) (findBehind_here (by decide) _)
  have hbracket : trimEndMatches (· = ']') (old ++ [']']) = old := by
    rw [trimEndMatches_append (List.forall_mem_singleton.mpr rfl), trimEndMatches]
    have hkeep : old.reverse.dropWhile (· = ']') = old.reverse := by
      cases hreverse : old.reverse with
      | nil => rfl
      | cons c front =>
          have hc : c ≠ ']' := by
            rintro rfl
            exact hopen (List.mem_reverse.mp (by rw [hreverse]; exact List.mem_cons_self ..))
          rw [List.dropWhile_cons, if_neg (by simpa using hc)]
    rw [hkeep, List.reverse_reverse]
  unfold versionBefore
  dsimp only
  rw [hjoined, hbehind]
  dsimp only
  rw [hbracket, trim_eq_self hword.2]

namespace PackageLine

variable (l : PackageLine)

theorem words_spread : ∀ e ∈ l.words,
    IsWord isWhitespace e.1 ∧ IsGap isWhitespace e.2 ∧ e.2 ≠ [] := by
  have hsource : IsWord isWhitespace (l.package.name ++ '/' :: l.package.source) := by
    refine ⟨by simp, fun c hc => ?_⟩
    rcases List.mem_append.mp hc with hname | hsource
    · exact l.package.name_word.2 c hname
    · rcases List.mem_cons.mp hsource with rfl | hsource
      · decide
      · exact l.package.source_word.2 c hsource
  have hliteral : IsWord isWhitespace "[upgradable".toList ∧ IsWord isWhitespace "from:".toList :=
    ⟨⟨by decide, List.all_iff_forall_prop.mp (by decide)⟩,
      ⟨by decide, List.all_iff_forall_prop.mp (by decide)⟩⟩
  have hgap : ∀ g : Padding, IsGap isWhitespace g.text ∧ g.text ≠ [] :=
    fun g => ⟨g.gap, g.some_text⟩
  refine List.forall_mem_cons.mpr ⟨⟨hsource, hgap _⟩, ?_⟩
  refine List.forall_mem_cons.mpr ⟨⟨l.package.version_word, hgap _⟩, ?_⟩
  refine List.forall_mem_cons.mpr ⟨⟨l.package.arch_word, hgap _⟩, ?_⟩
  refine List.forall_mem_cons.mpr ⟨⟨hliteral.1, hgap _⟩, ?_⟩
  exact List.forall_mem_singleton.mpr ⟨hliteral.2, hgap _⟩

theorem last_word : IsWord isWhitespace l.last := by
  refine ⟨by simp [last], fun c hc => ?_⟩
  rcases List.mem_append.mp hc with hold | hbracket
  · exact l.package.old_word.2 c hold
  · rw [List.mem_singleton.mp hbracket]
    decide

theorem splitWhitespace_text : splitWhitespace l.text = l.words.map Prod.fst ++ [l.last] := by
  rw [splitWhitespace, text, wordsOf_gap l.before.gap, wordsOf_spread l.words_spread,
    wordsOf_append_gap l.behind.gap, wordsOf_word l.last_word]

/-- What the line begins with is in the name, or begins with a blank. -/
theorem start_text {start : Str} (hne : start ≠ []) (hstart : ∀ c ∈ start, isWhitespace c = false)
    (hslash : '/' ∉ start) (h : start <+: l.text) : start <+: l.package.name := by
  have hbefore : l.before.text = [] := by
    cases hblank : l.before.text with
    | nil => rfl
    | cons c blank =>
        obtain ⟨d, start, rfl⟩ := List.exists_cons_of_ne_nil hne
        rw [text, hblank, List.cons_append] at h
        have hc := l.before.gap c (by rw [hblank]; exact List.mem_cons_self ..)
        rw [← (List.cons_prefix_cons.mp h).1, hstart d (List.mem_cons_self ..)] at hc
        cases hc
  obtain ⟨more, hmore⟩ : ∃ more, l.text = l.package.name ++ '/' :: more := by
    refine ⟨l.package.source ++ (l.sourceGap.text ++
      (spread l.words.tail ++ (l.last ++ l.behind.text))), ?_⟩
    simp [text, hbefore, words, spread]
  rw [hmore] at h
  rcases List.prefix_or_prefix_of_prefix h (List.prefix_append _ _) with hname | hname
  · exact hname
  · obtain ⟨later, rfl⟩ := hname
    have hlater := (List.prefix_append_right_inj _).mp h
    cases later with
    | nil => rw [List.append_nil]
    | cons c later =>
        rw [(List.cons_prefix_cons.mp hlater).1] at hslash
        exact absurd (List.mem_append_right _ (List.mem_cons_self ..)) hslash

theorem aptLine_text : aptLine l.text = some l.package.upgradable := by
  have hlisting : ¬"Listing".toList.isPrefixOf l.text = true := fun h =>
    l.package.name_line.1 (l.start_text (by decide)
      (List.all_iff_forall_prop.mp (by decide)) (by decide) (List.isPrefixOf_iff_prefix.mp h))
  have hwarning : ¬"WARNING".toList.isPrefixOf l.text = true := fun h =>
    l.package.name_line.2 (l.start_text (by decide)
      (List.all_iff_forall_prop.mp (by decide)) (by decide) (List.isPrefixOf_iff_prefix.mp h))
  have hversion : versionBefore ["[upgradable".toList, "from:".toList, l.last] = l.package.old :=
    versionBefore_bracket l.package.old_word l.package.old_open
  rw [aptLine_eq, if_neg (not_or.mpr ⟨hlisting, hwarning⟩), splitWhitespace_text]
  show aptWords ((l.package.name ++ '/' :: l.package.source) :: l.package.version ::
    l.package.arch :: ["[upgradable".toList, "from:".toList, l.last]) = _
  unfold aptWords
  dsimp only
  rw [List.drop_one, List.tail_cons, hversion, splitTwo_append l.package.name_plain]
  exact if_neg l.package.name_word.1

theorem oneLine : '\n' ∉ l.text := by
  have hgaps : ∀ e ∈ l.words, '\n' ∉ e.2 := by
    refine List.forall_mem_cons.mpr ⟨l.sourceGap.oneLine, ?_⟩
    refine List.forall_mem_cons.mpr ⟨l.versionGap.oneLine, ?_⟩
    refine List.forall_mem_cons.mpr ⟨l.archGap.oneLine, ?_⟩
    refine List.forall_mem_cons.mpr ⟨l.upgradableGap.oneLine, ?_⟩
    exact List.forall_mem_singleton.mpr l.fromGap.oneLine
  intro hmem
  rcases List.mem_append.mp hmem with hbefore | hmem
  · exact l.before.oneLine hbefore
  · rcases List.mem_append.mp hmem with hwords | hmem
    · refine not_mem_spread (fun e he => ?_) hwords
      exact ⟨(l.words_spread e he).1.not_mem rfl, hgaps e he⟩
    · rcases List.mem_append.mp hmem with hlast | hbehind
      · exact l.last_word.not_mem rfl hlast
      · exact l.behind.oneLine hbehind

end PackageLine

/-! ## The whole text -/

theorem aptLine_row (r : Row) : aptLine r.text = r.package?.map Package.upgradable := by
  cases r with
  | blank b => exact aptLine_blank b
  | package line => exact line.aptLine_text

theorem Listing.oneLine (l : Listing) : ∀ line ∈ l.lines, '\n' ∉ line := by
  intro line hline
  rcases List.mem_append.mp hline with hbefore | hline
  · obtain ⟨b, _, rfl⟩ := List.mem_map.mp hbefore
    exact b.oneLine
  · rcases List.mem_cons.mp hline with rfl | hrow
    · intro hmem
      rcases List.mem_append.mp hmem with hlisting | hheader
      · exact absurd hlisting (by decide)
      · exact l.header_line hheader
    · obtain ⟨r, _, rfl⟩ := List.mem_map.mp hrow
      cases r with
      | blank b => exact b.oneLine
      | package line => exact line.oneLine

theorem Listing.filterMap_lines (l : Listing) :
    l.lines.filterMap aptLine = l.packages.map Package.upgradable := by
  have hbefore : (l.before.map Blank.text).filterMap aptLine = [] := by
    refine List.filterMap_eq_nil_iff.mpr fun line hline => ?_
    obtain ⟨b, _, rfl⟩ := List.mem_map.mp hline
    exact aptLine_blank b
  rw [Listing.lines, List.filterMap_append, hbefore, List.nil_append,
    List.filterMap_cons_none (aptLine_header _), List.filterMap_map, packages, List.map_filterMap]
  exact List.filterMap_congr fun r _ => aptLine_row r

/-- A line is read alike with a carriage return before its line feed and without one. -/
theorem parseAptList_append {ls : List Str} {rest : Str} (h : ∀ line ∈ ls, '\n' ∉ line) :
    parseAptList (unlines ls ++ rest) = ls.filterMap aptLine ++ parseAptList rest := by
  rw [parseAptList, lines_unlines h, List.filterMap_append, List.filterMap_map]
  exact congrArg (· ++ _) (List.filterMap_congr fun line _ => aptLine_stripCr line)

theorem parseAptList_unlines {ls : List Str} (h : ∀ line ∈ ls, '\n' ∉ line) :
    parseAptList (unlines ls) = ls.filterMap aptLine := by
  have hlines : parseAptList (unlines ls ++ []) = _ ++ [] := parseAptList_append h
  rwa [List.append_nil, List.append_nil] at hlines

/-- A last line without a line feed. -/
theorem parseAptList_last {line : Str} (h : '\n' ∉ line) :
    parseAptList line = [line].filterMap aptLine := by
  rw [parseAptList, lines_last h]
  split
  · next hempty =>
      subst hempty
      rfl
  · rfl

/-- With or without its last line feed, the text is read line by line. -/
theorem parseAptList_text (l : Listing) (closed : Bool) :
    parseAptList (l.text closed) = l.lines.filterMap aptLine := by
  cases closed with
  | true => exact parseAptList_unlines l.oneLine
  | false =>
      obtain ⟨front, line, hlines⟩ : ∃ front line, l.lines = front ++ [line] :=
        ⟨_, _, (List.dropLast_append_getLast (by simp [Listing.lines])).symm⟩
      have htext : l.text false = unlines front ++ line := by
        simp [Listing.text, hlines, unlines]
      have hline := l.oneLine
      rw [hlines, List.forall_mem_append, List.forall_mem_singleton] at hline
      rw [htext, hlines, List.filterMap_append, parseAptList_append hline.1,
        parseAptList_last hline.2]

/-- The listing of a run of apt that went well is what its lines say. -/
theorem listUpgradable_listing {apt : List String → List (String × String) → Except Str Output}
    {output : Output} {l : Listing} {closed : Bool} (hrun : apt aptArgs aptEnv = .ok output)
    (hsuccess : output.success = true) (hstdout : fromUtf8Lossy output.stdout = l.text closed) :
    listUpgradable apt = .ok (l.packages.map Package.upgradable) := by
  rw [← l.filterMap_lines, ← parseAptList_text l closed, ← hstdout]
  unfold listUpgradable
  rw [hrun]
  show (if output.success = true then Except.ok (parseAptList (fromUtf8Lossy output.stdout))
    else _) = _
  rw [if_pos hsuccess]

/-- Every package, in the order of the lines, with what its line says of it. -/
theorem parse_listing (l : Listing) (closed : Bool) :
    parseAptList (l.text closed) = l.packages.map Package.upgradable := by
  rw [parseAptList_text, l.filterMap_lines]

def noBlank : Blank := ⟨[], List.forall_mem_nil _, List.not_mem_nil⟩

def space : Padding := ⟨⟨[' '], List.forall_mem_singleton.mpr rfl, by decide⟩, List.cons_ne_nil _ _⟩

def agentPackage : Package where
  name := "agent".toList
  source := "now".toList
  version := "1.1.0".toList
  arch := "amd64".toList
  old := "1.0.0".toList
  name_word := ⟨by decide, List.all_iff_forall_prop.mp (by decide)⟩
  name_plain := by decide
  name_line := ⟨by decide, by decide⟩
  source_word := ⟨by decide, List.all_iff_forall_prop.mp (by decide)⟩
  version_word := ⟨by decide, List.all_iff_forall_prop.mp (by decide)⟩
  arch_word := ⟨by decide, List.all_iff_forall_prop.mp (by decide)⟩
  old_word := ⟨by decide, List.all_iff_forall_prop.mp (by decide)⟩
  old_open := by decide

def opensslPackage : Package where
  name := "openssl".toList
  source := "stable,security".toList
  version := "3.0.15".toList
  arch := "arm64".toList
  old := "3.0.14".toList
  name_word := ⟨by decide, List.all_iff_forall_prop.mp (by decide)⟩
  name_plain := by decide
  name_line := ⟨by decide, by decide⟩
  source_word := ⟨by decide, List.all_iff_forall_prop.mp (by decide)⟩
  version_word := ⟨by decide, List.all_iff_forall_prop.mp (by decide)⟩
  arch_word := ⟨by decide, List.all_iff_forall_prop.mp (by decide)⟩
  old_word := ⟨by decide, List.all_iff_forall_prop.mp (by decide)⟩
  old_open := by decide

def indent : Blank := space.toBlank

def upgradesListing : Listing where
  before := []
  header := " Done".toList
  rows :=
    [.blank noBlank,
      .package ⟨opensslPackage, noBlank, space, space, space, space, space, noBlank⟩,
      .blank indent,
      .package ⟨agentPackage, indent, space, space, space, space, space, noBlank⟩]
  header_line := by decide

/-- Two packages and blank lines, the last line with no line feed. -/
theorem parse_upgradesListing :
    upgradesListing.text false =
      ("Listing... Done\n\n" ++
        "openssl/stable,security 3.0.15 arm64 [upgradable from: 3.0.14]\n \n" ++
        " agent/now 1.1.0 amd64 [upgradable from: 1.0.0]").toList ∧
    parseAptList (upgradesListing.text false) =
      [⟨"openssl".toList, "3.0.14".toList, "3.0.15".toList, "stable,security".toList⟩,
        ⟨"agent".toList, "1.0.0".toList, "1.1.0".toList, "now".toList⟩] :=
  ⟨by decide +kernel, parse_listing upgradesListing false⟩

end ShellfleetAgent.Agent.AptList
