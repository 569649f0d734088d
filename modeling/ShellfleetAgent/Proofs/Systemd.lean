import Mathlib.Data.Bool.AllAny
import ShellfleetAgent.Agent.Systemd
import ShellfleetAgent.Lib.Utf8

/-!
# The table of services and their JSON

A row of the table is split at its first four white-space characters. Padding of more
than one space costs a split for each further space, so the status is not split from
what follows it.
-/

namespace ShellfleetAgent.Agent.Systemd

open ShellfleetAgent.Lib Text

def IsWord (s : Str) : Prop := s ≠ [] ∧ ∀ c ∈ s, isWhitespace c = false

structure ServiceUnit where
  name : Str
  load : Str
  active : Str
  sub : Str
  description : Str
  dotted : '.' ∈ name
  load_word : IsWord load
  active_word : IsWord active
  sub_word : IsWord sub
  trimmed : trim description = description

/-- The row of a unit in JSON. -/
def ServiceUnit.row (u : ServiceUnit) : SystemctlJsonRow :=
  ⟨some u.name, some u.load, some u.active, some u.sub, some u.description⟩

def ServiceUnit.service (u : ServiceUnit) : ServiceInfo := ⟨u.name, u.description, u.sub, u.active⟩

/-- The row of a unit in the table, with how much padding is where, and behind the
bullet if there is one. -/
structure TableRow where
  unit : ServiceUnit
  indent : Nat
  bulletGap : Option Nat
  nameGap : Nat
  loadGap : Nat
  activeGap : Nat
  subGap : Nat
  padded : 0 < nameGap ∧ 0 < loadGap ∧ 0 < activeGap ∧ 0 < subGap

namespace TableRow

def leading (r : TableRow) : List (Str × Nat) :=
  [(r.unit.name, r.nameGap), (r.unit.load, r.loadGap), (r.unit.active, r.activeGap)]

/-- The status and the description, with the padding between them. -/
def ending (r : TableRow) : Str := Text.padded ' ' [(r.unit.sub, r.subGap)] r.unit.description

def marker (r : TableRow) : Str :=
  match r.bulletGap with
  | none => []
  | some gap => bullet :: List.replicate gap ' '

def line (r : TableRow) : Str :=
  List.replicate r.indent ' ' ++ (r.marker ++ Text.padded ' ' r.leading r.ending)

/-- A name that begins with a bullet is taken for one if no other stands before it. -/
def BulletApart (r : TableRow) : Prop :=
  r.unit.name.head? = some bullet → ∃ gap, r.bulletGap = some (gap + 1)

/-- One space between the columns, one word in the first, and one line. -/
structure Aligned (r : TableRow) : Prop where
  gaps : r.nameGap = 1 ∧ r.loadGap = 1 ∧ r.activeGap = 1
  bullet : r.BulletApart
  name : ∀ c ∈ r.unit.name, isWhitespace c = false
  description : '\n' ∉ r.unit.description

/-- The name as it is read. -/
def shown (r : TableRow) : Str :=
  match r.bulletGap with
  | some (_ + 1) => r.unit.name
  | _ => r.unit.name.dropWhile (· = Systemd.bullet)

variable {r : TableRow}

theorem shown_suffix (r : TableRow) : r.shown <:+ r.unit.name := by
  unfold shown
  split
  · exact List.suffix_rfl
  · exact List.dropWhile_suffix _

theorem dot_mem_dropWhile {s : Str} (h : '.' ∈ s) : '.' ∈ s.dropWhile (· = bullet) := by
  induction s with
  | nil => cases h
  | cons c s ih =>
      rw [List.dropWhile_cons]
      split
      · next hc =>
          cases List.mem_cons.mp h with
          | inl hdot =>
              rw [← hdot] at hc
              cases of_decide_eq_true hc
          | inr hlater => exact ih hlater
      · exact h

theorem dot_mem_shown (r : TableRow) : '.' ∈ r.shown := by
  unfold shown
  split
  · exact r.unit.dotted
  · exact dot_mem_dropWhile r.unit.dotted

theorem shown_eq_iff (r : TableRow) : r.shown = r.unit.name ↔ r.BulletApart := by
  unfold shown BulletApart
  split
  · next gap hgap => exact ⟨fun _ _ => ⟨gap, hgap⟩, fun _ => rfl⟩
  · next hgap =>
      constructor
      · intro heq hhead
        have hstop := List.head?_dropWhile_not (· = Systemd.bullet) r.unit.name
        rw [heq, hhead] at hstop
        cases hstop
      · intro hapart
        cases hname : r.unit.name with
        | nil => rfl
        | cons c name =>
            rw [List.dropWhile_cons]
            split
            · next hc =>
                rw [hname, of_decide_eq_true hc] at hapart
                obtain ⟨gap, hbullet⟩ := hapart rfl
                exact absurd hbullet (hgap gap)
            · rfl

/-! ## What is read of a row -/

theorem dropWhile_isWord {word rest : Str} (h : IsWord word) :
    (word ++ rest).dropWhile isWhitespace = word ++ rest := by
  obtain ⟨hne, hword⟩ := h
  obtain ⟨c, word, rfl⟩ := List.exists_cons_of_ne_nil hne
  rw [List.cons_append, List.dropWhile_cons, hword c (List.mem_cons_self ..)]
  rfl

theorem dropWhile_spaces (n : Nat) (rest : Str) :
    (List.replicate n ' ' ++ rest).dropWhile isWhitespace = rest.dropWhile isWhitespace :=
  List.dropWhile_append_of_pos fun c hc => by
    rw [(List.mem_replicate.mp hc).2]
    decide

theorem isWord_shown (hname : ∀ c ∈ r.unit.name, isWhitespace c = false) : IsWord r.shown :=
  ⟨List.ne_nil_of_mem (dot_mem_shown r), fun c hc => hname c ((shown_suffix r).subset hc)⟩

/-- The row without its indentation and its bullet. -/
def body (r : TableRow) : Str :=
  Text.padded ' ' [(r.shown, r.nameGap), (r.unit.load, r.loadGap), (r.unit.active, r.activeGap)]
    r.ending

def behindName (r : TableRow) : Str :=
  List.replicate r.nameGap ' ' ++
    Text.padded ' ' [(r.unit.load, r.loadGap), (r.unit.active, r.activeGap)] r.ending

theorem body_eq (r : TableRow) : r.body = r.shown ++ r.behindName := by
  rw [body, Text.padded, List.append_assoc]
  rfl

theorem padded_leading (r : TableRow) :
    Text.padded ' ' r.leading r.ending = r.unit.name ++ r.behindName := by
  rw [leading, Text.padded, List.append_assoc]
  rfl

theorem dropWhile_bullets {name rest : Str} (hdot : '.' ∈ name) :
    (name ++ rest).dropWhile (· = bullet) = name.dropWhile (· = bullet) ++ rest := by
  rw [List.dropWhile_append, if_neg]
  intro hempty
  have hmem := dot_mem_dropWhile hdot
  rw [List.isEmpty_iff.mp hempty] at hmem
  cases hmem

theorem stripBullet_line (hname : ∀ c ∈ r.unit.name, isWhitespace c = false) :
    stripBullet r.line = r.body := by
  have hword : IsWord r.unit.name := ⟨List.ne_nil_of_mem r.unit.dotted, hname⟩
  have hshown := isWord_shown hname
  have hbare : (r.unit.name ++ r.behindName).dropWhile (· = Systemd.bullet) =
      r.unit.name.dropWhile (· = Systemd.bullet) ++ r.behindName := dropWhile_bullets r.unit.dotted
  rw [body_eq, stripBullet, line, dropWhile_spaces, padded_leading]
  unfold marker
  unfold shown at hshown ⊢
  cases hgap : r.bulletGap with
  | none =>
      rw [hgap] at hshown
      rw [List.nil_append, dropWhile_isWord hword, hbare]
      exact dropWhile_isWord hshown
  | some gap =>
      have hbullet : ∀ s : Str, (Systemd.bullet :: s).dropWhile isWhitespace =
          Systemd.bullet :: s := fun s => by
        rw [List.dropWhile_cons]
        rfl
      have hstrip : ∀ s : Str, (Systemd.bullet :: s).dropWhile (· = Systemd.bullet) =
          s.dropWhile (· = Systemd.bullet) := fun s => by
        rw [List.dropWhile_cons]
        rfl
      rw [hgap] at hshown
      rw [List.cons_append, hbullet, hstrip]
      cases gap with
      | zero =>
          rw [List.replicate_zero, List.nil_append, hbare]
          exact dropWhile_isWord hshown
      | succ gap =>
          have hspace : (List.replicate (gap + 1) ' ' ++ (r.unit.name ++ r.behindName)).dropWhile
              (· = Systemd.bullet) =
                List.replicate (gap + 1) ' ' ++ (r.unit.name ++ r.behindName) := by
            rw [List.replicate_succ, List.cons_append, List.dropWhile_cons]
            rfl
          rw [hspace, dropWhile_spaces]
          exact dropWhile_isWord hword

/-- The columns as they are split. -/
def pieces (r : TableRow) : List Str := columns isWhitespace 5 r.body

theorem pieces_eq (hname : ∀ c ∈ r.unit.name, isWhitespace c = false) :
    ∃ it, r.pieces = r.shown :: it := by
  obtain ⟨hne, hshown⟩ := isWord_shown hname
  obtain ⟨gap, hgap⟩ := Nat.exists_eq_succ_of_ne_zero (Nat.ne_of_gt r.padded.1)
  rw [pieces, body_eq, behindName, hgap, List.replicate_succ, List.cons_append]
  exact ⟨_, columns_word hshown hne (by decide)⟩

theorem tableLine_line (hname : ∀ c ∈ r.unit.name, isWhitespace c = false) :
    tableLine r.line =
      some ⟨r.shown, trim (r.pieces.getD 4 []), r.pieces.getD 3 [], r.pieces.getD 2 []⟩ := by
  obtain ⟨it, hpieces⟩ := pieces_eq hname
  have hne : r.body ≠ [] := by
    intro hnil
    rw [body_eq] at hnil
    exact (isWord_shown hname).1 (List.append_eq_nil_iff.mp hnil).1
  have hcolumns : columns isWhitespace 5 r.body = r.shown :: it := hpieces
  unfold tableLine
  rw [stripBullet_line hname, hpieces]
  dsimp only
  rw [if_neg hne, hcolumns]
  dsimp only
  rw [if_neg (not_not_intro (dot_mem_shown r))]
  rfl

theorem isWhitespace_space : isWhitespace ' ' = true := by decide

theorem isColumns (hname : ∀ c ∈ r.unit.name, isWhitespace c = false) :
    ∀ column ∈ [(r.shown, r.nameGap), (r.unit.load, r.loadGap), (r.unit.active, r.activeGap)],
      IsColumn isWhitespace column := by
  obtain ⟨hne, hshown⟩ := isWord_shown hname
  obtain ⟨hload_ne, hload⟩ := r.unit.load_word
  obtain ⟨hactive_ne, hactive⟩ := r.unit.active_word
  obtain ⟨hnameGap, hloadGap, hactiveGap, _⟩ := r.padded
  intro column hcolumn
  rcases List.mem_cons.mp hcolumn with rfl | hcolumn
  · exact ⟨hshown, hne, hnameGap⟩
  · rcases List.mem_cons.mp hcolumn with rfl | hcolumn
    · exact ⟨hload, hload_ne, hloadGap⟩
    · rw [List.mem_singleton.mp hcolumn]
      exact ⟨hactive, hactive_ne, hactiveGap⟩

theorem getD_columns_one (rest : Str) : (columns isWhitespace 1 rest).getD 0 [] = rest := by
  by_cases hne : rest = []
  · rw [hne]
    rfl
  · rw [columns_last hne]
    rfl

theorem trim_spaces (n : Nat) (s : Str) : trim (List.replicate n ' ' ++ s) = trim s := by
  unfold trim
  rw [dropWhile_spaces]

/-- With single spaces every field is where it belongs. -/
theorem pieces_aligned (hname : ∀ c ∈ r.unit.name, isWhitespace c = false)
    (hgaps : r.nameGap = 1 ∧ r.loadGap = 1 ∧ r.activeGap = 1) :
    trim (r.pieces.getD 4 []) = r.unit.description ∧ r.pieces.getD 3 [] = r.unit.sub ∧
      r.pieces.getD 2 [] = r.unit.active := by
  obtain ⟨hnameGap, hloadGap, hactiveGap⟩ := hgaps
  obtain ⟨gap, hgap⟩ := Nat.exists_eq_succ_of_ne_zero (Nat.ne_of_gt r.padded.2.2.2)
  have hending : columns isWhitespace 2 r.ending = r.unit.sub ::
      columns isWhitespace 1 (List.replicate gap ' ' ++ r.unit.description) := by
    rw [ending, Text.padded, Text.padded, hgap, List.append_assoc, List.replicate_succ,
      List.cons_append]
    exact columns_word r.unit.sub_word.2 r.unit.sub_word.1 (by decide)
  have hsplits : splits [(r.shown, r.nameGap), (r.unit.load, r.loadGap),
      (r.unit.active, r.activeGap)] = 3 := by
    simp [splits, hnameGap, hloadGap, hactiveGap]
  have hpieces : r.pieces = [r.shown, r.unit.load, r.unit.active, r.unit.sub] ++
      columns isWhitespace 1 (List.replicate gap ' ' ++ r.unit.description) := by
    rw [pieces, body, columns_padded isWhitespace_space (isColumns hname)
      (hsplits.trans_le (Nat.le_succ 3)), hsplits, hending]
    rfl
  have hlast := getD_columns_one (List.replicate gap ' ' ++ r.unit.description)
  rw [hpieces]
  refine ⟨?_, rfl, rfl⟩
  show trim ((columns isWhitespace 1 _).getD 0 []) = _
  rw [hlast, trim_spaces, r.unit.trimmed]

/-- With wider padding the status is lost. -/
theorem pieces_crowded (hname : ∀ c ∈ r.unit.name, isWhitespace c = false)
    (hgaps : ¬(r.nameGap = 1 ∧ r.loadGap = 1 ∧ r.activeGap = 1)) :
    r.pieces.getD 3 [] ≠ r.unit.sub := by
  obtain ⟨hnameGap, hloadGap, hactiveGap, hsubGap⟩ := r.padded
  obtain ⟨hsub_ne, hsub⟩ := r.unit.sub_word
  have hspace : ' ' ∈ r.ending := by
    rw [ending, Text.padded]
    exact List.mem_append_left _ (List.mem_append_right _
      (List.mem_replicate.mpr ⟨Nat.ne_of_gt hsubGap, rfl⟩))
  have hsplits : 4 ≤ splits [(r.shown, r.nameGap), (r.unit.load, r.loadGap),
      (r.unit.active, r.activeGap)] := by
    simp only [splits]
    omega
  obtain ⟨front, first, hfirst, hpieces⟩ := columns_crowded isWhitespace_space
    (List.ne_nil_of_mem hspace) (isColumns hname) hsplits
  have hread : r.pieces.getD 3 [] = [] ∨ r.pieces.getD 3 [] = front ++ r.ending := by
    rw [pieces, body, hpieces]
    have hcases : first = 0 ∨ first = 1 ∨ first = 2 ∨ first = 3 := by
      have hbound : first ≤ 3 := hfirst
      omega
    rcases hcases with rfl | rfl | rfl | rfl
    · exact .inl rfl
    · exact .inl rfl
    · exact .inl rfl
    · exact .inr rfl
  intro heq
  rw [heq] at hread
  cases hread with
  | inl hnil => exact hsub_ne hnil
  | inr hall =>
      have hwhite := hsub ' ' (by rw [hall]; exact List.mem_append_right _ hspace)
      cases hwhite

/-- The service on a row is the unit's exactly where its columns are aligned. -/
theorem tableLine_eq_iff (hname : ∀ c ∈ r.unit.name, isWhitespace c = false) :
    tableLine r.line = some r.unit.service ↔
      (r.nameGap = 1 ∧ r.loadGap = 1 ∧ r.activeGap = 1) ∧ r.BulletApart := by
  rw [tableLine_line hname, Option.some.injEq, ServiceUnit.service, ServiceInfo.mk.injEq,
    shown_eq_iff]
  constructor
  · intro h
    obtain ⟨hbullet, _, hstatus, _⟩ := h
    by_cases hgaps : r.nameGap = 1 ∧ r.loadGap = 1 ∧ r.activeGap = 1
    · exact ⟨hgaps, hbullet⟩
    · exact absurd hstatus (pieces_crowded hname hgaps)
  · intro h
    obtain ⟨hgaps, hbullet⟩ := h
    obtain ⟨hdescription, hstatus, hactive⟩ := pieces_aligned hname hgaps
    exact ⟨hbullet, hdescription, hstatus, hactive⟩

/-! ## What can be read of any line -/

theorem tableLine_name {rawLine : Str} {info : ServiceInfo} (h : tableLine rawLine = some info) :
    ∀ c ∈ info.name, isWhitespace c = false := by
  unfold tableLine at h
  dsimp only at h
  split at h
  · cases h
  · next hne =>
      obtain ⟨c, rest, hline⟩ := List.exists_cons_of_ne_nil hne
      have hc : isWhitespace c = false := by
        have hstop := List.head?_dropWhile_not isWhitespace
          ((rawLine.dropWhile isWhitespace).dropWhile (· = Systemd.bullet))
        rw [show List.dropWhile _ _ = c :: rest from hline] at hstop
        simpa using hstop
      obtain ⟨more, hcolumns⟩ : ∃ more, columns isWhitespace 5 (c :: rest) =
          ((c :: rest).takeWhile fun c => !isWhitespace c) :: more := columns_first hc
      rw [hline, hcolumns] at h
      dsimp only at h
      split at h
      · cases h
      · cases h
        intro d hd
        simpa using List.mem_takeWhile_imp hd

theorem tableLine_description {rawLine : Str} {info : ServiceInfo}
    (h : tableLine rawLine = some info) : info.description ⊆ rawLine := by
  have hstrip : stripBullet rawLine ⊆ rawLine := by
    refine List.Subset.trans (List.dropWhile_suffix _).subset ?_
    exact List.Subset.trans (List.dropWhile_suffix _).subset (List.dropWhile_suffix _).subset
  unfold tableLine at h
  dsimp only at h
  split at h
  · cases h
  · split at h
    · cases h
    · next name it hcolumns =>
        split at h
        · cases h
        · cases h
          refine List.Subset.trans (infix_trim _).subset ?_
          cases hlast : it[3]? with
          | none =>
              rw [List.getD_eq_getElem?_getD, hlast]
              exact List.nil_subset _
          | some piece =>
              rw [List.getD_eq_getElem?_getD, hlast]
              have hmem : piece ∈ columns isWhitespace 5 (stripBullet rawLine) := by
                rw [hcolumns]
                exact List.mem_cons_of_mem _ (List.mem_of_getElem? hlast)
              exact List.Subset.trans (subset_of_mem_splitn (List.mem_filter.mp hmem).1) hstrip

/-! ## The table -/

theorem line_oneLine (hname : ∀ c ∈ r.unit.name, isWhitespace c = false)
    (hdescription : '\n' ∉ r.unit.description) : '\n' ∉ r.line := by
  have hword : ∀ s : Str, (∀ c ∈ s, isWhitespace c = false) → '\n' ∉ s := by
    intro s hs hmem
    have hwhite := hs _ hmem
    cases hwhite
  have hspaces : ∀ n : Nat, '\n' ∉ List.replicate n ' ' := by
    intro n hmem
    exact absurd (List.mem_replicate.mp hmem).2 (by decide)
  have hmarker : '\n' ∉ r.marker := by
    unfold marker
    split
    · exact List.not_mem_nil
    · intro hmem
      cases List.mem_cons.mp hmem with
      | inl hbullet => exact absurd hbullet (by decide)
      | inr hspace => exact hspaces _ hspace
  simp only [line, leading, ending, Text.padded, List.mem_append, not_or]
  exact ⟨hspaces _, hmarker, ⟨hword _ hname, hspaces _⟩,
    ⟨hword _ r.unit.load_word.2, hspaces _⟩, ⟨hword _ r.unit.active_word.2, hspaces _⟩,
    ⟨hword _ r.unit.sub_word.2, hspaces _⟩, hdescription⟩

theorem stripCr_line (r : TableRow) : stripCr r.line = r.line := by
  refine if_neg fun hlast => ?_
  obtain ⟨gap, hgap⟩ := Nat.exists_eq_succ_of_ne_zero (Nat.ne_of_gt r.padded.2.2.2)
  obtain ⟨front, hline⟩ : ∃ front, r.line = front ++ (' ' :: r.unit.description) := by
    refine ⟨List.replicate r.indent ' ' ++ (r.marker ++ Text.padded ' ' r.leading
      (r.unit.sub ++ List.replicate gap ' ')), ?_⟩
    simp [line, leading, ending, Text.padded, hgap, List.replicate_succ']
  rw [hline, List.getLast?_append_of_ne_nil _ (List.cons_ne_nil _ _)] at hlast
  cases hdescription : r.unit.description with
  | nil =>
      rw [hdescription] at hlast
      exact absurd hlast (by decide)
  | cons c description =>
      rw [hdescription, List.getLast?_cons_cons, ← hdescription] at hlast
      exact getLast?_trimmed r.unit.trimmed hlast

theorem filterMap_tableLine {rows : List TableRow}
    (hname : ∀ r ∈ rows, ∀ c ∈ r.unit.name, isWhitespace c = false) :
    (rows.map line).filterMap tableLine = rows.map (fun r => r.unit.service) ↔
      ∀ r ∈ rows, tableLine r.line = some r.unit.service := by
  induction rows with
  | nil => exact ⟨fun _ r hr => absurd hr List.not_mem_nil, fun _ => rfl⟩
  | cons r rows ih =>
      have hline := tableLine_line (hname r (List.mem_cons_self ..))
      rw [List.map_cons, List.filterMap_cons_some hline, List.map_cons, List.cons.injEq,
        ih fun r hr => hname r (List.mem_cons_of_mem _ hr), List.forall_mem_cons, hline,
        Option.some.injEq]

end TableRow

section Paths

variable {fromStr : Str → Option (List SystemctlJsonRow)}
  {systemctl : List String → Except Str Output} {json plain : Output}

theorem listServices_json {rows : List SystemctlJsonRow} (hjson : systemctl jsonArgs = .ok json)
    (hsuccess : json.success = true) (hrows : fromStr (fromUtf8Lossy json.stdout) = some rows) :
    listServices fromStr systemctl = .ok (rows.filterMap SystemctlJsonRow.service) := by
  unfold listServices
  dsimp only
  rw [hjson]
  simp only [Except.mapError, bind, Except.bind, hsuccess, hrows]
  rfl

theorem listServices_plain (hjson : systemctl jsonArgs = .ok json)
    (hnoJson : json.success = false ∨ fromStr (fromUtf8Lossy json.stdout) = none)
    (hplain : systemctl plainArgs = .ok plain) (hsuccess : plain.success = true) :
    listServices fromStr systemctl =
      .ok ((lines (fromUtf8Lossy plain.stdout)).filterMap tableLine) := by
  have hnone : (if json.success = true then fromStr (fromUtf8Lossy json.stdout) else none) =
      none := by
    cases hnoJson with
    | inl hfailed =>
        rw [hfailed]
        rfl
    | inr hunread => rw [hunread, ite_self]
  unfold listServices
  dsimp only
  rw [hjson, hplain]
  simp only [Except.mapError, bind, Except.bind, hnone, hsuccess]
  rfl

end Paths

theorem filterMap_row (rows : List TableRow) :
    (rows.map fun r => r.unit.row).filterMap SystemctlJsonRow.service =
      rows.map fun r => r.unit.service := by
  induction rows with
  | nil => rfl
  | cons r rows ih =>
      rw [List.map_cons, List.map_cons, ← ih]
      rfl

theorem lines_table {rows : List TableRow}
    (hunits : ∀ r ∈ rows, (∀ c ∈ r.unit.name, isWhitespace c = false) ∧
      '\n' ∉ r.unit.description) :
    lines (unlines (rows.map TableRow.line)) = rows.map TableRow.line := by
  have honeLine : ∀ line ∈ rows.map TableRow.line, '\n' ∉ line := by
    intro line hline
    obtain ⟨r, hr, rfl⟩ := List.mem_map.mp hline
    exact TableRow.line_oneLine (hunits r hr).1 (hunits r hr).2
  calc lines (unlines (rows.map TableRow.line))
      = lines (unlines (rows.map TableRow.line) ++ []) := by rw [List.append_nil]
    _ = (rows.map TableRow.line).map stripCr ++ lines [] := lines_unlines honeLine
    _ = rows.map TableRow.line := by
        rw [show lines [] = [] from rfl, List.append_nil, List.map_map]
        exact List.map_congr_left fun r _ => TableRow.stripCr_line r

/-- The two ways to list the services of the same units agree exactly where all rows
of the table are aligned. -/
theorem listings_agree_iff (fromStr : Str → Option (List SystemctlJsonRow))
    (modern older : List String → Except Str Output) (rows : List TableRow)
    (json noJson plain : Output) (hmodern : modern jsonArgs = .ok json)
    (hjson : json.success = true)
    (hrows : fromStr (fromUtf8Lossy json.stdout) = some (rows.map fun r => r.unit.row))
    (holder : older jsonArgs = .ok noJson)
    (hnoJson : noJson.success = false ∨ fromStr (fromUtf8Lossy noJson.stdout) = none)
    (hplain : older plainArgs = .ok plain) (htable : plain.success = true)
    (htext : fromUtf8Lossy plain.stdout = unlines (rows.map TableRow.line)) :
    listServices fromStr older = listServices fromStr modern ↔ ∀ r ∈ rows, r.Aligned := by
  rw [listServices_json hmodern hjson hrows, listServices_plain holder hnoJson hplain htable,
    htext, filterMap_row, Except.ok.injEq]
  constructor
  · intro heq
    have hunits : ∀ r ∈ rows, (∀ c ∈ r.unit.name, isWhitespace c = false) ∧
        '\n' ∉ r.unit.description := by
      intro r hr
      have hmem : r.unit.service ∈
          (lines (unlines (rows.map TableRow.line))).filterMap tableLine := by
        rw [heq]
        exact List.mem_map.mpr ⟨r, hr, rfl⟩
      obtain ⟨line, hline, hservice⟩ := List.mem_filterMap.mp hmem
      exact ⟨TableRow.tableLine_name hservice, fun hfeed =>
        oneLine_of_mem_lines hline (TableRow.tableLine_description hservice hfeed)⟩
    have hname := fun r hr => (hunits r hr).1
    rw [lines_table hunits, TableRow.filterMap_tableLine hname] at heq
    intro r hr
    obtain ⟨hgaps, hbullet⟩ := (TableRow.tableLine_eq_iff (hname r hr)).mp (heq r hr)
    exact ⟨hgaps, hbullet, hname r hr, (hunits r hr).2⟩
  · intro haligned
    have hname := fun r hr => (haligned r hr).name
    rw [lines_table fun r hr => ⟨hname r hr, (haligned r hr).description⟩,
      TableRow.filterMap_tableLine hname]
    intro r hr
    exact (TableRow.tableLine_eq_iff (hname r hr)).mpr
      ⟨(haligned r hr).gaps, (haligned r hr).bullet⟩

/-! ## One unit, and its padding -/

def sshUnit : ServiceUnit where
  name := "ssh.service".toList
  load := "loaded".toList
  active := "active".toList
  sub := "running".toList
  description := "OpenBSD Secure Shell server".toList
  dotted := by decide
  load_word := ⟨by decide, List.all_iff_forall_prop.mp (by decide)⟩
  active_word := ⟨by decide, List.all_iff_forall_prop.mp (by decide)⟩
  sub_word := ⟨by decide, List.all_iff_forall_prop.mp (by decide)⟩
  trimmed := by decide

def sshRow (gap : Nat) : TableRow := ⟨sshUnit, 2, none, gap + 1, 1, 1, 1, by simp⟩

def sshJson : Str :=
  ("[\x7b\"unit\":\"ssh.service\",\"load\":\"loaded\",\"active\":\"active\"," ++
    "\"sub\":\"running\",\"description\":\"OpenBSD Secure Shell server\"\x7d]\n").toList

def sshFromStr (text : Str) : Option (List SystemctlJsonRow) :=
  if text = sshJson then some [sshUnit.row] else none

def sshTable (gap : Nat) : Str := unlines ([sshRow gap].map TableRow.line)

def listed (stdout : Str) : Output := ⟨some 0, toUtf8 stdout, []⟩

theorem stdout_listed (stdout : Str) : (listed stdout).stdout = toUtf8 stdout := rfl

theorem success_listed (stdout : Str) : (listed stdout).success = true := rfl

/-- A `systemctl` that writes JSON. -/
def modernSystemctl (_ : List String) : Except Str Output := .ok (listed sshJson)

def unknownOutput : Output := ⟨some 1, [], toUtf8 "Unknown output 'json'.\n".toList⟩

/-- A `systemctl` that does not know `--output=json`. -/
def olderSystemctl (gap : Nat) (args : List String) : Except Str Output :=
  if args = plainArgs then .ok (listed (sshTable gap))
  else .ok unknownOutput

theorem fromStr_modern :
    sshFromStr (fromUtf8Lossy (listed sshJson).stdout) = some [sshUnit.row] := by
  have hstdout : fromUtf8Lossy (toUtf8 sshJson) = sshJson :=
    fromUtf8Lossy_encoded _
  rw [stdout_listed, hstdout]
  exact if_pos rfl

theorem older_stdout (gap : Nat) :
    fromUtf8Lossy (listed (sshTable gap)).stdout = sshTable gap := fromUtf8Lossy_encoded _

def nginxUnit : ServiceUnit where
  name := "nginx.service".toList
  load := "loaded".toList
  active := "failed".toList
  sub := "failed".toList
  description := "nginx - high performance web server".toList
  dotted := by decide
  load_word := ⟨by decide, List.all_iff_forall_prop.mp (by decide)⟩
  active_word := ⟨by decide, List.all_iff_forall_prop.mp (by decide)⟩
  sub_word := ⟨by decide, List.all_iff_forall_prop.mp (by decide)⟩
  trimmed := by decide

/-- The failed unit has a bullet in the space before the names. -/
def unitRows : List TableRow := [sshRow 0, ⟨nginxUnit, 0, some 1, 1, 1, 1, 3, by simp⟩]

def unitsJson : Str :=
  ("[\x7b\"unit\":\"ssh.service\",\"load\":\"loaded\",\"active\":\"active\"," ++
    "\"sub\":\"running\",\"description\":\"OpenBSD Secure Shell server\"\x7d," ++
    "\x7b\"unit\":\"nginx.service\",\"load\":\"loaded\",\"active\":\"failed\"," ++
    "\"sub\":\"failed\",\"description\":\"nginx - high performance web server\"\x7d]\n").toList

def unitsFromStr (text : Str) : Option (List SystemctlJsonRow) :=
  if text = unitsJson then some (unitRows.map fun r => r.unit.row) else none

def jsonSystemctl (_ : List String) : Except Str Output := .ok (listed unitsJson)

def tableSystemctl (args : List String) : Except Str Output :=
  if args = plainArgs then .ok (listed (unlines (unitRows.map TableRow.line)))
  else .ok unknownOutput

theorem listings_agree_units :
    listServices unitsFromStr tableSystemctl = listServices unitsFromStr jsonSystemctl := by
  have hjson : unitsFromStr (fromUtf8Lossy (listed unitsJson).stdout) =
      some (unitRows.map fun r => r.unit.row) := by
    rw [stdout_listed, fromUtf8Lossy_encoded]
    exact if_pos rfl
  refine (listings_agree_iff unitsFromStr jsonSystemctl tableSystemctl unitRows
    (listed unitsJson) unknownOutput (listed (unlines (unitRows.map TableRow.line))) rfl rfl hjson
    rfl (.inl rfl) rfl rfl (fromUtf8Lossy_encoded _)).mpr ?_
  refine List.forall_mem_cons.mpr ⟨?_, List.forall_mem_singleton.mpr ?_⟩
  · exact ⟨⟨rfl, rfl, rfl⟩, fun hhead => absurd hhead (by decide),
      List.all_iff_forall_prop.mp (by decide), by decide⟩
  · exact ⟨⟨rfl, rfl, rfl⟩, fun _ => ⟨0, rfl⟩, List.all_iff_forall_prop.mp (by decide), by decide⟩

/-- With a second space behind the name, what follows the status goes into it. -/
theorem padded_status :
    listServices sshFromStr modernSystemctl = .ok [sshUnit.service] ∧
      listServices sshFromStr (olderSystemctl 1) =
        .ok [⟨"ssh.service".toList, [], "running OpenBSD Secure Shell server".toList,
          "active".toList⟩] ∧
      listServices sshFromStr (olderSystemctl 1) ≠ listServices sshFromStr modernSystemctl := by
  have hmodern : listServices sshFromStr modernSystemctl = .ok [sshUnit.service] := by
    have hjson : modernSystemctl jsonArgs = .ok (listed sshJson) := rfl
    exact listServices_json hjson (success_listed _) fromStr_modern
  have holder : listServices sshFromStr (olderSystemctl 1) =
      .ok [⟨"ssh.service".toList, [], "running OpenBSD Secure Shell server".toList,
        "active".toList⟩] := by
    have hjson : olderSystemctl 1 jsonArgs = .ok unknownOutput := rfl
    have hplain : olderSystemctl 1 plainArgs = .ok (listed (sshTable 1)) := rfl
    have hfailed : unknownOutput.success = false := rfl
    have hline : (lines (sshTable 1)).filterMap tableLine =
        [⟨"ssh.service".toList, [], "running OpenBSD Secure Shell server".toList,
          "active".toList⟩] := by
      decide +kernel
    rw [listServices_plain hjson (.inl hfailed) hplain (success_listed _),
      older_stdout 1, hline]
  refine ⟨hmodern, holder, ?_⟩
  rw [hmodern, holder]
  intro heq
  have hname := congrArg (List.map ServiceInfo.description) (Except.ok.inj heq)
  exact absurd hname (by decide)

end ShellfleetAgent.Agent.Systemd
