import Mathlib.Data.List.Count
import ShellfleetAgent.Lib.Lines

/-!
# Text in sections

A reader that goes through lines with no more memory than the section it is in. Some
lines begin a section and some end it; the items of a section are kept under its name,
and items outside of any are passed over.
-/

namespace ShellfleetAgent.Lib

/-- What a reader takes a line for. -/
inductive Mark (κ : Type)
  | enter (k : κ)
  | leave
  | skip
  | item
  deriving DecidableEq

namespace Sections

section Reader

variable {α κ : Type} (mark : α → Mark κ)

/-- The section after a line. -/
def next (current : Option κ) (line : α) : Option κ :=
  match mark line with
  | .enter k => some k
  | .leave => none
  | .skip | .item => current

/-- The item that is kept of a line. -/
def kept (current : Option κ) (line : α) : Option (κ × α) :=
  match mark line with
  | .item => current.map fun k => (k, line)
  | _ => none

def isItem (line : α) : Bool :=
  match mark line with
  | .item => true
  | _ => false

/-- The items in order, each under its section. -/
def read (current : Option κ) : List α → List (κ × α)
  | [] => []
  | line :: lines => (kept mark current line).toList ++ read (next mark current line) lines

/-- The section after all the lines. -/
def final (current : Option κ) (lines : List α) : Option κ := lines.foldl (next mark) current

variable {mark}
variable {line : α} {lines later : List α} {current : Option κ} {k : κ}

theorem read_cons :
    read mark current (line :: lines) =
      (kept mark current line).toList ++ read mark (next mark current line) lines := rfl

theorem isItem_iff : isItem mark line = true ↔ mark line = .item := by
  cases h : mark line <;> simp [isItem, h]

theorem read_append :
    read mark current (lines ++ later) =
      read mark current lines ++ read mark (final mark current lines) later := by
  induction lines generalizing current with
  | nil => rfl
  | cons line lines ih =>
      rw [List.cons_append, read_cons, read_cons, ih, List.append_assoc]
      rfl

theorem read_item (h : mark line = .item) :
    read mark (some k) (line :: lines) = (k, line) :: read mark (some k) lines := by
  simp [read, kept, next, h]

theorem read_enter (h : mark line = .enter k) :
    read mark current (line :: lines) = read mark (some k) lines := by
  simp [read, kept, next, h]

theorem read_leave (h : mark line = .leave) :
    read mark current (line :: lines) = read mark none lines := by
  simp [read, kept, next, h]

theorem read_skip (h : mark line = .skip) :
    read mark current (line :: lines) = read mark current lines := by
  simp [read, kept, next, h]

/-- An item outside of a section is passed over. -/
theorem read_outside (h : ∀ k, mark line ≠ .enter k) :
    read mark none (line :: lines) = read mark none lines := by
  cases hmark : mark line with
  | enter k => exact absurd hmark (h k)
  | _ => simp [read, kept, next, hmark]

theorem read_items (h : ∀ line ∈ lines, mark line = .item) :
    read mark (some k) (lines ++ later) =
      lines.map (fun line => (k, line)) ++ read mark (some k) later := by
  induction lines with
  | nil => rfl
  | cons line lines ih =>
      rw [List.cons_append, read_item (h _ (List.mem_cons_self ..)),
        ih fun l hl => h l (List.mem_cons_of_mem _ hl)]
      rfl

/-- Nothing is kept where no section begins. -/
theorem read_none (h : ∀ line ∈ lines, ∀ k, mark line ≠ .enter k) : read mark none lines = [] := by
  induction lines with
  | nil => rfl
  | cons line lines ih =>
      rw [read_outside (h _ (List.mem_cons_self ..))]
      exact ih fun l hl => h l (List.mem_cons_of_mem _ hl)

theorem kept_eq_some {p : κ × α} (h : kept mark current line = some p) :
    mark line = .item ∧ p.2 = line := by
  unfold kept at h
  split at h
  · next hmark =>
      obtain ⟨k, _, rfl⟩ := Option.map_eq_some_iff.mp h
      exact ⟨hmark, rfl⟩
  · cases h

/-- What is kept was taken for an item. -/
theorem mark_of_mem_read {p : κ × α} (h : p ∈ read mark current lines) : mark p.2 = .item := by
  induction lines generalizing current with
  | nil => cases h
  | cons line lines ih =>
      cases List.mem_append.mp h with
      | inl hkept =>
          obtain ⟨hmark, hline⟩ := kept_eq_some (Option.mem_toList.mp hkept)
          rwa [hline]
      | inr hlater => exact ih hlater

/-- No more is kept than there are items. -/
theorem length_read_le :
    (read mark current lines).length ≤ lines.countP (isItem mark) := by
  induction lines generalizing current with
  | nil => exact Nat.le_refl _
  | cons line lines ih =>
      rw [read_cons, List.length_append, List.countP_cons, Nat.add_comm]
      refine Nat.add_le_add ih ?_
      cases hkept : kept mark current line with
      | none => exact Nat.zero_le _
      | some p =>
          rw [if_pos (isItem_iff.mpr (kept_eq_some hkept).1)]
          exact Nat.le_refl _

end Reader

/-! ## A text in sections, and its end -/

section Printed

open Text

variable {κ : Type}

/-- A section as it is printed: its header, its items, and a blank line. -/
structure Block (κ : Type) where
  name : κ
  header : Str
  items : List Str

def Block.lines (b : Block κ) : List Str := b.header :: b.items ++ [[]]

/-- The items that are printed. -/
def listed (blocks : List (Block κ)) : List (κ × Str) :=
  blocks.flatMap fun b => b.items.map fun item => (b.name, item)

/-- The reader knows a header for what it is, but not by its end. -/
structure Printed (mark : Str → Mark κ) (blocks : List (Block κ)) : Prop where
  header : ∀ b ∈ blocks, mark b.header = .enter b.name
  torn : ∀ b ∈ blocks, ∀ part, part <:+ b.header → part ≠ b.header →
    ∀ k, mark (trim part) ≠ .enter k
  blank : mark [] = .leave ∨ mark [] = .skip
  items : ∀ b ∈ blocks, b.items ≠ []
  lines : ∀ b ∈ blocks, ∀ line ∈ b.lines, '\n' ∉ line ∧ trim line = line

/-- The reader takes no piece of the text for a header. -/
def Quiet (mark : Str → Mark κ) (text : Str) : Prop :=
  ∀ piece, piece <:+: text → ∀ k, mark (trim piece) ≠ .enter k

variable {mark : Str → Mark κ} {current : Option κ} {blocks : List (Block κ)}
  {last rest text : Str}

theorem listed_cons (b : Block κ) :
    listed (b :: blocks) = b.items.map (fun item => (b.name, item)) ++ listed blocks := rfl

theorem Printed.tail {b : Block κ} (h : Printed mark (b :: blocks)) : Printed mark blocks where
  header b hb := h.header b (List.mem_cons_of_mem _ hb)
  torn b hb := h.torn b (List.mem_cons_of_mem _ hb)
  blank := h.blank
  items b hb := h.items b (List.mem_cons_of_mem _ hb)
  lines b hb := h.lines b (List.mem_cons_of_mem _ hb)

theorem Printed.mem_lines (h : Printed mark blocks) {line : Str}
    (hline : line ∈ blocks.flatMap Block.lines) : '\n' ∉ line ∧ trim line = line := by
  obtain ⟨b, hb, hline⟩ := List.mem_flatMap.mp hline
  exact h.lines b hb line hline

theorem Printed.map_trim (h : Printed mark blocks) {lines : List Str}
    (hlines : ∀ line ∈ lines, line ∈ blocks.flatMap Block.lines) : lines.map trim = lines := by
  refine (List.map_congr_left fun line hline => ?_).trans (List.map_id lines)
  exact (h.mem_lines (hlines line hline)).2

theorem Quiet.read_eq_nil {tail : Str} (h : Quiet mark text) (hsuffix : tail <:+ text) :
    read mark none ((lines tail).map trim) = [] := by
  refine read_none fun line hline k => ?_
  obtain ⟨piece, hpiece, rfl⟩ := List.mem_map.mp hline
  exact h piece ((infix_of_mem_lines hpiece).trans hsuffix.isInfix) k

/-- A blank line between two sections may end the one, or leave that to the next header. -/
theorem read_blocks (h : Printed mark blocks)
    (hitems : ∀ b ∈ blocks, ∀ item ∈ b.items, mark item = .item) {line : Str}
    (hleave : mark line = .leave) {later : List Str} :
    read mark current (blocks.flatMap Block.lines ++ line :: later) =
      listed blocks ++ read mark none later := by
  induction blocks generalizing current with
  | nil => exact read_leave hleave
  | cons b blocks ih =>
      have hb := List.mem_cons_self (a := b) (l := blocks)
      have hlater : ∀ current, read mark current (blocks.flatMap Block.lines ++ line :: later) =
          listed blocks ++ read mark none later :=
        fun _ => ih h.tail fun b hb => hitems b (List.mem_cons_of_mem _ hb)
      have hblank : read mark (some b.name) ([] :: (blocks.flatMap Block.lines ++ line :: later)) =
          listed blocks ++ read mark none later := by
        cases h.blank with
        | inl hleave => rw [read_leave hleave, hlater]
        | inr hskip => rw [read_skip hskip, hlater]
      rw [List.flatMap_cons, List.append_assoc, Block.lines, List.cons_append, List.cons_append,
        read_enter (h.header b hb), List.append_assoc, read_items (hitems b hb),
        List.singleton_append, hblank, listed_cons, List.append_assoc]

/-- A text that has all its lines is read as it was printed. -/
theorem read_whole (h : Printed mark blocks)
    (hitems : ∀ b ∈ blocks, ∀ item ∈ b.items, mark item = .item) (hlast : '\n' ∉ last)
    (hleave : mark (trim last) = .leave) (hquiet : Quiet mark rest) :
    read mark none ((lines (unlines (blocks.flatMap Block.lines) ++ (last ++ '\n' :: rest))).map
      trim) = listed blocks := by
  rw [lines_unlines fun line hline => (h.mem_lines hline).1, lines_line hlast, List.map_append,
    map_trim_stripCr, List.map_cons, trim_stripCr, h.map_trim fun _ hline => hline,
    read_blocks h hitems hleave, hquiet.read_eq_nil List.suffix_rfl, List.append_nil]

/-! Without the beginning, which is in the first section. -/

theorem Printed.not_isItem_header (h : Printed mark blocks) {b : Block κ} (hb : b ∈ blocks) :
    ¬isItem mark b.header = true := by
  rw [isItem_iff, h.header b hb]
  exact nofun

/-- The printed items are the lines that are taken for items. -/
theorem countP_blocks (h : Printed mark blocks)
    (hitems : ∀ b ∈ blocks, ∀ item ∈ b.items, mark item = .item) :
    (blocks.flatMap Block.lines).countP (isItem mark) = (listed blocks).length := by
  induction blocks with
  | nil => rfl
  | cons b blocks ih =>
      have hb := List.mem_cons_self (a := b) (l := blocks)
      have hheader := h.not_isItem_header hb
      have hblank : ¬isItem mark [] = true := by
        rw [isItem_iff]
        cases h.blank with
        | inl hblank => simp [hblank]
        | inr hblank => simp [hblank]
      have hcount : b.items.countP (isItem mark) = b.items.length :=
        List.countP_eq_length.mpr fun item hitem => isItem_iff.mpr (hitems b hb item hitem)
      rw [List.flatMap_cons, List.countP_append, Block.lines, List.cons_append,
        List.countP_cons_of_neg hheader, List.countP_append, hcount,
        List.countP_cons_of_neg hblank, List.countP_nil, listed_cons,
        List.length_append, List.length_map, Nat.add_zero,
        ih h.tail fun b hb => hitems b (List.mem_cons_of_mem _ hb)]

/-- Behind the first item there are fewer items than were printed. -/
theorem Printed.exists_first (h : Printed mark blocks)
    (hitems : ∀ b ∈ blocks, ∀ item ∈ b.items, mark item = .item) (hne : blocks ≠ []) :
    ∃ b ∈ blocks, ∃ item more, blocks.flatMap Block.lines = b.header :: item :: more ∧
      mark item = .item ∧ more.countP (isItem mark) < (listed blocks).length := by
  obtain ⟨b, blocks, rfl⟩ := List.exists_cons_of_ne_nil hne
  have hb := List.mem_cons_self (a := b) (l := blocks)
  obtain ⟨item, items, hitems_b⟩ := List.exists_cons_of_ne_nil (h.items b hb)
  have hitem : mark item = .item := by
    refine hitems b hb item ?_
    rw [hitems_b]
    exact List.mem_cons_self ..
  have hlines : (b :: blocks).flatMap Block.lines =
      b.header :: item :: (items ++ [[]] ++ blocks.flatMap Block.lines) := by
    rw [List.flatMap_cons, Block.lines, hitems_b]
    simp
  refine ⟨b, hb, item, _, hlines, hitem, ?_⟩
  rw [← countP_blocks h hitems, hlines, List.countP_cons_of_neg (h.not_isItem_header hb),
    List.countP_cons_of_pos (isItem_iff.mpr hitem)]
  exact Nat.lt_succ_self _

/-- Behind the sections nothing is kept. -/
theorem length_read_later (h : Printed mark blocks) {lines : List Str}
    (hlines : lines <:+ blocks.flatMap Block.lines) (hlast : '\n' ∉ last)
    (hleave : mark (trim last) = .leave) (hquiet : Quiet mark rest) :
    (read mark current
      ((Text.lines (unlines lines ++ (last ++ '\n' :: rest))).map trim)).length ≤
        lines.countP (isItem mark) := by
  have hmem : ∀ line ∈ lines, line ∈ blocks.flatMap Block.lines := fun _ hline =>
    hlines.subset hline
  rw [lines_unlines fun line hline => (h.mem_lines (hmem line hline)).1, lines_line hlast,
    List.map_append, map_trim_stripCr, List.map_cons, trim_stripCr, h.map_trim hmem, read_append,
    read_leave hleave, hquiet.read_eq_nil List.suffix_rfl, List.append_nil]
  exact length_read_le

/-- A text that has lost its beginning, and has another line instead, has lost an item. -/
theorem read_cut (h : Printed mark blocks)
    (hitems : ∀ b ∈ blocks, ∀ item ∈ b.items, mark item = .item) (hne : blocks ≠ [])
    (hlast : '\n' ∉ last) (hleave : mark (trim last) = .leave)
    (hquiet : Quiet mark (last ++ '\n' :: rest)) {tail : Str}
    (htail : tail <:+ unlines (blocks.flatMap Block.lines) ++ (last ++ '\n' :: rest))
    (hcut : tail ≠ unlines (blocks.flatMap Block.lines) ++ (last ++ '\n' :: rest)) :
    (read mark none ((Text.lines tail).map trim)).length < (listed blocks).length := by
  have hrest : Quiet mark rest := fun piece hpiece =>
    hquiet piece (hpiece.trans ⟨last ++ ['\n'], [], by simp⟩)
  obtain ⟨b, hb, item, more, hlines, hitem, hfewer⟩ := h.exists_first hitems hne
  rcases suffix_unlines htail with hlate | ⟨part, line, later, hsuffix, hpart, rfl⟩
  · rw [hquiet.read_eq_nil hlate]
    exact Nat.zero_lt_of_lt hfewer
  · have hpartLine : '\n' ∉ part := fun hmem =>
      (h.mem_lines (hsuffix.subset (List.mem_cons_self ..))).1 (hpart.subset hmem)
    have hlater : later <:+ blocks.flatMap Block.lines :=
      (List.suffix_cons _ _).trans hsuffix
    rw [lines_line hpartLine, List.map_cons, trim_stripCr]
    rw [hlines] at hsuffix
    rcases List.suffix_cons_iff.mp hsuffix with hfirst | hbehind
    · -- The cut is in the first header, and the first item is outside of any section.
      obtain ⟨rfl, rfl⟩ := List.cons.inj hfirst
      have hproper : part ≠ b.header := by
        intro heq
        refine hcut ?_
        rw [hlines, heq]
        exact unlines_cons.symm
      have hmore : more <:+ blocks.flatMap Block.lines :=
        (List.suffix_cons _ _).trans hlater
      rw [read_outside (h.torn b hb part hpart hproper), unlines_cons, lines_line
        (h.mem_lines (hlater.subset (List.mem_cons_self ..))).1, List.map_cons, trim_stripCr,
        (h.mem_lines (hlater.subset (List.mem_cons_self ..))).2,
        read_outside fun k => by rw [hitem]; exact nofun]
      exact Nat.lt_of_le_of_lt (length_read_later h hmore hlast hleave hrest) hfewer
    · -- The cut is behind the first header.
      have hsub : later.countP (isItem mark) ≤ more.countP (isItem mark) := by
        rcases List.suffix_cons_iff.mp hbehind with hfirst | hmore
        · rw [(List.cons.inj hfirst).2]
        · exact ((List.suffix_cons _ _).trans hmore).sublist.countP_le
      rw [read_cons, List.length_append]
      have hkept : (kept mark none (trim part)).toList.length = 0 := by
        unfold kept
        split <;> rfl
      rw [hkept, Nat.zero_add]
      refine Nat.lt_of_le_of_lt ?_ (Nat.lt_of_le_of_lt hsub hfewer)
      exact length_read_later h hlater hlast hleave hrest

end Printed

end Sections

end ShellfleetAgent.Lib
