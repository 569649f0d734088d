import Mathlib.Data.List.Infix
import ShellfleetAgent.Lib.Text

/-!
# Lines

`str::lines`, and what is left of the lines of a text that has lost its beginning.
-/

namespace ShellfleetAgent.Lib.Text

/-- A carriage return before a line feed belongs to the end of the line. -/
def stripCr (line : Str) : Str := if line.getLast? = some '\r' then line.dropLast else line

def linesFrom (line : Str) : Str → List Str
  | [] => if line = [] then [] else [line]
  | c :: s => if c = '\n' then stripCr line :: linesFrom [] s else linesFrom (line ++ [c]) s

/-- `str::lines`. -/
def lines (s : Str) : List Str := linesFrom [] s

/-- Lines, each with a line feed. -/
def unlines (ls : List Str) : Str := ls.flatMap (· ++ ['\n'])

variable {line rest s : Str} {ls : List Str}

theorem linesFrom_line (h : '\n' ∉ line) (before : Str) :
    linesFrom before (line ++ '\n' :: rest) = stripCr (before ++ line) :: lines rest := by
  induction line generalizing before with
  | nil =>
      rw [List.nil_append, linesFrom, if_pos rfl, List.append_nil]
      rfl
  | cons c line ih =>
      rw [List.mem_cons, not_or] at h
      rw [List.cons_append, linesFrom, if_neg (Ne.symm h.1), ih h.2, List.append_assoc]
      rfl

theorem lines_line (h : '\n' ∉ line) :
    lines (line ++ '\n' :: rest) = stripCr line :: lines rest := linesFrom_line h []

theorem linesFrom_last (h : '\n' ∉ line) (before : Str) :
    linesFrom before line = if before ++ line = [] then [] else [before ++ line] := by
  induction line generalizing before with
  | nil => rw [linesFrom, List.append_nil]
  | cons c line ih =>
      rw [List.mem_cons, not_or] at h
      rw [linesFrom, if_neg (Ne.symm h.1), ih h.2, List.append_assoc]
      rfl

/-- The last line may be without a line feed. -/
theorem lines_last (h : '\n' ∉ line) : lines line = if line = [] then [] else [line] :=
  linesFrom_last h []

theorem unlines_cons : unlines (line :: ls) ++ rest = line ++ '\n' :: (unlines ls ++ rest) := by
  simp [unlines]

theorem lines_unlines (h : ∀ line ∈ ls, '\n' ∉ line) :
    lines (unlines ls ++ rest) = ls.map stripCr ++ lines rest := by
  induction ls with
  | nil => rfl
  | cons line ls ih =>
      rw [unlines_cons, lines_line (h _ (List.mem_cons_self ..)),
        ih fun l hl => h l (List.mem_cons_of_mem _ hl)]
      rfl

/-- A text of one line for each of some things. -/
theorem lines_texts {τ : Type} {text : τ → Str} (hline : ∀ l, '\n' ∉ text l) (found : List τ) :
    lines (unlines (found.map text)) = found.map fun l => stripCr (text l) := by
  have hlines : lines (unlines (found.map text) ++ []) =
      (found.map text).map stripCr ++ lines [] := by
    refine lines_unlines fun line hmem => ?_
    obtain ⟨l, _, rfl⟩ := List.mem_map.mp hmem
    exact hline l
  have hempty : lines [] = [] := rfl
  rwa [List.append_nil, hempty, List.append_nil, List.map_map] at hlines

/-- A carriage return is at the end of what is behind another character, or nowhere. -/
theorem stripCr_append {c : Char} (hc : c ≠ '\r') (s t : Str) :
    stripCr (s ++ c :: t) = s ++ c :: stripCr t := by
  cases t with
  | nil =>
      have hlast : (s ++ [c]).getLast? ≠ some '\r' := by
        rw [List.getLast?_concat]
        exact fun h => hc (Option.some.inj h)
      exact if_neg hlast
  | cons d t =>
      have hlast : (s ++ c :: d :: t).getLast? = (d :: t).getLast? := by
        simp [List.getLast?_append, List.getLast?_cons]
      unfold stripCr
      rw [hlast]
      split
      · rw [List.dropLast_append_of_ne_nil (List.cons_ne_nil c _)]
        rfl
      · rfl

theorem stripCr_front (line : Str) : stripCr line <+: line := by
  unfold stripCr
  split
  · exact List.dropLast_prefix line
  · exact List.prefix_rfl

theorem trim_stripCr (line : Str) : trim (stripCr line) = trim line := by
  unfold stripCr
  split
  · next hlast =>
      obtain ⟨front, rfl⟩ := List.getLast?_eq_some_iff.mp hlast
      have hfront : ∀ c ∈ ([] : Str), isWhitespace c := nofun
      have hback : ∀ c ∈ ['\r'], isWhitespace c := List.forall_mem_singleton.mpr rfl
      have htrim := trimMatches_append (s := front) hfront hback
      rw [List.dropLast_concat]
      exact htrim.symm
  · rfl

/-- What is trimmed has no carriage return at its end. -/
theorem getLast?_trimmed (h : trim s = s) : s.getLast? ≠ some '\r' := by
  intro hlast
  have hstrip : stripCr s = s.dropLast := if_pos hlast
  have hshort := (infix_trim (stripCr s)).length_le
  rw [trim_stripCr, h, hstrip, List.length_dropLast] at hshort
  have hpos : 0 < s.length := List.length_pos_iff.mpr fun hnil => by
    rw [hnil] at hlast
    cases hlast
  omega

theorem map_trim_stripCr (ls : List Str) : (ls.map stripCr).map trim = ls.map trim := by
  rw [List.map_map]
  exact List.map_congr_left fun line _ => trim_stripCr line

/-- A line is a piece of the text. -/
theorem infix_of_mem_linesFrom {before : Str} (h : line ∈ linesFrom before s) :
    line <:+: before ++ s := by
  induction s generalizing before with
  | nil =>
      rw [linesFrom] at h
      split at h
      · cases h
      · rw [List.mem_singleton.mp h, List.append_nil]
  | cons c s ih =>
      rw [linesFrom] at h
      split at h
      · cases List.mem_cons.mp h with
        | inl hline =>
            rw [hline]
            exact (stripCr_front before).isInfix.trans (List.prefix_append _ _).isInfix
        | inr hlater =>
            exact (ih hlater).trans ⟨before ++ [c], [], by simp⟩
      · rw [List.append_cons]
        exact ih h

theorem oneLine_of_mem_linesFrom {before : Str} (hbefore : '\n' ∉ before)
    (h : line ∈ linesFrom before s) : '\n' ∉ line := by
  induction s generalizing before with
  | nil =>
      rw [linesFrom] at h
      split at h
      · cases h
      · rwa [List.mem_singleton.mp h]
  | cons c s ih =>
      rw [linesFrom] at h
      split at h
      · cases List.mem_cons.mp h with
        | inl hline =>
            rw [hline]
            exact fun hmem => hbefore ((stripCr_front before).subset hmem)
        | inr hlater => exact ih List.not_mem_nil hlater
      · next hc =>
          refine ih (fun hmem => ?_) h
          cases List.mem_append.mp hmem with
          | inl hmem => exact hbefore hmem
          | inr hmem => exact hc (List.mem_singleton.mp hmem).symm

theorem oneLine_of_mem_lines (h : line ∈ lines s) : '\n' ∉ line :=
  oneLine_of_mem_linesFrom List.not_mem_nil h

theorem infix_of_mem_lines (h : line ∈ lines s) : line <:+: s := infix_of_mem_linesFrom h

/-! ## Pieces of a text -/

/-- A piece without a line feed is a piece of one line. -/
theorem infix_line {piece : Str} (hpiece : '\n' ∉ piece) (h : piece <:+: line ++ '\n' :: rest) :
    piece <:+: line ∨ piece <:+: rest := by
  induction line with
  | nil =>
      rcases List.infix_cons_iff.mp h with hfront | hrest
      · cases piece with
        | nil => exact .inl List.infix_rfl
        | cons c piece =>
            rw [(List.cons_prefix_cons.mp hfront).1] at hpiece
            exact absurd (List.mem_cons_self ..) hpiece
      · exact .inr hrest
  | cons c line ih =>
      rcases List.infix_cons_iff.mp h with hfront | hlater
      · have hself : c :: line <+: c :: line ++ '\n' :: rest := List.prefix_append _ _
        rcases List.prefix_or_prefix_of_prefix hfront hself with hline | hline
        · exact .inl hline.isInfix
        · obtain ⟨more, rfl⟩ := hline
          have hmore := (List.prefix_append_right_inj _).mp hfront
          cases more with
          | nil =>
              rw [List.append_nil]
              exact .inl List.infix_rfl
          | cons d more =>
              rw [(List.cons_prefix_cons.mp hmore).1] at hpiece
              exact absurd (List.mem_append_right _ (List.mem_cons_self ..)) hpiece
      · exact (ih hlater).imp List.infix_cons id

/-- A piece begins behind what does not have its first character. -/
theorem infix_behind {c : Char} {piece front : Str} (hc : c ∉ front)
    (h : c :: piece <:+: front ++ s) : c :: piece <:+: s := by
  induction front with
  | nil => exact h
  | cons d front ih =>
      rw [List.mem_cons, not_or] at hc
      rcases List.infix_cons_iff.mp h with hfront | hlater
      · exact absurd (List.cons_prefix_cons.mp hfront).1 hc.1
      · exact ih hc.2 hlater

/-! ## Without the beginning -/

theorem suffix_line {tail : Str} (h : tail <:+ line ++ '\n' :: rest) :
    tail <:+ rest ∨ ∃ part, part <:+ line ∧ tail = part ++ '\n' :: rest := by
  obtain ⟨before, hbefore⟩ := h
  rcases List.append_eq_append_iff.mp hbefore with ⟨part, hline, htail⟩ | ⟨part, _, htail⟩
  · exact .inr ⟨part, ⟨before, hline.symm⟩, htail⟩
  · cases part with
    | nil => exact .inr ⟨[], List.nil_suffix, htail.symm⟩
    | cons c part =>
        obtain ⟨_, hrest⟩ := List.cons.inj htail
        exact .inl ⟨part, hrest.symm⟩

/-- What is left begins in one of the lines, or behind them. -/
theorem suffix_unlines {tail : Str} (h : tail <:+ unlines ls ++ rest) :
    tail <:+ rest ∨ ∃ part line later, line :: later <:+ ls ∧ part <:+ line ∧
      tail = part ++ '\n' :: (unlines later ++ rest) := by
  induction ls with
  | nil => exact .inl h
  | cons line ls ih =>
      rw [unlines_cons] at h
      rcases suffix_line h with hlater | ⟨part, hpart, htail⟩
      · rcases ih hlater with hrest | ⟨part, l, later, hls, hpart, htail⟩
        · exact .inl hrest
        · exact .inr ⟨part, l, later, hls.trans (List.suffix_cons _ _), hpart, htail⟩
      · exact .inr ⟨part, line, ls, List.suffix_rfl, hpart, htail⟩

end ShellfleetAgent.Lib.Text
