import ShellfleetAgent.Lib.Text

/-!
# Words

What `str::split_whitespace` makes of a text: its words, wherever and however wide the
gaps between them are. And `str::find`, as far as what is behind the match.
-/

namespace ShellfleetAgent.Lib

section Words

variable {α : Type} (p : α → Bool)

/-- The pieces between separators that are not empty. -/
def wordsOf (s : List α) : List (List α) := (s.splitOnP p).filter fun w => !w.isEmpty

def IsWord (w : List α) : Prop := w ≠ [] ∧ ∀ c ∈ w, p c = false

def IsGap (gap : List α) : Prop := ∀ c ∈ gap, p c = true

/-- Words, each with the gap behind it. -/
def spread (words : List (List α × List α)) : List α := words.flatMap fun e => e.1 ++ e.2

variable {p}
variable {s w gap rest : List α} {sep : α} {words : List (List α × List α)}

theorem forall_isWord {ws : List (List α)}
    (h : (ws.all fun w => !w.isEmpty && w.all fun c => !p c) = true) : ∀ w ∈ ws, IsWord p w := by
  intro w hw
  have hboth := List.all_eq_true.mp h w hw
  rw [Bool.and_eq_true, Bool.not_eq_true', List.all_eq_true] at hboth
  refine ⟨?_, fun c hc => Bool.not_eq_true' _ ▸ hboth.2 c hc⟩
  rintro rfl
  cases hboth.1

/-- A separator is in no word. -/
theorem IsWord.not_mem {c : α} (hw : IsWord p w) (hc : p c = true) : c ∉ w := by
  intro hmem
  rw [hw.2 c hmem] at hc
  cases hc

theorem not_mem_spread {c : α} (h : ∀ e ∈ words, c ∉ e.1 ∧ c ∉ e.2) : c ∉ spread words := by
  intro hmem
  obtain ⟨e, he, hmem⟩ := List.mem_flatMap.mp hmem
  rcases List.mem_append.mp hmem with hmem | hmem
  · exact (h e he).1 hmem
  · exact (h e he).2 hmem

theorem wordsOf_append_cons (hsep : p sep = true) :
    wordsOf p (s ++ sep :: rest) = wordsOf p s ++ wordsOf p rest := by
  rw [wordsOf, List.splitOnP_append_cons _ _ hsep, List.filter_append]
  rfl

theorem wordsOf_nil : wordsOf p [] = [] := by
  rw [wordsOf, List.splitOnP_nil]
  rfl

theorem wordsOf_word (hw : IsWord p w) : wordsOf p w = [w] := by
  rw [wordsOf, List.splitOnP_eq_singleton hw.2]
  cases w with
  | nil => exact absurd rfl hw.1
  | cons c w => rfl

/-- A gap in front makes no difference. -/
theorem wordsOf_gap (hgap : IsGap p gap) : wordsOf p (gap ++ rest) = wordsOf p rest := by
  induction gap with
  | nil => rfl
  | cons c gap ih =>
      have hc : wordsOf p ([] ++ c :: (gap ++ rest)) = wordsOf p [] ++ wordsOf p (gap ++ rest) :=
        wordsOf_append_cons (hgap c (List.mem_cons_self ..))
      rw [wordsOf_nil, List.nil_append, List.nil_append] at hc
      rw [List.cons_append, hc]
      exact ih fun d hd => hgap d (List.mem_cons_of_mem _ hd)

/-- Nor does one at the end. -/
theorem wordsOf_append_gap (hgap : IsGap p gap) : wordsOf p (s ++ gap) = wordsOf p s := by
  cases gap with
  | nil => rw [List.append_nil]
  | cons c gap =>
      have hrest : wordsOf p (gap ++ []) = wordsOf p [] :=
        wordsOf_gap fun d hd => hgap d (List.mem_cons_of_mem _ hd)
      rw [List.append_nil, wordsOf_nil] at hrest
      rw [wordsOf_append_cons (hgap c (List.mem_cons_self ..)), hrest, List.append_nil]

theorem wordsOf_word_gap (hw : IsWord p w) (hgap : IsGap p gap) (hne : gap ≠ []) :
    wordsOf p (w ++ (gap ++ rest)) = w :: wordsOf p rest := by
  obtain ⟨c, gap, rfl⟩ := List.exists_cons_of_ne_nil hne
  rw [List.cons_append, wordsOf_append_cons (hgap c (List.mem_cons_self ..)), wordsOf_word hw,
    wordsOf_gap fun d hd => hgap d (List.mem_cons_of_mem _ hd)]
  rfl

theorem wordsOf_spread
    (hwords : ∀ e ∈ words, IsWord p e.1 ∧ IsGap p e.2 ∧ e.2 ≠ []) :
    wordsOf p (spread words ++ rest) = words.map Prod.fst ++ wordsOf p rest := by
  induction words with
  | nil => rfl
  | cons e words ih =>
      obtain ⟨hw, hgap, hne⟩ := hwords e (List.mem_cons_self ..)
      rw [spread, List.flatMap_cons, List.append_assoc, List.append_assoc,
        wordsOf_word_gap hw hgap hne]
      exact congrArg (e.1 :: ·) (ih fun e he => hwords e (List.mem_cons_of_mem _ he))

end Words

namespace Text

/-- `str::split_whitespace`. -/
def splitWhitespace (s : Str) : List Str := wordsOf isWhitespace s

/-- What is behind the first match of `str::find`. -/
def findBehind (piece : Str) : Str → Option Str
  | [] => if piece = [] then some [] else none
  | c :: s =>
      if piece.isPrefixOf (c :: s) then some ((c :: s).drop piece.length) else findBehind piece s

theorem findBehind_here {piece : Str} (hne : piece ≠ []) (rest : Str) :
    findBehind piece (piece ++ rest) = some rest := by
  obtain ⟨c, piece, rfl⟩ := List.exists_cons_of_ne_nil hne
  have hprefix : (c :: piece).isPrefixOf (c :: (piece ++ rest)) = true :=
    List.isPrefixOf_iff_prefix.mpr (List.prefix_append (c :: piece) rest)
  rw [List.cons_append, findBehind, if_pos hprefix, ← List.cons_append, List.drop_left]

theorem findBehind_later {c d : Char} {piece s : Str} (h : c ≠ d) :
    findBehind (c :: piece) (d :: s) = findBehind (c :: piece) s := by
  have hprefix : ¬(c :: piece).isPrefixOf (d :: s) = true := by
    rw [List.isPrefixOf_iff_prefix, List.cons_prefix_cons]
    exact fun hboth => h hboth.1
  rw [findBehind, if_neg hprefix]

end Text

end ShellfleetAgent.Lib
