import ShellfleetAgent.Lib.Text

/-!
# Columns

`str::splitn` with empty pieces left out, on words that are padded to columns. Each
piece that is split off costs one split, also an empty one: with wider padding the
splits are used up before the words are.
-/

namespace ShellfleetAgent.Lib.Text

/-- `str::splitn`: `n` pieces at most, and the last is what is left. -/
def splitn (p : Char → Bool) : Nat → Str → List Str
  | 0, _ => []
  | 1, s => [s]
  | n + 2, s =>
      match s.dropWhile fun c => !p c with
      | [] => [s]
      | _ :: rest => (s.takeWhile fun c => !p c) :: splitn p (n + 1) rest

/-- The pieces that are not empty. -/
def columns (p : Char → Bool) (n : Nat) (s : Str) : List Str :=
  (splitn p n s).filter fun piece => piece ≠ []

/-- Words, each padded with a character, and what follows them. -/
def padded (pad : Char) : List (Str × Nat) → Str → Str
  | [], rest => rest
  | (word, width) :: words, rest => word ++ List.replicate width pad ++ padded pad words rest

def splits : List (Str × Nat) → Nat
  | [] => 0
  | (_, width) :: words => width + splits words

section Columns

variable {p : Char → Bool} {pad : Char} {word rest : Str} {words : List (Str × Nat)} {m n : Nat}

theorem splitn_word (hword : ∀ c ∈ word, p c = false) (hpad : p pad = true) :
    splitn p (n + 2) (word ++ pad :: rest) = word :: splitn p (n + 1) rest := by
  have hkeep : ∀ c ∈ word, (!p c) = true := fun c hc => by rw [hword c hc]; rfl
  have hdrop : (word ++ pad :: rest).dropWhile (fun c => !p c) = pad :: rest := by
    rw [List.dropWhile_append_of_pos hkeep, List.dropWhile_cons, hpad]
    rfl
  have htake : (word ++ pad :: rest).takeWhile (fun c => !p c) = word := by
    rw [List.takeWhile_append_of_pos hkeep, List.takeWhile_cons, hpad]
    exact List.append_nil word
  rw [splitn, hdrop, htake]

theorem columns_word (hword : ∀ c ∈ word, p c = false) (hne : word ≠ []) (hpad : p pad = true) :
    columns p (n + 2) (word ++ pad :: rest) = word :: columns p (n + 1) rest := by
  rw [columns, splitn_word hword hpad, List.filter_cons, if_pos (decide_eq_true hne)]
  rfl

theorem columns_empty (hpad : p pad = true) :
    columns p (n + 2) (pad :: rest) = columns p (n + 1) rest := by
  have hsplit : splitn p (n + 2) ([] ++ pad :: rest) = [] :: splitn p (n + 1) rest :=
    splitn_word (fun c hc => absurd hc List.not_mem_nil) hpad
  rw [columns, ← List.nil_append (pad :: rest), hsplit]
  rfl

theorem columns_last (hne : rest ≠ []) : columns p 1 rest = [rest] := by
  rw [columns, splitn, List.filter_cons, if_pos (decide_eq_true hne)]
  rfl

/-- Padding that is left over costs its width. -/
theorem columns_padding (hpad : p pad = true) (width : Nat) :
    columns p (m + width + 1) (List.replicate width pad ++ rest) = columns p (m + 1) rest := by
  induction width with
  | zero => rfl
  | succ width ih =>
      rw [List.replicate_succ, List.cons_append, ← ih]
      exact columns_empty hpad

/-- Padding that is wider than there are splits stays in front of what is left. -/
theorem columns_padding_wide (hpad : p pad = true) (hne : rest ≠ []) {width : Nat}
    (hwide : m ≤ width) :
    columns p (m + 1) (List.replicate width pad ++ rest) =
      [List.replicate (width - m) pad ++ rest] := by
  obtain ⟨more, rfl⟩ := Nat.exists_eq_add_of_le hwide
  have hleft : columns p (0 + m + 1) (List.replicate m pad ++ (List.replicate more pad ++ rest)) =
      columns p (0 + 1) (List.replicate more pad ++ rest) := columns_padding hpad m
  rw [Nat.zero_add, ← List.append_assoc, List.replicate_append_replicate] at hleft
  rw [hleft, Nat.add_sub_cancel_left, Nat.zero_add]
  exact columns_last fun hnil => hne (List.append_eq_nil_iff.mp hnil).2

/-- The first column of a text that does not begin with a separator. -/
theorem columns_first {c : Char} (hc : p c = false) :
    ∃ more, columns p (n + 2) (c :: rest) = ((c :: rest).takeWhile fun c => !p c) :: more := by
  have hfirst : ((c :: rest).takeWhile fun c => !p c) ≠ [] := by
    rw [List.takeWhile_cons, hc]
    exact nofun
  cases hdrop : (c :: rest).dropWhile fun c => !p c with
  | nil =>
      have hwhole := List.takeWhile_append_dropWhile (p := fun c => !p c) (l := c :: rest)
      rw [hdrop, List.append_nil] at hwhole
      refine ⟨[], ?_⟩
      rw [columns, splitn, hdrop, hwhole]
      rfl
  | cons d later =>
      refine ⟨columns p (n + 1) later, ?_⟩
      rw [columns, splitn, hdrop, List.filter_cons, if_pos (decide_eq_true hfirst)]
      rfl

/-- A piece has no character that the text has not. -/
theorem subset_of_mem_splitn {piece s : Str} (h : piece ∈ splitn p n s) : piece ⊆ s := by
  induction n generalizing s with
  | zero => cases h
  | succ n ih =>
      cases n with
      | zero =>
          rw [List.mem_singleton.mp h]
          exact List.Subset.refl s
      | succ n =>
          rw [splitn] at h
          split at h
          · rw [List.mem_singleton.mp h]
            exact List.Subset.refl s
          · next hdrop =>
              cases List.mem_cons.mp h with
              | inl hfirst =>
                  rw [hfirst]
                  exact (List.takeWhile_prefix _).subset
              | inr hlater =>
                  have hsuffix : (s.dropWhile fun c => !p c) ⊆ s :=
                    (List.dropWhile_suffix _).subset
                  rw [hdrop] at hsuffix
                  exact List.Subset.trans (ih hlater)
                    (List.Subset.trans (List.subset_cons_self _ _) hsuffix)

/-- A column is a word without a separator in it, and there is padding behind it. -/
def IsColumn (p : Char → Bool) (column : Str × Nat) : Prop :=
  (∀ c ∈ column.1, p c = false) ∧ column.1 ≠ [] ∧ 0 < column.2

/-- With splits enough for all the padding, the words are the first columns. -/
theorem columns_padded (hpad : p pad = true) (hwords : ∀ column ∈ words, IsColumn p column)
    (hsplits : splits words ≤ m) :
    columns p (m + 1) (padded pad words rest) =
      words.map Prod.fst ++ columns p (m - splits words + 1) rest := by
  induction words generalizing m with
  | nil => rfl
  | cons column words ih =>
      obtain ⟨word, width⟩ := column
      obtain ⟨hword, hne, hwidth⟩ := hwords _ (List.mem_cons_self ..)
      obtain ⟨width, rfl⟩ := Nat.exists_eq_succ_of_ne_zero (Nat.ne_of_gt hwidth)
      have hsum : splits ((word, width.succ) :: words) = width + 1 + splits words := rfl
      rw [hsum] at hsplits ⊢
      obtain ⟨left, rfl⟩ := Nat.exists_eq_add_of_le hsplits
      have hcount : width + 1 + splits words + left + 1 =
          (splits words + left + width) + 2 := by omega
      rw [padded, List.append_assoc, List.replicate_succ, List.cons_append, hcount,
        columns_word hword hne hpad, columns_padding hpad,
        ih (fun column hc => hwords column (List.mem_cons_of_mem _ hc)) (Nat.le_add_right _ _),
        Nat.add_sub_cancel_left, Nat.add_sub_cancel_left]
      rfl

/-- With no more splits than that, what follows is in the column after some of the words. -/
theorem columns_crowded (hpad : p pad = true) (hne : rest ≠ [])
    (hwords : ∀ column ∈ words, IsColumn p column) (hsplits : m ≤ splits words) :
    ∃ front, ∃ first ≤ words.length,
      columns p (m + 1) (padded pad words rest) =
        (words.take first).map Prod.fst ++ [front ++ rest] := by
  have hrest : ∀ words : List (Str × Nat), padded pad words rest = padded pad words [] ++ rest := by
    intro words
    induction words with
    | nil => rfl
    | cons column words ih => rw [padded, padded, ih, List.append_assoc _ _ rest]
  induction words generalizing m with
  | nil =>
      rw [Nat.le_zero.mp hsplits]
      exact ⟨[], 0, Nat.le_refl _, columns_last hne⟩
  | cons column words ih =>
      obtain ⟨word, width⟩ := column
      obtain ⟨hword, hword_ne, hwidth⟩ := hwords _ (List.mem_cons_self ..)
      cases m with
      | zero =>
          refine ⟨padded pad ((word, width) :: words) [], 0, Nat.zero_le _, ?_⟩
          rw [hrest]
          exact columns_last fun hnil => hne (List.append_eq_nil_iff.mp hnil).2
      | succ m =>
          obtain ⟨width, rfl⟩ := Nat.exists_eq_succ_of_ne_zero (Nat.ne_of_gt hwidth)
          rw [padded, List.append_assoc, List.replicate_succ, List.cons_append,
            columns_word hword hword_ne hpad]
          by_cases hwide : m ≤ width
          · refine ⟨List.replicate (width - m) pad ++ padded pad words [], 1,
              Nat.succ_le_succ (Nat.zero_le _), ?_⟩
            have hlater : padded pad words rest ≠ [] := by
              rw [hrest]
              exact fun hnil => hne (List.append_eq_nil_iff.mp hnil).2
            rw [columns_padding_wide hpad hlater hwide, hrest words, List.append_assoc]
            rfl
          · obtain ⟨left, rfl⟩ := Nat.exists_eq_add_of_le (Nat.le_of_not_le hwide)
            have hsum : splits ((word, width.succ) :: words) = width + 1 + splits words := rfl
            rw [hsum] at hsplits
            obtain ⟨front, first, hfirst, heq⟩ :=
              ih (fun column hc => hwords column (List.mem_cons_of_mem _ hc))
                (m := left) (by omega)
            refine ⟨front, first + 1, Nat.succ_le_succ hfirst, ?_⟩
            rw [Nat.add_comm width left, columns_padding hpad, heq]
            rfl

end Columns

end ShellfleetAgent.Lib.Text
