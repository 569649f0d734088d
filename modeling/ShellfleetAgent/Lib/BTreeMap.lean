import Mathlib.Data.List.Basic
import Mathlib.Data.List.Induction
import Mathlib.Order.Lattice

/-!
# Ordered maps

`BTreeMap`, as the list of its entries: each key once, in ascending order. An insertion
looks for the place of its key in one pass and replaces what is there.
-/

namespace ShellfleetAgent.Lib

@[ext]
structure BTreeMap (κ α : Type) [LinearOrder κ] where
  entries : List (κ × α)
  sorted : entries.Pairwise fun e e' => e.1 < e'.1

namespace BTreeMap

variable {κ α : Type} [LinearOrder κ]

def empty : BTreeMap κ α := ⟨[], .nil⟩

def get (m : BTreeMap κ α) (key : κ) : Option α := m.entries.lookup key

def insertEntry (key : κ) (a : α) : List (κ × α) → List (κ × α)
  | [] => [(key, a)]
  | e :: rest =>
    if key < e.1 then (key, a) :: e :: rest
    else if key = e.1 then (key, a) :: rest
    else e :: insertEntry key a rest

theorem mem_insertEntry {key : κ} {a : α} {e : κ × α} {entries : List (κ × α)}
    (h : e ∈ insertEntry key a entries) : e = (key, a) ∨ e ∈ entries := by
  induction entries with
  | nil => exact .inl (List.mem_singleton.mp h)
  | cons e' rest ih =>
      rw [insertEntry] at h
      split at h
      · exact List.mem_cons.mp h
      · split at h
        · exact (List.mem_cons.mp h).imp_right (List.mem_cons_of_mem _)
        · rcases List.mem_cons.mp h with rfl | hrest
          · exact .inr (List.mem_cons_self ..)
          · exact (ih hrest).imp_right (List.mem_cons_of_mem _)

theorem insertEntry_sorted (key : κ) (a : α) {entries : List (κ × α)}
    (h : entries.Pairwise fun e e' => e.1 < e'.1) :
    (insertEntry key a entries).Pairwise fun e e' => e.1 < e'.1 := by
  induction entries with
  | nil => exact List.pairwise_singleton _ _
  | cons e rest ih =>
      obtain ⟨hbelow, hrest⟩ := List.pairwise_cons.mp h
      rw [insertEntry]
      split
      · next hlt =>
          refine List.pairwise_cons.mpr ⟨fun e' he' => ?_, h⟩
          rcases List.mem_cons.mp he' with rfl | he'
          · exact hlt
          · exact hlt.trans (hbelow e' he')
      · next hnot =>
          split
          · next heq =>
              subst heq
              exact List.pairwise_cons.mpr ⟨hbelow, hrest⟩
          · next hne =>
              refine List.pairwise_cons.mpr ⟨fun e' he' => ?_, ih hrest⟩
              rcases mem_insertEntry he' with rfl | he'
              · exact lt_of_le_of_ne (not_lt.mp hnot) (Ne.symm hne)
              · exact hbelow e' he'

def insert (m : BTreeMap κ α) (key : κ) (a : α) : BTreeMap κ α :=
  ⟨insertEntry key a m.entries, insertEntry_sorted key a m.sorted⟩

/-- Entries put in one after another. -/
def extend (m : BTreeMap κ α) (entries : List (κ × α)) : BTreeMap κ α :=
  entries.foldl (fun m e => m.insert e.1 e.2) m

theorem mem_extend {m : BTreeMap κ α} {entries : List (κ × α)} {e : κ × α}
    (h : e ∈ (m.extend entries).entries) : e ∈ m.entries ∨ e ∈ entries := by
  induction entries generalizing m with
  | nil => exact .inl h
  | cons e' rest ih =>
      rcases ih h with hm | hrest
      · rcases mem_insertEntry hm with rfl | hm
        · exact .inr (List.mem_cons_self ..)
        · exact .inl hm
      · exact .inr (List.mem_cons_of_mem _ hrest)

def ofList (entries : List (κ × α)) : BTreeMap κ α := empty.extend entries

/-! ## Looking up -/

theorem lookup_cons_if (key : κ) (e : κ × α) (rest : List (κ × α)) :
    (e :: rest).lookup key = if key = e.1 then some e.2 else rest.lookup key := by
  rw [List.lookup_cons]
  by_cases heq : key = e.1
  · rw [if_pos heq, heq, beq_self_eq_true]
  · rw [if_neg heq, beq_false_of_ne heq]

theorem lookup_insertEntry (key : κ) (a : α) (entries : List (κ × α)) (key' : κ) :
    (insertEntry key a entries).lookup key' =
      if key' = key then some a else entries.lookup key' := by
  induction entries with
  | nil => exact lookup_cons_if ..
  | cons e rest ih =>
      rw [insertEntry]
      split
      · exact lookup_cons_if ..
      · split
        · next heq =>
            rw [lookup_cons_if, lookup_cons_if, ← heq]
            split
            · rfl
            · rfl
        · next hne =>
            rw [lookup_cons_if, lookup_cons_if, ih]
            by_cases heq : key' = e.1
            · have hother : key' ≠ key := fun h => hne (h.symm.trans heq)
              rw [if_pos heq, if_neg hother, if_pos heq]
            · rw [if_neg heq, if_neg heq]

theorem get_insert (m : BTreeMap κ α) (key : κ) (a : α) (key' : κ) :
    (m.insert key a).get key' = if key' = key then some a else m.get key' :=
  lookup_insertEntry key a m.entries key'

/-- The last entry for a key wins. -/
theorem get_extend (m : BTreeMap κ α) (entries : List (κ × α)) (key : κ) :
    (m.extend entries).get key = (entries.reverse.lookup key).or (m.get key) := by
  induction entries generalizing m with
  | nil => rfl
  | cons e rest ih =>
      have hfirst : m.extend (e :: rest) = (m.insert e.1 e.2).extend rest := rfl
      rw [hfirst, ih, get_insert, List.reverse_cons, List.lookup_append, Option.or_assoc,
        lookup_cons_if]
      by_cases heq : key = e.1
      · rw [if_pos heq, if_pos heq]
        rfl
      · rw [if_neg heq, if_neg heq]
        rfl

theorem lookup_filter (p : κ → Bool) (entries : List (κ × α)) (key : κ) :
    (entries.filter fun e => p e.1).lookup key =
      if p key then entries.lookup key else none := by
  induction entries with
  | nil =>
      split
      · rfl
      · rfl
  | cons e rest ih =>
      rw [lookup_cons_if, List.filter_cons]
      cases hp : p e.1 with
      | true =>
          rw [if_pos rfl, lookup_cons_if, ih]
          by_cases heq : key = e.1
          · rw [if_pos heq, if_pos heq, heq, hp, if_pos rfl]
          · rw [if_neg heq, if_neg heq]
      | false =>
          rw [if_neg Bool.false_ne_true, ih]
          by_cases heq : key = e.1
          · rw [heq, hp, if_neg Bool.false_ne_true, if_neg Bool.false_ne_true]
          · rw [if_neg heq]

/-- From behind, the first entry for a key is the last one there is. -/
theorem lookup_reverse {p : κ × α → Bool} {key : κ} (hp : ∀ e, p e = true ↔ e.1 = key)
    (entries : List (κ × α)) :
    entries.reverse.lookup key = ((entries.filter p).getLast?).map (·.2) := by
  induction entries using List.reverseRecOn with
  | nil => rfl
  | append_singleton entries e ih =>
      rw [List.reverse_append, List.reverse_singleton, List.singleton_append, lookup_cons_if,
        List.filter_append, ih]
      by_cases heq : key = e.1
      · have hlast : [e].filter p = [e] := by simp [(hp e).mpr heq.symm]
        rw [if_pos heq, hlast, List.getLast?_concat]
        rfl
      · have hlast : [e].filter p = [] := by simp [hp e, Ne.symm heq]
        rw [if_neg heq, hlast, List.append_nil]

theorem insert_ne_nil (m : BTreeMap κ α) (key : κ) (a : α) : (m.insert key a).entries ≠ [] := by
  intro hnil
  have hget := get_insert m key a key
  rw [if_pos rfl, get, hnil] at hget
  cases hget

theorem extend_ne_nil {m : BTreeMap κ α} {entries : List (κ × α)}
    (h : m.entries ≠ [] ∨ entries ≠ []) : (m.extend entries).entries ≠ [] := by
  induction entries generalizing m with
  | nil => exact h.resolve_right (not_not.mpr rfl)
  | cons e rest ih => exact ih (.inl (insert_ne_nil m e.1 e.2))

/-! ## Entries in order -/

theorem insertEntry_last {key : κ} {a : α} {entries : List (κ × α)}
    (h : ∀ e ∈ entries, e.1 < key) : insertEntry key a entries = entries ++ [(key, a)] := by
  induction entries with
  | nil => rfl
  | cons e rest ih =>
      have hbelow := h e (List.mem_cons_self ..)
      rw [insertEntry, if_neg (not_lt.mpr hbelow.le), if_neg hbelow.ne',
        ih fun e' he' => h e' (List.mem_cons_of_mem _ he')]
      rfl

theorem entries_extend {m : BTreeMap κ α} {entries : List (κ × α)}
    (h : (m.entries ++ entries).Pairwise fun e e' => e.1 < e'.1) :
    (m.extend entries).entries = m.entries ++ entries := by
  induction entries generalizing m with
  | nil => exact (List.append_nil _).symm
  | cons e rest ih =>
      have hlast : (m.insert e.1 e.2).entries = m.entries ++ [e] :=
        insertEntry_last fun e' he' =>
          (List.pairwise_append.mp h).2.2 e' he' e (List.mem_cons_self ..)
      have hrest : ((m.insert e.1 e.2).extend rest).entries = (m.insert e.1 e.2).entries ++ rest :=
        ih (by rwa [hlast, List.append_assoc])
      rw [hlast, List.append_assoc] at hrest
      exact hrest

theorem entries_ofList {entries : List (κ × α)}
    (h : entries.Pairwise fun e e' => e.1 < e'.1) : (ofList entries).entries = entries :=
  entries_extend h

theorem ofList_entries (m : BTreeMap κ α) : ofList m.entries = m :=
  BTreeMap.ext (entries_ofList m.sorted)

end BTreeMap

end ShellfleetAgent.Lib
