import Mathlib.Data.List.Induction
import Mathlib.Logic.Function.Basic

/-!
# Switchboards

A board has numbered lines. A line is opened for a key, and takes what is said to the key
from then on, until the key is closed or another line is opened for it. So what a line has
heard can be read off the calls: `spoken`.
-/

namespace ShellfleetAgent.Lib.Switchboard

variable {κ α : Type}

inductive Call (κ α : Type)
  | opens (key : κ)
  | closes (key : κ)
  | tells (key : κ) (item : α)

structure Line (κ α : Type) where
  key : κ
  heard : List α

structure Board (κ α : Type) where
  lines : List (Line κ α)
  live : κ → Option Nat

def Line.hear (item : α) (line : Line κ α) : Line κ α :=
  { line with heard := line.heard ++ [item] }

/-- How many lines have been opened. -/
def opened : List (Call κ α) → Nat
  | [] => 0
  | .opens _ :: calls => opened calls + 1
  | .closes _ :: calls | .tells _ _ :: calls => opened calls

theorem exists_opened {h : Nat} {calls : List (Call κ α)} (hlt : h < opened calls) :
    ∃ before key rest, calls = before ++ .opens key :: rest ∧ opened before = h := by
  induction calls generalizing h with
  | nil => exact absurd hlt (Nat.not_lt_zero h)
  | cons call calls ih =>
      cases call with
      | opens key =>
          cases h with
          | zero => exact ⟨[], key, calls, rfl, rfl⟩
          | succ h =>
              obtain ⟨before, other, rest, rfl, rfl⟩ := ih (Nat.lt_of_succ_lt_succ hlt)
              exact ⟨.opens key :: before, other, rest, rfl, rfl⟩
      | closes key =>
          obtain ⟨before, other, rest, rfl, rfl⟩ := ih hlt
          exact ⟨.closes key :: before, other, rest, rfl, rfl⟩
      | tells key item =>
          obtain ⟨before, other, rest, rfl, rfl⟩ := ih hlt
          exact ⟨.tells key item :: before, other, rest, rfl, rfl⟩

/-- The live line of a key was opened for it. -/
def Board.Keyed (b : Board κ α) : Prop :=
  ∀ key h, b.live key = some h → ∃ line, b.lines[h]? = some line ∧ line.key = key

theorem Board.Keyed.lt {b : Board κ α} {key : κ} {h : Nat} (hb : b.Keyed)
    (hlive : b.live key = some h) : h < b.lines.length := by
  obtain ⟨line, hline, _⟩ := hb key h hlive
  exact (List.getElem?_eq_some_iff.mp hline).1

variable [DecidableEq κ]

/-- What is said to a key before it is closed or opened again. -/
def spoken (key : κ) : List (Call κ α) → List α
  | [] => []
  | .opens other :: calls | .closes other :: calls =>
      if other = key then [] else spoken key calls
  | .tells other item :: calls =>
      if other = key then item :: spoken key calls else spoken key calls

theorem spoken_eq_nil {key : κ} {calls : List (Call κ α)} (h : ∀ item, .tells key item ∉ calls) :
    spoken key calls = [] := by
  induction calls with
  | nil => rfl
  | cons call calls ih =>
      have hrest := ih fun item hmem => h item (List.mem_cons_of_mem _ hmem)
      cases call with
      | opens other | closes other =>
          rw [spoken, hrest]
          exact ite_self _
      | tells other item =>
          have hne : other ≠ key := by
            rintro rfl
            exact h item (List.mem_cons_self ..)
          rw [spoken, if_neg hne, hrest]

/-- A line for the key has been opened, and the key not closed since. -/
def isOpen (key : κ) (calls : List (Call κ α)) : Bool :=
  calls.foldl (fun now call =>
    match call with
    | .opens other => if other = key then true else now
    | .closes other => if other = key then false else now
    | .tells _ _ => now) false

namespace Board

variable {b : Board κ α} {key : κ} {h : Nat} {line : Line κ α} {heard : List α}
  {calls before rest : List (Call κ α)}

def take (b : Board κ α) : Call κ α → Board κ α
  | .opens key => ⟨b.lines ++ [⟨key, []⟩], Function.update b.live key (some b.lines.length)⟩
  | .closes key => { b with live := Function.update b.live key none }
  | .tells key item =>
      match b.live key with
      | some h => { b with lines := b.lines.modify h (Line.hear item) }
      | none => b

def after (calls : List (Call κ α)) : Board κ α := calls.foldl take ⟨[], fun _ => none⟩

theorem after_concat (calls : List (Call κ α)) (call : Call κ α) :
    after (calls ++ [call]) = (after calls).take call := by
  rw [after, List.foldl_append, List.foldl_cons, List.foldl_nil, ← after]

theorem Keyed.take (hb : b.Keyed) (call : Call κ α) : (b.take call).Keyed := by
  intro key h hlive
  cases call with
  | opens other =>
      simp only [Board.take, Function.update_apply] at hlive ⊢
      split at hlive
      · next heq =>
          cases hlive
          exact ⟨⟨other, []⟩, List.getElem?_concat_length .., heq.symm⟩
      · obtain ⟨line, hline, hkey⟩ := hb key h hlive
        exact ⟨line, List.getElem?_append_left (hb.lt hlive) ▸ hline, hkey⟩
  | closes other =>
      simp only [Board.take, Function.update_apply] at hlive ⊢
      split at hlive
      · cases hlive
      · exact hb key h hlive
  | tells other item =>
      simp only [Board.take] at hlive ⊢
      split at hlive
      · next i hi =>
          obtain ⟨line, hline, hkey⟩ := hb key h hlive
          by_cases heq : i = h
          · subst heq
            exact ⟨line.hear item, by rw [List.getElem?_modify_eq, hline]; rfl, hkey⟩
          · exact ⟨line, (List.getElem?_modify_ne _ _ heq).trans hline, hkey⟩
      · exact hb key h hlive

theorem keyed_after (calls : List (Call κ α)) : (after calls).Keyed := by
  induction calls using List.reverseRecOn with
  | nil => exact fun _ _ hlive => nomatch hlive
  | append_singleton calls call ih => exact after_concat calls call ▸ ih.take call

/-- A line that is not live hears nothing any more. -/
theorem quiet (hb : b.Keyed) (hline : b.lines[h]? = some line) (hlive : b.live line.key ≠ some h)
    (calls : List (Call κ α)) : (calls.foldl take b).lines[h]? = some line := by
  induction calls generalizing b with
  | nil => exact hline
  | cons call calls ih =>
      have hlt : h < b.lines.length := (List.getElem?_eq_some_iff.mp hline).1
      refine ih (hb.take call) ?_ ?_
      · cases call with
        | opens other => exact (List.getElem?_append_left hlt).trans hline
        | closes other => exact hline
        | tells other item =>
            simp only [take]
            split
            · next i hi =>
                refine (List.getElem?_modify_ne _ _ ?_).trans hline
                rintro rfl
                obtain ⟨line', hline', hkey⟩ := hb other i hi
                cases hline.symm.trans hline'
                exact hlive (hkey ▸ hi)
            · exact hline
      · cases call with
        | opens other =>
            simp only [take, Function.update_apply]
            split
            · intro heq
              cases heq
              exact Nat.lt_irrefl _ hlt
            · exact hlive
        | closes other =>
            simp only [take, Function.update_apply]
            split
            · intro heq
              cases heq
            · exact hlive
        | tells other item =>
            simp only [take]
            split
            · exact hlive
            · exact hlive

/-- A live line hears what is said to its key. -/
theorem hears (hb : b.Keyed) (hlive : b.live key = some h)
    (hline : b.lines[h]? = some ⟨key, heard⟩) (calls : List (Call κ α)) :
    (calls.foldl take b).lines[h]? = some ⟨key, heard ++ spoken key calls⟩ := by
  induction calls generalizing b heard with
  | nil => rw [spoken, List.append_nil, List.foldl_nil, hline]
  | cons call calls ih =>
      have hlt : h < b.lines.length := hb.lt hlive
      rw [List.foldl_cons]
      cases call with
      | opens other =>
          have hold : (b.take (.opens other)).lines[h]? = some ⟨key, heard⟩ :=
            (List.getElem?_append_left hlt).trans hline
          rw [spoken]
          split
          · next heq =>
              rw [List.append_nil]
              refine quiet (hb.take _) hold ?_ calls
              intro hnow
              rw [heq] at hnow
              simp only [take, Function.update_self, Option.some.injEq] at hnow
              exact Nat.ne_of_gt hlt hnow
          · next hne =>
              refine ih (hb.take _) ?_ hold
              exact (Function.update_of_ne (Ne.symm hne) ..).trans hlive
      | closes other =>
          rw [spoken]
          split
          · next heq =>
              rw [List.append_nil]
              refine quiet (hb.take _) hline ?_ calls
              intro hnow
              rw [heq] at hnow
              simp only [take, Function.update_self] at hnow
              cases hnow
          · next hne =>
              refine ih (hb.take _) ?_ hline
              exact (Function.update_of_ne (Ne.symm hne) ..).trans hlive
      | tells other item =>
          rw [spoken]
          split
          · next heq =>
              subst heq
              have hnow : b.take (.tells other item) =
                  { b with lines := b.lines.modify h (Line.hear item) } := by
                simp only [take, hlive]
              have hline' : (b.take (.tells other item)).lines[h]? =
                  some ⟨other, heard ++ [item]⟩ := by
                rw [hnow, List.getElem?_modify_eq, hline]
                rfl
              rw [ih (hb.take _) (by rw [hnow]; exact hlive) hline', List.append_assoc]
              rfl
          · next hne =>
              refine ih (hb.take _) ?_ ?_
              · simp only [take]
                split
                · exact hlive
                · exact hlive
              · simp only [take]
                split
                · next i hi =>
                    refine (List.getElem?_modify_ne _ _ ?_).trans hline
                    rintro rfl
                    obtain ⟨line, hline', hkey⟩ := hb other i hi
                    cases hline.symm.trans hline'
                    exact hne hkey.symm
                · exact hline

theorem length_lines (calls : List (Call κ α)) : (after calls).lines.length = opened calls := by
  have hgo : ∀ b : Board κ α,
      (calls.foldl take b).lines.length = b.lines.length + opened calls := by
    intro b
    induction calls generalizing b with
    | nil => rfl
    | cons call calls ih =>
        rw [List.foldl_cons, ih]
        cases call with
        | opens other =>
            rw [take, List.length_append, opened, List.length_singleton]
            omega
        | closes other => rfl
        | tells other item =>
            simp only [take, opened]
            split
            · rw [List.length_modify]
            · rfl
  exact (hgo _).trans (Nat.zero_add _)

/-- The line that a call opens hears what is said to the key before it is closed or opened
again. -/
theorem line_opened (before rest : List (Call κ α)) (key : κ) :
    (after (before ++ .opens key :: rest)).lines[opened before]? =
      some ⟨key, spoken key rest⟩ := by
  have hlive : ((after before).take (.opens key)).live key = some (after before).lines.length :=
    Function.update_self ..
  rw [after, List.foldl_append, List.foldl_cons, ← length_lines, ← after]
  exact hears ((keyed_after before).take _) hlive (List.getElem?_concat_length ..) rest

/-- Every line was opened by a call, and has heard what was spoken since. -/
theorem line_spoken (hline : (after calls).lines[h]? = some line) :
    ∃ before rest, calls = before ++ .opens line.key :: rest ∧ opened before = h ∧
      line.heard = spoken line.key rest := by
  have hlt : h < opened calls := by
    rw [← length_lines]
    exact (List.getElem?_eq_some_iff.mp hline).1
  obtain ⟨before, key, rest, rfl, rfl⟩ := exists_opened hlt
  rw [line_opened] at hline
  cases hline
  exact ⟨before, rest, rfl, rfl, rfl⟩

theorem isSome_live (key : κ) (calls : List (Call κ α)) :
    ((after calls).live key).isSome = isOpen key calls := by
  induction calls using List.reverseRecOn with
  | nil => rfl
  | append_singleton calls call ih =>
      rw [after_concat, isOpen, List.foldl_append, List.foldl_cons, List.foldl_nil, ← isOpen, ← ih]
      cases call with
      | opens other =>
          simp only [take, Function.update_apply, eq_comm]
          split <;> rfl
      | closes other =>
          simp only [take, Function.update_apply, eq_comm]
          split <;> rfl
      | tells other item =>
          simp only [take]
          split <;> rfl

end Board

end ShellfleetAgent.Lib.Switchboard
