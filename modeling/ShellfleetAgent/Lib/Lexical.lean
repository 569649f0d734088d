import Mathlib.Logic.Relation
import ShellfleetAgent.Lib.Fs

/-!
# Paths as they are spelled

Without a file tree a path is resolved by leaving out of it what leads nowhere: a step that
stays where it is, a name with the `..` right behind it, and a `..` at the root. The order
of the omissions does not matter. Each of them leaves the reading of the path from the left
as it was (`Omits.lexical`), and that reading is where they end (`omits_lexical`), so the
names that are left are always the same ones (`resolvesTo_iff`).
-/

namespace ShellfleetAgent.Lib

variable {ν : Type}

/-- A path, and the same with one omission. -/
inductive Omits : List (Step ν) → List (Step ν) → Prop
  | here (before rest : List (Step ν)) : Omits (before ++ .here :: rest) (before ++ rest)
  | up (before : List (Step ν)) (n : ν) (rest : List (Step ν)) :
      Omits (before ++ .name n :: .up :: rest) (before ++ rest)
  | root (rest : List (Step ν)) : Omits (.up :: rest) rest

/-- What is left of a path when it is names only. -/
def ResolvesTo (steps : List (Step ν)) (names : List ν) : Prop :=
  Relation.ReflTransGen Omits steps (names.map .name)

namespace Fs

theorem lexical_append (cur : List ν) (steps rest : List (Step ν)) :
    lexical cur (steps ++ rest) = lexical (lexical cur steps) rest := by
  induction steps generalizing cur with
  | nil => rfl
  | cons step steps ih =>
      cases step with
      | name n => exact ih _
      | up => exact ih _
      | here => exact ih _

theorem lexical_names (cur names : List ν) : lexical cur (names.map .name) = cur ++ names := by
  induction names generalizing cur with
  | nil => exact (List.append_nil cur).symm
  | cons n names ih =>
      rw [List.map_cons, lexical, ih, List.append_assoc]
      rfl

/-- What a path leads through is spelled in it. -/
theorem mem_lexical {cur : List ν} {steps : List (Step ν)} {n : ν}
    (h : n ∈ lexical cur steps) : n ∈ cur ∨ .name n ∈ steps := by
  induction steps generalizing cur with
  | nil => exact .inl h
  | cons step steps ih =>
      cases step with
      | here => exact (ih h).imp_right (List.mem_cons_of_mem _)
      | up =>
          exact (ih h).imp (List.dropLast_subset cur ·) (List.mem_cons_of_mem _)
      | name m =>
          rcases ih h with hcur | hsteps
          · rcases List.mem_append.mp hcur with hcur | hm
            · exact .inl hcur
            · rw [List.mem_singleton.mp hm]
              exact .inr (List.mem_cons_self ..)
          · exact .inr (List.mem_cons_of_mem _ hsteps)

end Fs

open Fs

theorem Omits.lexical {steps left : List (Step ν)} (h : Omits steps left) :
    lexical [] left = lexical [] steps := by
  cases h with
  | here before rest => rw [lexical_append, lexical_append, Fs.lexical]
  | up before n rest =>
      rw [lexical_append, lexical_append, Fs.lexical, Fs.lexical, List.dropLast_concat]
  | root rest => rfl

theorem lexical_of_omits {steps left : List (Step ν)}
    (h : Relation.ReflTransGen Omits steps left) : lexical [] left = lexical [] steps := by
  induction h with
  | refl => rfl
  | tail _ homits ih => rw [homits.lexical, ih]

/-- Read from the left, with the names that are kept so far in front. -/
theorem omits_lexical (cur : List ν) (steps : List (Step ν)) :
    Relation.ReflTransGen Omits (cur.map .name ++ steps) ((lexical cur steps).map .name) := by
  induction steps generalizing cur with
  | nil =>
      rw [List.append_nil]
      exact .refl
  | cons step steps ih =>
      cases step with
      | here => exact .head (.here _ steps) (ih cur)
      | name n =>
          have hname := ih (cur ++ [n])
          rwa [List.map_append, List.append_assoc] at hname
      | up =>
          have hup := ih cur.dropLast
          rcases List.eq_nil_or_concat cur with rfl | ⟨before, n, rfl⟩
          · exact .head (.root steps) hup
          · rw [List.concat_eq_append, List.dropLast_concat] at hup
            rw [List.concat_eq_append, List.map_append, List.append_assoc, lexical,
              List.dropLast_concat]
            exact .head (.up _ n steps) hup

theorem resolvesTo_iff {steps : List (Step ν)} {names : List ν} :
    ResolvesTo steps names ↔ names = lexical [] steps := by
  constructor
  · intro h
    have hsame := lexical_of_omits h
    rwa [lexical_names, List.nil_append] at hsame
  · rintro rfl
    exact omits_lexical [] steps

end ShellfleetAgent.Lib
