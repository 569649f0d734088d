import Mathlib.Data.List.Induction
import ShellfleetAgent.Lib.Lists

/-!
# Reporting changes over a channel that may refuse

A reporter observes a value round after round and reports it when it is not the
one it reported last. The channel may have no room. A reporter that takes a
refused report for a sent one never sends it again; what its reader was told
last is then the last change that found room (`heard_remember`).
-/

namespace ShellfleetAgent.Lib

/-- An observation, and whether a report of it would have been accepted. -/
structure Round (κ : Type) where
  value : κ
  room : Bool
  deriving DecidableEq

namespace Round

variable {κ : Type} [DecidableEq κ]

/-- The value the reporter takes for reported, and the value its reader has heard. -/
structure Memory (κ : Type) where
  last : Option κ
  heard : Option κ

def observe (m : Memory κ) (r : Round κ) : Memory κ :=
  if m.last = some r.value then m
  else ⟨some r.value, if r.room then some r.value else m.heard⟩

def remember (rounds : List (Round κ)) : Memory κ := rounds.foldl observe ⟨none, none⟩

/-- `r` is not what the round before it was. -/
def Changes (before : List (Round κ)) (r : Round κ) : Prop :=
  before.getLast?.map (·.value) ≠ some r.value

instance (before : List (Round κ)) (r : Round κ) : Decidable (Changes before r) :=
  inferInstanceAs (Decidable (_ ≠ _))

/-- The last change that found room was one to `v`. -/
def LastHeard (rounds : List (Round κ)) (v : κ) : Prop :=
  ∃ before r after, rounds = before ++ r :: after ∧ r.value = v ∧ Changes before r ∧
    r.room = true ∧ ∀ mid r' rest, after = mid ++ r' :: rest →
      Changes (before ++ r :: mid) r' → r'.room = false

variable {rounds : List (Round κ)} {r : Round κ} {v : κ}

theorem remember_concat : remember (rounds ++ [r]) = observe (remember rounds) r := by
  rw [remember, remember, List.foldl_append, List.foldl_cons, List.foldl_nil]

theorem remember_last : (remember rounds).last = rounds.getLast?.map (·.value) := by
  induction rounds using List.reverseRecOn with
  | nil => rfl
  | append_singleton rounds r ih =>
      rw [remember_concat, observe, List.getLast?_concat]
      split
      · next h => exact h
      · rfl

omit [DecidableEq κ] in
theorem not_lastHeard_nil : ¬LastHeard ([] : List (Round κ)) v := by
  intro ⟨before, r, after, h, _⟩
  cases before <;> cases h

omit [DecidableEq κ] in
/-- A change that finds room is the last one so far. -/
theorem lastHeard_change (hchange : Changes rounds r) (hroom : r.room = true) :
    LastHeard (rounds ++ [r]) v ↔ r.value = v := by
  constructor
  · intro ⟨before, r₀, after, h, hv, _, _, hafter⟩
    cases concat_split h with
    | inl hnew =>
        rw [← hnew.2.1]
        exact hv
    | inr hold =>
        obtain ⟨mid, rfl, hrounds⟩ := hold
        rw [hafter mid r [] rfl (hrounds ▸ hchange)] at hroom
        cases hroom
  · intro hv
    refine ⟨rounds, r, [], rfl, hv, hchange, hroom, ?_⟩
    intro mid r' rest h
    cases mid <;> cases h

omit [DecidableEq κ] in
/-- Anything else leaves it as it was. -/
theorem lastHeard_skip (hskip : Changes rounds r → r.room = false) :
    LastHeard (rounds ++ [r]) v ↔ LastHeard rounds v := by
  constructor
  · intro ⟨before, r₀, after, h, hv, hchange, hroom, hafter⟩
    cases concat_split h with
    | inl hnew =>
        obtain ⟨rfl, rfl, _⟩ := hnew
        rw [hskip hchange] at hroom
        cases hroom
    | inr hold =>
        obtain ⟨mid, rfl, hrounds⟩ := hold
        refine ⟨before, r₀, mid, hrounds, hv, hchange, hroom, ?_⟩
        intro mid' r₁ rest hmid
        exact hafter mid' r₁ (rest ++ [r]) (by rw [hmid]; simp)
  · intro ⟨before, r₀, after, h, hv, hchange, hroom, hafter⟩
    refine ⟨before, r₀, after ++ [r], by rw [h]; simp, hv, hchange, hroom, ?_⟩
    intro mid r' rest hmid hchange'
    cases concat_split hmid with
    | inl hnew =>
        obtain ⟨rfl, rfl, _⟩ := hnew
        exact hskip (h ▸ hchange')
    | inr hold =>
        obtain ⟨rest', _, hmid⟩ := hold
        exact hafter mid r' rest' hmid hchange'

/-- What the reader was told last. -/
theorem heard_remember : (remember rounds).heard = some v ↔ LastHeard rounds v := by
  induction rounds using List.reverseRecOn with
  | nil => exact iff_of_false nofun not_lastHeard_nil
  | append_singleton rounds r ih =>
      rw [remember_concat, observe, remember_last]
      by_cases hsame : rounds.getLast?.map (·.value) = some r.value
      · rw [if_pos hsame, ih]
        exact (lastHeard_skip fun hchange => absurd hsame hchange).symm
      · rw [if_neg hsame]
        cases hroom : r.room with
        | true =>
            rw [lastHeard_change hsame hroom]
            simp
        | false =>
            rw [lastHeard_skip fun _ => hroom, ← ih]
            simp

/-- A reader who missed no change knows the value. -/
theorem lastHeard_of_heard_all (hall : ∀ before r after, rounds = before ++ r :: after →
    Changes before r → r.room = true) (hlast : rounds.getLast?.map (·.value) = some v) :
    LastHeard rounds v := by
  induction rounds using List.reverseRecOn with
  | nil => cases hlast
  | append_singleton rounds r ih =>
      rw [List.getLast?_concat, Option.map_some, Option.some.injEq] at hlast
      by_cases hsame : rounds.getLast?.map (·.value) = some r.value
      · rw [lastHeard_skip fun hchange => absurd hsame hchange]
        refine ih (fun before r₀ after h => ?_) (hlast ▸ hsame)
        exact hall before r₀ (after ++ [r]) (by rw [h]; simp)
      · rw [lastHeard_change hsame (hall rounds r [] rfl hsame)]
        exact hlast

end Round

end ShellfleetAgent.Lib
