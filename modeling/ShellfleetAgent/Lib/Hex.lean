import ShellfleetAgent.Lib.JsonText

/-!
# Hexadecimal numbers

`u64::from_str_radix` to base 16, and numbers that are printed with a fixed number of digits.
-/

namespace ShellfleetAgent.Lib.Text

open JsonText (hexDigit)

def hexValue (c : Char) : Option Nat :=
  if '0' ≤ c ∧ c ≤ '9' then some (c.toNat - '0'.toNat)
  else if 'a' ≤ c ∧ c ≤ 'f' then some (c.toNat - 'a'.toNat + 10)
  else if 'A' ≤ c ∧ c ≤ 'F' then some (c.toNat - 'A'.toNat + 10)
  else none

/-- The number that digits stand for, behind the digits that were read before. -/
def hexFrom (n : Nat) : Str → Option Nat
  | [] => some n
  | c :: s => (hexValue c).bind fun d => hexFrom (n * 16 + d) s

/-- `u64::from_str_radix(s, 16)`. -/
def parseHexU64 (s : Str) : Option Nat :=
  let digits := (stripStart ['+'] s).getD s
  if digits = [] then none
  else (hexFrom 0 digits).filter (· < UInt64.size)

/-- The last `width` digits of a number. -/
def hexFixed : Nat → Nat → Str
  | 0, _ => []
  | width + 1, n => hexFixed width (n / 16) ++ [hexDigit (n % 16)]

theorem hexValue_hexDigit : ∀ d < 16, hexValue (hexDigit d) = some d := by
  decide

theorem hexFrom_append (n : Nat) (s t : Str) :
    hexFrom n (s ++ t) = (hexFrom n s).bind fun m => hexFrom m t := by
  induction s generalizing n with
  | nil => rfl
  | cons c s ih =>
      rw [List.cons_append, hexFrom, hexFrom]
      cases hexValue c with
      | none => rfl
      | some d => exact ih _

theorem hexFrom_hexFixed (width n : Nat) :
    hexFrom 0 (hexFixed width n) = some (n % 16 ^ width) := by
  induction width generalizing n with
  | zero =>
      rw [Nat.pow_zero, Nat.mod_one]
      rfl
  | succ width ih =>
      rw [hexFixed, hexFrom_append, ih]
      show (hexValue (hexDigit (n % 16))).bind _ = _
      rw [hexValue_hexDigit _ (Nat.mod_lt _ (by omega))]
      show some (n / 16 % 16 ^ width * 16 + n % 16) = _
      rw [Nat.pow_succ, Nat.mul_comm (16 ^ width), Nat.mod_mul, Nat.add_comm, Nat.mul_comm]

theorem length_hexFixed (width n : Nat) : (hexFixed width n).length = width := by
  induction width generalizing n with
  | zero => rfl
  | succ width ih => rw [hexFixed, List.length_append, ih, List.length_singleton]

theorem isDigit_hexFixed {width n : Nat} {c : Char} (h : c ∈ hexFixed width n) :
    ∃ d < 16, c = hexDigit d := by
  induction width generalizing n with
  | zero => cases h
  | succ width ih =>
      rcases List.mem_append.mp h with h | h
      · exact ih h
      · exact ⟨_, Nat.mod_lt n (by omega), List.mem_singleton.mp h⟩

theorem hexDigit_plain : ∀ d < 16,
    hexDigit d ≠ '+' ∧ hexDigit d ≠ '\n' ∧ isWhitespace (hexDigit d) = false := by
  decide

/-- What is printed with enough digits is read back. -/
theorem parseHexU64_hexFixed {width n : Nat} (hwidth : width ≠ 0) (hn : n < 16 ^ width)
    (hsize : n < UInt64.size) : parseHexU64 (hexFixed width n) = some n := by
  have hne : hexFixed width n ≠ [] := by
    intro hnil
    have hlength := length_hexFixed width n
    rw [hnil] at hlength
    exact hwidth hlength.symm
  have hplus : stripStart ['+'] (hexFixed width n) = none := by
    cases hdigits : hexFixed width n with
    | nil => rfl
    | cons c rest =>
        obtain ⟨d, hd, rfl⟩ := isDigit_hexFixed (n := n) (c := c)
          (by rw [hdigits]; exact List.mem_cons_self ..)
        simp [stripStart, List.isPrefixOf, (hexDigit_plain d hd).1.symm]
  rw [parseHexU64, hplus, Option.getD_none, if_neg hne, hexFrom_hexFixed, Nat.mod_eq_of_lt hn]
  exact Option.filter_some_pos (decide_eq_true hsize)

/-- There is nothing about it to trim. -/
theorem trim_hexFixed (width n : Nat) : trim (hexFixed width n) = hexFixed width n := by
  refine trim_eq_self fun c hc => ?_
  obtain ⟨d, hd, rfl⟩ := isDigit_hexFixed hc
  exact (hexDigit_plain d hd).2.2

end ShellfleetAgent.Lib.Text
