import ShellfleetAgent.Agent.Apt
import ShellfleetAgent.Agent.Backup
import ShellfleetAgent.Agent.Docker
import ShellfleetAgent.Lib.Lossy

/-!
# Logs that are cut

The log of a child process that is too long keeps its end, under a line that says how much
is missing. Where to cut is counted in bytes, and the three functions that do so panic if
that is inside a character.
-/

namespace ShellfleetAgent.Agent

open ShellfleetAgent.Lib Text

/-- The function has not panicked, and what it has made of a text that is too long is the
header with an end of the text under it, within the cap. -/
def Truncated (text : Str) (cap : Nat) (result : Option Str) : Prop :=
  ∃ log, result = some log ∧ (cap < utf8Len text →
    ∃ tail, tail <:+ text ∧ utf8Len tail ≤ cap ∧ log = cutHeader (utf8Len text - cap) ++ tail)

/-- The text is short enough, or a character begins where it is cut. -/
def CutsWhole (text : Str) (cap : Nat) : Prop := utf8Len text ≤ cap ∨ CutsAt text cap

theorem keepTail_truncated_iff (text : Str) (cap : Nat) :
    Truncated text cap (keepTail text cap) ↔ CutsWhole text cap := by
  constructor
  · intro h
    obtain ⟨log, hlog, _⟩ := h
    by_cases hshort : utf8Len text ≤ cap
    · exact .inl hshort
    · obtain ⟨tail, hsuffix, hlen, _⟩ := (keepTail_long (Nat.not_le.mp hshort)).mp hlog
      exact .inr ⟨tail, hsuffix, hlen⟩
  · intro h
    by_cases hshort : utf8Len text ≤ cap
    · exact ⟨text, keepTail_short hshort, fun hlong => absurd hshort (Nat.not_le.mpr hlong)⟩
    · obtain ⟨tail, hsuffix, hlen⟩ := h.resolve_left hshort
      have hlong := Nat.not_le.mp hshort
      refine ⟨_, (keepTail_long hlong).mpr ⟨tail, hsuffix, hlen, rfl⟩, fun _ => ?_⟩
      exact ⟨tail, hsuffix, Nat.le_of_eq hlen, rfl⟩

/-- Each of the three cuts a log as it should exactly if a character begins at the cut. -/
theorem logs_truncated_iff (output : Output) (log : Str) (buf : Bytes) (limit : Nat) :
    (Truncated (Docker.combinedText output) 8000 (Docker.combineStdoutStderr output) ↔
      CutsWhole (Docker.combinedText output) 8000) ∧
    (Truncated log Backup.logCap (Backup.truncate log Backup.logCap) ↔
      CutsWhole log Backup.logCap) ∧
    (Truncated (fromUtf8Lossy buf) limit (Apt.truncateLog buf limit) ↔
      CutsWhole (fromUtf8Lossy buf) limit) :=
  ⟨keepTail_truncated_iff _ _, keepTail_truncated_iff _ _, keepTail_truncated_iff _ _⟩

/-! ## A log that is not -/

/-- `n` characters of two bytes, and one of one. -/
def umlauts (n : Nat) : Bytes := (List.replicate n [0xC3, 0xBC]).flatten ++ [0x61]

def umlautsText (n : Nat) : Str := List.replicate n (Char.ofNat 0xFC) ++ ['a']

theorem fromUtf8Lossy_umlauts (n : Nat) : fromUtf8Lossy (umlauts n) = umlautsText n := by
  induction n with
  | zero => decide
  | succ n ih =>
      show decodeFrom none ([0xC3, 0xBC] ++ (List.replicate n [0xC3, 0xBC]).flatten ++ [0x61]) = _
      rw [List.append_assoc]
      show Char.ofNat 0xFC :: fromUtf8Lossy (umlauts n) = _
      rw [ih]
      rfl

theorem utf8Len_umlautsText (n : Nat) : utf8Len (umlautsText n) = 2 * n + 1 := by
  induction n with
  | zero => rfl
  | succ n ih =>
      show 2 + utf8Len (umlautsText n) = _
      omega

/-- The first byte is to go, and the first character has two. -/
theorem keepTail_umlauts (n : Nat) : keepTail (umlautsText (n + 1)) (2 * (n + 1)) = none := by
  rw [keepTail, utf8Len_umlautsText, if_neg (by omega), Nat.add_sub_cancel_left]
  rfl

theorem combinedText_stdout (code : Option Int) (stdout : Bytes) :
    Docker.combinedText ⟨code, stdout, []⟩ = fromUtf8Lossy stdout := by
  unfold Docker.combinedText
  dsimp only
  rw [if_pos rfl]
  split
  · next h =>
      rw [h]
      rfl
  · rfl

/-- A text that is too long by one byte, of a character that has two. -/
theorem umlauts_panic :
    (∃ output, Docker.combineStdoutStderr output = none ∧
      8000 < utf8Len (Docker.combinedText output)) ∧
    (∃ log, Backup.truncate log Backup.logCap = none ∧ Backup.logCap < utf8Len log) ∧
    ∃ buf, Apt.truncateLog buf Apt.aptLogCap = none ∧
      Apt.aptLogCap < utf8Len (fromUtf8Lossy buf) := by
  have h4000 := keepTail_umlauts 3999
  have h8000 := keepTail_umlauts 7999
  refine ⟨⟨⟨some 0, umlauts 4000, []⟩, ?_, ?_⟩, ⟨umlautsText 4000, h4000, ?_⟩,
    ⟨umlauts 8000, ?_, ?_⟩⟩
  · rw [Docker.combineStdoutStderr, combinedText_stdout, fromUtf8Lossy_umlauts]
    exact h4000
  · rw [combinedText_stdout, fromUtf8Lossy_umlauts, utf8Len_umlautsText]
    decide
  · rw [utf8Len_umlautsText]
    decide
  · rw [Apt.truncateLog, fromUtf8Lossy_umlauts]
    exact h8000
  · rw [fromUtf8Lossy_umlauts, utf8Len_umlautsText]
    decide

end ShellfleetAgent.Agent
