import ShellfleetAgent.Agent.Exec

/-!
# The command that is run, and the one that is on the list

The list is asked about the command without the white space around it, of whatever kind; to
the shell goes the command with all of it. The shell skips spaces, tabs and line breaks,
and takes any other white space for a part of the command. So it may come to run a command
that is not on the list, and it does where there is such white space.
-/

namespace ShellfleetAgent.Agent.Exec

open ShellfleetAgent.Lib

variable {fromStr : Str → Except Str (List Str)} {raw : Option Str} {command text : Str}
  {allowlist : List Str}

/-- What the shell skips before and after a command. -/
def isShellBlank (c : Char) : Bool := c = ' ' || c = '\t' || c = '\n'

def shellTrim (s : Str) : Str := Text.trimMatches isShellBlank s

theorem isWhitespace_of_isShellBlank (c : Char) (h : isShellBlank c) : Text.isWhitespace c := by
  simp only [isShellBlank, Bool.or_eq_true, decide_eq_true_eq] at h
  rcases h with (rfl | rfl) | rfl <;> decide

theorem trim_shellTrim (s : Str) : Text.trim (shellTrim s) = Text.trim s :=
  Text.trimMatches_trimMatches isWhitespace_of_isShellBlank s

/-- Every entry of the list is without white space around it. -/
theorem allowlist_trimmed (h : parseCommandAllowlist fromStr raw = .ok allowlist)
    (hmem : text ∈ allowlist) : Text.trim text = text ∧ text ≠ [] := by
  unfold parseCommandAllowlist at h
  split at h
  · cases h
  · split at h
    · cases h
    · next entries hentries =>
        dsimp only at h
        split at h
        · cases h
        · cases h
          obtain ⟨hmem, hne⟩ := List.mem_filter.mp hmem
          obtain ⟨entry, _, htrim⟩ := List.mem_map.mp hmem
          rw [← htrim]
          refine ⟨Text.trim_trim entry, ?_⟩
          rw [htrim]
          exact of_decide_eq_true hne

theorem commandAllowed_iff (h : parseCommandAllowlist fromStr raw = .ok allowlist) :
    commandAllowed command allowlist = true ↔ Text.trim command ∈ allowlist := by
  simp only [commandAllowed, Bool.and_eq_true, decide_eq_true_eq, List.any_eq_true, beq_iff_eq,
    exists_eq_right']
  exact ⟨fun hallowed => hallowed.2, fun hmem => ⟨(allowlist_trimmed h hmem).2, hmem⟩⟩

theorem spawns_eq_some {argv : List Str} : spawns fromStr raw command = some argv ↔
    argv = ["/bin/sh".toList, "-c".toList, command] ∧
      ∃ allowlist, parseCommandAllowlist fromStr raw = .ok allowlist ∧
        Text.trim command ∈ allowlist := by
  unfold spawns
  cases hparse : parseCommandAllowlist fromStr raw with
  | error e =>
      refine iff_of_false (Option.some_ne_none argv).symm fun h => ?_
      obtain ⟨_, _, hok, _⟩ := h
      cases hok
  | ok allowlist =>
      dsimp only
      split
      · next hallowed =>
          have hmem := (commandAllowed_iff hparse).mp hallowed
          constructor
          · intro h
            exact ⟨(Option.some.inj h).symm, allowlist, rfl, hmem⟩
          · intro h
            rw [h.1]
      · next hblocked =>
          refine iff_of_false (Option.some_ne_none argv).symm fun h => hblocked ?_
          obtain ⟨_, _, hok, hmem⟩ := h
          cases hok
          exact (commandAllowed_iff hparse).mpr hmem

/-- `start` goes on from a spawn, and from nothing else. -/
theorem start_spawns (fromStr : Str → Except Str (List Str)) (raw : Option Str) (command : Str)
    (ms : Nat) : (start fromStr raw command (.ok ()) ms).isRight ↔
      (spawns fromStr raw command).isSome := by
  unfold start spawns
  cases parseCommandAllowlist fromStr raw with
  | error e => simp
  | ok allowlist =>
      dsimp only
      split <;> simp

/-- Without the blanks that the shell skips, the text it is given is on the list. -/
def Listed (fromStr : Str → Except Str (List Str)) (raw : Option Str) (text : Str) : Prop :=
  ∃ allowlist, parseCommandAllowlist fromStr raw = .ok allowlist ∧ shellTrim text ∈ allowlist

theorem listed_iff (h : parseCommandAllowlist fromStr raw = .ok allowlist)
    (hmem : Text.trim command ∈ allowlist) :
    Listed fromStr raw command ↔ shellTrim command = Text.trim command := by
  constructor
  · intro hlisted
    obtain ⟨entries, hentries, hshell⟩ := hlisted
    -- An entry has no white space around it that could be left to trim.
    rw [← trim_shellTrim command]
    exact (allowlist_trimmed hentries hshell).1.symm
  · intro heq
    refine ⟨allowlist, h, ?_⟩
    rw [heq]
    exact hmem

/-- The text that is executed is on the list if and only if what is around an allowed command
is what the shell skips. -/
theorem executed_listed_iff (fromStr : Str → Except Str (List Str)) (raw : Option Str)
    (command : Str) :
    (∀ program flag text, spawns fromStr raw command = some [program, flag, text] →
      Listed fromStr raw text) ↔
      ∀ allowlist, parseCommandAllowlist fromStr raw = .ok allowlist →
        commandAllowed command allowlist = true → shellTrim command = Text.trim command := by
  constructor
  · intro hall allowlist hparse hallowed
    have hmem := (commandAllowed_iff hparse).mp hallowed
    have hspawn := spawns_eq_some.mpr ⟨rfl, allowlist, hparse, hmem⟩
    exact (listed_iff hparse hmem).mp (hall _ _ command hspawn)
  · intro hblank program flag text hspawn
    obtain ⟨hargv, allowlist, hparse, hmem⟩ := spawns_eq_some.mp hspawn
    cases hargv
    have hallowed := (commandAllowed_iff hparse).mpr hmem
    exact (listed_iff hparse hmem).mpr (hblank allowlist hparse hallowed)

/-- `uptime` is on the list; what is run has a carriage return at its end. -/
theorem carriage_return_executed :
    spawns (fun _ => .ok ["uptime".toList]) (some "[\"uptime\"]".toList) "uptime\r".toList =
        some ["/bin/sh".toList, "-c".toList, "uptime\r".toList] ∧
      ¬ Listed (fun _ => .ok ["uptime".toList]) (some "[\"uptime\"]".toList) "uptime\r".toList := by
  have hparse : parseCommandAllowlist (fun _ => .ok ["uptime".toList])
      (some "[\"uptime\"]".toList) = .ok ["uptime".toList] := by decide
  refine ⟨by decide, fun hlisted => ?_⟩
  obtain ⟨entries, hentries, hmem⟩ := hlisted
  rw [hparse] at hentries
  cases hentries
  revert hmem
  decide

end ShellfleetAgent.Agent.Exec
