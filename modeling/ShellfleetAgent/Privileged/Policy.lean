import ShellfleetAgent.Privileged.Trusted

/-!
# The local policy

Which operations the gate will put to an approver at all.
-/

namespace ShellfleetAgent.Privileged

inductive Tier
  | two
  deriving DecidableEq, Repr

def nul : Char := Char.ofNat 0

def classify : TrustedOperation → Except String Tier
  | .rootCommand program args timeoutSecs =>
      if program.toList.head? ≠ some '/' ∨ nul ∈ program.toList ∨ program.utf8ByteSize > 4096 then
        .error "root command program must be a bounded absolute path"
      else if args.length > 256 ∨
          ∃ arg ∈ args, nul ∈ arg.toList ∨ arg.utf8ByteSize > 16 * 1024 then
        .error "root command arguments exceed policy limits"
      else if ¬(1 ≤ timeoutSecs ∧ timeoutSecs ≤ 3600) then
        .error "root command timeout is outside policy limits"
      else .ok .two
  | .rootPty shell ttlSecs cols rows =>
      if ¬(shell = "/bin/bash" ∨ shell = "/bin/sh" ∨ shell = "/usr/bin/bash") then
        .error "root PTY shell is not locally allowed"
      else if ¬(60 ≤ ttlSecs ∧ ttlSecs ≤ 3600) ∨ cols = 0 ∨ rows = 0 then
        .error "root PTY limits are invalid"
      else .ok .two

end ShellfleetAgent.Privileged
