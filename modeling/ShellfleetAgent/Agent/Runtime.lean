import ShellfleetAgent.Lib.Hex
import ShellfleetAgent.Lib.Lines
import ShellfleetAgent.Privileged.Gate

/-!
# The agent runs without privileges

`assert_unprivileged_runtime` of `main.rs`, with which the agent starts: it does not run as
root, with capabilities, or as a member of the group that may talk to docker.
-/

namespace ShellfleetAgent.Agent.Runtime

open ShellfleetAgent.Lib Text

/-- What the process is told about itself: by the system calls, and by `/proc/self/status` and
`/etc/group` where they can be read. `getgroups` is called for its count first. -/
structure Process where
  geteuid : UInt32
  status : Option Bytes
  group : Option Bytes
  groupCount : Int
  getgroups : Option (List UInt32)

inductive Refusal
  | root
  | capabilities
  | dockerGroup
  deriving DecidableEq

def Refusal.text : Refusal → String
  | .root => "shellfleet-agent refuses to run as root; " ++
      "use the separate approval gate for trusted root operations"
  | .capabilities => "shellfleet-agent refuses to run with effective Linux capabilities"
  | .dockerGroup => "shellfleet-agent refuses membership in the root-equivalent docker group"

/-- `read_to_string`, which refuses what is not UTF-8. -/
def readToString (file : Option Bytes) : Option Str := file.bind fromUtf8

/-- The capabilities that are in effect, as a mask. -/
def effective (status : Str) : Nat :=
  (((lines status).findSome? (stripStart "CapEff:\t".toList)).bind
    fun hex => parseHexU64 (trim hex)).getD 0

/-- The group id on the line of the docker group. -/
def dockerGid (line : Str) : Option UInt32 :=
  match line.splitOn ':' with
  | name :: _ :: gid :: _ =>
      if name = "docker".toList then Privileged.parseU32 (String.ofList gid) else none
  | _ => none

/-- The process goes on, or exits with a refusal. -/
def assertUnprivilegedRuntime (p : Process) : Except Refusal Unit := do
  if p.geteuid = 0 then throw .root
  if ((readToString p.status).map effective).getD 0 ≠ 0 then throw .capabilities
  match (readToString p.group).bind fun groups => (lines groups).findSome? dockerGid with
  | none => return
  | some gid =>
    if 0 < p.groupCount ∧ gid ∈ p.getgroups.getD [] then throw .dockerGroup

end ShellfleetAgent.Agent.Runtime
