import ShellfleetAgent.Agent.Docker
import ShellfleetAgent.Agent.LogSources
import ShellfleetAgent.Lib.Lines

/-!
# What a prune has removed

`system_prune_apply` and `prune_volumes` of `docker.rs`. What docker has printed is cut
to its end when it is too long for a response, and it is the cut text that is read. How
a size is read (`parse_docker_size`, in floating point) is a parameter; nothing is a panic.
-/

namespace ShellfleetAgent.Agent.Prune

open ShellfleetAgent.Lib
open Docker (CommandLine combineStdoutStderr)
open LogSources (debugCode)

inductive Section
  | containers
  | images
  | networks
  | volumes
  deriving DecidableEq

def Section.header : Section → Str
  | .containers => "Deleted Containers:".toList
  | .images => "Deleted Images:".toList
  | .networks => "Deleted Networks:".toList
  | .volumes => "Deleted Volumes:".toList

/-- The section that a line begins. -/
def headed (l : Str) : Option Section :=
  [.containers, .images, .networks, .volumes].find? fun k => l = Section.header k

def totalHeader : Str := "Total reclaimed space:".toList

/-- `str::trim_start_matches` of a text, which goes as often as it is there. -/
def trimStartMatches (start : Str) : Nat → Str → Str
  | 0, l => l
  | n + 1, l =>
      match Text.stripStart start l with
      | some rest => trimStartMatches start n rest
      | none => l

/-- The size on the last line. -/
def reclaimedValue (l : Str) : Str := Text.trim (trimStartMatches totalHeader l.length l)

structure PruneOutcome where
  success : Bool := false
  reclaimedBytes : Nat := 0
  containersRemoved : List Str := []
  imagesRemoved : List Str := []
  networksRemoved : List Str := []
  volumesRemoved : List Str := []
  log : Str := []
  error : Option Str := none
  deriving DecidableEq

def PruneOutcome.push (out : PruneOutcome) (l : Str) : Section → PruneOutcome
  | .containers => { out with containersRemoved := out.containersRemoved ++ [l] }
  | .images => { out with imagesRemoved := out.imagesRemoved ++ [l] }
  | .networks => { out with networksRemoved := out.networksRemoved ++ [l] }
  | .volumes => { out with volumesRemoved := out.volumesRemoved ++ [l] }

section Parsing

variable (parseDockerSize : Str → Nat)

/-- One line of the log of a system prune. -/
def pruneLine (st : Option Section × PruneOutcome) (line : Str) : Option Section × PruneOutcome :=
  let (current, out) := st
  let l := Text.trim line
  match headed l with
  | some k => (some k, out)
  | none =>
      if totalHeader.isPrefixOf l then
        (none, { out with reclaimedBytes := parseDockerSize (reclaimedValue l) })
      else if l = [] then (none, out)
      else
        match current with
        | some k => (current, out.push l k)
        | none => (current, out)

def systemPruneApply (run : CommandLine → Except Str Output) (volumes : Bool) :
    Option PruneOutcome :=
  match run (Docker.systemPruneApply volumes) with
  | .error e => some { error := some ("spawn: ".toList ++ e) }
  | .ok output => do
      let log ← combineStdoutStderr output
      let out : PruneOutcome :=
        { success := output.success, log,
          error := if output.success then none
            else some ("docker system prune exit ".toList ++ debugCode output.code) }
      return ((Text.lines log).foldl (pruneLine parseDockerSize) (none, out)).2

/-- What `prune_volumes` returns. -/
structure PrunedVolumes where
  success : Bool
  removed : List Str
  reclaimedBytes : Nat
  log : Str
  error : Option Str
  deriving DecidableEq

/-- One line of the log of a volume prune. -/
def volumeLine (st : Bool × List Str × Nat) (line : Str) : Bool × List Str × Nat :=
  let (inDeleted, removed, reclaimedBytes) := st
  let l := Text.trim line
  if "Deleted Volumes".toList.isPrefixOf l then (true, removed, reclaimedBytes)
  else if totalHeader.isPrefixOf l then (false, removed, parseDockerSize (reclaimedValue l))
  else if inDeleted ∧ l ≠ [] then (inDeleted, removed ++ [l], reclaimedBytes)
  else (inDeleted, removed, reclaimedBytes)

def pruneVolumes (run : CommandLine → Except Str Output) : Option PrunedVolumes :=
  match run Docker.pruneVolumes with
  | .error e => some ⟨false, [], 0, [], some ("spawn: ".toList ++ e)⟩
  | .ok output => do
      let log ← combineStdoutStderr output
      if output.success then
        let (_, removed, reclaimedBytes) :=
          (Text.lines log).foldl (volumeLine parseDockerSize) (false, [], 0)
        return ⟨true, removed, reclaimedBytes, log, none⟩
      else
        return ⟨false, [], 0, log,
          some ("docker volume prune exit ".toList ++ debugCode output.code)⟩

end Parsing

end ShellfleetAgent.Agent.Prune
