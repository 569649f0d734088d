import ShellfleetAgent.Lib.Host
import ShellfleetAgent.Lib.Lines
import ShellfleetAgent.Lib.Words

/-!
# The list of upgradable packages

`list_upgradable` of `apt.rs`: what `apt list --upgradable` prints, read line by line.
-/

namespace ShellfleetAgent.Agent.AptList

open ShellfleetAgent.Lib Text

structure AptUpgradable where
  name : Str
  currentVersion : Str
  newVersion : Str
  source : Str
  deriving DecidableEq

/-- What is behind `upgradable from: `, without its bracket. -/
def versionBefore (parts : List Str) : Str :=
  let joined := [' '].intercalate parts
  match findBehind "upgradable from: ".toList joined with
  | some tail => trim (trimEndMatches (· = ']') tail)
  | none => []

/-- The package that the words of a line are about: its name and source, its version, its
architecture, and from which version it is upgradable. -/
def aptWords : List Str → Option AptUpgradable
  | nameSource :: newVersion :: parts =>
      let currentVersion := versionBefore (parts.drop 1)
      let (name, source) := splitTwo '/' nameSource
      if name = [] then none else some { name, currentVersion, newVersion, source }
  | _ => none

def aptLine (line : Str) : Option AptUpgradable :=
  if line = [] ∨ "Listing".toList.isPrefixOf line ∨ "WARNING".toList.isPrefixOf line then none
  else aptWords (splitWhitespace line)

def parseAptList (stdout : Str) : List AptUpgradable := (lines stdout).filterMap aptLine

def aptArgs : List String := ["list", "--upgradable"]

def aptEnv : List (String × String) := [("DEBIAN_FRONTEND", "noninteractive"), ("LC_ALL", "C")]

/-- `apt` is what a run gives, by its arguments and what is set in its environment. -/
def listUpgradable (apt : List String → List (String × String) → Except Str Output) :
    Except Str (List AptUpgradable) := do
  let output ← (apt aptArgs aptEnv).mapError ("apt spawn: ".toList ++ ·)
  if output.success then return parseAptList (fromUtf8Lossy output.stdout)
  else throw (trim (fromUtf8Lossy output.stderr))

end ShellfleetAgent.Agent.AptList
