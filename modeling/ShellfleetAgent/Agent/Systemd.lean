import ShellfleetAgent.Lib.Columns
import ShellfleetAgent.Lib.Host
import ShellfleetAgent.Lib.Lines

/-!
# The list of services

`list_services` of `systemd.rs`: what `systemctl` knows as JSON, or, from a `systemctl`
that does not write any, its table. How JSON is read (`serde_json::from_str` on a list
of rows) is a parameter.
-/

namespace ShellfleetAgent.Agent.Systemd

open ShellfleetAgent.Lib Text

structure ServiceInfo where
  name : Str
  description : Str
  status : Str
  activeState : Str
  deriving DecidableEq

structure SystemctlJsonRow where
  unit : Option Str
  load : Option Str
  active : Option Str
  sub : Option Str
  description : Option Str
  deriving DecidableEq

def SystemctlJsonRow.service (r : SystemctlJsonRow) : Option ServiceInfo :=
  r.unit.map fun name =>
    { name, description := r.description.getD [], status := r.sub.getD [],
      activeState := r.active.getD [] }

def bullet : Char := '●'

/-- A line without its indentation and its bullets. -/
def stripBullet (rawLine : Str) : Str :=
  ((rawLine.dropWhile isWhitespace).dropWhile (· = bullet)).dropWhile isWhitespace

/-- The service on a line of the table: its name, its load state, its active state, its
status and its description. -/
def tableLine (rawLine : Str) : Option ServiceInfo :=
  let line := stripBullet rawLine
  if line = [] then none
  else
    match columns isWhitespace 5 line with
    | [] => none
    | name :: it =>
        let activeState := it.getD 1 []
        let status := it.getD 2 []
        let description := trim (it.getD 3 [])
        -- Some versions write a header row even with `--no-legend`.
        if '.' ∉ name then none else some { name, description, status, activeState }

def jsonArgs : List String :=
  ["list-units", "--type=service", "--all", "--no-pager", "--output=json"]

def plainArgs : List String :=
  ["list-units", "--type=service", "--all", "--no-pager", "--no-legend", "--plain"]

def listServices (fromStr : Str → Option (List SystemctlJsonRow))
    (systemctl : List String → Except Str Output) : Except Str (List ServiceInfo) := do
  let spawn (args : List String) := (systemctl args).mapError ("systemctl spawn: ".toList ++ ·)
  let json ← spawn jsonArgs
  let rows := if json.success then fromStr (fromUtf8Lossy json.stdout) else none
  match rows with
  | some rows => return rows.filterMap SystemctlJsonRow.service
  | none =>
      let plain ← spawn plainArgs
      if plain.success then return (lines (fromUtf8Lossy plain.stdout)).filterMap tableLine
      else throw (fromUtf8Lossy plain.stderr)

end ShellfleetAgent.Agent.Systemd
