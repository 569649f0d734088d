import ShellfleetAgent.Lib.Host
import ShellfleetAgent.Lib.Lines
import ShellfleetAgent.Lib.Words

/-!
# The statistics of the host

`stats.rs`: what `/proc`, the host's name and `df` say, as one message. How a floating point
number is read from its text is a parameter.
-/

namespace ShellfleetAgent.Agent.Stats

open ShellfleetAgent.Lib Text

/-- What there is to read; a file that cannot be read is none. -/
structure StatsHost where
  meminfo : Option Str
  uptime : Option Str
  loadavg : Option Str
  cpuinfo : Option Str
  osrelease : Option Str
  hostname : Option Str
  df : List String → Except Str Output

/-- `parse::<f32>`, and `parse::<f64>` with `as u64`. -/
structure Floats (F : Type) where
  zero : F
  parseF32 : Str → Option F
  parseSeconds : Str → Option UInt64

structure SystemStats (F : Type) where
  hostname : Str
  kernel : Str
  uptimeSecs : UInt64
  cpuCount : UInt32
  load1 : F
  load5 : F
  load15 : F
  memTotalKb : Nat
  memAvailableKb : Nat
  swapTotalKb : Nat
  swapFreeKb : Nat
  rootDiskTotalKb : Nat
  rootDiskUsedKb : Nat
  deriving DecidableEq

def readFirstWord (file : Option Str) : Option Str := file.bind fun s => (splitWhitespace s).head?

/-- `"MemTotal:       16321780 kB"`. -/
def meminfoLine (line : Str) : Option (Str × Nat) :=
  match line.splitOn ':' with
  | k :: rest :: _ => (parseU64 ((splitWhitespace (trim rest)).headD ['0'])).map (Prod.mk k)
  | _ => none

/-- In the order of the insertions. -/
def parseMeminfo (file : Option Str) : List (Str × Nat) :=
  (lines (file.getD [])).filterMap meminfoLine

/-- The last insertion counts. -/
def get (mem : List (Str × Nat)) (key : String) : Option Nat :=
  ((mem.filter fun e => e.1 = key.toList).getLast?).map Prod.snd

def readCpuCount (file : Option Str) : UInt32 :=
  let n := file.map fun s =>
    UInt32.ofNat ((lines s).countP fun line => "processor".toList.isPrefixOf line)
  (n.filter (0 < ·)).getD 1

def unknown : Str := "unknown".toList

def dfArgs : List String := ["-Pk", "/"]

/-- The cell of a row of numbers, or 0. -/
def cell (row : Str) (i : Nat) : Nat := ((splitWhitespace row)[i]?.bind parseU64).getD 0

def readRootDisk : Except Str Output → Nat × Nat
  | .error _ => (0, 0)
  | .ok output =>
    if output.success then
      match (lines (fromUtf8Lossy output.stdout))[1]? with
      | some row => (cell row 1, cell row 2)
      | none => (0, 0)
    else (0, 0)

variable {F : Type} (floats : Floats F)

/-- The next load on the line, or 0. -/
def readLoad (file : Option Str) (i : Nat) : F :=
  ((splitWhitespace (file.getD []))[i]?.bind floats.parseF32).getD floats.zero

def snapshot (host : StatsHost) : SystemStats F :=
  let mem := parseMeminfo host.meminfo
  let disk := readRootDisk (host.df dfArgs)
  { hostname := host.hostname.getD unknown
    kernel := (host.osrelease.map trim).getD unknown
    uptimeSecs := ((readFirstWord host.uptime).bind floats.parseSeconds).getD 0
    cpuCount := readCpuCount host.cpuinfo
    load1 := readLoad floats host.loadavg 0
    load5 := readLoad floats host.loadavg 1
    load15 := readLoad floats host.loadavg 2
    memTotalKb := (get mem "MemTotal").getD 0
    -- `MemFree` on a kernel that does not have the other.
    memAvailableKb := ((get mem "MemAvailable").or (get mem "MemFree")).getD 0
    swapTotalKb := (get mem "SwapTotal").getD 0
    swapFreeKb := (get mem "SwapFree").getD 0
    rootDiskTotalKb := disk.1
    rootDiskUsedKb := disk.2 }

end ShellfleetAgent.Agent.Stats
