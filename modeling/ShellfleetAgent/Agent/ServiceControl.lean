import ShellfleetAgent.Agent.LogSources
import ShellfleetAgent.Lib.Host
import ShellfleetAgent.Lib.SharedLog

/-!
# The control of services

The arm of `main.rs` that starts, stops, restarts and reloads a unit, over `control_service`
of `systemd.rs`. Each request is handled in a task of its own, and any number of them run at
a time. What `systemctl` comes to is anything, and so is whether the queue takes a response.
-/

namespace ShellfleetAgent.Agent.ServiceControl

open ShellfleetAgent.Lib

structure ControlServiceRequest where
  name : Str
  action : Str
  deriving DecidableEq

structure ControlServiceResponse where
  name : Str
  success : Bool
  error : Option Str
  deriving DecidableEq

inductive ServiceCall
  | systemctl (args : List Str)
  | send (response : ControlServiceResponse)

def ServiceCall.Answer : ServiceCall → Type
  | .systemctl _ => Except Str Output
  | .send _ => Except OutgoingSendError Unit

abbrev ServiceM := ExceptT Str (Prog ServiceCall ServiceCall.Answer)

def ask (c : ServiceCall) : Prog ServiceCall ServiceCall.Answer c.Answer := Prog.perform c

/-! ## `systemd.rs` -/

/-- The check that `journal_stream.rs` also makes, under another name. -/
def isSafeUnitName (name : Str) : Bool := LogSources.JournalStream.isSafeToken name

def allowedActions : List Str := ["start", "stop", "restart", "reload"].map String.toList

def controlService (name action : Str) : ServiceM Unit := do
  if allowedActions.contains action = false then throw ("invalid action: ".toList ++ action)
  else if isSafeUnitName name = false then throw ("invalid unit name: ".toList ++ name)
  else
    let output ← (ExceptT.mk (ask (.systemctl [action, name])) : ServiceM Output)
    if output.success = false then
      throw (Text.trim (Text.fromUtf8Lossy output.stderr))

/-- The arm. Why it has failed is not told; what `send` says is not looked at. -/
def handle (request : ControlServiceRequest) : Prog ServiceCall ServiceCall.Answer Unit :=
  (controlService request.name request.action).run.bind fun r =>
    let success := r.toOption.isSome
    let error := if success then none else some "Failed".toList
    (ask (.send ⟨request.name, success, error⟩)).bind fun _ => .ret ()

/-! ## All of them at once -/

/-- The `systemctl` processes so far, and what the queue has accepted. -/
structure ServiceWorld where
  spawned : List (List Str)
  accepted : List ControlServiceResponse
  deriving DecidableEq

inductive ServiceChoice
  | output (result : Except Str Output)
  | queue (result : Except OutgoingSendError Unit)

/-- A process that cannot be spawned is in the list too. -/
def ServiceWorld.exec (w : ServiceWorld) :
    (c : ServiceCall) → ServiceChoice → Option (ServiceWorld × c.Answer)
  | .systemctl args, .output result => some ({ w with spawned := w.spawned ++ [args] }, result)
  | .send response, .queue (.ok ()) =>
    some ({ w with accepted := w.accepted ++ [response] }, .ok ())
  | .send _, .queue (.error e) => some (w, .error e)
  | _, _ => none

def serviceCode : Code ServiceCall ServiceCall.Answer ControlServiceRequest Empty Unit where
  start request := (handle request).bind fun r => .ret (.inr r)
  again l := l.elim

def serviceHost : Host ServiceCall ServiceCall.Answer ControlServiceRequest ServiceWorld
    ServiceChoice Empty where
  init w := w = ⟨[], []⟩
  exec w _ := w.exec
  spawn w _ _ := some w
  kill w _ := w
  env _ e := e.elim

abbrev ServiceState :=
  Pool.State ServiceCall ServiceCall.Answer ControlServiceRequest Empty Unit ServiceWorld

/-- The tasks for any requests, in any order and at any pace. -/
abbrev servicePool : Machine ServiceState (Pool.Label ControlServiceRequest ServiceChoice Empty) :=
  pool serviceCode serviceHost

/-! ## What their traces show -/

abbrev ServiceHistory := History ServiceCall ServiceCall.Answer

/-- The process that a request stands for, if it stands for one. -/
def ControlServiceRequest.command (request : ControlServiceRequest) : Option (List Str) :=
  if allowedActions.contains request.action = true ∧ isSafeUnitName request.name = true then
    some [request.action, request.name]
  else none

def spawnedBy (e : Event ServiceCall ServiceCall.Answer) : Option (List Str) :=
  match e.op with
  | .systemctl args => some args
  | .send _ => none

def sentBy (e : Event ServiceCall ServiceCall.Answer) : Option ControlServiceResponse :=
  match e.op with
  | .systemctl _ => none
  | .send response => some response

def acceptedBy : Event ServiceCall ServiceCall.Answer → Option ControlServiceResponse
  | ⟨.send response, .ok _⟩ => some response
  | _ => none

/-- A process has ended well. -/
def EndedWell (h : ServiceHistory) : Prop :=
  ∃ args output, ⟨.systemctl args, .ok output⟩ ∈ h ∧ output.success = true

/-- The words of a command that `systemctl` takes for the action and for one unit: neither is
an option, and the unit has nothing in it that stands for several. -/
def OneUnit (args : List Str) : Prop :=
  ∃ action name, args = [action, name] ∧ action ∈ allowedActions ∧
    (∀ word ∈ args, word ≠ [] ∧ word.head? ≠ some '-') ∧
    Text.utf8Len name ≤ 256 ∧ ∀ c ∈ name, c ∉ ['*', '?', '[', ']', '/', ' ']

end ShellfleetAgent.Agent.ServiceControl
