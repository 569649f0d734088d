import Mathlib.Data.String.Basic
import ShellfleetAgent.Lib.BTreeMap
import ShellfleetAgent.Lib.Path
import ShellfleetAgent.Privileged.Approval

/-!
# Enrolling an approver

`enroll_approver`: what `--enroll-approver` does with the keyring file that the gate's
`load_approvers` reads. The new keyring is written beside the old one and renamed over it.
-/

namespace ShellfleetAgent.Privileged.Enrollment

open ShellfleetAgent.Lib GateState

inductive KeyringOp
  | geteuid
  | readToString (path : OsStr)
  | write (path : OsStr) (text : String)
  | setMode (path : OsStr) (mode : Nat)
  | rename (old new : OsStr)

abbrev KeyringResp : KeyringOp → Type
  | .geteuid => UInt32
  | .readToString _ => Except String String
  | .write .. => Except String Unit
  | .setMode .. => Except String Unit
  | .rename .. => Except String Unit

abbrev KeyringM := ExceptT String (Prog KeyringOp KeyringResp)

def geteuid : KeyringM UInt32 := ExceptT.lift (Prog.perform KeyringOp.geteuid)
def readKeyring (path : OsStr) : KeyringM (Except String String) :=
  ExceptT.lift (Prog.perform (KeyringOp.readToString path))
def writeKeyring (path : OsStr) (text : String) : KeyringM Unit :=
  ExceptT.mk (Prog.perform (KeyringOp.write path text))
def setMode (path : OsStr) (mode : Nat) : KeyringM Unit :=
  ExceptT.mk (Prog.perform (KeyringOp.setMode path mode))
def rename (old new : OsStr) : KeyringM Unit :=
  ExceptT.mk (Prog.perform (KeyringOp.rename old new))

/-- A computed result. -/
def computed {α : Type} (r : Except String α) : KeyringM α := ExceptT.mk (.ret r)

section Enroll

variable (x : Externals)

/-- What is asked of an id and a public key. -/
def checkApprover (id encoded : String) : Except String Unit :=
  if id.isEmpty ∨ 64 < id.utf8ByteSize ∨ ¬id.toList.all isIdChar then .error "invalid approver id"
  else
    match x.decodeBase64 encoded with
    | none => .error "invalid approver public-key encoding"
    | some decoded =>
      match toKey decoded with
      | none => .error "approver public key must be exactly 32 bytes"
      | some key =>
        if x.wellFormedKey key then .ok ()
        else .error "approver public key is not valid Ed25519"

/-- The entries of a file; a file that cannot be read, or is no keyring, counts as empty. -/
def savedValues : Except String String → BTreeMap String String
  | .error _ => .empty
  | .ok raw =>
    match x.parseStringMap raw with
    | none => .empty
    | some entries => .ofList entries

/-- `toVecPretty` is `serde_json::to_vec_pretty`, as the text that its bytes spell. -/
def enrollApprover (toVecPretty : BTreeMap String String → Except String String)
    (path id encoded : String) : KeyringM Unit := do
  let euid ← geteuid
  if euid ≠ 0 then throw "approver enrollment must run as local root"
  else
    computed (checkApprover x id encoded)
    let raw ← readKeyring (os path)
    let values := (savedValues x raw).insert id encoded
    let temporary := Path.withExtension (os path) (os "json.tmp")
    let text ← computed (toVecPretty values)
    writeKeyring temporary text
    setMode temporary 0o600
    rename temporary (os path)

end Enroll

/-! ## The host -/

/-- What reading gives, by path. -/
structure KeyringHost where
  euid : UInt32
  files : OsStr → Except String String

/-- How an operation goes. A write that fails leaves anything behind. -/
inductive KeyringChoice
  | good
  | bad (error : String) (left : Except String String)

/-- What an operation does if it succeeds, and if it fails. -/
def KeyringChoice.settle (succeeded : KeyringHost)
    (failed : Except String String → KeyringHost) : KeyringChoice →
    KeyringHost × Except String Unit
  | .good => (succeeded, .ok ())
  | .bad error left => (failed left, .error error)

theorem KeyringChoice.settle_ok {succeeded w : KeyringHost}
    {failed : Except String String → KeyringHost} {c : KeyringChoice}
    (h : c.settle succeeded failed = (w, .ok ())) : w = succeeded := by
  cases c with
  | good =>
      cases h
      rfl
  | bad error left => cases h

theorem KeyringChoice.settle_error {succeeded w : KeyringHost}
    {failed : Except String String → KeyringHost} {c : KeyringChoice} {e : String}
    (h : c.settle succeeded failed = (w, .error e)) : ∃ left, w = failed left := by
  cases c with
  | good => cases h
  | bad error left =>
      cases h
      exact ⟨left, rfl⟩

namespace KeyringHost

def set (w : KeyringHost) (path : OsStr) (content : Except String String) : KeyringHost :=
  { w with files := fun p => if p = path then content else w.files p }

def noEntry : String := "No such file or directory (os error 2)"

/-- A file that is renamed to its own name stays. -/
def move (w : KeyringHost) (old new : OsStr) : KeyringHost :=
  if old = new then w else (w.set old (.error noEntry)).set new (w.files old)

def exec (w : KeyringHost) : (o : KeyringOp) → KeyringChoice → KeyringHost × KeyringResp o
  | .geteuid, _ => (w, w.euid)
  | .readToString path, _ => (w, w.files path)
  | .write path text, c => c.settle (w.set path (.ok text)) (w.set path)
  | .setMode .., c => c.settle w fun _ => w
  | .rename old new, c => c.settle (w.move old new) fun _ => w

/-- One call. -/
def enroll (x : Externals) (toVecPretty : BTreeMap String String → Except String String)
    (ch : KeyringOp → KeyringChoice) (path id encoded : String) (w : KeyringHost) :
    KeyringHost × Except String Unit :=
  (enrollApprover x toVecPretty path id encoded).run.alone exec ch w

@[simp] theorem set_files_self (w : KeyringHost) (path : OsStr) (content : Except String String) :
    (w.set path content).files path = content := if_pos rfl

theorem set_files_ne (w : KeyringHost) {path p : OsStr} (content : Except String String)
    (h : p ≠ path) : (w.set path content).files p = w.files p := if_neg h

/-- The new name has what the old one had. -/
theorem move_files_new (w : KeyringHost) (old new : OsStr) :
    (w.move old new).files new = w.files old := by
  unfold move
  split
  · next heq => rw [heq]
  · exact set_files_self ..

end KeyringHost

end ShellfleetAgent.Privileged.Enrollment
