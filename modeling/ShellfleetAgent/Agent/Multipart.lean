import ShellfleetAgent.Agent.Backup
import ShellfleetAgent.Lib.Machine

/-!
# Multipart uploads

`s3_multipart_upload`, call by call: what S3 and the file answer is in the labels. A read
gives as many bytes as it likes of what is asked for, and none only at the end of the file.
-/

namespace ShellfleetAgent.Agent.Backup.Multipart

open ShellfleetAgent.Lib

structure CompletedPart where
  eTag : Option Str
  partNumber : Int32
  deriving DecidableEq

/-- The calls to S3, each with how it ended. -/
inductive Call
  | create (result : Except Str (Option Str))
  | uploadPart (uploadId : Str) (partNumber : Int32) (body : Bytes)
      (result : Except Str (Option Str))
  | complete (uploadId : Str) (parts : List CompletedPart) (result : Except Str Unit)
  | abort (uploadId : Str) (result : Except Str Unit)
  deriving DecidableEq

/-- The call that is next. From `opening` to `uploading` this is `upload_parts`, which has
returned in the others. -/
inductive Phase
  | creating
  | opening (uploadId : Str)
  | reading (uploadId : Str)
  | uploading (uploadId : Str)
  | completing (uploadId : Str)
  | aborting (uploadId : Str) (e : Str)
  | returned (result : Except Str UInt64)
  deriving DecidableEq

/-- `buf` is of `MULTIPART_CHUNK` bytes, all of them there from the start. -/
structure State where
  path : OsStr
  content : Bytes
  rest : Bytes
  buf : Nat → UInt8
  filled : Nat
  parts : List CompletedPart
  partNumber : Int32
  total : UInt64
  phase : Phase
  calls : List Call

def start (path : OsStr) (content : Bytes) : State where
  path := path
  content := content
  rest := content
  buf := fun _ => 0
  filled := 0
  parts := []
  partNumber := 1
  total := 0
  phase := .creating
  calls := []

inductive Label
  | create (result : Except Str (Option Str))
  | opened (result : Except Str Unit)
  | read (n : Nat)
  | readFails (e : Str)
  | uploadPart (result : Except Str (Option Str))
  | complete (result : Except Str Unit)
  | abort (result : Except Str Unit)

namespace State

/-- `buf[..filled]`. -/
def body (s : State) : Bytes := (List.range s.filled).map s.buf

/-- A read into `buf[filled..]`. -/
def fill (s : State) (n : Nat) : State :=
  { s with
    buf := fun i =>
      if s.filled ≤ i ∧ i < s.filled + n then s.rest.getD (i - s.filled) 0 else s.buf i
    filled := s.filled + n
    rest := s.rest.drop n }

/-- After the inner loop: nothing was left to read, or there is a part to upload. -/
def chunkRead (s : State) (uploadId : Str) : State :=
  if s.filled = 0 then { s with phase := .completing uploadId }
  else { s with total := s.total + UInt64.ofNat s.filled, phase := .uploading uploadId }

def call (s : State) (c : Call) : State := { s with calls := s.calls ++ [c] }

/-- An error of `upload_parts`. -/
def partsFail (s : State) (uploadId e : Str) : State := { s with phase := .aborting uploadId e }

/-- The part is in; the next round starts with an empty chunk in the same buffer. -/
def partUploaded (s : State) (uploadId : Str) (eTag : Option Str) : State :=
  { s with
    parts := s.parts ++ [⟨eTag, s.partNumber⟩]
    partNumber := s.partNumber + 1
    filled := 0
    phase := .reading uploadId }

def uploadPartError (partNumber : Int32) (e : Str) : Str :=
  "UploadPart#".toList ++ Text.decimalInt partNumber.toInt ++ ": ".toList ++ e

def step (s : State) : Label → Option State
  | .create result =>
      match s.phase with
      | .creating =>
          let s := s.call (.create result)
          match result with
          | .error e =>
              some { s with phase := .returned (.error ("CreateMultipartUpload: ".toList ++ e)) }
          | .ok none =>
              let e := "CreateMultipartUpload returned no upload_id".toList
              some { s with phase := .returned (.error e) }
          | .ok (some uploadId) => some { s with phase := .opening uploadId }
      | _ => none
  | .opened result =>
      match s.phase with
      | .opening uploadId =>
          match result with
          | .ok () => some { s with phase := .reading uploadId }
          | .error e =>
              some (s.partsFail uploadId ("open ".toList ++ s.path.display ++ ": ".toList ++ e))
      | _ => none
  | .read n =>
      match s.phase with
      | .reading uploadId =>
          if n ≤ min s.rest.length (multipartChunk - s.filled) ∧ (n = 0 → s.rest = []) then
            if n = 0 ∨ s.filled + n = multipartChunk then
              some ((s.fill n).chunkRead uploadId)
            else some (s.fill n)
          else none
      | _ => none
  | .readFails e =>
      match s.phase with
      | .reading uploadId =>
          some (s.partsFail uploadId ("read ".toList ++ s.path.display ++ ": ".toList ++ e))
      | _ => none
  | .uploadPart result =>
      match s.phase with
      | .uploading uploadId =>
          let called := s.call (.uploadPart uploadId s.partNumber s.body result)
          match result with
          | .ok eTag => some (called.partUploaded uploadId eTag)
          | .error e => some (called.partsFail uploadId (uploadPartError s.partNumber e))
      | _ => none
  | .complete result =>
      match s.phase with
      | .completing uploadId =>
          let s := s.call (.complete uploadId s.parts result)
          match result with
          | .ok () => some { s with phase := .returned (.ok s.total) }
          | .error e =>
              some { s with phase := .returned (.error ("CompleteMultipartUpload: ".toList ++ e)) }
      | _ => none
  | .abort result =>
      match s.phase with
      | .aborting uploadId e =>
          some { s.call (.abort uploadId result) with phase := .returned (.error e) }
      | _ => none

end State

/-- The uploads of every file. -/
def multipart : Machine State Label where
  init s := ∃ path content, s = start path content
  step := State.step

end ShellfleetAgent.Agent.Backup.Multipart
