import ShellfleetAgent.Privileged.Effects

/-!
# Length-prefixed frames

A frame on the gate socket is its length as a big-endian `u32` and then its
body, which is neither empty nor longer than the protocol's limit.
-/

namespace ShellfleetAgent.Privileged

open ShellfleetAgent.Lib

variable (x : Codec)

/-- The bodies a frame may carry. -/
def Framable (body : Bytes) : Prop :=
  ¬(body.isEmpty ∨ body.length > x.maxTrustedFrameBytes)

instance (body : Bytes) : Decidable (Framable x body) := by
  unfold Framable; infer_instance

/-- What a written frame puts on the socket. -/
def frameBytes (body : Bytes) : Bytes := beBytes 4 body.length ++ body

def readFrame : GateM Bytes := do
  let head ← mapErr (fun error => s!"read frame length: {error}") (readExact 4)
  let length := beNat head
  if length = 0 ∨ length > x.maxTrustedFrameBytes then
    throw "invalid trusted frame length"
  else
    mapErr (fun error => s!"read trusted frame: {error}") (readExact length)

def writeFrame (body : Bytes) : GateM Unit := do
  if body.isEmpty ∨ body.length > x.maxTrustedFrameBytes then
    throw "invalid trusted frame length"
  else
    mapErr (fun error => s!"write frame length: {error}") (writeAll (beBytes 4 body.length))
    mapErr (fun error => s!"write trusted frame: {error}") (writeAll body)
    mapErr (fun error => s!"flush trusted frame: {error}") flush

/-! ## A socket that delivers in pieces -/

/-- `read_exact`: reads, each of one piece or of as much of it as is still wanted, until
there are `n` bytes. A read of nothing is the end of the stream. -/
def readPieces : Nat → List Bytes → Except String Bytes × List Bytes
  | 0, pieces => (.ok [], pieces)
  | _ + 1, [] => (.error "early eof", [])
  | n + 1, piece :: pieces =>
      if n + 1 < piece.length then (.ok (piece.take (n + 1)), piece.drop (n + 1) :: pieces)
      else if piece = [] then (.error "early eof", pieces)
      else
        let (result, left) := readPieces (n + 1 - piece.length) pieces
        (result.map (piece ++ ·), left)

/-- What is still to be delivered, and what was written. -/
structure Socket where
  incoming : List Bytes
  outgoing : Bytes
  deriving DecidableEq

/-- `other` answers what is no matter of the socket. -/
def Socket.exec (other : (o : GateOp) → GateResp o) (w : Socket) :
    (o : GateOp) → Unit → Socket × GateResp o
  | .readExact n, _ =>
      let (result, incoming) := readPieces n w.incoming
      ({ w with incoming }, result)
  | .writeAll bytes, _ => ({ w with outgoing := w.outgoing ++ bytes }, .ok ())
  | .flush, _ => (w, .ok ())
  | o, _ => (w, other o)

/-- A program that has the socket to itself. -/
def Socket.run {α : Type} (other : (o : GateOp) → GateResp o) (w : Socket) (m : GateM α) :
    Socket × Except String α :=
  m.run.alone (Socket.exec other) (fun _ => ()) w

/-- One frame after the other. -/
def writeFrames : List Bytes → GateM Unit
  | [] => return ()
  | body :: bodies => do
      writeFrame x body
      writeFrames bodies

def readFrames : Nat → GateM (List Bytes)
  | 0 => return []
  | n + 1 => do
      let body ← readFrame x
      let bodies ← readFrames n
      return body :: bodies

/-! ## A pending read

`read_frame` as a future: between two polls it holds the bytes it has already
taken off the socket, and they go with it when it is dropped. -/

inductive ReadFrame
  | head (got : Bytes)
  | body (length : Nat) (got : Bytes)
  deriving DecidableEq

namespace ReadFrame

def fresh : ReadFrame := .head []

/-- The bytes the future has taken off the socket. -/
def held : ReadFrame → Bytes
  | .head got => got
  | .body length got => beBytes 4 length ++ got

/-- How many bytes the current `read_exact` still wants. -/
def wants : ReadFrame → Nat
  | .head got => 4 - got.length
  | .body length got => length - got.length

inductive Poll
  | pending (future : ReadFrame)
  | ready (result : Except String Bytes)
  deriving DecidableEq

/-- One poll that takes `chunk`, no longer than wanted, off the socket. -/
def feed (future : ReadFrame) (chunk : Bytes) : Poll :=
  match future with
  | .head got =>
      let got := got ++ chunk
      if got.length < 4 then .pending (.head got)
      else
        let length := beNat got
        if length = 0 ∨ length > x.maxTrustedFrameBytes then
          .ready (.error "invalid trusted frame length")
        else .pending (.body length [])
  | .body length got =>
      let got := got ++ chunk
      if got.length < length then .pending (.body length got) else .ready (.ok got)

end ReadFrame

end ShellfleetAgent.Privileged
