import ShellfleetAgent.Agent.ExecReaders
import ShellfleetAgent.Proofs.Responses

/-!
# The readers of a command share one budget

What a reader has taken from its pipe and not yet reserved can still be thought of as in
the pipe, and what it has reserved as sent: so seen, the race is a run of `exec`, where a
read and its reservation are one step, and the account of the budget is the one kept
there. What is left to say of the race itself is that no bytes get lost between a pipe and
what is kept of it.
-/

namespace ShellfleetAgent.Agent.Exec

open ShellfleetAgent.Lib LogSources

/-! ## The budget of a run -/

/-- A reader stops short only where the budget is spent. -/
theorem limited_budget {s : State} (hr : exec.Reachable s) : s.limited = true → s.budget = 0 := by
  refine hr.invariant (I := fun s => s.limited = true → s.budget = 0) ?_ ?_
  · intro s hinit
    obtain ⟨_, _, _, _, _, hstart⟩ := hinit
    rw [start_spawned hstart]
    nofun
  · intro s label s' _ hI _ hs hlimited
    cases label with
    | read side n =>
        simp only [exec, State.step] at hs
        split at hs
        · cases hs
          rw [(read_budget s side n).1]
          unfold State.read at hlimited
          dsimp only at hlimited
          split at hlimited
          · omega
          · rw [hI hlimited, Nat.zero_sub]
        · cases hs
    | close side =>
        cases hs
        exact hI hlimited
    | write side data | readEnd side | readError side e | exited code | deadline | limit | reaped
    | join side | finish ms =>
        simp only [exec, State.step] at hs
        split at hs
        all_goals cases hs
        all_goals exact hI hlimited

theorem exec_spawned : exec.init spawned :=
  ⟨fun _ => .ok ["x".toList], some ['x'], ['x'], .ok (), 0, rfl⟩

namespace ReadToLimit

variable {s s' : State}

/-! ## The race as a run -/

/-- What was read and can still be thought of as in the pipe. -/
def Place.unreserved : Place → Bytes
  | .loading buf | .exchanging buf _ => buf
  | _ => []

/-- What can be thought of as sent. -/
def Place.chunk : Place → List Bytes
  | .reserved buf n => [buf.take n]
  | _ => []

/-- The last chunk is less than what was read. -/
def Place.short : Place → Bool
  | .reserved buf n => n < buf.length
  | .limiting | .signalling => true
  | _ => false

def Place.task : Place → ReaderTask
  | .returned result => .returned result
  | place => if place.short then .returned (.ok ()) else .reading

def Reader.abs (reader : Reader) : Exec.Reader where
  pipe := reader.place.unreserved ++ reader.pipe
  closed := reader.closed
  sent := reader.sent ++ reader.place.chunk
  task := reader.place.task

def State.short (s : State) (side : Side) : Bool := (s.readers side).place.short

def State.abs (s : State) : Exec.State where
  budget := s.budget
  limited := s.limited || (s.short .stdout || s.short .stderr)
  readers := fun side => (s.readers side).abs
  exitCode := -1
  timedOut := false
  phase := .waiting

namespace State

@[simp] theorem setReader_self (s : State) (side : Side) (reader : Reader) :
    (s.setReader side reader).readers side = reader :=
  Function.update_self ..

@[simp] theorem setReader_other (s : State) {side other : Side} (h : other ≠ side)
    (reader : Reader) : (s.setReader side reader).readers other = s.readers other :=
  Function.update_of_ne h ..

theorem abs_readers (s : State) (side : Side) (reader : Reader) :
    (s.setReader side reader).abs.readers = Function.update s.abs.readers side reader.abs := by
  funext other
  by_cases hother : other = side
  · subst hother
    simp only [abs, setReader_self, Function.update_self]
  · simp only [abs, setReader_other s hother, Function.update_of_ne hother]

/-- A reader that looks the same. -/
theorem readers_same {side : Side} {reader : Reader} (habs : reader.abs = (s.readers side).abs) :
    (s.setReader side reader).abs.readers = s.abs.readers := by
  rw [abs_readers, habs]
  exact Function.update_eq_self side s.abs.readers

theorem short_setReader {side : Side} {reader : Reader}
    (h : reader.place.short = s.short side) :
    (s.setReader side reader).short = s.short := by
  funext other
  by_cases hother : other = side
  · subst hother
    rw [short, setReader_self, h]
  · rw [short, setReader_other s hother, short]

/-- A reader that is no shorter than before is all that changes. -/
theorem abs_setReader {side : Side} {reader : Reader}
    (h : reader.place.short = s.short side) :
    (s.setReader side reader).abs = s.abs.setReader side reader.abs := by
  rw [Exec.State.setReader, ← abs_readers]
  simp only [abs, short_setReader h]
  rfl

theorem abs_eq (hbudget : s'.budget = s.budget) (hlimited : s'.abs.limited = s.abs.limited)
    (hreaders : s'.abs.readers = s.abs.readers) : s'.abs = s.abs := by
  show (⟨s'.budget, s'.abs.limited, s'.abs.readers, -1, false, .waiting⟩ : Exec.State) = _
  rw [hbudget, hlimited, hreaders]
  rfl

/-- A reader that looks the same, and is no shorter, is no change. -/
theorem abs_same {side : Side} {reader : Reader} (h : reader.place.short = s.short side)
    (habs : reader.abs = (s.readers side).abs) : (s.setReader side reader).abs = s.abs :=
  abs_eq rfl (by simp only [abs, short_setReader h]; rfl) (readers_same habs)

theorem short_of_place {side : Side} {place : Place} (hplace : (s.readers side).place = place) :
    s.short side = place.short := by
  rw [short, hplace]

theorem short_le {side : Side} (h : s.short side = true) : s.abs.limited = true := by
  cases side with
  | stdout => simp only [abs, h, Bool.true_or, Bool.or_true]
  | stderr => simp only [abs, h, Bool.or_true]

end State

/-! ## What a step does -/

/-- The steps, each with what it takes. -/
inductive Stepped (s : State) : State → Prop
  | write (side : Side) (data : Bytes) (hopen : (s.readers side).closed = false) :
      Stepped s (s.setReader side { s.readers side with
        stream := (s.readers side).stream ++ data, pipe := (s.readers side).pipe ++ data })
  | close (side : Side) : Stepped s (s.setReader side { s.readers side with closed := true })
  | read (side : Side) (n : Nat) (hplace : (s.readers side).place = .reading) (hpos : 0 < n)
      (hle : n ≤ min 8192 (s.readers side).pipe.length) :
      Stepped s (s.setReader side { s.readers side with
        pipe := (s.readers side).pipe.drop n
        place := .loading ((s.readers side).pipe.take n) })
  | readEnd (side : Side) (hplace : (s.readers side).place = .reading)
      (hclosed : (s.readers side).closed = true) (hpipe : (s.readers side).pipe = []) :
      Stepped s (s.goTo side (.returned (.ok ())))
  | readError (side : Side) (e : Str) (hplace : (s.readers side).place = .reading) :
      Stepped s (s.goTo side (.returned (.error e)))
  | nothing (side : Side) (buf : Bytes) (hplace : (s.readers side).place = .loading buf)
      (hnone : min buf.length s.budget = 0) : Stepped s (s.goTo side (.reserved buf 0))
  | load (side : Side) (buf : Bytes) (hplace : (s.readers side).place = .loading buf) :
      Stepped s (s.goTo side (.exchanging buf s.budget))
  | exchange (side : Side) (buf : Bytes)
      (hplace : (s.readers side).place = .exchanging buf s.budget) :
      Stepped s (s.exchange side buf s.budget)
  | exchangeFails (side : Side) (buf : Bytes) (cur : Nat)
      (hplace : (s.readers side).place = .exchanging buf cur) :
      Stepped s (s.goTo side (.loading buf))
  | send (side : Side) (buf : Bytes) (n : Nat)
      (hplace : (s.readers side).place = .reserved buf n) : Stepped s (s.send side buf n)
  | store (side : Side) (hplace : (s.readers side).place = .limiting) :
      Stepped s { s.goTo side .signalling with limited := true }
  | trySend (side : Side) (hplace : (s.readers side).place = .signalling) :
      Stepped s { s.goTo side (.returned (.ok ())) with signal := true }

theorem step_stepped {label : Label} (hs : s.step label = some s') : Stepped s s' := by
  cases label with
  | close side =>
      cases hs
      exact .close side
  | write side data =>
      simp only [State.step] at hs
      split at hs
      · cases hs
      · next hopen =>
          cases hs
          exact .write side data (Bool.eq_false_iff.mpr hopen)
  | read side n =>
      simp only [State.step] at hs
      split at hs
      · next hread =>
          cases hs
          exact .read side n hread.1 hread.2.1 hread.2.2
      · cases hs
  | readEnd side =>
      simp only [State.step] at hs
      split at hs
      · next hend =>
          cases hs
          exact .readEnd side hend.1 hend.2.1 hend.2.2
      · cases hs
  | readError side e =>
      simp only [State.step] at hs
      split at hs
      · next hplace =>
          cases hs
          exact .readError side e hplace
      · cases hs
  | load side =>
      simp only [State.step] at hs
      split at hs
      · next buf hplace =>
          cases hs
          unfold State.load
          split
          · next hnone => exact .nothing side buf hplace hnone
          · exact .load side buf hplace
      · cases hs
  | exchange side =>
      simp only [State.step] at hs
      split at hs
      · next buf cur hplace =>
          split at hs
          · next hcur =>
              subst hcur
              cases hs
              exact .exchange side buf hplace
          · cases hs
      · cases hs
  | exchangeFails side =>
      simp only [State.step] at hs
      split at hs
      · next buf cur hplace =>
          cases hs
          exact .exchangeFails side buf cur hplace
      · cases hs
  | send side =>
      simp only [State.step] at hs
      split at hs
      · next buf n hplace =>
          cases hs
          exact .send side buf n hplace
      · cases hs
  | store side =>
      simp only [State.step] at hs
      split at hs
      · next hplace =>
          cases hs
          exact .store side hplace
      · cases hs
  | trySend side =>
      simp only [State.step] at hs
      split at hs
      · next hplace =>
          cases hs
          exact .trySend side hplace
      · cases hs

/-! ## No bytes are lost -/

/-- A reader's stream is what it has kept, what it holds, and what is in the pipe; and a
reader that drops a part of it has the flag set before it returns. -/
def Reader.Inv (limited : Bool) (reader : Reader) : Prop :=
  match reader.place with
  | .reading | .returned (.error _) => reader.kept ++ reader.pipe = reader.stream
  | .loading buf | .exchanging buf _ =>
      (0 < buf.length ∧ buf.length ≤ 8192) ∧
        reader.kept ++ (buf ++ reader.pipe) = reader.stream
  | .reserved buf n => n ≤ buf.length ∧ reader.kept ++ (buf ++ reader.pipe) = reader.stream
  | .limiting => reader.kept <+: reader.stream
  | .signalling => limited = true ∧ reader.kept <+: reader.stream
  | .returned (.ok ()) =>
      reader.kept <+: reader.stream ∧
        (limited = false → reader.closed = true ∧ reader.kept = reader.stream)

theorem Reader.Inv.mono {limited limited' : Bool} {reader : Reader} (hI : reader.Inv limited)
    (hle : limited = true → limited' = true) : reader.Inv limited' := by
  unfold Reader.Inv at hI ⊢
  split at hI
  · exact hI
  · exact hI
  · exact hI
  · exact hI
  · exact hI
  · exact hI
  · exact ⟨hle hI.1, hI.2⟩
  · refine ⟨hI.1, fun hfalse => hI.2 ?_⟩
    cases limited with
    | false => rfl
    | true => rw [hle rfl] at hfalse; cases hfalse

/-- What a reader's step makes of it, if the others can stay as they are. -/
theorem inv_setReader {limited : Bool} {side : Side} {reader : Reader}
    (hI : ∀ side, (s.readers side).Inv s.limited) (hle : s.limited = true → limited = true)
    (hreader : reader.Inv limited) (other : Side) :
    ((s.setReader side reader).readers other).Inv limited := by
  by_cases hother : other = side
  · subst hother
    rw [State.setReader_self]
    exact hreader
  · rw [State.setReader_other s hother]
    exact (hI other).mono hle

theorem Reader.Inv.write {limited : Bool} {reader : Reader} (hI : reader.Inv limited)
    (hopen : reader.closed = false) (data : Bytes) :
    Reader.Inv limited { reader with
      stream := reader.stream ++ data, pipe := reader.pipe ++ data } := by
  obtain ⟨stream, pipe, closed, sent, place⟩ := reader
  cases place with
  | reading =>
      show sent.flatten ++ (pipe ++ data) = stream ++ data
      rw [← List.append_assoc, show sent.flatten ++ pipe = stream from hI]
  | loading buf | exchanging buf cur | reserved buf n =>
      refine ⟨hI.1, ?_⟩
      show sent.flatten ++ (buf ++ (pipe ++ data)) = stream ++ data
      rw [← List.append_assoc buf, ← List.append_assoc,
        show sent.flatten ++ (buf ++ pipe) = stream from hI.2]
  | limiting => exact hI.trans (List.prefix_append ..)
  | signalling => exact ⟨hI.1, hI.2.trans (List.prefix_append ..)⟩
  | returned result =>
      cases result with
      | ok done =>
          refine ⟨hI.1.trans (List.prefix_append ..), fun hfalse => ?_⟩
          obtain ⟨hclosed, _⟩ := hI.2 hfalse
          rw [show closed = false from hopen] at hclosed
          cases hclosed
      | error e =>
          show sent.flatten ++ (pipe ++ data) = stream ++ data
          rw [← List.append_assoc, show sent.flatten ++ pipe = stream from hI]

theorem Reader.Inv.close {limited : Bool} {reader : Reader} (hI : reader.Inv limited) :
    Reader.Inv limited { reader with closed := true } := by
  obtain ⟨stream, pipe, closed, sent, place⟩ := reader
  cases place with
  | returned result =>
      cases result with
      | ok done => exact ⟨hI.1, fun hfalse => ⟨rfl, (hI.2 hfalse).2⟩⟩
      | error e => exact hI
  | reading | loading buf | exchanging buf cur | reserved buf n | limiting | signalling => exact hI

theorem Reader.Inv.send {limited : Bool} {reader : Reader} {buf : Bytes} {n : Nat}
    (hI : reader.Inv limited) (hplace : reader.place = .reserved buf n) :
    Reader.Inv limited { reader with
      sent := reader.sent ++ [buf.take n]
      place := if n < buf.length then .limiting else .reading } := by
  unfold Reader.Inv at hI
  rw [hplace] at hI
  obtain ⟨hle, hwhole⟩ := hI
  have hkept : (reader.sent ++ [buf.take n]).flatten = reader.kept ++ buf.take n :=
    List.flatten_concat
  split
  · show (reader.sent ++ [buf.take n]).flatten <+: reader.stream
    rw [hkept, ← hwhole]
    exact (List.prefix_append_right_inj _).mpr
      ((List.take_prefix n buf).trans (List.prefix_append ..))
  · show (reader.sent ++ [buf.take n]).flatten ++ reader.pipe = reader.stream
    rw [hkept, List.take_of_length_le (by omega), List.append_assoc, hwhole]

theorem readers_inv (hr : readToLimit.Reachable s) (side : Side) :
    (s.readers side).Inv s.limited := by
  refine hr.invariant (I := fun s => ∀ side, (s.readers side).Inv s.limited) ?_ ?_ side
  · intro s hinit side
    cases hinit
    rfl
  · intro s label s' _ hI _ hs
    cases step_stepped hs with
    | write side data hopen => exact inv_setReader hI id ((hI side).write hopen data)
    | close side => exact inv_setReader hI id (hI side).close
    | read side n hplace hpos hle =>
        have hside := hI side
        unfold Reader.Inv at hside
        rw [hplace] at hside
        refine inv_setReader hI id ⟨?_, ?_⟩
        · rw [List.length_take]
          omega
        · show (s.readers side).kept ++ _ = _
          rw [List.take_append_drop, hside]
    | readEnd side hplace hclosed hpipe =>
        have hside := hI side
        unfold Reader.Inv at hside
        rw [hplace] at hside
        have hkept : (s.readers side).kept = (s.readers side).stream := by
          rw [← hside, hpipe, List.append_nil]
        exact inv_setReader hI id ⟨hkept ▸ List.prefix_rfl, fun _ => ⟨hclosed, hkept⟩⟩
    | readError side e hplace =>
        have hside := hI side
        unfold Reader.Inv at hside
        rw [hplace] at hside
        exact inv_setReader hI id hside
    | nothing side buf hplace hnone =>
        have hside := hI side
        unfold Reader.Inv at hside
        rw [hplace] at hside
        exact inv_setReader hI id ⟨Nat.zero_le _, hside.2⟩
    | load side buf hplace | exchangeFails side buf cur hplace =>
        have hside := hI side
        unfold Reader.Inv at hside
        rw [hplace] at hside
        exact inv_setReader hI id hside
    | exchange side buf hplace =>
        have hside := hI side
        unfold Reader.Inv at hside
        rw [hplace] at hside
        exact inv_setReader hI id ⟨Nat.min_le_left .., hside.2⟩
    | send side buf n hplace => exact inv_setReader hI id ((hI side).send hplace)
    | store side hplace =>
        have hside := hI side
        unfold Reader.Inv at hside
        rw [hplace] at hside
        exact inv_setReader hI (fun _ => rfl) ⟨rfl, hside⟩
    | trySend side hplace =>
        have hside := hI side
        unfold Reader.Inv at hside
        rw [hplace] at hside
        refine inv_setReader hI id ⟨hside.2, fun hfalse => ?_⟩
        have htrue : s.limited = true := hside.1
        cases htrue.symm.trans hfalse

/-! ## The race refines the run -/

theorem abs_reading {reader : Reader} (hplace : reader.place = .reading) :
    reader.abs = ⟨reader.pipe, reader.closed, reader.sent, .reading⟩ := by
  simp only [Reader.abs, hplace, Place.unreserved, Place.chunk, List.nil_append, List.append_nil]
  rfl

theorem abs_returned {reader : Reader} {result : Except Str Unit}
    (hplace : reader.place = .returned result) :
    reader.abs = ⟨reader.pipe, reader.closed, reader.sent, .returned result⟩ := by
  simp only [Reader.abs, hplace, Place.unreserved, Place.chunk, List.nil_append, List.append_nil]
  rfl

/-- A reader that returns from its loop has nothing of its own left. -/
theorem goTo_returned {side : Side} {result : Except Str Unit}
    (hplace : (s.readers side).place = .reading) :
    (s.goTo side (.returned result)).abs = s.abs.setReader side
      ⟨(s.readers side).pipe, (s.readers side).closed, (s.readers side).sent,
        .returned result⟩ := by
  rw [State.goTo, State.abs_setReader]
  · rw [abs_returned rfl]
  · exact (State.short_of_place hplace).symm

theorem abs_reserved (s : State) (side : Side) (buf : Bytes) (n : Nat) :
    (s.goTo side (.reserved buf n)).abs.readers = Function.update s.abs.readers side
      ⟨(s.readers side).pipe, (s.readers side).closed, (s.readers side).sent ++ [buf.take n],
        if n < buf.length then .returned (.ok ()) else .reading⟩ := by
  rw [State.goTo, State.abs_readers]
  simp only [Reader.abs, Place.unreserved, Place.chunk, Place.task, Place.short,
    List.nil_append, decide_eq_true_eq]

/-- A reservation that falls short is one that stops the reader. -/
theorem limited_reserved {side : Side} (hshort : s.short side = false) (buf : Bytes) (n : Nat) :
    (s.goTo side (.reserved buf n)).abs.limited =
      (s.abs.limited || decide (n < buf.length)) := by
  have hself : (s.goTo side (.reserved buf n)).short side = decide (n < buf.length) := by
    rw [State.short, State.goTo, State.setReader_self]
    rfl
  have hother : ∀ other, other ≠ side →
      (s.goTo side (.reserved buf n)).short other = s.short other := by
    intro other hne
    rw [State.short, State.goTo, State.setReader_other s hne, State.short]
  show (s.limited || _) = ((s.limited || _) || _)
  cases side with
  | stdout =>
      rw [hself, hother .stderr nofun, hshort, Bool.false_or, Bool.or_assoc,
        Bool.or_comm (s.short _)]
  | stderr =>
      rw [hself, hother .stdout nofun, hshort, Bool.or_false, Bool.or_assoc]

/-- A reservation, seen as the step it is in a run: it reads what was read, and sends it. -/
theorem exec_read {side : Side} {buf : Bytes} {n budget : Nat}
    (hreader : (s.readers side).abs =
      ⟨buf ++ (s.readers side).pipe, (s.readers side).closed, (s.readers side).sent, .reading⟩)
    (hsome : 0 < buf.length ∧ buf.length ≤ 8192) (hn : n = min buf.length s.budget)
    (hbudget : budget = s.budget - n) (hshort : s.short side = false) :
    exec.step s.abs (.read side buf.length) =
      some ({ s.goTo side (.reserved buf n) with budget } : State).abs := by
  have habs : s.abs.readers side =
      ⟨buf ++ (s.readers side).pipe, (s.readers side).closed, (s.readers side).sent, .reading⟩ :=
    hreader
  have hle : buf.length ≤ min 8192 (s.abs.readers side).pipe.length := by
    rw [habs, List.length_append]
    omega
  have htask : (s.abs.readers side).task = .reading := by rw [habs]
  have hlimited := limited_reserved hshort buf n
  have hreaders := abs_reserved s side buf n
  show (if _ ∧ _ ∧ _ then some _ else none) = _
  rw [if_pos ⟨htask, hsome.1, hle⟩, Exec.State.read]
  have htaken : min buf.length s.abs.budget = n := hn.symm
  simp only [habs, htaken, List.take_left, List.drop_left]
  subst hbudget
  show _ = some (⟨s.budget - n, (s.goTo side (.reserved buf n)).abs.limited,
    (s.goTo side (.reserved buf n)).abs.readers, -1, false, .waiting⟩ : Exec.State)
  rw [hlimited, hreaders]
  split
  · next hlt =>
      rw [decide_eq_true hlt, Bool.or_true]
      rfl
  · next hge =>
      rw [decide_eq_false hge, Bool.or_false, List.take_of_length_le (Nat.not_lt.mp hge)]
      rfl

theorem step_simulates {label : Label} (hr : readToLimit.Reachable s)
    (hs : readToLimit.step s label = some s') :
    s'.abs = s.abs ∨ ∃ coarse, exec.step s.abs coarse = some s'.abs := by
  have hI := readers_inv hr
  cases step_stepped hs with
  | write side data hopen =>
      refine .inr ⟨.write side data, ?_⟩
      show (if (s.readers side).closed then none else some _) = _
      rw [if_neg (by rw [hopen]; exact nofun), State.abs_setReader]
      · simp only [Reader.abs, State.abs, List.append_assoc]
      · rfl
  | close side =>
      refine .inr ⟨.close side, ?_⟩
      rw [State.abs_setReader]
      · rfl
      · rfl
  | read side n hplace hpos hle =>
      refine .inl (State.abs_same ?_ ?_)
      · exact (State.short_of_place hplace).symm
      · simp only [Reader.abs, hplace, Place.unreserved, List.take_append_drop]
        rfl
  | readEnd side hplace hclosed hpipe =>
      have hreader : s.abs.readers side = _ := abs_reading hplace
      refine .inr ⟨.readEnd side, ?_⟩
      show (if _ ∧ _ ∧ _ then some _ else none) = _
      rw [hreader, if_pos ⟨rfl, hclosed, hpipe⟩, goTo_returned hplace]
  | readError side e hplace =>
      have hreader : s.abs.readers side = _ := abs_reading hplace
      refine .inr ⟨.readError side e, ?_⟩
      show (if _ then some _ else none) = _
      rw [hreader, if_pos rfl, goTo_returned hplace]
  | nothing side buf hplace hnone =>
      have hside := hI side
      unfold Reader.Inv at hside
      rw [hplace] at hside
      refine .inr ⟨.read side buf.length, exec_read ?_ hside.1 hnone.symm rfl ?_⟩
      · simp only [Reader.abs, hplace, Place.chunk, List.append_nil]
        rfl
      · exact State.short_of_place hplace
  | exchange side buf hplace =>
      have hside := hI side
      unfold Reader.Inv at hside
      rw [hplace] at hside
      refine .inr ⟨.read side buf.length, exec_read ?_ hside.1 rfl rfl ?_⟩
      · simp only [Reader.abs, hplace, Place.chunk, List.append_nil]
        rfl
      · exact State.short_of_place hplace
  | load side buf hplace | exchangeFails side buf cur hplace =>
      refine .inl (State.abs_same ?_ ?_)
      · exact (State.short_of_place hplace).symm
      · simp only [Reader.abs, hplace]
        rfl
  | send side buf n hplace =>
      refine .inl (State.abs_same ?_ ?_)
      · rw [State.short, hplace]
        dsimp only
        split <;> simp [Place.short, *]
      · simp only [Reader.abs, hplace]
        split <;> simp [Place.chunk, Place.unreserved, Place.task, Place.short, *]
  | store side hplace =>
      have hlimited : s.abs.limited = true := State.short_le (State.short_of_place hplace)
      refine .inl (State.abs_eq rfl hlimited.symm ?_)
      refine State.readers_same ?_
      simp only [Reader.abs, hplace]
      rfl
  | trySend side hplace =>
      have hside := hI side
      unfold Reader.Inv at hside
      rw [hplace] at hside
      refine .inl (State.abs_eq rfl ?_ ?_)
      · show (s.limited || _) = (s.limited || _)
        rw [hside.1, Bool.true_or, Bool.true_or]
      · refine State.readers_same ?_
        simp only [Reader.abs, hplace]
        rfl

theorem refines (hr : readToLimit.Reachable s) : exec.Reachable s.abs := by
  refine Machine.Reach.simulates (f := State.abs) ?_ (fun s label s' => step_simulates) hr
  intro s hinit
  cases hinit
  exact exec_spawned

/-! ## Both readers have returned -/

theorem returned_kept {side : Side} {result : Except Str Unit}
    (hplace : (s.readers side).place = .returned result) :
    s.abs.kept side = (s.readers side).kept := by
  show ((s.readers side).abs).sent.flatten = _
  rw [abs_returned hplace]
  rfl

/-- What is kept is a beginning of what was written, and within the cap. Where the flag is
not set, it is everything up to the end of the stream or to a read error, and where it is
set the cap is reached. The chunks are put together without a cut. -/
theorem both_returned (hr : readToLimit.Reachable s)
    (hreturned : ∀ side, ∃ result, (s.readers side).place = .returned result) :
    (∀ side, (s.readers side).kept <+: (s.readers side).stream) ∧
      (s.readers .stdout).kept.length + (s.readers .stderr).kept.length ≤ maxOutputBytes ∧
      (s.limited = false → ∀ side,
        ((s.readers side).place = .returned (.ok ()) ∧ (s.readers side).closed = true ∧
            (s.readers side).kept = (s.readers side).stream) ∨
          ∃ e, (s.readers side).place = .returned (.error e) ∧
            (s.readers side).kept ++ (s.readers side).pipe = (s.readers side).stream) ∧
      (s.limited = true →
        (s.readers .stdout).kept.length + (s.readers .stderr).kept.length = maxOutputBytes) ∧
      ∀ side, concatenated (s.readers side).sent = (s.readers side).kept := by
  have hI := readers_inv hr
  have hkept : ∀ side, s.abs.kept side = (s.readers side).kept := by
    intro side
    obtain ⟨result, hplace⟩ := hreturned side
    exact returned_kept hplace
  have hbudget : s.budget + (s.readers .stdout).kept.length + (s.readers .stderr).kept.length =
      maxOutputBytes := by
    have hbudget := (Exec.inv (refines hr)).budget
    rw [hkept, hkept] at hbudget
    exact hbudget
  refine ⟨fun side => ?_, by omega, fun hfalse side => ?_, fun htrue => ?_, fun side => ?_⟩
  · have hside := hI side
    obtain ⟨result, hplace⟩ := hreturned side
    unfold Reader.Inv at hside
    rw [hplace] at hside
    cases result with
    | ok done => exact hside.1
    | error e => exact ⟨_, hside⟩
  · have hside := hI side
    obtain ⟨result, hplace⟩ := hreturned side
    unfold Reader.Inv at hside
    rw [hplace] at hside
    cases result with
    | ok done => exact .inl ⟨hplace, hside.2 hfalse⟩
    | error e => exact .inr ⟨e, hplace, hside⟩
  · have hspent : s.budget = 0 :=
      limited_budget (refines hr) (by simp only [State.abs, htrue, Bool.true_or])
    omega
  · have hle : (s.readers side).kept.length ≤ maxOutputBytes := by
      cases side <;> omega
    rw [concatenated, go_eq_append (by rw [List.length_nil]; unfold Reader.kept at hle; omega)]
    rfl

/-- A run in which an exchange fails once, and a read does. -/
theorem both_returned_retry : ∃ s : State, (s.readers Side.stdout).kept = [104, 105] ∧
    (s.limited = false → ∀ side,
      ((s.readers side).place = .returned (.ok ()) ∧ (s.readers side).closed = true ∧
          (s.readers side).kept = (s.readers side).stream) ∨
        ∃ e, (s.readers side).place = .returned (.error e) ∧
          (s.readers side).kept ++ (s.readers side).pipe = (s.readers side).stream) := by
  have hrun : (readToLimit.run spawned [.write .stdout [104, 105], .read .stdout 2, .load .stdout,
      .exchangeFails .stdout, .load .stdout, .exchange .stdout, .send .stdout, .close .stdout,
      .readEnd .stdout, .readError .stderr "closed".toList]).map
        (fun s => ((s.readers .stdout).kept, (s.readers .stdout).place,
          (s.readers .stderr).place)) =
      some ([104, 105], .returned (.ok ()), .returned (.error "closed".toList)) := by
    decide
  obtain ⟨s, hs, hseen⟩ := Option.map_eq_some_iff.mp hrun
  obtain ⟨hkept, hseen⟩ := Prod.mk.inj hseen
  obtain ⟨hstdout, hstderr⟩ := Prod.mk.inj hseen
  have hreturned : ∀ side, ∃ result, (s.readers side).place = .returned result := by
    intro side
    cases side with
    | stdout => exact ⟨_, hstdout⟩
    | stderr => exact ⟨_, hstderr⟩
  exact ⟨s, hkept, (both_returned (Machine.Reach.run (.init rfl) hs) hreturned).2.2.1⟩

end ReadToLimit

end ShellfleetAgent.Agent.Exec
