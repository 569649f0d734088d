import ShellfleetAgent.Lib.Lists
import ShellfleetAgent.Lib.Machine
import ShellfleetAgent.Proofs.LogBatches

/-!
# Batches neither lose nor repeat a line

The two batching loops are run beside a log of the lines that came into the buffer
and of the chunks that went out of it. The buffer is taken in three places: when it is
full, at a tick, and at the end of the input. Whichever it is, and in whatever order
they come, the chunks so far and the buffer are the lines so far.
-/

namespace ShellfleetAgent.Agent.LogSources

open ShellfleetAgent.Lib
open Streams (StreamArgs)

inductive BatchEvent
  | received (line : Str)
  | emitted (chunk : List Str)
  deriving DecidableEq

def BatchEvent.line : BatchEvent → Option Str
  | .received line => some line
  | .emitted _ => none

def BatchEvent.chunk : BatchEvent → Option (List Str)
  | .received _ => none
  | .emitted chunk => some chunk

/-- The lines that came in. -/
def receivedOf (log : List BatchEvent) : List Str := log.filterMap BatchEvent.line

/-- The chunks that went out. -/
def emittedOf (log : List BatchEvent) : List (List Str) := log.filterMap BatchEvent.chunk

/-- What a step shows that takes up a line and lets go of a chunk. -/
def shown (taken : Option Str) (batch : Option (List Str)) : List BatchEvent :=
  taken.toList.map .received ++ batch.toList.map .emitted

theorem receivedOf_shown (log : List BatchEvent) (taken : Option Str)
    (batch : Option (List Str)) :
    receivedOf (log ++ shown taken batch) = receivedOf log ++ taken.toList := by
  unfold receivedOf shown
  rw [List.filterMap_append]
  cases taken <;> cases batch <;> rfl

theorem emittedOf_shown (log : List BatchEvent) (taken : Option Str)
    (batch : Option (List Str)) :
    emittedOf (log ++ shown taken batch) = emittedOf log ++ batch.toList := by
  unfold emittedOf shown
  rw [List.filterMap_append]
  cases taken <;> cases batch <;> rfl

/-- The lines so far are the chunks so far and what is held. -/
abbrev Chunked (log : List BatchEvent) (held : List Str) : Prop :=
  Batched maxLinesPerChunk (receivedOf log) (emittedOf log) held

variable {log : List BatchEvent} {buf : List Str}

theorem Chunked.push (h : Chunked log buf) (line : Str) :
    Chunked (log ++ shown (some line) (push buf line).2) (push buf line).1 := by
  unfold Chunked
  rw [receivedOf_shown, emittedOf_shown]
  unfold LogSources.push
  by_cases hfull : maxLinesPerChunk ≤ (buf ++ [line]).length
  · rw [if_pos hfull]
    exact Batched.full h
  · rw [if_neg hfull]
    rw [List.length_append, List.length_singleton] at hfull
    rw [Option.toList_none, List.append_nil]
    exact Batched.hold h (Nat.not_le.mp hfull)

theorem push_empties {line : Str} {left chunk : List Str}
    (h : LogSources.push buf line = (left, some chunk)) : left = [] := by
  rcases push_cases buf line with hpush | hpush
  · rw [hpush] at h
    exact (Prod.mk.inj h).1.symm
  · rw [hpush] at h
    cases (Prod.mk.inj h).2

theorem Chunked.flush (h : Chunked log buf) :
    Chunked (log ++ shown none (flush buf)) [] := by
  unfold Chunked
  rw [receivedOf_shown, emittedOf_shown, Option.toList_none, List.append_nil]
  unfold LogSources.flush
  by_cases hempty : buf = []
  · rw [if_pos hempty, Option.toList_none, List.append_nil]
    rwa [hempty] at h
  · rw [if_neg hempty]
    exact Batched.flush h hempty

theorem shown_none : log ++ shown none none = log := List.append_nil log

/-- Chunks that the queue has accepted, in order, among what others have sent. -/
def Sent (message : List Str → Message) (log : List BatchEvent) (queue : Outgoing) : Prop :=
  ((emittedOf log).map message).Sublist queue.accepted

theorem Sent.grow {message : List Str → Message} {queue queue' : Outgoing}
    (h : Sent message log queue) (hgrows : queue.Grows queue') (taken : Option Str) :
    Sent message (log ++ shown taken none) queue' := by
  unfold Sent
  rw [emittedOf_shown, Option.toList_none, List.append_nil]
  exact h.trans hgrows.accepted.sublist

theorem Sent.send {message : List Str → Message} {queue : Outgoing}
    (h : Sent message log queue) (hqueue : queue.refusal = none) (taken : Option Str)
    (chunk : List Str) :
    Sent message (log ++ shown taken (some chunk)) (queue.send (message chunk)).1 := by
  unfold Sent
  rw [emittedOf_shown, Option.toList_some, List.map_append, Outgoing.send_accepted hqueue]
  exact h.append (List.Sublist.refl _)

theorem open_of_accepted {queue : Outgoing} {batch : Option (List Str)} {chunk : List Str}
    (h : (batch.isNone || queue.refusal = none) = true) (hbatch : batch = some chunk) :
    queue.refusal = none := by
  simp only [hbatch, Option.isNone_some, Bool.false_or, decide_eq_true_eq] at h
  exact h

namespace JournalStream

/-- The line that comes into the buffer in a step. -/
def taken (s : State) : ChildLabel → Option Str
  | .recv =>
      match s.batcher, s.lines with
      | .batching _, line :: _ => some line
      | _, _ => none
  | _ => none

def events (s : State) (i : ChildLabel) : List BatchEvent := shown (taken s i) (batch s i)

/-- The chunk of a step, if there is one, is accepted. -/
def Accepting (s : State) (i : ChildLabel) : Bool :=
  (batch s i).isNone || s.queue.refusal = none

variable {args : StreamArgs} {s s' : State} {i : ChildLabel}

/-- The log of the batcher, whose channel is empty when it has returned. -/
structure Logged (args : StreamArgs) (s : State) (log : List BatchEvent) : Prop where
  chunked : Chunked log s.batcher.held
  sent : Sent (.journalStreamChunk args.streamId) log s.queue
  fresh : s.runner = .starting → s.batcher = .unspawned
  done : s.batcher = .returned → s.lines = [] ∧ s.readers.ended = true

theorem Logged.started {buf : List Str} (h : Logged args s log)
    (hbatcher : s.batcher = .batching buf) : s.runner ≠ .starting := by
  intro hstart
  have hfresh := h.fresh hstart
  rw [hbatcher] at hfresh
  cases hfresh

theorem Logged.held {buf : List Str} (h : Logged args s log)
    (hbatcher : s.batcher = .batching buf) : Chunked log buf := by
  have hchunked := h.chunked
  rw [hbatcher] at hchunked
  exact hchunked

theorem Logged.buffered {buf left lines : List Str} {line : Option Str} (h : Logged args s log)
    (hbatcher : s.batcher = .batching buf) (hchunked : Chunked (log ++ shown line none) left) :
    Logged args { s with lines, batcher := .batching left } (log ++ shown line none) :=
  ⟨hchunked, h.sent.grow (.refl _) _, fun hstart => absurd hstart (h.started hbatcher), nofun⟩

/-- The batcher goes on, since the chunk is accepted. -/
theorem Logged.drained {buf chunk lines : List Str} {line : Option Str} (h : Logged args s log)
    (hbatcher : s.batcher = .batching buf) (hqueue : s.queue.refusal = none)
    (hchunked : Chunked (log ++ shown line (some chunk)) []) :
    Logged args
      { s with queue := (s.queue.send (.journalStreamChunk args.streamId chunk)).1, lines,
               batcher := .after (s.queue.send (.journalStreamChunk args.streamId chunk)).2 }
      (log ++ shown line (some chunk)) := by
  have hsent := h.sent.send hqueue line chunk
  rw [Outgoing.send_accepted hqueue] at hsent ⊢
  exact ⟨hchunked, hsent, fun hstart => absurd hstart (h.started hbatcher), nofun⟩

theorem Logged.recv (h : Logged args s log) (hok : Accepting s .recv = true)
    (hs : step args s .recv = some s') : Logged args s' (log ++ events s .recv) := by
  unfold events
  simp only [step] at hs
  split at hs
  · next buf line lines hbatcher hlines =>
      have htaken : taken s .recv = some line := by
        simp only [taken, hbatcher, hlines]
      have hbatch : batch s .recv = (push buf line).2 := by
        simp only [batch, hbatcher, hlines]
      have hchunked := (h.held hbatcher).push line
      rw [htaken, hbatch]
      rcases hpush : push buf line with ⟨left, out⟩
      rw [hpush] at hs hbatch hchunked
      cases out with
      | none =>
          cases hs
          exact h.buffered hbatcher hchunked
      | some chunk =>
          cases hs
          rw [push_empties hpush] at hchunked
          exact h.drained hbatcher (open_of_accepted hok hbatch) hchunked
  · next buf hbatcher hlines =>
      have htaken : taken s .recv = none := by
        simp only [taken, hbatcher, hlines]
      have hbatch : batch s .recv = flush buf := by
        simp only [batch, hbatcher, hlines]
      have hchunked := (h.held hbatcher).flush
      rw [htaken, hbatch]
      split at hs
      · next hended =>
          cases hflush : flush buf with
          | none =>
              rw [hflush] at hs hchunked
              cases hs
              exact ⟨hchunked, h.sent.grow (.refl _) _,
                fun hstart => absurd hstart (h.started hbatcher), fun _ => ⟨hlines, hended⟩⟩
          | some chunk =>
              rw [hflush] at hs hbatch hchunked
              cases hs
              exact ⟨hchunked, h.sent.send (open_of_accepted hok hbatch) _ _,
                fun hstart => absurd hstart (h.started hbatcher), fun _ => ⟨hlines, hended⟩⟩
      · cases hs
  · cases hs

theorem Logged.tick (h : Logged args s log) (hok : Accepting s .tick = true)
    (hs : step args s .tick = some s') : Logged args s' (log ++ events s .tick) := by
  unfold events
  simp only [step] at hs
  split at hs
  · next buf hbatcher =>
      have hbatch : batch s .tick = flush buf := by
        simp only [batch, hbatcher]
      have hchunked := (h.held hbatcher).flush
      rw [hbatch]
      cases hflush : flush buf with
      | none =>
          rw [hflush] at hs
          cases hs
          rw [show taken s .tick = none from rfl, shown_none]
          exact h
      | some chunk =>
          rw [hflush] at hs hbatch hchunked
          cases hs
          exact h.drained hbatcher (open_of_accepted hok hbatch) hchunked
  · cases hs

/-- The other steps leave the buffer alone. -/
theorem Logged.other (h : Logged args s log) (hrecv : i ≠ .recv) (htick : i ≠ .tick)
    (hm : Move args s i s') : Logged args s' log := by
  have hsent : Sent (.journalStreamChunk args.streamId) log s'.queue :=
    h.sent.trans hm.grows.accepted.sublist
  cases hm with
  | spawned hstart =>
      have hchunked := h.chunked
      rw [h.fresh hstart] at hchunked
      exact ⟨hchunked, hsent, nofun, nofun⟩
  | failed | exited | joinedStdout | joinedStderr | finished | aborted =>
      exact ⟨h.chunked, hsent, nofun, h.done⟩
  | @wrote side _ _ hwrite =>
      refine ⟨h.chunked, hsent, h.fresh, fun hdone => ?_⟩
      obtain ⟨hlines, hended⟩ := h.done hdone
      obtain ⟨pipe, _, hset⟩ := Option.bind_eq_some_iff.mp hwrite
      cases hset
      cases side <;> exact ⟨hlines, hended⟩
  | closed side =>
      refine ⟨h.chunked, hsent, h.fresh, fun hdone => ?_⟩
      cases side <;> exact h.done hdone
  | read hnext =>
      refine ⟨h.chunked, hsent, h.fresh, fun hdone => ?_⟩
      have hended := (h.done hdone).2
      rw [nextLine_not_ended hnext] at hended
      cases hended
  | dropped hnext hbatcher =>
      have hended := (h.done hbatcher).2
      rw [nextLine_not_ended hnext] at hended
      cases hended
  | readAll hnext =>
      refine ⟨h.chunked, hsent, h.fresh, fun hdone => ?_⟩
      exact ⟨(h.done hdone).1, ended_set hnext (h.done hdone).2⟩
  | drained hbatch =>
      cases i with
      | recv => exact absurd rfl hrecv
      | tick => exact absurd rfl htick
      | _ => cases hbatch
  | pushed | lastChunk | allBatched => exact absurd rfl hrecv
  | ticked => exact absurd rfl htick
  | queue => exact ⟨h.chunked, hsent, h.fresh, h.done⟩

theorem Logged.step (h : Logged args s log) (hok : Accepting s i = true)
    (hs : step args s i = some s') : Logged args s' (log ++ events s i) := by
  cases i with
  | recv => exact h.recv hok hs
  | tick => exact h.tick hok hs
  | _ =>
      refine Eq.mpr (congrArg _ shown_none) (h.other ?_ ?_ (step_move hs))
      · exact nofun
      · exact nofun

theorem logged {s : State × List BatchEvent}
    (hr : ((machine args).observed events).Reach (fun s i => Accepting s.1 i = true) s) :
    Logged args s.1 s.2 := by
  refine hr.invariant (I := fun s => Logged args s.1 s.2) ?_ ?_
  · intro s h0
    obtain ⟨⟨_, _, hbatcher, _⟩, hlog⟩ := h0
    rw [hlog]
    refine ⟨?_, List.nil_sublist _, fun _ => hbatcher, fun hdone => ?_⟩
    · rw [hbatcher]
      exact Batched.nil (by decide)
    · rw [hbatcher] at hdone
      cases hdone
  · intro s i s' _ hI hok hs
    obtain ⟨hstep, hlog⟩ := Machine.observed_step hs
    rw [hlog]
    exact hI.step hok hstep

end JournalStream

/-! ## Pods -/

namespace K8sLogs

/-- The line that comes into the buffer in a step. -/
def taken (s : State) : Label → Option Str
  | .next =>
      match s.pump, s.source.next with
      | .streaming _, some (some (.line text)) => some text
      | _, _ => none
  | _ => none

/-- The chunk that is handed to the queue in a step. -/
def batch (s : State) : Label → Option (List Str)
  | .next =>
      match s.pump, s.source.next with
      | .streaming buf, some (some (.line text)) => (push buf text).2
      | .streaming buf, some _ => flush buf
      | _, _ => none
  | .tick =>
      match s.pump with
      | .streaming buf => flush buf
      | _ => none
  | _ => none

def events (s : State) (i : Label) : List BatchEvent := shown (taken s i) (batch s i)

/-- The chunk of a step, if there is one, is accepted. -/
def Accepting (s : State) (i : Label) : Bool := (batch s i).isNone || s.queue.refusal = none

variable {streamId : Str} {s s' : State} {i : Label}

/-- What is held is in the buffer, and nothing is held when the stream is over. What an
abort drops is still held here. -/
structure Logged (streamId : Str) (s : State) (log : List BatchEvent) (held : List Str) :
    Prop where
  chunked : Chunked log held
  sent : Sent (.k8sLogsChunk streamId) log s.queue
  fresh : s.pump = .connecting ∨ s.pump = .opening → held = []
  buffered : ∀ buf, s.pump = .streaming buf → held = buf
  flushed : ∀ error, s.pump = .finishing error → held = []

variable {held : List Str}

theorem Logged.streaming (h : Logged streamId s log held) {buf : List Str}
    (hpump : s.pump = .streaming buf) : Chunked log buf :=
  h.buffered buf hpump ▸ h.chunked

theorem logged_streaming {queue : Outgoing} {source : Pipe} {left : List Str}
    (hchunked : Chunked log left) (hsent : Sent (.k8sLogsChunk streamId) log queue) :
    Logged streamId ⟨queue, source, .streaming left⟩ log left := by
  refine ⟨hchunked, hsent, fun hfresh => ?_, fun buf hbuf => ?_, nofun⟩
  · rcases hfresh with hfresh | hfresh <;> cases hfresh
  · cases hbuf
    rfl

theorem logged_finishing {queue : Outgoing} {source : Pipe} {error : Option Str}
    (hchunked : Chunked log []) (hsent : Sent (.k8sLogsChunk streamId) log queue) :
    Logged streamId ⟨queue, source, .finishing error⟩ log [] :=
  ⟨hchunked, hsent, fun _ => rfl, nofun, fun _ _ => rfl⟩

theorem Logged.returned (h : Logged streamId s log held) {queue : Outgoing} {source : Pipe}
    (hgrows : s.queue.Grows queue) : Logged streamId ⟨queue, source, .returned⟩ log held := by
  refine ⟨h.chunked, h.sent.trans hgrows.accepted.sublist, fun hfresh => ?_, nofun, nofun⟩
  rcases hfresh with hfresh | hfresh <;> cases hfresh

/-- The pump goes on, since the chunk is accepted. -/
theorem logged_drained {queue : Outgoing} {source : Pipe} {line : Option Str} {chunk : List Str}
    (hchunked : Chunked (log ++ shown line (some chunk)) [])
    (hsent : Sent (.k8sLogsChunk streamId) log queue) (hqueue : queue.refusal = none) :
    Logged streamId
      ⟨(queue.send (.k8sLogsChunk streamId chunk)).1, source,
        .after (queue.send (.k8sLogsChunk streamId chunk)).2⟩
      (log ++ shown line (some chunk)) [] := by
  have hsent := hsent.send hqueue line chunk
  rw [Outgoing.send_accepted hqueue] at hsent ⊢
  exact logged_streaming hchunked hsent

/-- The last chunk, if there is one, is accepted, whatever ended the stream. -/
theorem Logged.last (h : Logged streamId s log held) {buf : List Str} {source : Pipe}
    {error : Option Str} (hpump : s.pump = .streaming buf)
    (hqueue : ∀ chunk, flush buf = some chunk → s.queue.refusal = none) :
    Logged streamId ⟨lastChunk streamId s.queue buf, source, .finishing error⟩
      (log ++ shown none (flush buf)) [] := by
  have hchunked := (h.streaming hpump).flush
  refine logged_finishing hchunked ?_
  unfold lastChunk
  cases hflush : flush buf with
  | none => exact h.sent.grow (.refl _) _
  | some chunk => exact h.sent.send (hqueue chunk hflush) _ _

theorem Logged.next (h : Logged streamId s log held) (hok : Accepting s .next = true)
    (hs : step streamId s .next = some s') :
    ∃ held', Logged streamId s' (log ++ events s .next) held' := by
  unfold events
  simp only [step] at hs
  split at hs
  · next buf text hpump hnext =>
      have htaken : taken s .next = some text := by
        simp only [taken, hpump, hnext]
      have hbatch : batch s .next = (push buf text).2 := by
        simp only [batch, hpump, hnext]
      have hchunked := (h.streaming hpump).push text
      rw [htaken, hbatch]
      rcases hpush : push buf text with ⟨left, out⟩
      rw [hpush] at hs hbatch hchunked
      cases out with
      | none =>
          cases hs
          exact ⟨left, logged_streaming hchunked (h.sent.grow (.refl _) _)⟩
      | some chunk =>
          cases hs
          rw [push_empties hpush] at hchunked
          exact ⟨[], logged_drained hchunked h.sent (open_of_accepted hok hbatch)⟩
  · next buf error hpump hnext =>
      have htaken : taken s .next = none := by
        simp only [taken, hpump, hnext]
      have hbatch : batch s .next = flush buf := by
        simp only [batch, hpump, hnext]
      cases hs
      rw [htaken, hbatch]
      exact ⟨[], h.last hpump fun chunk hflush => open_of_accepted hok (hbatch.trans hflush)⟩
  · next buf hpump hnext =>
      have htaken : taken s .next = none := by
        simp only [taken, hpump, hnext]
      have hbatch : batch s .next = flush buf := by
        simp only [batch, hpump, hnext]
      cases hs
      rw [htaken, hbatch]
      exact ⟨[], h.last hpump fun chunk hflush => open_of_accepted hok (hbatch.trans hflush)⟩
  · cases hs

theorem Logged.tick (h : Logged streamId s log held) (hok : Accepting s .tick = true)
    (hs : step streamId s .tick = some s') :
    ∃ held', Logged streamId s' (log ++ events s .tick) held' := by
  unfold events
  simp only [step] at hs
  split at hs
  · next buf hpump =>
      have hbatch : batch s .tick = flush buf := by
        simp only [batch, hpump]
      have hchunked := (h.streaming hpump).flush
      rw [hbatch]
      cases hflush : flush buf with
      | none =>
          rw [hflush] at hs
          cases hs
          rw [show taken s .tick = none from rfl, shown_none]
          exact ⟨held, h⟩
      | some chunk =>
          rw [hflush] at hs hbatch hchunked
          cases hs
          exact ⟨[], logged_drained hchunked h.sent (open_of_accepted hok hbatch)⟩
  · cases hs

/-- The other steps leave the buffer alone. -/
theorem Logged.other (h : Logged streamId s log held) (hnext : i ≠ .next) (htick : i ≠ .tick)
    (hm : Move streamId s i s') : Logged streamId s' log held := by
  have hsent : Sent (.k8sLogsChunk streamId) log s'.queue :=
    h.sent.trans hm.grows.accepted.sublist
  cases hm with
  | connected hpump => exact ⟨h.chunked, hsent, fun _ => h.fresh (.inl hpump), nofun, nofun⟩
  | opened hpump =>
      have hempty := h.fresh (.inr hpump)
      have hchunked := h.chunked
      rw [hempty] at hchunked ⊢
      exact logged_streaming hchunked hsent
  | failed | finished => exact h.returned (Outgoing.grows_send _ _)
  | aborted => exact h.returned (.refl _)
  | wrote | closed | queue => exact ⟨h.chunked, hsent, h.fresh, h.buffered, h.flushed⟩
  | pushed | full | unreadable | streamed => exact absurd rfl hnext
  | ticked | drained => exact absurd rfl htick

theorem Logged.step (h : Logged streamId s log held) (hok : Accepting s i = true)
    (hs : step streamId s i = some s') :
    ∃ held', Logged streamId s' (log ++ events s i) held' := by
  cases i with
  | next => exact h.next hok hs
  | tick => exact h.tick hok hs
  | _ =>
      refine ⟨held, Eq.mpr (congrArg (Logged _ _ · _) shown_none) (h.other ?_ ?_ (step_move hs))⟩
      · exact nofun
      · exact nofun

theorem logged {s : State × List BatchEvent}
    (hr : ((machine streamId).observed events).Reach (fun s i => Accepting s.1 i = true) s) :
    ∃ held, Logged streamId s.1 s.2 held := by
  refine hr.invariant (I := fun s => ∃ held, Logged streamId s.1 s.2 held) ?_ ?_
  · intro s h0
    obtain ⟨⟨_, hpump⟩, hlog⟩ := h0
    rw [hlog]
    refine ⟨[], Batched.nil (by decide), List.nil_sublist _, fun _ => rfl, ?_, fun _ _ => rfl⟩
    intro buf hbuf
    rw [hpump] at hbuf
    cases hbuf
  · intro s i s' _ hI hok hs
    obtain ⟨held, hI⟩ := hI
    obtain ⟨hstep, hlog⟩ := Machine.observed_step hs
    rw [hlog]
    exact hI.step hok hstep

end K8sLogs

/-- Where every chunk is accepted: the chunks that went out, of one to the greatest
number of lines, are followed in the lines that came in by less than a chunk, which is in
the buffer; when the input has ended or failed they are all the lines. -/
theorem lines_chunked :
    (∀ (args : StreamArgs) s log,
      ((JournalStream.machine args).observed JournalStream.events).Reach
        (fun s i => JournalStream.Accepting s.1 i = true) (s, log) →
      Batched maxLinesPerChunk (receivedOf log) (emittedOf log) s.batcher.held ∧
      ((emittedOf log).map (.journalStreamChunk args.streamId)).Sublist s.queue.accepted ∧
      (s.batcher = .returned →
        s.readers.ended = true ∧ s.lines = [] ∧ receivedOf log = (emittedOf log).flatten)) ∧
    ∀ streamId s log,
      ((K8sLogs.machine streamId).observed K8sLogs.events).Reach
        (fun s i => K8sLogs.Accepting s.1 i = true) (s, log) →
      ∃ held, Batched maxLinesPerChunk (receivedOf log) (emittedOf log) held ∧
        ((emittedOf log).map (.k8sLogsChunk streamId)).Sublist s.queue.accepted ∧
        (∀ buf, s.pump = .streaming buf → held = buf) ∧
        ∀ error, s.pump = .finishing error → receivedOf log = (emittedOf log).flatten := by
  refine ⟨fun args s log hr => ?_, fun streamId s log hr => ?_⟩
  · have hlogged := JournalStream.logged hr
    refine ⟨hlogged.chunked, hlogged.sent, fun hreturned => ?_⟩
    obtain ⟨hlines, hended⟩ := hlogged.done hreturned
    have hwhole := hlogged.chunked.whole
    rw [hreturned, show Batcher.held .returned = [] from rfl, List.append_nil] at hwhole
    exact ⟨hended, hlines, hwhole⟩
  · obtain ⟨held, hlogged⟩ := K8sLogs.logged hr
    refine ⟨held, hlogged.chunked, hlogged.sent, hlogged.buffered, fun error hpump => ?_⟩
    have hwhole := hlogged.chunked.whole
    rw [hlogged.flushed error hpump, List.append_nil] at hwhole
    exact hwhole

/-! Two lines that go out at a tick, and one with the last flush. -/

def abcLog : List BatchEvent :=
  [.received "a".toList, .received "b".toList, .emitted ["a".toList, "b".toList],
    .received "c".toList, .emitted ["c".toList]]

theorem lines_chunked_abc :
    (∃ s : JournalStream.State, s.batcher = .returned ∧
      receivedOf abcLog = ["a".toList, "b".toList, "c".toList] ∧
      receivedOf abcLog = (emittedOf abcLog).flatten ∧
      (∀ chunk ∈ emittedOf abcLog, 1 ≤ chunk.length ∧ chunk.length ≤ maxLinesPerChunk) ∧
      [.journalStreamChunk "j".toList ["a".toList, "b".toList],
        .journalStreamChunk "j".toList ["c".toList]].Sublist s.queue.accepted) ∧
    ∃ s : K8sLogs.State, s.pump = .finishing (some "stream: reset".toList) ∧
      receivedOf abcLog = (emittedOf abcLog).flatten ∧
      [.k8sLogsChunk "p".toList ["a".toList, "b".toList],
        .k8sLogsChunk "p".toList ["c".toList]].Sublist s.queue.accepted := by
  refine ⟨?_, ?_⟩
  · have hrun : ((((JournalStream.machine journalArgs).observed JournalStream.events).runWithin
        (fun s i => JournalStream.Accepting s.1 i = true) (idleJournal, [])
        [.spawn (.ok ()), .write .stdout lineA, .write .stderr lineB, .read .stdout,
          .read .stderr, .recv, .recv, .tick, .queue .take, .write .stdout lineC, .read .stdout,
          .recv, .close .stdout, .close .stderr, .read .stdout, .read .stderr, .recv]).map
        fun s => (s.1.batcher, s.2)) = some (.returned, abcLog) := by
      decide
    obtain ⟨⟨s, log⟩, hs, hseen⟩ := Option.map_eq_some_iff.mp hrun
    obtain ⟨hreturned, hlog⟩ := Prod.mk.inj hseen
    have hidle : ((JournalStream.machine journalArgs).observed JournalStream.events).init
        (idleJournal, []) := ⟨⟨rfl, rfl, rfl, rfl⟩, rfl⟩
    have hr := Machine.Reach.runWithin (.init hidle) hs
    rw [show log = abcLog from hlog] at hr
    obtain ⟨hchunked, hsent, hend⟩ := lines_chunked.1 _ s abcLog hr
    exact ⟨s, hreturned, rfl, (hend hreturned).2.2, hchunked.sizes, hsent⟩
  · have hrun : ((((K8sLogs.machine "p".toList).observed K8sLogs.events).runWithin
        (fun s i => K8sLogs.Accepting s.1 i = true) (idlePod, [])
        [.connect (.ok ()), .opened (.ok ()), .write lineA, .write lineB, .next, .next, .tick,
          .queue .take, .write lineC, .write (.unreadable "reset".toList), .next, .next]).map
        fun s => (s.1.pump, s.2)) = some (.finishing (some "stream: reset".toList), abcLog) := by
      decide
    obtain ⟨⟨s, log⟩, hs, hseen⟩ := Option.map_eq_some_iff.mp hrun
    obtain ⟨hpump, hlog⟩ := Prod.mk.inj hseen
    have hidle : ((K8sLogs.machine "p".toList).observed K8sLogs.events).init (idlePod, []) :=
      ⟨⟨rfl, rfl⟩, rfl⟩
    have hr := Machine.Reach.runWithin (.init hidle) hs
    rw [show log = abcLog from hlog] at hr
    obtain ⟨held, _, hsent, _, hend⟩ := lines_chunked.2 _ s abcLog hr
    exact ⟨s, hpump, hend _ hpump, hsent⟩

end ShellfleetAgent.Agent.LogSources
