import ShellfleetAgent.Proofs.LogReaders

/-!
# An end without an error comes after every line

Where lines are sent in batches, what has been read is what has been accepted in
chunks, then what the buffer holds, then what is in the channel to the batcher. A
chunk that is refused because the queue is full ends the batcher as the end of its
input does; the pump of a pod's log goes on to its end message when the last chunk
is refused.
-/

namespace ShellfleetAgent.Agent.LogSources

open ShellfleetAgent.Lib
open Streams (StreamArgs)

/-- What a line that is pushed makes of the buffer, and of what is drained. -/
theorem push_cases (buf : List Str) (line : Str) :
    push buf line = ([], some (buf ++ [line])) ∨ push buf line = (buf ++ [line], none) := by
  by_cases hfull : maxLinesPerChunk ≤ (buf ++ [line]).length
  · exact .inl (if_pos hfull)
  · exact .inr (if_neg hfull)

theorem flush_cases (buf : List Str) : flush buf = none ∧ buf = [] ∨ flush buf = some buf := by
  by_cases hempty : buf = []
  · exact .inl ⟨if_pos hempty, hempty⟩
  · exact .inr (if_neg hempty)

/-- What is read next is not unreadable. -/
def Readable : Option (Option Item) → Bool
  | some (some (.unreadable _)) => false
  | _ => true

theorem Readable.ne {item : Option (Option Item)} (h : Readable item = true) (e : Str) :
    item ≠ some (some (.unreadable e)) := by
  intro hitem
  subst hitem
  cases h

theorem nextLine_not_ended {readers : Readers} {side : Side} {reader : Reader} {text : Option Str}
    (h : (readers.get side).nextLine = some (reader, text)) : readers.ended = false := by
  have hrunning := nextLine_running h
  unfold Readers.ended
  cases side with
  | stdout => simp [show readers.stdout.status = _ from hrunning]
  | stderr => simp [show readers.stderr.status = _ from hrunning]

theorem ended_stdout {readers : Readers} (h : readers.ended = true) :
    readers.stdout.status = .ended := by
  unfold Readers.ended at h
  exact of_decide_eq_true (Bool.and_eq_true_iff.mp h).1

theorem ended_stderr {readers : Readers} (h : readers.ended = true) :
    readers.stderr.status = .ended := by
  unfold Readers.ended at h
  exact of_decide_eq_true (Bool.and_eq_true_iff.mp h).2

/-- What the batcher holds. -/
def Batcher.held : Batcher → List Str
  | .batching buf => buf
  | _ => []

namespace JournalStream

/-- The chunk that the batcher hands to the queue in a step. -/
def batch (s : State) : ChildLabel → Option (List Str)
  | .recv =>
      match s.batcher, s.lines with
      | .batching buf, line :: _ => (push buf line).2
      | .batching buf, [] => flush buf
      | _, _ => none
  | .tick =>
      match s.batcher with
      | .batching buf => flush buf
      | _ => none
  | _ => none

/-- Every line is readable, and no chunk is refused because the queue is full. -/
def Delivered (s : State) : ChildLabel → Bool
  | .read side => Readable (s.readers.get side).pipe.next
  | i => (batch s i).isNone || s.queue.refusal ≠ some .full

variable {args : StreamArgs} {s s' : State} {i : ChildLabel}

/-- What a step can be. -/
inductive Move (args : StreamArgs) (s : State) : ChildLabel → State → Prop
  | spawned (h : s.runner = .starting) : Move args s (.spawn (.ok ()))
      { s with readers := s.readers.spawn, batcher := .batching [], runner := .waiting }
  | failed (result : Except Str Unit) (error : Str) : Move args s (.spawn result)
      { s with queue := (s.queue.send (.journalStreamEnd args.streamId (some error))).1,
               runner := .returned }
  | wrote {side : Side} {item : Item} {readers : Readers}
      (h : s.readers.write side item = some readers) :
      Move args s (.write side item) { s with readers }
  | closed (side : Side) : Move args s (.close side) { s with readers := s.readers.close side }
  | read {side : Side} {reader : Reader} {text : Str}
      (hnext : (s.readers.get side).nextLine = some (reader, some text)) : Move args s (.read side)
      { s with readers := s.readers.set side reader, lines := s.lines ++ [text] }
  | dropped {side : Side} {reader : Reader} {text : Str}
      (hnext : (s.readers.get side).nextLine = some (reader, some text))
      (hbatcher : s.batcher = .returned) : Move args s (.read side)
      { s with readers := s.readers.set side reader.stop }
  | readAll {side : Side} {reader : Reader}
      (hnext : (s.readers.get side).nextLine = some (reader, none)) : Move args s (.read side)
      { s with readers := s.readers.set side reader }
  | pushed {buf lines : List Str} {line : Str} (hbatcher : s.batcher = .batching buf)
      (hlines : s.lines = line :: lines) : Move args s .recv
      { s with lines, batcher := .batching (buf ++ [line]) }
  | drained {i : ChildLabel} {chunk rest : List Str} (hbatch : batch s i = some chunk)
      (hheld : s.batcher.held ++ s.lines = chunk ++ rest) (hbatcher : s.batcher ≠ .unspawned) :
      Move args s i
      { s with queue := (s.queue.send (.journalStreamChunk args.streamId chunk)).1, lines := rest,
               batcher := .after (s.queue.send (.journalStreamChunk args.streamId chunk)).2 }
  | lastChunk {buf : List Str} (hbatch : batch s .recv = some buf)
      (hbatcher : s.batcher = .batching buf) (hlines : s.lines = [])
      (hended : s.readers.ended = true) : Move args s .recv
      { s with queue := (s.queue.send (.journalStreamChunk args.streamId buf)).1,
               batcher := .returned }
  | allBatched (hbatcher : s.batcher = .batching []) (hlines : s.lines = [])
      (hended : s.readers.ended = true) : Move args s .recv { s with batcher := .returned }
  | ticked : Move args s .tick s
  | exited (status : ExitStatus) : Move args s (.exit status)
      { s with runner := .joinStdout status }
  | joinedStdout (status : ExitStatus) : Move args s .proceed
      { s with runner := .joinStderr status }
  | joinedStderr (status : ExitStatus) : Move args s .proceed
      { s with runner := .joinBatch status }
  | finished (status : ExitStatus) (hbatcher : s.batcher = .returned) : Move args s .proceed
      { s with queue := (s.queue.send (.journalStreamEnd args.streamId (status.error command))).1,
               runner := .returned }
  | aborted : Move args s .abort { s with runner := .returned }
  | queue {e : QueueEnv} {queue : Outgoing} (h : e.run s.queue = some queue) :
      Move args s (.queue e) { s with queue }

theorem step_recv (h : step args s .recv = some s') : Move args s .recv s' := by
  simp only [step] at h
  split at h
  · next buf line lines hbatcher hlines =>
      have hbatch : batch s .recv = (push buf line).2 := by
        simp only [batch, hbatcher, hlines]
      have hheld : s.batcher.held ++ s.lines = (buf ++ [line]) ++ lines := by
        rw [hbatcher, hlines, List.append_assoc]
        rfl
      rcases push_cases buf line with hpush | hpush
      · rw [hpush] at h hbatch
        cases h
        refine .drained hbatch hheld ?_
        rw [hbatcher]
        exact nofun
      · rw [hpush] at h
        cases h
        exact .pushed hbatcher hlines
  · next buf hbatcher hlines =>
      split at h
      · next hended =>
          rcases flush_cases buf with ⟨hflush, hempty⟩ | hflush
          · rw [hflush] at h
            cases h
            rw [hempty] at hbatcher
            exact .allBatched hbatcher hlines hended
          · rw [hflush] at h
            cases h
            refine .lastChunk ?_ hbatcher hlines hended
            simp only [batch, hbatcher, hlines, hflush]
      · cases h
  · cases h

theorem step_tick (h : step args s .tick = some s') : Move args s .tick s' := by
  simp only [step] at h
  split at h
  · next buf hbatcher =>
      rcases flush_cases buf with ⟨hflush, _⟩ | hflush
      · rw [hflush] at h
        cases h
        exact .ticked
      · rw [hflush] at h
        cases h
        refine .drained ?_ ?_ ?_
        · simp only [batch, hbatcher, hflush]
        · rw [hbatcher]
          rfl
        · rw [hbatcher]
          exact nofun
  · cases h

theorem step_move (h : step args s i = some s') : Move args s i s' := by
  cases i with
  | spawn result =>
      simp only [step] at h
      split at h
      · cases h
        exact .failed _ _
      · cases h
        exact .failed _ _
      · next hrunner _ =>
          cases h
          exact .spawned hrunner
      · cases h
  | write side item =>
      obtain ⟨readers, hwrite, rfl⟩ := Option.map_eq_some_iff.mp h
      exact .wrote hwrite
  | close side =>
      cases h
      exact .closed side
  | read side =>
      simp only [step] at h
      split at h
      · next hnext =>
          split at h
          · next hbatcher =>
              cases h
              exact .dropped hnext hbatcher
          · cases h
            exact .read hnext
      · next hnext =>
          cases h
          exact .readAll hnext
      · cases h
  | recv => exact step_recv h
  | tick => exact step_tick h
  | exit status =>
      simp only [step] at h
      split at h
      · cases h
        exact .exited status
      · cases h
  | proceed =>
      simp only [step] at h
      split at h
      · split at h
        · cases h
          exact .joinedStdout _
        · cases h
      · split at h
        · cases h
          exact .joinedStderr _
        · cases h
      · split at h
        · next hbatcher =>
            cases h
            exact .finished _ hbatcher
        · cases h
      · cases h
  | abort =>
      simp only [step] at h
      split at h
      · cases h
      · cases h
        exact .aborted
  | queue e =>
      obtain ⟨queue, hqueue, rfl⟩ := Option.map_eq_some_iff.mp h
      exact .queue hqueue

theorem Move.grows (h : Move args s i s') : s.queue.Grows s'.queue := by
  cases h with
  | failed | drained | lastChunk | finished => exact Outgoing.grows_send _ _
  | queue h => exact QueueEnv.grows h
  | _ => exact .refl _

/-- What has been read is what has been accepted, what the batcher holds, and what is in
the channel. -/
structure Inv (args : StreamArgs) (s : State) : Prop where
  merged : ∃ batches : List (List Str),
    s.readers.Merged (batches.flatten ++ (s.batcher.held ++ s.lines)) ∧
    (batches.map (.journalStreamChunk args.streamId)).Sublist s.queue.accepted
  fresh : s.runner = .starting → s.batcher = .unspawned
  done : s.batcher = .returned → s.lines = [] ∧ s.readers.ended = true

theorem ended_set {readers : Readers} {side : Side} {reader reader' : Reader} {text : Option Str}
    (h : (readers.get side).nextLine = some (reader', text)) (hended : readers.ended = true) :
    (readers.set side reader).ended = true := by
  rw [nextLine_not_ended h] at hended
  cases hended

theorem Inv.drained {chunk rest : List Str} (h : Inv args s) (hqueue : s.queue.refusal = none)
    (hheld : s.batcher.held ++ s.lines = chunk ++ rest) (hbatcher : s.batcher ≠ .unspawned) :
    Inv args
      { s with queue := (s.queue.send (.journalStreamChunk args.streamId chunk)).1, lines := rest,
               batcher := .after (s.queue.send (.journalStreamChunk args.streamId chunk)).2 } := by
  obtain ⟨batches, hmerged, hbatches⟩ := h.merged
  rw [Outgoing.send_accepted hqueue]
  refine ⟨⟨batches ++ [chunk], ?_, ?_⟩, fun hstart => absurd (h.fresh hstart) hbatcher, nofun⟩
  · rw [hheld] at hmerged
    rw [List.flatten_append, List.flatten_singleton, List.append_assoc]
    exact hmerged
  · rw [List.map_append]
    exact hbatches.append (List.Sublist.refl _)

theorem Inv.lastChunk {buf : List Str} (h : Inv args s) (hqueue : s.queue.refusal = none)
    (hbatcher : s.batcher = .batching buf) (hlines : s.lines = [])
    (hended : s.readers.ended = true) :
    Inv args
      { s with queue := (s.queue.send (.journalStreamChunk args.streamId buf)).1,
               batcher := .returned } := by
  obtain ⟨batches, hmerged, hbatches⟩ := h.merged
  rw [Outgoing.send_accepted hqueue]
  refine ⟨⟨batches ++ [buf], ?_, ?_⟩, fun hstart => ?_, fun _ => ⟨hlines, hended⟩⟩
  · rw [hbatcher, hlines] at hmerged
    rw [List.flatten_append, List.flatten_singleton, List.append_assoc, hlines]
    exact hmerged
  · rw [List.map_append]
    exact hbatches.append (List.Sublist.refl _)
  · have hfresh := h.fresh hstart
    rw [hbatcher] at hfresh
    cases hfresh

theorem Inv.move (h : Inv args s) (hopen : s.queue.closed = false)
    (hok : Delivered s i = true) (hm : Move args s i s') : Inv args s' := by
  obtain ⟨batches, hmerged, hbatches⟩ := h.merged
  have hgrown := hbatches.trans hm.grows.accepted.sublist
  have hqueue : ∀ chunk, batch s i = some chunk → s.queue.refusal = none := by
    intro chunk hbatch
    have hnot : s.queue.refusal ≠ some .full := by
      cases i with
      | read side => cases hbatch
      | _ =>
          simp only [Delivered, hbatch, Option.isNone_some, Bool.false_or,
            decide_eq_true_eq] at hok
          exact hok
    refine (Outgoing.open_of_not_full hnot).resolve_left fun hclosed => ?_
    rw [hopen] at hclosed
    cases hclosed
  cases hm with
  | spawned hstart =>
      rw [h.fresh hstart] at hmerged
      exact ⟨⟨batches, hmerged.spawn, hgrown⟩, nofun, nofun⟩
  | failed | exited | joinedStdout | joinedStderr | finished | aborted =>
      exact ⟨⟨batches, hmerged, hgrown⟩, nofun, h.done⟩
  | @wrote side _ _ hwrite =>
      refine ⟨⟨batches, hmerged.write hwrite, hgrown⟩, h.fresh, fun hdone => ?_⟩
      obtain ⟨hlines, hended⟩ := h.done hdone
      obtain ⟨pipe, _, hset⟩ := Option.bind_eq_some_iff.mp hwrite
      cases hset
      cases side <;> exact ⟨hlines, hended⟩
  | closed side =>
      refine ⟨⟨batches, hmerged.close side, hgrown⟩, h.fresh, fun hdone => ?_⟩
      cases side <;> exact h.done hdone
  | read hnext =>
      have hmerged := hmerged.nextLine (Readable.ne hok) hnext
      rw [Option.toList_some, List.append_assoc, List.append_assoc] at hmerged
      refine ⟨⟨batches, hmerged, hgrown⟩, h.fresh, fun hdone => ?_⟩
      have hended := (h.done hdone).2
      rw [nextLine_not_ended hnext] at hended
      cases hended
  | dropped hnext hbatcher =>
      have hended := (h.done hbatcher).2
      rw [nextLine_not_ended hnext] at hended
      cases hended
  | readAll hnext =>
      have hmerged := hmerged.nextLine (Readable.ne hok) hnext
      rw [Option.toList_none, List.append_nil] at hmerged
      refine ⟨⟨batches, hmerged, hgrown⟩, h.fresh, fun hdone => ?_⟩
      exact ⟨(h.done hdone).1, ended_set hnext (h.done hdone).2⟩
  | @pushed buf lines line hbatcher hlines =>
      refine ⟨⟨batches, ?_, hgrown⟩, fun hstart => ?_, nofun⟩
      · rw [hbatcher, hlines] at hmerged
        show Readers.Merged _ (_ ++ ((buf ++ [line]) ++ lines))
        rw [List.append_assoc buf]
        exact hmerged
      · have hfresh := h.fresh hstart
        rw [hbatcher] at hfresh
        cases hfresh
  | drained hbatch hheld hbatcher => exact h.drained (hqueue _ hbatch) hheld hbatcher
  | lastChunk hbatch hbatcher hlines hended =>
      exact h.lastChunk (hqueue _ hbatch) hbatcher hlines hended
  | allBatched hbatcher hlines hended =>
      rw [hbatcher] at hmerged
      refine ⟨⟨batches, hmerged, hgrown⟩, fun hstart => ?_, fun _ => ⟨hlines, hended⟩⟩
      have hfresh := h.fresh hstart
      rw [hbatcher] at hfresh
      cases hfresh
  | ticked => exact h
  | queue => exact ⟨⟨batches, hmerged, hgrown⟩, h.fresh, h.done⟩

theorem invariant (hr : (machine args).Reach (fun s i => Delivered s i = true) s) :
    s.queue.closed = true ∨ Inv args s := by
  refine hr.invariant_until (I := Inv args) (f := fun s => s.queue.closed) ?_ ?_ ?_
  · intro s ⟨hreaders, hlines, hbatcher, hrunner⟩
    refine ⟨⟨[], ?_, List.nil_sublist _⟩, fun _ => hbatcher, fun hdone => ?_⟩
    · rw [hreaders, hlines, hbatcher]
      exact merged_idle
    · rw [hbatcher] at hdone
      cases hdone
  · exact fun s i s' hs => (step_move hs).grows.closed
  · exact fun s i s' hopen h hok hs => h.move hopen hok (step_move hs)

/-- The step that has an end without an error accepted comes after every line. -/
theorem carried {before : List Message}
    (hr : (machine args).Reach (fun s i => Delivered s i = true) s)
    (hs : step args s i = some s') (hown : ∀ e, i ≠ .queue e)
    (haccepts : Outgoing.Accepts s.queue s'.queue before (.journalStreamEnd args.streamId none)) :
    ∃ batches : List (List Str), s.readers.Carried batches.flatten ∧
      (batches.map (.journalStreamChunk args.streamId)).Sublist before := by
  cases step_move hs with
  | failed | drained | lastChunk => exact absurd haccepts.of_send.1 nofun
  | finished status hbatcher =>
      obtain ⟨_, hbefore, hqueue⟩ := haccepts.of_send
      rcases invariant hr with hclosed | hI
      · rw [Outgoing.closed_of_refusal hqueue] at hclosed
        cases hclosed
      · obtain ⟨batches, hmerged, hbatches⟩ := hI.merged
        obtain ⟨hlines, hended⟩ := hI.done hbatcher
        rw [hbatcher, hlines, show Batcher.held .returned = [] from rfl, List.append_nil,
          List.append_nil] at hmerged
        rw [hbefore]
        exact ⟨batches, hmerged.carried (ended_stdout hended) (ended_stderr hended), hbatches⟩
  | queue => exact absurd rfl (hown _)
  | _ => exact absurd haccepts (Outgoing.not_accepts rfl)

end JournalStream

/-! ## Pods -/

namespace K8sLogs

/-- The last chunk is not refused because the queue is full. -/
def Delivered (s : State) : Label → Bool
  | .next =>
      match s.pump, s.source.next with
      | .streaming buf, some none => (flush buf).isNone || s.queue.refusal ≠ some .full
      | _, _ => true
  | _ => true

variable {streamId : Str} {s s' : State} {i : Label}

/-- What a step can be. -/
inductive Move (streamId : Str) (s : State) : Label → State → Prop
  | connected (h : s.pump = .connecting) : Move streamId s (.connect (.ok ()))
      { s with pump := .opening }
  | failed (i : Label) (error : Str) : Move streamId s i
      { s with queue := (s.queue.send (.k8sLogsEnd streamId (some error))).1, pump := .returned }
  | opened (h : s.pump = .opening) : Move streamId s (.opened (.ok ()))
      { s with pump := .streaming [] }
  | wrote {item : Item} {source : Pipe} (h : s.source.write item = some source) :
      Move streamId s (.write item) { s with source }
  | closed : Move streamId s .close { s with source := s.source.close }
  | pushed {buf : List Str} {text : Str} (hpump : s.pump = .streaming buf)
      (hnext : s.source.next = some (some (.line text))) : Move streamId s .next
      { s with source := s.source.advance, pump := .streaming (buf ++ [text]) }
  | full {buf : List Str} {text : Str} (hpump : s.pump = .streaming buf)
      (hnext : s.source.next = some (some (.line text))) : Move streamId s .next
      { queue := (s.queue.send (.k8sLogsChunk streamId (buf ++ [text]))).1,
        source := s.source.advance,
        pump := .after (s.queue.send (.k8sLogsChunk streamId (buf ++ [text]))).2 }
  | unreadable {buf : List Str} (error : Str) : Move streamId s .next
      { queue := lastChunk streamId s.queue buf, source := s.source.advance,
        pump := .finishing (some error) }
  | streamed {buf : List Str} (hpump : s.pump = .streaming buf)
      (hnext : s.source.next = some none) : Move streamId s .next
      { s with queue := lastChunk streamId s.queue buf, pump := .finishing none }
  | ticked : Move streamId s .tick s
  | drained {buf : List Str} (hpump : s.pump = .streaming buf) : Move streamId s .tick
      { s with queue := (s.queue.send (.k8sLogsChunk streamId buf)).1,
               pump := .after (s.queue.send (.k8sLogsChunk streamId buf)).2 }
  | finished {error : Option Str} (hpump : s.pump = .finishing error) : Move streamId s .finish
      { s with queue := (s.queue.send (.k8sLogsEnd streamId error)).1, pump := .returned }
  | aborted : Move streamId s .abort { s with pump := .returned }
  | queue {e : QueueEnv} {queue : Outgoing} (h : e.run s.queue = some queue) :
      Move streamId s (.queue e) { s with queue }

theorem step_next (h : step streamId s .next = some s') : Move streamId s .next s' := by
  simp only [step] at h
  split at h
  · next buf text hpump hnext =>
      rcases push_cases buf text with hpush | hpush
      · rw [hpush] at h
        cases h
        exact .full hpump hnext
      · rw [hpush] at h
        cases h
        exact .pushed hpump hnext
  · cases h
    exact .unreadable _
  · next hpump hnext =>
      cases h
      exact .streamed hpump hnext
  · cases h

theorem step_move (h : step streamId s i = some s') : Move streamId s i s' := by
  cases i with
  | connect result =>
      simp only [step] at h
      split at h
      · next hpump =>
          cases h
          exact .connected hpump
      · cases h
        exact .failed _ _
      · cases h
  | opened result =>
      simp only [step] at h
      split at h
      · next hpump =>
          cases h
          exact .opened hpump
      · cases h
        exact .failed _ _
      · cases h
  | write item =>
      obtain ⟨source, hwrite, rfl⟩ := Option.map_eq_some_iff.mp h
      exact .wrote hwrite
  | close =>
      cases h
      exact .closed
  | next => exact step_next h
  | tick =>
      simp only [step] at h
      split at h
      · next buf hpump =>
          rcases flush_cases buf with ⟨hflush, _⟩ | hflush
          · rw [hflush] at h
            cases h
            exact .ticked
          · rw [hflush] at h
            cases h
            exact .drained hpump
      · cases h
  | finish =>
      simp only [step] at h
      split at h
      · next hpump =>
          cases h
          exact .finished hpump
      · cases h
  | abort =>
      simp only [step] at h
      split at h
      · cases h
      · cases h
      · cases h
        exact .aborted
  | queue e =>
      obtain ⟨queue, hqueue, rfl⟩ := Option.map_eq_some_iff.mp h
      exact .queue hqueue

theorem lastChunk_grows (queue : Outgoing) (buf : List Str) :
    queue.Grows (lastChunk streamId queue buf) := by
  unfold lastChunk
  split
  · exact Outgoing.grows_send _ _
  · exact .refl _

theorem Move.grows (h : Move streamId s i s') : s.queue.Grows s'.queue := by
  cases h with
  | failed | full | drained | finished => exact Outgoing.grows_send _ _
  | unreadable | streamed => exact lastChunk_grows _ _
  | queue h => exact QueueEnv.grows h
  | _ => exact .refl _

/-- What has been read is what has been accepted and what the buffer holds. -/
def Held (streamId : Str) (source : Pipe) (accepted : List Message) : Pump → Prop
  | .connecting | .opening => source.read = 0
  | .streaming buf => ∃ batches : List (List Str),
      source.produced.take source.read = (batches.flatten ++ buf).map .line ∧
        source.read ≤ source.produced.length ∧
        (batches.map (.k8sLogsChunk streamId)).Sublist accepted
  | .finishing none => source.closed = true ∧ ∃ batches : List (List Str),
      source.produced = batches.flatten.map .line ∧
        (batches.map (.k8sLogsChunk streamId)).Sublist accepted
  | .finishing (some _) | .returned => True

theorem Held.grow {source : Pipe} {accepted accepted' : List Message} {pump : Pump}
    (h : Held streamId source accepted pump) (hgrows : accepted.Sublist accepted') :
    Held streamId source accepted' pump := by
  cases pump with
  | streaming buf =>
      obtain ⟨batches, hread, hbound, hbatches⟩ := h
      exact ⟨batches, hread, hbound, hbatches.trans hgrows⟩
  | finishing error =>
      cases error with
      | none =>
          obtain ⟨hclosed, batches, hread, hbatches⟩ := h
          exact ⟨hclosed, batches, hread, hbatches.trans hgrows⟩
      | some e => trivial
  | _ => exact h

theorem Held.write {source source' : Pipe} {item : Item} {accepted : List Message} {pump : Pump}
    (h : Held streamId source accepted pump) (hwrite : source.write item = some source') :
    Held streamId source' accepted pump := by
  obtain ⟨hnot, rfl⟩ := write_open hwrite
  cases pump with
  | streaming buf =>
      obtain ⟨batches, hread, hbound, hbatches⟩ := h
      refine ⟨batches, ?_, ?_, hbatches⟩
      · rw [List.take_append_of_le_length hbound]
        exact hread
      · rw [List.length_append]
        exact Nat.le_add_right_of_le hbound
  | finishing error =>
      cases error with
      | none =>
          have hclosed := h.1
          rw [hnot] at hclosed
          cases hclosed
      | some e => trivial
  | _ => exact h

theorem Held.close {source : Pipe} {accepted : List Message} {pump : Pump}
    (h : Held streamId source accepted pump) : Held streamId source.close accepted pump := by
  cases pump with
  | finishing error =>
      cases error with
      | none => exact ⟨rfl, h.2⟩
      | some e => trivial
  | _ => exact h

/-- A chunk has been accepted, or the task is over. -/
theorem held_after {batches : List (List Str)} {chunk : List Str} {source : Pipe} {q : Outgoing}
    (hread : source.produced.take source.read = (batches.flatten ++ chunk).map .line)
    (hbound : source.read ≤ source.produced.length)
    (hbatches : (batches.map (.k8sLogsChunk streamId)).Sublist q.accepted) :
    Held streamId source (q.send (.k8sLogsChunk streamId chunk)).1.accepted
      (.after (q.send (.k8sLogsChunk streamId chunk)).2) := by
  cases hqueue : q.refusal with
  | some e =>
      rw [Outgoing.send_refused hqueue]
      trivial
  | none =>
      rw [Outgoing.send_accepted hqueue]
      refine ⟨batches ++ [chunk], ?_, hbound, ?_⟩
      · rw [List.flatten_append, List.flatten_singleton, List.append_nil]
        exact hread
      · rw [List.map_append]
        exact hbatches.append (List.Sublist.refl _)

theorem Held.streamed {source : Pipe} {q : Outgoing} {buf : List Str}
    (h : Held streamId source q.accepted (.streaming buf)) (hnext : source.next = some none)
    (hqueue : flush buf = some buf → q.refusal = none) :
    Held streamId source (lastChunk streamId q buf).accepted (.finishing none) := by
  obtain ⟨batches, hread, hbound, hbatches⟩ := h
  obtain ⟨hclosed, hall⟩ := next_end hnext hbound
  rw [hall, List.take_length] at hread
  unfold lastChunk
  rcases flush_cases buf with ⟨hflush, hempty⟩ | hflush
  · rw [hempty, List.append_nil] at hread
    rw [hflush]
    exact ⟨hclosed, batches, hread, hbatches⟩
  · rw [hflush]
    refine ⟨hclosed, batches ++ [buf], ?_, ?_⟩
    · rw [List.flatten_append, List.flatten_singleton]
      exact hread
    · simp only [Outgoing.send_accepted (hqueue hflush), List.map_append]
      exact hbatches.append (List.Sublist.refl _)

def Inv (streamId : Str) (s : State) : Prop := Held streamId s.source s.queue.accepted s.pump

theorem Inv.at {pump : Pump} (h : Inv streamId s) (hpump : s.pump = pump) :
    Held streamId s.source s.queue.accepted pump := by
  rw [← hpump]
  exact h

theorem Inv.move (h : Inv streamId s) (hopen : s.queue.closed = false)
    (hok : Delivered s i = true) (hm : Move streamId s i s') : Inv streamId s' := by
  have hgrows := hm.grows.accepted.sublist
  cases hm with
  | connected hpump =>
      have hread : s.source.read = 0 := h.at hpump
      exact hread
  | opened hpump =>
      have hread : s.source.read = 0 := h.at hpump
      refine ⟨[], ?_, ?_, List.nil_sublist _⟩
      · rw [hread]
        rfl
      · rw [hread]
        exact Nat.zero_le _
  | wrote hwrite => exact Held.write h hwrite
  | closed => exact Held.close h
  | @pushed buf text hpump hnext =>
      obtain ⟨batches, hread, hbound, hbatches⟩ := h.at hpump
      have hitem := next_item hnext
      refine ⟨batches, ?_, (List.getElem?_eq_some_iff.mp hitem).1, hbatches⟩
      rw [← List.append_assoc]
      exact take_advance hitem hread
  | @full buf text hpump hnext =>
      obtain ⟨batches, hread, hbound, hbatches⟩ := h.at hpump
      have hitem := next_item hnext
      refine held_after ?_ (List.getElem?_eq_some_iff.mp hitem).1 hbatches
      rw [← List.append_assoc]
      exact take_advance hitem hread
  | failed | aborted | unreadable | finished => trivial
  | @streamed buf hpump hnext =>
      refine (h.at hpump).streamed hnext fun hflush => ?_
      simp only [Delivered, hpump, hnext, hflush, Option.isNone_some, Bool.false_or,
        decide_eq_true_eq] at hok
      refine (Outgoing.open_of_not_full hok).resolve_left fun hclosed => ?_
      rw [hopen] at hclosed
      cases hclosed
  | ticked => exact h
  | drained hpump =>
      obtain ⟨batches, hread, hbound, hbatches⟩ := h.at hpump
      exact held_after hread hbound hbatches
  | queue => exact Held.grow h hgrows

theorem invariant (hr : (machine streamId).Reach (fun s i => Delivered s i = true) s) :
    s.queue.closed = true ∨ Inv streamId s := by
  refine hr.invariant_until (I := Inv streamId) (f := fun s => s.queue.closed) ?_ ?_ ?_
  · intro s ⟨hsource, hpump⟩
    rw [Inv, hpump, hsource]
    rfl
  · exact fun s i s' hs => (step_move hs).grows.closed
  · exact fun s i s' hopen h hok hs => h.move hopen hok (step_move hs)

/-- No end is sent with a chunk. -/
theorem lastChunk_accepts {buf : List Str} {before : List Message} {q : Outgoing} :
    ¬Outgoing.Accepts q (lastChunk streamId q buf) before (.k8sLogsEnd streamId none) := by
  intro haccepts
  unfold lastChunk at haccepts
  split at haccepts
  · exact absurd haccepts.of_send.1 nofun
  · exact Outgoing.not_accepts rfl haccepts

/-- The step that has an end without an error accepted comes after every line. -/
theorem carried {before : List Message}
    (hr : (machine streamId).Reach (fun s i => Delivered s i = true) s)
    (hs : step streamId s i = some s') (hown : ∀ e, i ≠ .queue e)
    (haccepts : Outgoing.Accepts s.queue s'.queue before (.k8sLogsEnd streamId none)) :
    ∃ batches : List (List Str), s.source.produced = batches.flatten.map .line ∧
      (batches.map (.k8sLogsChunk streamId)).Sublist before := by
  cases step_move hs with
  | failed | full | drained => exact absurd haccepts.of_send.1 nofun
  | unreadable | streamed => exact absurd haccepts lastChunk_accepts
  | @finished error hpump =>
      obtain ⟨hmessage, hbefore, hqueue⟩ := haccepts.of_send
      cases hmessage
      rcases invariant hr with hclosed | hI
      · rw [Outgoing.closed_of_refusal hqueue] at hclosed
        cases hclosed
      · obtain ⟨_, batches, hread, hbatches⟩ := hI.at hpump
        rw [hbefore]
        exact ⟨batches, hread, hbatches⟩
  | queue => exact absurd rfl (hown _)
  | _ => exact absurd haccepts (Outgoing.not_accepts rfl)

end K8sLogs

/-- Where every line can be read and no chunk is refused because the queue is full (for
a pod, not the last chunk), the step of a stream that has its end accepted without an
error comes after chunks with all that the source has produced. -/
theorem end_after_every_line (before : List Message) :
    (∀ containerId s i s',
      (Logs.runStream containerId).machine.Reach (fun s i => Unbatched.Delivered s i = true) s →
      (Logs.runStream containerId).step s i = some s' → (∀ e, i ≠ .queue e) →
      Outgoing.Accepts s.queue s'.queue before (.dockerLogsEnd containerId none) →
      ∃ sent, s.readers.Carried sent ∧ (sent.map (.dockerLogsChunk containerId)).Sublist before) ∧
    (∀ unit s i s',
      (Journal.runStream unit).machine.Reach (fun s i => Unbatched.Delivered s i = true) s →
      (Journal.runStream unit).step s i = some s' → (∀ e, i ≠ .queue e) →
      Outgoing.Accepts s.queue s'.queue before (.journalLogsEnd unit none) →
      ∃ sent, s.readers.Carried sent ∧ (sent.map (.journalLogsChunk unit)).Sublist before) ∧
    (∀ args s i s',
      (JournalStream.machine args).Reach (fun s i => JournalStream.Delivered s i = true) s →
      JournalStream.step args s i = some s' → (∀ e, i ≠ .queue e) →
      Outgoing.Accepts s.queue s'.queue before (.journalStreamEnd args.streamId none) →
      ∃ batches : List (List Str), s.readers.Carried batches.flatten ∧
        (batches.map (.journalStreamChunk args.streamId)).Sublist before) ∧
    ∀ streamId s i s',
      (K8sLogs.machine streamId).Reach (fun s i => K8sLogs.Delivered s i = true) s →
      K8sLogs.step streamId s i = some s' → (∀ e, i ≠ .queue e) →
      Outgoing.Accepts s.queue s'.queue before (.k8sLogsEnd streamId none) →
      ∃ batches : List (List Str), s.source.produced = batches.flatten.map .line ∧
        (batches.map (.k8sLogsChunk streamId)).Sublist before := by
  refine ⟨fun containerId s i s' hr hs hown h => ?_,
    fun unit s i s' hr hs hown h => ?_,
    fun args s i s' hr hs hown h => JournalStream.carried hr hs hown h,
    fun streamId s i s' hr hs hown h => K8sLogs.carried hr hs hown h⟩
  · refine Unbatched.carried ?_ ?_ hr hs hown h
    · exact nofun
    · exact nofun
  · refine Unbatched.carried ?_ ?_ hr hs hown h
    · exact nofun
    · exact nofun

/-! A queue that holds one message. -/

def lineA : Item := .line "a".toList

def idleLogs : UnbatchedState := ⟨⟨1, [], 0, false⟩, idleReaders, .starting⟩

def idleJournal : JournalStream.State :=
  ⟨⟨1, [], 0, false⟩, idleReaders, [], .unspawned, .starting⟩

def idlePod : K8sLogs.State := ⟨⟨1, [], 0, false⟩, idlePipe, .connecting⟩

def journalArgs : StreamArgs := ⟨"j".toList, [], none, none, none, none, 10, false⟩

/-- Some other producer's message. -/
def otherMessage : Message := .trustedOperationHost "r" false []

/-- The child is gone, and both readers have been joined. -/
def childEnds : List ChildLabel :=
  [.close .stdout, .close .stderr, .read .stdout, .read .stderr, .exit (.exited (some 0)), .proceed]

/-- The same without the reader of `stdout`, which has ended before. -/
def childEndsLate : List ChildLabel :=
  [.close .stdout, .close .stderr, .read .stderr, .exit (.exited (some 0)), .proceed]

def lineB : Item := .line "b".toList

def lineC : Item := .line "c".toList

/-- A line of `stderr` between two of `stdout`. -/
def bothPipes : List ChildLabel :=
  [.spawn (.ok ()), .write .stdout lineA, .write .stderr lineB, .read .stdout, .queue .take,
    .read .stderr, .queue .take, .write .stdout lineC, .read .stdout, .queue .take]

/-- The same, in a chunk at each tick. -/
def bothBatched : List ChildLabel :=
  [.spawn (.ok ()), .write .stdout lineA, .write .stderr lineB, .read .stdout, .read .stderr,
    .recv, .recv, .tick, .queue .take, .write .stdout lineC, .read .stdout, .recv, .tick,
    .queue .take]

theorem end_after_every_line_abc :
    (∃ s s' : UnbatchedState, (s.readers.stdout.pipe.produced = [lineA, lineC] ∧
        s.readers.stderr.pipe.produced = [lineB]) ∧
      s'.queue.accepted =
        [.dockerLogsChunk "web".toList "a".toList, .dockerLogsChunk "web".toList "b".toList,
          .dockerLogsChunk "web".toList "c".toList, .dockerLogsEnd "web".toList none] ∧
      ∃ sent, s.readers.Carried sent ∧
        (sent.map (.dockerLogsChunk "web".toList)).Sublist s.queue.accepted) ∧
    (∃ s s' : UnbatchedState, (s.readers.stdout.pipe.produced = [lineA, lineC] ∧
        s.readers.stderr.pipe.produced = [lineB]) ∧
      s'.queue.accepted =
        [.journalLogsChunk "web".toList "a".toList, .journalLogsChunk "web".toList "b".toList,
          .journalLogsChunk "web".toList "c".toList, .journalLogsEnd "web".toList none] ∧
      ∃ sent, s.readers.Carried sent ∧
        (sent.map (.journalLogsChunk "web".toList)).Sublist s.queue.accepted) ∧
    (∃ s s' : JournalStream.State, (s.readers.stdout.pipe.produced = [lineA, lineC] ∧
        s.readers.stderr.pipe.produced = [lineB]) ∧
      s'.queue.accepted =
        [.journalStreamChunk "j".toList ["a".toList, "b".toList],
          .journalStreamChunk "j".toList ["c".toList], .journalStreamEnd "j".toList none] ∧
      ∃ batches : List (List Str), s.readers.Carried batches.flatten ∧
        (batches.map (.journalStreamChunk "j".toList)).Sublist s.queue.accepted) ∧
    ∃ s s' : K8sLogs.State, s.source.produced = [lineA, lineB, lineC] ∧
      s'.queue.accepted =
        [.k8sLogsChunk "p".toList ["a".toList, "b".toList], .k8sLogsChunk "p".toList ["c".toList],
          .k8sLogsEnd "p".toList none] ∧
      ∃ batches : List (List Str), s.source.produced = batches.flatten.map .line ∧
        (batches.map (.k8sLogsChunk "p".toList)).Sublist s.queue.accepted := by
  refine ⟨?_, ?_, ?_, ?_⟩
  · have hrun : (((Logs.runStream "web".toList).machine.runWithin
        (fun s i => Unbatched.Delivered s i = true) idleLogs (bothPipes ++ childEnds)).bind
        fun s => ((Logs.runStream "web".toList).step s .proceed).map fun s' =>
          ((s.readers.stdout.pipe.produced, s.readers.stderr.pipe.produced), s.queue.accepted,
            s'.queue.accepted)) =
        some (([lineA, lineC], [lineB]),
          [.dockerLogsChunk "web".toList "a".toList, .dockerLogsChunk "web".toList "b".toList,
            .dockerLogsChunk "web".toList "c".toList],
          [.dockerLogsChunk "web".toList "a".toList, .dockerLogsChunk "web".toList "b".toList,
            .dockerLogsChunk "web".toList "c".toList, .dockerLogsEnd "web".toList none]) := by
      decide
    obtain ⟨s, s', hr, hs', hproduced, hbefore, hafter⟩ :=
      Machine.runWithin_seen hrun (.init ⟨rfl, rfl⟩)
    refine ⟨s, s', Prod.mk.inj hproduced, hafter, ?_⟩
    refine (end_after_every_line _).1 _ s .proceed s' hr hs' nofun ⟨List.prefix_rfl, ?_⟩
    rw [hafter, hbefore]
    rfl
  · have hrun : (((Journal.runStream "web".toList).machine.runWithin
        (fun s i => Unbatched.Delivered s i = true) idleLogs (bothPipes ++ childEnds)).bind
        fun s => ((Journal.runStream "web".toList).step s .proceed).map fun s' =>
          ((s.readers.stdout.pipe.produced, s.readers.stderr.pipe.produced), s.queue.accepted,
            s'.queue.accepted)) =
        some (([lineA, lineC], [lineB]),
          [.journalLogsChunk "web".toList "a".toList, .journalLogsChunk "web".toList "b".toList,
            .journalLogsChunk "web".toList "c".toList],
          [.journalLogsChunk "web".toList "a".toList, .journalLogsChunk "web".toList "b".toList,
            .journalLogsChunk "web".toList "c".toList, .journalLogsEnd "web".toList none]) := by
      decide
    obtain ⟨s, s', hr, hs', hproduced, hbefore, hafter⟩ :=
      Machine.runWithin_seen hrun (.init ⟨rfl, rfl⟩)
    refine ⟨s, s', Prod.mk.inj hproduced, hafter, ?_⟩
    refine (end_after_every_line _).2.1 _ s .proceed s' hr hs' nofun ⟨List.prefix_rfl, ?_⟩
    rw [hafter, hbefore]
    rfl
  · have hrun : (((JournalStream.machine journalArgs).runWithin
        (fun s i => JournalStream.Delivered s i = true) idleJournal
        (bothBatched ++ childEnds ++ [ChildLabel.recv, .proceed])).bind
        fun s => (JournalStream.step journalArgs s .proceed).map fun s' =>
          ((s.readers.stdout.pipe.produced, s.readers.stderr.pipe.produced), s.queue.accepted,
            s'.queue.accepted)) =
        some (([lineA, lineC], [lineB]),
          [.journalStreamChunk "j".toList ["a".toList, "b".toList],
            .journalStreamChunk "j".toList ["c".toList]],
          [.journalStreamChunk "j".toList ["a".toList, "b".toList],
            .journalStreamChunk "j".toList ["c".toList], .journalStreamEnd "j".toList none]) := by
      decide
    obtain ⟨s, s', hr, hs', hproduced, hbefore, hafter⟩ :=
      Machine.runWithin_seen hrun (.init ⟨rfl, rfl, rfl, rfl⟩)
    refine ⟨s, s', Prod.mk.inj hproduced, hafter, ?_⟩
    refine (end_after_every_line _).2.2.1 journalArgs s .proceed s' hr hs' nofun
      ⟨List.prefix_rfl, ?_⟩
    rw [hafter, hbefore]
    rfl
  · have hrun : (((K8sLogs.machine "p".toList).runWithin
        (fun s i => K8sLogs.Delivered s i = true) idlePod
        [.connect (.ok ()), .opened (.ok ()), .write lineA, .write lineB, .next, .next, .tick,
          .queue .take, .write lineC, .close, .next, .next, .queue .take]).bind
        fun s => (K8sLogs.step "p".toList s .finish).map fun s' =>
          (s.source.produced, s.queue.accepted, s'.queue.accepted)) =
        some ([lineA, lineB, lineC],
          [.k8sLogsChunk "p".toList ["a".toList, "b".toList],
            .k8sLogsChunk "p".toList ["c".toList]],
          [.k8sLogsChunk "p".toList ["a".toList, "b".toList],
            .k8sLogsChunk "p".toList ["c".toList], .k8sLogsEnd "p".toList none]) := by
      decide
    obtain ⟨s, s', hr, hs', hproduced, hbefore, hafter⟩ :=
      Machine.runWithin_seen hrun (.init ⟨rfl, rfl⟩)
    refine ⟨s, s', hproduced, hafter, ?_⟩
    refine (end_after_every_line _).2.2.2 _ s .finish s' hr hs' nofun ⟨List.prefix_rfl, ?_⟩
    rw [hafter, hbefore]
    rfl

/-- The queue is full when the line is to be sent, and has room for the end; or the line
cannot be read. No chunk has been accepted, and the end is without an error. -/
theorem lines_lost :
    (∃ s s' : UnbatchedState, (Logs.runStream "web".toList).machine.Reachable s ∧
      (Logs.runStream "web".toList).step s .proceed = some s' ∧
      s.readers.stdout.pipe.produced = [lineA] ∧ s.queue.accepted = [otherMessage] ∧
      s'.queue.accepted = [otherMessage, .dockerLogsEnd "web".toList none]) ∧
    (∃ s s' : UnbatchedState, (Logs.runStream "web".toList).machine.Reachable s ∧
      (Logs.runStream "web".toList).step s .proceed = some s' ∧
      s.readers.stdout.pipe.produced = [.unreadable "stream did not contain valid UTF-8".toList,
        lineA] ∧ s.queue.accepted = [] ∧
      s'.queue.accepted = [.dockerLogsEnd "web".toList none]) ∧
    (∃ s s' : JournalStream.State, (JournalStream.machine journalArgs).Reachable s ∧
      JournalStream.step journalArgs s .proceed = some s' ∧
      s.readers.stdout.pipe.produced = [lineA] ∧ s.queue.accepted = [otherMessage] ∧
      s'.queue.accepted = [otherMessage, .journalStreamEnd "j".toList none]) ∧
    ∃ s s' : K8sLogs.State, (K8sLogs.machine "p".toList).Reachable s ∧
      K8sLogs.step "p".toList s .finish = some s' ∧
      s.source.produced = [lineA] ∧ s.queue.accepted = [otherMessage] ∧
      s'.queue.accepted = [otherMessage, .k8sLogsEnd "p".toList none] := by
  refine ⟨?_, ?_, ?_, ?_⟩
  · have hrun : (((Logs.runStream "web".toList).machine.run idleLogs
        ([ChildLabel.spawn (.ok ()), .write .stdout lineA, .queue (.send otherMessage),
          .read .stdout, .queue .take] ++ childEndsLate)).bind
        fun s => ((Logs.runStream "web".toList).step s .proceed).map fun s' =>
          (s.readers.stdout.pipe.produced, s.queue.accepted, s'.queue.accepted)) =
        some ([lineA], [otherMessage], [otherMessage, .dockerLogsEnd "web".toList none]) := by
      decide
    obtain ⟨s, s', hr, hs', hproduced, hbefore, hafter⟩ :=
      Machine.run_seen hrun (.init ⟨rfl, rfl⟩)
    exact ⟨s, s', hr, hs', hproduced, hbefore, hafter⟩
  · have hrun : (((Logs.runStream "web".toList).machine.run idleLogs
        ([ChildLabel.spawn (.ok ()),
          .write .stdout (.unreadable "stream did not contain valid UTF-8".toList),
          .write .stdout lineA, .read .stdout] ++ childEndsLate)).bind
        fun s => ((Logs.runStream "web".toList).step s .proceed).map fun s' =>
          (s.readers.stdout.pipe.produced, s.queue.accepted, s'.queue.accepted)) =
        some ([.unreadable "stream did not contain valid UTF-8".toList, lineA], [],
          [.dockerLogsEnd "web".toList none]) := by
      decide
    obtain ⟨s, s', hr, hs', hproduced, hbefore, hafter⟩ :=
      Machine.run_seen hrun (.init ⟨rfl, rfl⟩)
    exact ⟨s, s', hr, hs', hproduced, hbefore, hafter⟩
  · have hrun : (((JournalStream.machine journalArgs).run idleJournal
        ([ChildLabel.spawn (.ok ()), .write .stdout lineA, .read .stdout, .recv,
          .queue (.send otherMessage), .tick, .queue .take] ++ childEnds ++
          [ChildLabel.proceed])).bind
        fun s => (JournalStream.step journalArgs s .proceed).map fun s' =>
          (s.readers.stdout.pipe.produced, s.queue.accepted, s'.queue.accepted)) =
        some ([lineA], [otherMessage], [otherMessage, .journalStreamEnd "j".toList none]) := by
      decide
    obtain ⟨s, s', hr, hs', hproduced, hbefore, hafter⟩ :=
      Machine.run_seen hrun (.init ⟨rfl, rfl, rfl, rfl⟩)
    exact ⟨s, s', hr, hs', hproduced, hbefore,
      hafter⟩
  · have hrun : (((K8sLogs.machine "p".toList).run idlePod
        [.connect (.ok ()), .opened (.ok ()), .write lineA, .close, .next,
          .queue (.send otherMessage), .next, .queue .take]).bind
        fun s => (K8sLogs.step "p".toList s .finish).map fun s' =>
          (s.source.produced, s.queue.accepted, s'.queue.accepted)) =
        some ([lineA], [otherMessage], [otherMessage, .k8sLogsEnd "p".toList none]) := by
      decide
    obtain ⟨s, s', hr, hs', hproduced, hbefore, hafter⟩ :=
      Machine.run_seen hrun (.init ⟨rfl, rfl⟩)
    exact ⟨s, s', hr, hs', hproduced, hbefore, hafter⟩

end ShellfleetAgent.Agent.LogSources
