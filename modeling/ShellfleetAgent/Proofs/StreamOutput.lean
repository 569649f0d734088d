import ShellfleetAgent.Agent.StreamOutput
import ShellfleetAgent.Lib.Lists

/-!
# What a stream still says when it is stopped or replaced

To abort a stream is to drop `run_stream`, and none of the tasks that send its chunks
is that one. So a stream falls silent with its abort only if there is nothing left for
them: no line in the pipes and, where lines are batched, none on its way to the batcher
or in its buffer. Nothing may be written to a pipe that is still read either, which a
child that is being killed may do. A stream whose handle another start has overwritten is
not even aborted; the same is asked of it, with the readers it may have yet to spawn.
-/

namespace ShellfleetAgent.Agent.LogSources

open ShellfleetAgent.Lib

/-! ## Readers without a line -/

/-- It is not a line that the reader reads next. -/
def Reader.silent (reader : Reader) : Bool :=
  match reader.nextLine with
  | some (_, some _) => false
  | _ => true

/-- The reader will read what is written next. -/
def Reader.waiting (reader : Reader) : Bool :=
  reader.status = .running && reader.pipe.read = reader.pipe.produced.length

def Readers.silent (readers : Readers) : Bool := readers.stdout.silent && readers.stderr.silent

section Readers

variable {reader reader' : Reader} {readers : Readers} {side : Side} {pipe : Pipe} {item : Item}

theorem silent_of_idle (h : reader.status ≠ .running) : reader.silent = true := by
  rw [Reader.silent, Reader.nextLine, if_neg h]

theorem not_line_of_silent (hs : reader.silent = true) (hr : reader.status = .running) :
    ∀ text, reader.pipe.next ≠ some (some (.line text)) := by
  intro text htext
  rw [Reader.silent, Reader.nextLine, if_pos hr, htext] at hs
  cases hs

theorem silent_of_not_line (h : ∀ text, reader.pipe.next ≠ some (some (.line text))) :
    reader.silent = true := by
  rw [Reader.silent, Reader.nextLine]
  split
  · next text hnext =>
      split at hnext
      · split at hnext
        · next text hline => exact absurd hline (h text)
        · cases hnext
        · cases hnext
        · cases hnext
      · cases hnext
  · rfl

/-- A silent reader that goes on comes to its end. -/
theorem silent_read {text : Option Str} (hs : reader.silent = true)
    (h : reader.nextLine = some (reader', text)) : text = none ∧ reader'.silent = true := by
  rw [Reader.silent, h] at hs
  cases text with
  | some text => cases hs
  | none =>
      refine ⟨rfl, ?_⟩
      rw [Reader.nextLine] at h
      split at h
      · split at h
        · cases h
        · cases h
          exact silent_of_idle nofun
        · cases h
          exact silent_of_idle nofun
        · cases h
      · cases h

theorem silent_write (hs : reader.silent = true) (h : reader.pipe.write item = some pipe)
    (hitem : ∀ text, item = .line text → reader.waiting = false) :
    Reader.silent { reader with pipe } = true := by
  by_cases hr : reader.status = .running
  · refine silent_of_not_line fun text hnext => ?_
    have hnot := not_line_of_silent hs hr text
    unfold Pipe.write at h
    split at h
    · cases h
    · cases h
      unfold Pipe.next at hnot hnext
      dsimp only at hnext
      by_cases hlt : reader.pipe.read < reader.pipe.produced.length
      · rw [List.getElem?_append_left hlt, List.getElem?_eq_getElem hlt] at hnext
        rw [List.getElem?_eq_getElem hlt] at hnot
        exact hnot hnext
      · by_cases hend : reader.pipe.read = reader.pipe.produced.length
        · rw [hend, List.getElem?_concat_length] at hnext
          dsimp only at hnext
          obtain rfl : item = .line text := by
            cases hnext
            rfl
          have hwaiting := hitem text rfl
          simp [Reader.waiting, hr, hend] at hwaiting
        · rw [List.getElem?_eq_none (by simp; omega)] at hnext
          dsimp only at hnext
          split at hnext <;> cases hnext
  · exact silent_of_idle hr

theorem silent_close (hs : reader.silent = true) :
    Reader.silent { reader with pipe := reader.pipe.close } = true := by
  by_cases hr : reader.status = .running
  · refine silent_of_not_line fun text hnext => not_line_of_silent hs hr text ?_
    unfold Pipe.next at hnext ⊢
    dsimp only [Pipe.close] at hnext
    cases hitem : reader.pipe.produced[reader.pipe.read]? with
    | some item =>
        rw [hitem] at hnext
        exact hnext
    | none =>
        rw [hitem] at hnext
        simp at hnext
  · exact silent_of_idle hr

theorem Readers.get_spawn (readers : Readers) (side : Side) :
    readers.spawn.get side = { readers.get side with status := .running } := by
  cases side <;> rfl

theorem Readers.spawn_set (readers : Readers) (side : Side) (pipe : Pipe) :
    (readers.set side { readers.get side with pipe }).spawn =
      readers.spawn.set side { readers.spawn.get side with pipe } := by
  cases side <;> rfl

theorem Readers.silent_iff : readers.silent = true ↔ ∀ side, (readers.get side).silent = true := by
  rw [Readers.silent, Bool.and_eq_true]
  refine ⟨fun h side => ?_, fun h => ⟨h .stdout, h .stderr⟩⟩
  cases side with
  | stdout => exact h.1
  | stderr => exact h.2

theorem get_set (readers : Readers) (side side' : Side) (reader : Reader) :
    (readers.set side reader).get side' = if side' = side then reader else readers.get side' := by
  cases side <;> cases side' <;> rfl

theorem silent_set (hs : readers.silent = true) (h : reader.silent = true) :
    (readers.set side reader).silent = true := by
  rw [Readers.silent_iff] at hs ⊢
  intro side'
  rw [get_set]
  split
  · exact h
  · exact hs side'

theorem write_eq_some {readers' : Readers} (h : readers.write side item = some readers') :
    ∃ pipe, (readers.get side).pipe.write item = some pipe ∧
      readers' = readers.set side { readers.get side with pipe } := by
  unfold Readers.write at h
  cases hwrite : (readers.get side).pipe.write item with
  | none =>
      rw [hwrite] at h
      cases h
  | some pipe =>
      rw [hwrite] at h
      cases h
      exact ⟨pipe, rfl, rfl⟩

theorem Readers.spawn_write {readers' : Readers} (h : readers.write side item = some readers') :
    readers.spawn.write side item = some readers'.spawn := by
  obtain ⟨pipe, hpipe, rfl⟩ := write_eq_some h
  have hpipe' : (readers.spawn.get side).pipe.write item = some pipe := by
    rw [Readers.get_spawn]
    exact hpipe
  rw [Readers.write, hpipe', Readers.spawn_set]
  rfl

end Readers

end ShellfleetAgent.Agent.LogSources

namespace ShellfleetAgent.Agent.Streams

open ShellfleetAgent.Lib
open LogSources

/-! ## Streams without a chunk -/

namespace Producer

def runner : Producer → Runner
  | .unbatched _ _ runner => runner
  | .batched _ _ _ _ runner => runner

/-- Nothing is left that could come out in a chunk. -/
def quiet : Producer → Bool
  | .unbatched _ readers _ => readers.silent
  | .batched _ readers lines (.batching buf) _ =>
      buf.isEmpty && lines.isEmpty && readers.silent
  | .batched _ _ _ .unspawned _ => true
  | .batched _ _ _ .returned _ => true

/-- What is written to the pipe next comes out in a chunk. -/
def heeds (side : Side) : Producer → Bool
  | .unbatched _ readers _ => (readers.get side).waiting
  | .batched _ readers _ (.batching _) _ => (readers.get side).waiting
  | .batched _ _ _ .unspawned _ => false
  | .batched _ _ _ .returned _ => false

/-- A stream that has not spawned its child yet, as it will be when it has. -/
def begun : Producer → Producer
  | .unbatched stream readers .starting => .unbatched stream readers.spawn .waiting
  | .batched args readers lines batcher .starting =>
      match JournalStream.buildArgv args with
      | .ok _ => .batched args readers.spawn lines (.batching []) .waiting
      | .error _ => .batched args readers lines batcher .returned
  | p => p

/-- A label of the stream itself. -/
def Own : ChildLabel → Prop
  | .abort | .queue _ => False
  | _ => True

/-- Until the child is spawned there are no other tasks, and what a reader sends is a chunk. -/
structure Sound (p : Producer) : Prop where
  messages : ∀ stream readers runner, p = .unbatched stream readers runner →
    (∀ line, isChunk (stream.chunk line) = true) ∧ ∀ e, isChunk (stream.finished e) = false
  readers : ∀ stream readers, p = .unbatched stream readers .starting →
    ∀ side, (readers.get side).status = .unspawned
  batcher : ∀ args readers lines batcher, p = .batched args readers lines batcher .starting →
    batcher = .unspawned ∧ ∀ side, (readers.get side).status = .unspawned

variable {p p' : Producer} {queue queue' : Outgoing} {label : ChildLabel}

theorem begun_of_started (h : p.runner ≠ .starting) : p.begun = p := by
  cases p with
  | unbatched stream readers runner =>
      cases runner with
      | starting => exact absurd rfl h
      | waiting | joinStdout | joinStderr | joinBatch | returned => rfl
  | batched args readers lines batcher runner =>
      cases runner with
      | starting => exact absurd rfl h
      | waiting | joinStdout | joinStderr | joinBatch | returned => rfl

theorem runner_abort (p : Producer) : p.abort.runner = .returned := by
  cases p <;> rfl

theorem begun_batched (args : StreamArgs) (readers : Readers) (lines : List Str)
    (batcher : Batcher) (runner : Runner) : ∃ readers' batcher' runner',
      (batched args readers lines batcher runner).begun =
        .batched args readers' lines batcher' runner' ∧ runner' ≠ .starting := by
  cases runner with
  | starting =>
      rw [begun]
      split
      · exact ⟨_, _, _, rfl, nofun⟩
      · exact ⟨_, _, _, rfl, nofun⟩
  | waiting | joinStdout | joinStderr | joinBatch | returned => exact ⟨_, _, _, rfl, nofun⟩

theorem runner_begun (p : Producer) : p.begun.runner ≠ .starting := by
  cases p with
  | unbatched stream readers runner => cases runner <;> exact nofun
  | batched args readers lines batcher runner =>
      obtain ⟨_, _, _, hbegun, hrunner⟩ := begun_batched args readers lines batcher runner
      rw [hbegun]
      exact hrunner

theorem Sound.of_started (hmessages : ∀ stream readers runner,
      p = .unbatched stream readers runner →
        (∀ line, isChunk (stream.chunk line) = true) ∧ ∀ e, isChunk (stream.finished e) = false)
    (h : p.runner ≠ .starting) : p.Sound where
  messages := hmessages
  readers stream readers heq := by
    rw [heq] at h
    exact absurd rfl h
  batcher args readers lines batcher heq := by
    rw [heq] at h
    exact absurd rfl h

theorem sound_unbatched {stream : Unbatched} {readers : Readers} {runner : Runner}
    (hmessages : (∀ line, isChunk (stream.chunk line) = true) ∧
      ∀ e, isChunk (stream.finished e) = false)
    (h : runner = .starting → ∀ side, (readers.get side).status = .unspawned) :
    (unbatched stream readers runner).Sound where
  messages _ _ _ heq := by
    cases heq
    exact hmessages
  readers _ _ heq := by
    cases heq
    exact h rfl
  batcher _ _ _ _ heq := by cases heq

theorem sound_batched {args : StreamArgs} {readers : Readers} {lines : List Str}
    {batcher : Batcher} {runner : Runner} (h : runner = .starting →
      batcher = .unspawned ∧ ∀ side, (readers.get side).status = .unspawned) :
    (batched args readers lines batcher runner).Sound where
  messages _ _ _ heq := by cases heq
  readers _ _ heq := by cases heq
  batcher _ _ _ _ heq := by
    cases heq
    exact h rfl

theorem sound_ofRun (run : RunStream) : (ofRun run).Sound := by
  cases run with
  | logs containerId tail follow | journal unit lines follow =>
      refine ⟨fun stream readers runner h => ?_, fun stream readers h side => ?_,
        fun args readers lines batcher h => ?_⟩
      · cases h
        exact ⟨fun _ => rfl, fun _ => rfl⟩
      · cases h
        cases side <;> rfl
      · cases h
  | journalStream args =>
      refine ⟨fun stream readers runner h => ?_, fun stream readers h => ?_,
        fun args readers lines batcher h => ?_⟩
      · cases h
      · cases h
      · cases h
        exact ⟨rfl, fun side => by cases side <;> rfl⟩

theorem Sound.abort (h : p.Sound) : p.abort.Sound := by
  refine .of_started ?_ ?_
  · cases p with
    | unbatched stream readers runner =>
        intro stream' readers' runner' heq
        cases heq
        exact h.messages stream readers runner rfl
    | batched args readers lines batcher runner =>
        intro stream' readers' runner' heq
        cases heq
  · rw [runner_abort]
    exact nofun

/-- What is accepted between two states of the queue holds no chunk. -/
def Chunkless (queue queue' : Outgoing) : Prop :=
  ∀ message ∈ OutputWorld.accepted queue queue', isChunk message = false

theorem accepted_self (queue : Outgoing) : OutputWorld.accepted queue queue = [] := by
  rw [OutputWorld.accepted, List.drop_length]

theorem accepted_send {message : Message} (h : queue.refusal = none) :
    OutputWorld.accepted queue (queue.send message).1 = [message] := by
  rw [Outgoing.send_accepted h, OutputWorld.accepted, List.drop_left]

theorem chunkless_self (queue : Outgoing) : Chunkless queue queue := by
  intro message hmessage
  rw [accepted_self] at hmessage
  cases hmessage

theorem chunkless_send {message : Message} (h : isChunk message = false) :
    Chunkless queue (queue.send message).1 := by
  cases hroom : queue.refusal with
  | none =>
      intro m hm
      rw [accepted_send hroom] at hm
      rw [List.mem_singleton.mp hm]
      exact h
  | some e =>
      rw [Outgoing.send_refused hroom]
      exact chunkless_self queue


theorem quiet_unbatched {stream : Unbatched} {readers : Readers} {runner : Runner}
    {s' : UnbatchedState} (hown : Own label) (hrunner : runner ≠ .starting)
    (hfinished : ∀ e, isChunk (stream.finished e) = false) (hquiet : readers.silent = true)
    (hwrite : ∀ side text, label = .write side (.line text) →
      (readers.get side).waiting = false)
    (h : stream.step ⟨queue, readers, runner⟩ label = some s') :
    s'.readers.silent = true ∧ s'.runner ≠ .starting ∧ Chunkless queue s'.queue := by
  have hside := Readers.silent_iff.mp hquiet
  cases label with
  | spawn result =>
      simp only [Unbatched.step] at h
      split at h
      · exact absurd rfl hrunner
      · exact absurd rfl hrunner
      · cases h
  | write side item =>
      obtain ⟨readers', hreaders, rfl⟩ := Option.map_eq_some_iff.mp h
      obtain ⟨pipe, hpipe, rfl⟩ := write_eq_some hreaders
      refine ⟨silent_set hquiet (silent_write (hside side) hpipe ?_), hrunner,
        chunkless_self queue⟩
      rintro text rfl
      exact hwrite side text rfl
  | close side =>
      cases h
      exact ⟨silent_set hquiet (silent_close (hside side)), hrunner, chunkless_self queue⟩
  | read side =>
      simp only [Unbatched.step] at h
      cases hnext : (readers.get side).nextLine with
      | none =>
          rw [hnext] at h
          cases h
      | some next =>
          obtain ⟨reader, text⟩ := next
          obtain ⟨rfl, hsilent⟩ := silent_read (hside side) hnext
          rw [hnext] at h
          cases h
          exact ⟨silent_set hquiet hsilent, hrunner, chunkless_self queue⟩
  | exit status =>
      simp only [Unbatched.step] at h
      split at h
      · cases h
        exact ⟨hquiet, nofun, chunkless_self queue⟩
      · cases h
  | proceed =>
      simp only [Unbatched.step] at h
      repeat' split at h
      all_goals cases h
      · exact ⟨hquiet, nofun, chunkless_self queue⟩
      · exact ⟨hquiet, nofun, chunkless_send (hfinished _)⟩
  | recv => cases h
  | tick => cases h
  | abort => cases hown
  | queue e => cases hown

theorem quiet_batched_iff {args : StreamArgs} {readers : Readers} {lines : List Str}
    {batcher : Batcher} {runner : Runner} :
    (batched args readers lines batcher runner).quiet = true ↔
      ∀ buf, batcher = .batching buf → buf = [] ∧ lines = [] ∧ readers.silent = true := by
  cases batcher with
  | batching buf =>
      simp only [quiet, Bool.and_eq_true, List.isEmpty_iff, Batcher.batching.injEq, and_assoc]
      exact ⟨fun h _ heq => heq ▸ h, fun h => h buf rfl⟩
  | unspawned => exact iff_of_true rfl nofun
  | returned => exact iff_of_true rfl nofun

/-- A reader of a quiet stream finds nothing but the end of its output. -/
theorem quiet_batched_read {args : StreamArgs} {readers : Readers} {lines : List Str}
    {batcher : Batcher} {runner : Runner} {side : Side} {s' : JournalStream.State}
    (hquiet : ∀ buf, batcher = .batching buf →
      buf = [] ∧ lines = [] ∧ readers.silent = true)
    (h : JournalStream.step args ⟨queue, readers, lines, batcher, runner⟩ (.read side) =
      some s') :
    (∀ buf, s'.batcher = .batching buf →
        buf = [] ∧ s'.lines = [] ∧ s'.readers.silent = true) ∧
      s'.runner = runner ∧ s'.queue = queue := by
  simp only [JournalStream.step] at h
  cases hnext : (readers.get side).nextLine with
  | none =>
      rw [hnext] at h
      cases h
  | some next =>
      obtain ⟨reader, text⟩ := next
      rw [hnext] at h
      cases text with
      | none =>
          cases h
          refine ⟨fun buf hbuf => ?_, rfl, rfl⟩
          obtain ⟨hnil, hlines, hsilent⟩ := hquiet buf hbuf
          have hread := silent_read (Readers.silent_iff.mp hsilent side) hnext
          exact ⟨hnil, hlines, silent_set hsilent hread.2⟩
      | some text =>
          -- a line that the batcher no longer takes
          have hidle : ∀ buf, batcher ≠ .batching buf := by
            intro buf hbuf
            obtain ⟨_, _, hsilent⟩ := hquiet buf hbuf
            cases (silent_read (Readers.silent_iff.mp hsilent side) hnext).1
          dsimp only at h
          split at h
          · cases h
            exact ⟨fun buf hbuf => absurd hbuf (hidle buf), rfl, rfl⟩
          · cases h
            exact ⟨fun buf hbuf => absurd hbuf (hidle buf), rfl, rfl⟩

theorem quiet_batched {args : StreamArgs} {readers : Readers} {lines : List Str}
    {batcher : Batcher} {runner : Runner} {s' : JournalStream.State} (hown : Own label)
    (hrunner : runner ≠ .starting)
    (hquiet : (batched args readers lines batcher runner).quiet = true)
    (hwrite : ∀ side text, label = .write side (.line text) →
      (batched args readers lines batcher runner).heeds side = false)
    (h : JournalStream.step args ⟨queue, readers, lines, batcher, runner⟩ label = some s') :
    (batched args s'.readers s'.lines s'.batcher s'.runner).quiet = true ∧
      s'.runner ≠ .starting ∧ Chunkless queue s'.queue := by
  rw [quiet_batched_iff] at hquiet ⊢
  cases label with
  | spawn result =>
      simp only [JournalStream.step] at h
      split at h
      · exact absurd rfl hrunner
      · exact absurd rfl hrunner
      · exact absurd rfl hrunner
      · cases h
  | write side item =>
      obtain ⟨readers', hreaders, rfl⟩ := Option.map_eq_some_iff.mp h
      obtain ⟨pipe, hpipe, rfl⟩ := write_eq_some hreaders
      refine ⟨fun buf hbuf => ?_, hrunner, chunkless_self queue⟩
      obtain ⟨hnil, hlines, hsilent⟩ := hquiet buf hbuf
      refine ⟨hnil, hlines, silent_set hsilent
        (silent_write (Readers.silent_iff.mp hsilent side) hpipe ?_)⟩
      rintro text rfl
      have hnot := hwrite side text rfl
      obtain rfl : batcher = .batching buf := hbuf
      exact hnot
  | close side =>
      cases h
      refine ⟨fun buf hbuf => ?_, hrunner, chunkless_self queue⟩
      obtain ⟨hnil, hlines, hsilent⟩ := hquiet buf hbuf
      exact ⟨hnil, hlines, silent_set hsilent (silent_close (Readers.silent_iff.mp hsilent side))⟩
  | read side =>
      obtain ⟨hquiet', hrunner', hqueue⟩ := quiet_batched_read hquiet h
      refine ⟨hquiet', hrunner' ▸ hrunner, ?_⟩
      rw [hqueue]
      exact chunkless_self queue
  | recv =>
      cases batcher with
      | unspawned => simp [JournalStream.step] at h
      | returned => simp [JournalStream.step] at h
      | batching buf =>
          obtain ⟨rfl, rfl, hsilent⟩ := hquiet buf rfl
          simp only [JournalStream.step, flush, if_pos] at h
          split at h
          · cases h
            exact ⟨nofun, hrunner, chunkless_self queue⟩
          · cases h
  | tick =>
      cases batcher with
      | unspawned => simp [JournalStream.step] at h
      | returned => simp [JournalStream.step] at h
      | batching buf =>
          obtain ⟨rfl, rfl, hsilent⟩ := hquiet buf rfl
          simp only [JournalStream.step, flush, if_pos] at h
          cases h
          exact ⟨hquiet, hrunner, chunkless_self queue⟩
  | exit status =>
      simp only [JournalStream.step] at h
      split at h
      · cases h
        exact ⟨hquiet, nofun, chunkless_self queue⟩
      · cases h
  | proceed =>
      simp only [JournalStream.step] at h
      repeat' split at h
      all_goals cases h
      · exact ⟨hquiet, nofun, chunkless_self queue⟩
      · exact ⟨hquiet, nofun, chunkless_self queue⟩
      · exact ⟨hquiet, nofun, chunkless_send rfl⟩
  | abort => cases hown
  | queue e => cases hown

/-- A stream that has started and is quiet stays so, and sends no chunk. -/
theorem quiet_step_started (hown : Own label) (hsound : p.Sound) (hrunner : p.runner ≠ .starting)
    (hquiet : p.quiet = true)
    (hwrite : ∀ side text, label = .write side (.line text) → p.heeds side = false)
    (h : p.step queue label = some (queue', p')) :
    p'.quiet = true ∧ p'.runner ≠ .starting ∧ Chunkless queue queue' := by
  cases p with
  | unbatched stream readers runner =>
      obtain ⟨s', hs', heq⟩ := Option.map_eq_some_iff.mp h
      cases heq
      exact quiet_unbatched hown hrunner (hsound.messages stream readers runner rfl).2 hquiet
        hwrite hs'
  | batched args readers lines batcher runner =>
      obtain ⟨s', hs', heq⟩ := Option.map_eq_some_iff.mp h
      cases heq
      exact quiet_batched hown hrunner hquiet hwrite hs'

/-! ### Streams that have not started -/

/-- A reader that was not spawned reads nothing. -/
theorem nextLine_unspawned {reader : Reader} (h : reader.status = .unspawned) :
    reader.nextLine = none := by
  rw [Reader.nextLine, h, if_neg nofun]

theorem status_write {readers readers' : Readers} {side : Side} {item : Item}
    (h : readers.write side item = some readers') (side' : Side) :
    (readers'.get side').status = (readers.get side').status := by
  obtain ⟨pipe, _, rfl⟩ := write_eq_some h
  cases side <;> cases side' <;> rfl

theorem status_close (readers : Readers) (side side' : Side) :
    ((readers.close side).get side').status = (readers.get side').status := by
  cases side <;> cases side' <;> rfl

/-- A step that leaves it unstarted is one of its child or of its pipes. -/
theorem starting_unbatched {stream : Unbatched} {readers : Readers} {s' : UnbatchedState}
    (hown : Own label) (hreaders : ∀ side, (readers.get side).status = .unspawned)
    (h : stream.step ⟨queue, readers, .starting⟩ label = some s') :
    (s'.queue = queue ∧ s'.runner = .starting ∧
      (∀ side, (s'.readers.get side).status = .unspawned) ∧
      stream.step ⟨queue, readers.spawn, .waiting⟩ label =
        some ⟨queue, s'.readers.spawn, .waiting⟩) ∨
    (∃ result, label = .spawn result) ∧ (s' = ⟨queue, readers.spawn, .waiting⟩ ∨
      ∃ e, s' = ⟨(queue.send (stream.finished e)).1, readers, .returned⟩) := by
  cases label with
  | spawn result =>
      cases result with
      | ok _ =>
          cases h
          exact .inr ⟨⟨_, rfl⟩, .inl rfl⟩
      | error e =>
          cases h
          exact .inr ⟨⟨_, rfl⟩, .inr ⟨_, rfl⟩⟩
  | write side item =>
      obtain ⟨readers', hwrite, rfl⟩ := Option.map_eq_some_iff.mp h
      refine .inl ⟨rfl, rfl, fun side' => (status_write hwrite side').trans (hreaders side'), ?_⟩
      exact Option.map_eq_some_iff.mpr ⟨_, Readers.spawn_write hwrite, rfl⟩
  | close side =>
      cases h
      refine .inl ⟨rfl, rfl, fun side' => (status_close ..).trans (hreaders side'), ?_⟩
      cases side <;> rfl
  | read side =>
      simp only [Unbatched.step, nextLine_unspawned (hreaders side)] at h
      cases h
  | recv | tick | exit _ | proceed => cases h
  | abort => cases hown
  | queue e => cases hown

theorem starting_batched {args : StreamArgs} {readers : Readers} {lines : List Str}
    {s' : JournalStream.State} (hown : Own label)
    (hreaders : ∀ side, (readers.get side).status = .unspawned)
    (h : JournalStream.step args ⟨queue, readers, lines, .unspawned, .starting⟩ label = some s') :
    (s' = ⟨queue, s'.readers, lines, .unspawned, .starting⟩ ∧
      (∀ side, (s'.readers.get side).status = .unspawned) ∧
      (∀ batcher runner, JournalStream.step args ⟨queue, readers, lines, batcher, runner⟩ label =
        some ⟨queue, s'.readers, lines, batcher, runner⟩) ∧
      ∀ batcher runner,
        JournalStream.step args ⟨queue, readers.spawn, lines, batcher, runner⟩ label =
          some ⟨queue, s'.readers.spawn, lines, batcher, runner⟩) ∨
    (∃ result, label = .spawn result) ∧
      ((∃ argv, JournalStream.buildArgv args = .ok argv) ∧
        s' = ⟨queue, readers.spawn, lines, .batching [], .waiting⟩ ∨
      ∃ e, s' = ⟨(queue.send (.journalStreamEnd args.streamId e)).1, readers, lines, .unspawned,
        .returned⟩) := by
  cases label with
  | spawn result =>
      simp only [JournalStream.step] at h
      split at h
      · cases h
        exact .inr ⟨⟨_, rfl⟩, .inr ⟨_, rfl⟩⟩
      · cases h
        exact .inr ⟨⟨_, rfl⟩, .inr ⟨_, rfl⟩⟩
      · next argv _ _ hargv =>
          cases h
          exact .inr ⟨⟨_, rfl⟩, .inl ⟨⟨_, hargv⟩, rfl⟩⟩
      · cases h
  | write side item =>
      obtain ⟨readers', hwrite, rfl⟩ := Option.map_eq_some_iff.mp h
      refine .inl ⟨rfl, fun side' => (status_write hwrite side').trans (hreaders side'), ?_, ?_⟩
      · exact fun _ _ => Option.map_eq_some_iff.mpr ⟨_, hwrite, rfl⟩
      · exact fun _ _ => Option.map_eq_some_iff.mpr ⟨_, Readers.spawn_write hwrite, rfl⟩
  | close side =>
      cases h
      refine .inl ⟨rfl, fun side' => (status_close ..).trans (hreaders side'), ?_, ?_⟩
      · exact fun _ _ => rfl
      · cases side <;> exact fun _ _ => rfl
  | read side =>
      simp only [JournalStream.step, nextLine_unspawned (hreaders side)] at h
      cases h
  | recv | tick | exit _ | proceed => cases h
  | abort => cases hown
  | queue e => cases hown

/-- What a stream that has not started does: a step that it could take just as well if it
had, or the start itself, or its end. -/
theorem starting_step (hown : Own label) (hsound : p.Sound) (hrunner : p.runner = .starting)
    (h : p.step queue label = some (queue', p')) : p'.Sound ∧
      (p.begun.step queue label = some (queue', p'.begun) ∨
        (∃ result, label = .spawn result) ∧ (p'.begun = p.begun ∧ queue' = queue ∨
          p'.begun.quiet = true ∧ Chunkless queue queue')) := by
  cases p with
  | unbatched stream readers runner =>
      obtain rfl : runner = .starting := hrunner
      have hmessages := hsound.messages stream readers .starting rfl
      have hidle := hsound.readers stream readers rfl
      obtain ⟨s', hs', heq⟩ := Option.map_eq_some_iff.mp h
      cases heq
      rcases starting_unbatched hown hidle hs' with
        ⟨hqueue, hstarting, hstatus, hstep⟩ | ⟨hspawn, rfl | ⟨e, rfl⟩⟩
      · rw [hstarting, hqueue]
        refine ⟨sound_unbatched hmessages fun _ => hstatus, .inl ?_⟩
        exact Option.map_eq_some_iff.mpr ⟨_, hstep, rfl⟩
      · exact ⟨sound_unbatched hmessages nofun, .inr ⟨hspawn, .inl ⟨rfl, rfl⟩⟩⟩
      · refine ⟨sound_unbatched hmessages nofun,
          .inr ⟨hspawn, .inr ⟨?_, chunkless_send (hmessages.2 _)⟩⟩⟩
        refine Readers.silent_iff.mpr fun side => silent_of_idle ?_
        rw [hidle side]
        exact nofun
  | batched args readers lines batcher runner =>
      obtain rfl : runner = .starting := hrunner
      obtain ⟨rfl, hstatus⟩ := hsound.batcher args readers lines batcher rfl
      obtain ⟨s', hs', heq⟩ := Option.map_eq_some_iff.mp h
      cases heq
      rcases starting_batched hown hstatus hs' with
        ⟨hsame, hstatus', hstep, hspawned⟩ | ⟨hspawn, ⟨⟨argv, hargv⟩, rfl⟩ | ⟨e, rfl⟩⟩
      · rw [hsame]
        refine ⟨sound_batched fun _ => ⟨rfl, hstatus'⟩, .inl ?_⟩
        cases hargv : JournalStream.buildArgv args with
        | ok argv =>
            simp only [begun, hargv]
            exact Option.map_eq_some_iff.mpr ⟨_, hspawned _ _, rfl⟩
        | error e =>
            simp only [begun, hargv]
            exact Option.map_eq_some_iff.mpr ⟨_, hstep _ _, rfl⟩
      · refine ⟨sound_batched nofun, .inr ⟨hspawn, .inl ⟨?_, rfl⟩⟩⟩
        simp only [begun, hargv]
      · exact ⟨sound_batched nofun, .inr ⟨hspawn, .inr ⟨rfl, chunkless_send rfl⟩⟩⟩

theorem Sound.begun (h : p.Sound) : p.begun.Sound := by
  refine .of_started ?_ p.runner_begun
  cases p with
  | unbatched stream readers runner =>
      have hmessages := h.messages stream readers runner rfl
      intro stream' readers' runner' heq
      cases runner with
      | starting | waiting | joinStdout | joinStderr | joinBatch | returned =>
          cases heq
          exact hmessages
  | batched args readers lines batcher runner =>
      obtain ⟨_, _, _, hbegun, _⟩ := begun_batched args readers lines batcher runner
      intro stream' readers' runner' heq
      rw [hbegun] at heq
      cases heq

theorem started_unbatched {stream : Unbatched} {readers : Readers} {runner : Runner}
    {s' : UnbatchedState} (hrunner : runner ≠ .starting)
    (h : stream.step ⟨queue, readers, runner⟩ label = some s') : s'.runner ≠ .starting := by
  cases label with
  | write side item =>
      obtain ⟨_, _, rfl⟩ := Option.map_eq_some_iff.mp h
      exact hrunner
  | queue e =>
      obtain ⟨_, _, rfl⟩ := Option.map_eq_some_iff.mp h
      exact hrunner
  | close side =>
      cases h
      exact hrunner
  | spawn _ | read _ | recv | tick | exit _ | proceed | abort =>
      simp only [Unbatched.step] at h
      repeat' split at h
      all_goals cases h
      all_goals first | exact hrunner | exact nofun

theorem started_batched {args : StreamArgs} {s s' : JournalStream.State}
    (hrunner : s.runner ≠ .starting) (h : JournalStream.step args s label = some s') :
    s'.runner ≠ .starting := by
  cases label with
  | write side item =>
      obtain ⟨_, _, rfl⟩ := Option.map_eq_some_iff.mp h
      exact hrunner
  | queue e =>
      obtain ⟨_, _, rfl⟩ := Option.map_eq_some_iff.mp h
      exact hrunner
  | close side =>
      cases h
      exact hrunner
  | spawn _ | read _ | recv | tick | exit _ | proceed | abort =>
      simp only [JournalStream.step] at h
      repeat' split at h
      all_goals cases h
      all_goals first | exact hrunner | exact nofun

/-- A started stream does not start again. -/
theorem started_step (hrunner : p.runner ≠ .starting)
    (h : p.step queue label = some (queue', p')) : p'.runner ≠ .starting := by
  cases p with
  | unbatched stream readers runner =>
      obtain ⟨s', hs', heq⟩ := Option.map_eq_some_iff.mp h
      cases heq
      exact started_unbatched hrunner hs'
  | batched args readers lines batcher runner =>
      obtain ⟨s', hs', heq⟩ := Option.map_eq_some_iff.mp h
      cases heq
      exact started_batched hrunner hs'

theorem Sound.step (hsound : p.Sound) (hown : Own label)
    (h : p.step queue label = some (queue', p')) : p'.Sound := by
  by_cases hrunner : p.runner = .starting
  · exact (starting_step hown hsound hrunner h).1
  · refine .of_started ?_ (started_step hrunner h)
    cases p with
    | unbatched stream readers runner =>
        obtain ⟨s', _, heq⟩ := Option.map_eq_some_iff.mp h
        cases heq
        intro stream' readers' runner' heq
        cases heq
        exact hsound.messages stream readers runner rfl
    | batched args readers lines batcher runner =>
        obtain ⟨s', _, heq⟩ := Option.map_eq_some_iff.mp h
        cases heq
        intro stream' readers' runner' heq
        cases heq

/-- A stream that is quiet, or will be when it has started, stays so and sends no chunk. -/
theorem quiet_step (hown : Own label) (hsound : p.Sound) (hquiet : p.begun.quiet = true)
    (hwrite : ∀ side text, label = .write side (.line text) → p.begun.heeds side = false)
    (h : p.step queue label = some (queue', p')) :
    p'.begun.quiet = true ∧ Chunkless queue queue' := by
  by_cases hrunner : p.runner = .starting
  · rcases (starting_step hown hsound hrunner h).2 with hstep | ⟨_, ⟨hbegun, rfl⟩ | hend⟩
    · obtain ⟨hquiet', hstarted, hchunk⟩ :=
        quiet_step_started hown hsound.begun p.runner_begun hquiet hwrite hstep
      exact ⟨hquiet', hchunk⟩
    · exact ⟨hbegun ▸ hquiet, chunkless_self _⟩
    · exact hend
  · rw [begun_of_started hrunner] at hquiet hwrite
    obtain ⟨hquiet', hstarted, hchunk⟩ :=
      quiet_step_started hown hsound hrunner hquiet hwrite h
    exact ⟨(begun_of_started hstarted).symm ▸ hquiet', hchunk⟩

/-! ## Streams with a chunk -/

/-- Steps of its own that leave the queue alone, and then one that sends a chunk. -/
inductive Speaks (queue : Outgoing) : Producer → Prop
  | now {p p' : Producer} {label : ChildLabel} {queue' : Outgoing}
      (hs : p.step queue label = some (queue', p')) (hown : Own label)
      (hsent : ∃ message ∈ OutputWorld.accepted queue queue', isChunk message = true) :
      Speaks queue p
  | later {p p' : Producer} {label : ChildLabel} (hs : p.step queue label = some (queue, p'))
      (hown : Own label) (hp : Speaks queue p') : Speaks queue p

theorem Speaks.send {message : Message} (hroom : queue.refusal = none)
    (hchunk : isChunk message = true)
    (hs : p.step queue label = some ((queue.send message).1, p')) (hown : Own label) :
    Speaks queue p := by
  refine .now hs hown ⟨message, ?_, hchunk⟩
  rw [accepted_send hroom]
  exact List.mem_singleton_self _

section Loud

variable {stream : Unbatched} {args : StreamArgs} {readers : Readers} {lines buf : List Str}
  {runner : Runner}

end Loud

theorem quiet_abort (p : Producer) : p.abort.begun.quiet = p.quiet := by
  rw [begun_of_started (by rw [runner_abort]; exact nofun)]
  cases p with
  | unbatched stream readers runner => rfl
  | batched args readers lines batcher runner => cases batcher <;> rfl

end Producer

/-! ## The managers -/

/-- No stream has sent a chunk after it was dropped. -/
def OutputWorld.Silent (w : OutputWorld) : Prop :=
  ∀ entry ∈ w.sent, entry.dropped = true → isChunk entry.message = false

/-- The stream that the next call of a handler takes out and aborts. -/
def removed (s : OutputState) (t : Nat) : Option Stream :=
  match s.next t with
  | some (.remove slot) => (s.world.held slot).bind fun handle => s.world.streams[handle]?
  | _ => none

/-- The stream whose handle it overwrites. -/
def replaced (s : OutputState) (t : Nat) : Option Stream :=
  match s.next t with
  | some (.insert slot _) => (s.world.held slot).bind fun handle => s.world.streams[handle]?
  | _ => none

/-- A manager drops streams only that have nothing left to send, and the child of a dropped
stream writes no line that is still read. -/
def Emptied (s : OutputState) : OutputLabel → Prop
  | .act t _ => (∀ stream ∈ removed s t, stream.producer.quiet = true) ∧
      ∀ stream ∈ replaced s t, stream.producer.begun.quiet = true
  | .env (.stream handle (.write side (.line _))) =>
      ∀ stream ∈ s.world.streams[handle]?, stream.dropped = true →
        stream.producer.begun.heeds side = false
  | _ => True

theorem removed_eq_some {s : OutputState} {t : Nat} {stream : Stream} :
    removed s t = some stream ↔ ∃ slot handle, s.next t = some (.remove slot) ∧
      s.world.held slot = some handle ∧ s.world.streams[handle]? = some stream := by
  unfold removed
  constructor
  · intro h
    split at h
    · next slot hnext =>
        obtain ⟨handle, hheld, hstream⟩ := Option.bind_eq_some_iff.mp h
        exact ⟨slot, handle, hnext, hheld, hstream⟩
    · cases h
  · intro ⟨slot, handle, hnext, hheld, hstream⟩
    rw [hnext]
    dsimp only
    rw [hheld, Option.bind_some, hstream]

theorem replaced_eq_some {s : OutputState} {t : Nat} {stream : Stream} :
    replaced s t = some stream ↔ ∃ slot handle before, s.next t = some (.insert slot handle) ∧
      s.world.held slot = some before ∧ s.world.streams[before]? = some stream := by
  unfold replaced
  constructor
  · intro h
    split at h
    · next slot handle hnext =>
        obtain ⟨before, hheld, hstream⟩ := Option.bind_eq_some_iff.mp h
        exact ⟨slot, handle, before, hnext, hheld, hstream⟩
    · cases h
  · intro ⟨slot, handle, before, hnext, hheld, hstream⟩
    rw [hnext]
    dsimp only
    rw [hheld, Option.bind_some, hstream]

section Managers

variable {w w' : OutputWorld} {handle : Nat} {label : ChildLabel} {stream : Stream}
  {s s' : OutputState} {i : OutputLabel}

theorem advance_eq_some (h : w.advance handle label = some w') :
    ∃ stream queue producer, w.streams[handle]? = some stream ∧
      stream.producer.step w.queue label = some (queue, producer) ∧
      w' = { w with
        queue
        streams := w.streams.set handle { stream with producer }
        sent := w.sent ++
          (OutputWorld.accepted w.queue queue).map (⟨handle, ·, stream.dropped⟩) } := by
  unfold OutputWorld.advance at h
  cases hstream : w.streams[handle]? with
  | none =>
      rw [hstream] at h
      cases h
  | some stream =>
      rw [hstream] at h
      obtain ⟨⟨queue, producer⟩, hs, rfl⟩ := Option.map_eq_some_iff.mp h
      exact ⟨stream, queue, producer, rfl, hs, rfl⟩

/-- What a step does to the streams, and to what they have sent. -/
inductive Move (s : OutputState) : OutputLabel → OutputState → Prop
  | same {i : OutputLabel} {s' : OutputState} (hstreams : s'.world.streams = s.world.streams)
      (hsent : s'.world.sent = s.world.sent) : Move s i s'
  | removed {t : Nat} {s' : OutputState} {slot : Slot} {handle : Nat}
      (hnext : s.next t = some (.remove slot)) (hheld : s.world.held slot = some handle)
      (hstreams : s'.world.streams =
        s.world.streams.modify handle fun stream => ⟨stream.producer.abort, true⟩)
      (hsent : s'.world.sent = s.world.sent) :
      Move s (.act t ()) s'
  | replaced {t : Nat} {s' : OutputState} {slot : Slot} {handle before : Nat}
      (hnext : s.next t = some (.insert slot handle)) (hheld : s.world.held slot = some before)
      (hstreams : s'.world.streams =
        s.world.streams.modify before fun stream => { stream with dropped := true })
      (hsent : s'.world.sent = s.world.sent) :
      Move s (.act t ()) s'
  | spawned {t : Nat} {s' : OutputState} (run : RunStream)
      (hstreams : s'.world.streams = s.world.streams ++ [⟨.ofRun run, false⟩])
      (hsent : s'.world.sent = s.world.sent) : Move s (.act t ()) s'
  | advanced {s' : OutputState} {handle : Nat} {label : ChildLabel}
      (hown : Producer.Own label) (hadvance : s.world.advance handle label = some s'.world) :
      Move s (.env (.stream handle label)) s'

theorem move_exec {t : Nat} {o : StreamOp} (hnext : s.next t = some o)
    (hworld : s'.world = (s.world.exec o).1) : Move s (.act t ()) s' := by
  cases o with
  | remove slot =>
      cases hheld : s.world.held slot with
      | none =>
          simp only [OutputWorld.exec, hheld] at hworld
          exact .same (by rw [hworld]) (by rw [hworld])
      | some handle =>
          simp only [OutputWorld.exec, hheld] at hworld
          exact .removed hnext hheld (by rw [hworld]) (by rw [hworld])
  | insert slot handle =>
      cases hheld : s.world.held slot with
      | none =>
          simp only [OutputWorld.exec, hheld] at hworld
          exact .same (by rw [hworld]) (by rw [hworld])
      | some before =>
          simp only [OutputWorld.exec, hheld] at hworld
          exact .replaced hnext hheld (by rw [hworld]) (by rw [hworld])
  | spawn run => exact .spawned run (by rw [hworld]; rfl) (by rw [hworld]; rfl)
  | send message => exact .same (by rw [hworld]; rfl) (by rw [hworld]; rfl)
  | sync probes => exact .same (by rw [hworld]; rfl) (by rw [hworld]; rfl)

theorem move_env {e : OutputEnv} (h : e.run s.world = some s'.world) : Move s (.env e) s' := by
  cases e with
  | stream handle label =>
      cases label with
      | abort => cases h
      | queue e => cases h
      | spawn _ | write _ _ | close _ | read _ | recv | tick | exit _ | proceed =>
          exact .advanced trivial h
  | queue e =>
      obtain ⟨queue, _, hworld⟩ := Option.map_eq_some_iff.mp h
      exact .same (by rw [← hworld]) (by rw [← hworld])

theorem step_move (hs : outputPool.step s i = some s') : Move s i s' := by
  rcases Pool.step_cases hs with ⟨t, message, w, rfl, _, hw, rfl⟩ |
    ⟨t, ch, message, o, k, hist, w, r, rfl, ht, hw, rfl⟩ | ⟨t, message, l, hist, rfl, ht, rfl⟩ |
    ⟨t, message, p, hist, rfl, ht, _, rfl⟩ | ⟨e, w, rfl, hw, rfl⟩
  · simp only [outputHost] at hw
    split at hw
    · cases hw
      exact .same rfl rfl
    · cases hw
  · have hnext : s.next t = some o := by
      rw [Pool.State.next, ht]
    exact move_exec hnext (congrArg Prod.fst (Option.some.inj hw)).symm
  · exact .same rfl rfl
  · exact .same rfl rfl
  · exact move_env hw

theorem modify_cases {f : Stream → Stream} {streams : List Stream} {j : Nat}
    (h : (streams.modify handle f)[j]? = some stream) :
    (∃ before, streams[handle]? = some before ∧ stream = f before) ∨
      streams[j]? = some stream := by
  rw [List.getElem?_modify] at h
  by_cases heq : handle = j
  · subst heq
    obtain ⟨before, hbefore, rfl⟩ := Option.map_eq_some_iff.mp h
    exact .inl ⟨before, hbefore, if_pos rfl ▸ rfl⟩
  · simp only [if_neg heq, id_map'] at h
    exact .inr h

/-- What is so of every stream when it is spawned, and is kept by its steps and its abort. -/
theorem sounds (hr : outputPool.Reachable s) : ∀ (handle : Nat) (stream : Stream),
    s.world.streams[handle]? = some stream → stream.producer.Sound := by
  refine hr.invariant (I := fun s => ∀ (handle : Nat) (stream : Stream),
    s.world.streams[handle]? = some stream → stream.producer.Sound) ?_ ?_
  · rintro s ⟨⟨_, hstreams, _, _⟩, _⟩ handle stream h
    rw [hstreams] at h
    cases h
  · intro s i s' _ hI _ hs handle stream h
    cases step_move hs with
    | same hstreams _ => exact hI handle stream (hstreams ▸ h)
    | removed _ _ hstreams _ =>
        rcases modify_cases (hstreams ▸ h) with ⟨before, hbefore, rfl⟩ | h
        · exact (hI _ before hbefore).abort
        · exact hI handle stream h
    | replaced _ _ hstreams _ =>
        rcases modify_cases (hstreams ▸ h) with ⟨before, hbefore, rfl⟩ | h
        · exact hI _ before hbefore
        · exact hI handle stream h
    | spawned run hstreams _ =>
        rcases concat_cases (hstreams ▸ h) with ⟨_, rfl⟩ | ⟨_, h⟩
        · exact Producer.sound_ofRun run
        · exact hI handle stream h
    | advanced hown hadvance =>
        obtain ⟨before, queue, producer, hbefore, hstep, hworld⟩ := advance_eq_some hadvance
        rw [hworld] at h
        rcases set_cases h with ⟨_, rfl⟩ | ⟨_, h⟩
        · exact (hI _ before hbefore).step hown hstep
        · exact hI handle stream h

structure OutputInv (w : OutputWorld) : Prop where
  quiet : ∀ (handle : Nat) (stream : Stream), w.streams[handle]? = some stream →
    stream.dropped = true → stream.producer.begun.quiet = true
  silent : w.Silent

theorem OutputInv.step (hI : OutputInv s.world) (hr : outputPool.Reachable s) (hok : Emptied s i)
    (hs : outputPool.step s i = some s') : OutputInv s'.world := by
  cases step_move hs with
  | same hstreams hsent =>
      refine ⟨?_, ?_⟩
      · rw [hstreams]
        exact hI.quiet
      · rw [OutputWorld.Silent, hsent]
        exact hI.silent
  | removed hnext hheld hstreams hsent =>
      refine ⟨fun j stream h hdropped => ?_, ?_⟩
      · rcases modify_cases (hstreams ▸ h) with ⟨before, hbefore, rfl⟩ | h
        · exact before.producer.quiet_abort.trans
            (hok.1 before (removed_eq_some.mpr ⟨_, _, hnext, hheld, hbefore⟩))
        · exact hI.quiet j stream h hdropped
      · rw [OutputWorld.Silent, hsent]
        exact hI.silent
  | replaced hnext hheld hstreams hsent =>
      refine ⟨fun j stream h hdropped => ?_, ?_⟩
      · rcases modify_cases (hstreams ▸ h) with ⟨before, hbefore, rfl⟩ | h
        · exact hok.2 before (replaced_eq_some.mpr ⟨_, _, _, hnext, hheld, hbefore⟩)
        · exact hI.quiet j stream h hdropped
      · rw [OutputWorld.Silent, hsent]
        exact hI.silent
  | spawned run hstreams hsent =>
      refine ⟨fun j stream h hdropped => ?_, ?_⟩
      · rcases concat_cases (hstreams ▸ h) with ⟨_, rfl⟩ | ⟨_, h⟩
        · cases hdropped
        · exact hI.quiet j stream h hdropped
      · rw [OutputWorld.Silent, hsent]
        exact hI.silent
  | @advanced _ handle label hown hadvance =>
      obtain ⟨stream, queue, producer, hstream, hstep, hworld⟩ := advance_eq_some hadvance
      have hdone : stream.dropped = true →
          producer.begun.quiet = true ∧ Producer.Chunkless s.world.queue queue := by
        intro hdropped
        refine Producer.quiet_step hown (sounds hr handle stream hstream)
          (hI.quiet handle stream hstream hdropped) ?_ hstep
        rintro side text rfl
        exact hok stream hstream hdropped
      rw [hworld]
      refine ⟨fun j stream' h hdropped => ?_, fun entry hentry hdropped => ?_⟩
      · rcases set_cases h with ⟨_, rfl⟩ | ⟨_, h⟩
        · exact (hdone hdropped).1
        · exact hI.quiet j stream' h hdropped
      · rcases List.mem_append.mp hentry with hentry | hentry
        · exact hI.silent entry hentry hdropped
        · obtain ⟨message, hmessage, rfl⟩ := List.mem_map.mp hentry
          exact (hdone hdropped).2 message hmessage

theorem run_own (hown : Producer.Own label) :
    (OutputEnv.stream handle label).run w = w.advance handle label := by
  cases label with
  | abort => cases hown
  | queue e => cases hown
  | spawn _ | write _ _ | close _ | read _ | recv | tick | exit _ | proceed => rfl

/-- A step of one stream, among all of them. -/
theorem stream_step {queue : Outgoing} {producer : Producer} (hown : Producer.Own label)
    (hstream : s.world.streams[handle]? = some stream)
    (hs : stream.producer.step s.world.queue label = some (queue, producer)) :
    ∃ s', outputPool.step s (.env (.stream handle label)) = some s' ∧ s'.world.queue = queue ∧
      s'.world.streams[handle]? = some { stream with producer } ∧
      s'.world.sent = s.world.sent ++
        (OutputWorld.accepted s.world.queue queue).map (⟨handle, ·, stream.dropped⟩) := by
  have hadvance : (OutputEnv.stream handle label).run s.world = s.world.advance handle label :=
    run_own hown
  rw [OutputWorld.advance, hstream] at hadvance
  dsimp only at hadvance
  rw [hs] at hadvance
  have hstep := congrArg (Option.map fun w => { s with world := w }) hadvance
  have hlt := (List.getElem?_eq_some_iff.mp hstream).1
  exact ⟨_, hstep, rfl, List.getElem?_set_self hlt, rfl⟩

/-- What a dropped stream has left to say comes out in some run. -/
theorem Producer.Speaks.late {queue : Outgoing} {p : Producer} (h : Speaks queue p)
    (hqueue : s.world.queue = queue) (hstream : s.world.streams[handle]? = some ⟨p, true⟩) :
    ∃ labels s', outputPool.run s labels = some s' ∧ ¬s'.world.Silent := by
  induction h generalizing s with
  | @now p p' label queue' hs hown hsent =>
      rw [← hqueue] at hs hsent
      obtain ⟨s', hstep, _, _, hs'⟩ := stream_step hown hstream hs
      refine ⟨[.env (.stream handle label)], s', ?_, ?_⟩
      · rw [Machine.run, hstep]
        rfl
      · intro hsilent
        obtain ⟨message, hmessage, hchunk⟩ := hsent
        have hmem : ⟨handle, message, true⟩ ∈ s'.world.sent := by
          rw [hs']
          exact List.mem_append_right _ (List.mem_map_of_mem hmessage)
        have hnot := hsilent _ hmem rfl
        rw [hchunk] at hnot
        cases hnot
  | @later p p' label hs hown _ ih =>
      rw [← hqueue] at hs
      obtain ⟨s₁, hstep, hqueue₁, hstream₁, _⟩ := stream_step hown hstream hs
      obtain ⟨labels, s', hrun, hlate⟩ := ih (hqueue₁.trans hqueue) hstream₁
      refine ⟨.env (.stream handle label) :: labels, s', ?_, hlate⟩
      rw [Machine.run, hstep]
      exact hrun

end Managers

/-! ## Three runs -/

instance (s : OutputState) : ∀ label, Decidable (Emptied s label)
  | .act t _ => inferInstanceAs (Decidable ((∀ stream ∈ removed s t, stream.producer.quiet = true) ∧
      ∀ stream ∈ replaced s t, stream.producer.begun.quiet = true))
  | .env (.stream handle (.write side (.line _))) =>
      inferInstanceAs (Decidable (∀ stream ∈ s.world.streams[handle]?, stream.dropped = true →
        stream.producer.begun.heeds side = false))
  | .env (.stream _ (.write _ (.unreadable _))) => isTrue trivial
  | .env (.stream _ (.spawn _)) | .env (.stream _ (.close _)) | .env (.stream _ (.read _))
  | .env (.stream _ .recv) | .env (.stream _ .tick) | .env (.stream _ (.exit _))
  | .env (.stream _ .proceed) | .env (.stream _ .abort) | .env (.stream _ (.queue _))
  | .env (.queue _) | .spawn _ _ | .again _ | .kill _ => isTrue trivial

end ShellfleetAgent.Agent.Streams
