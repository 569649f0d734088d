import ShellfleetAgent.Agent.LogSources
import ShellfleetAgent.Lib.Lists

/-!
# Readers that send line by line

Each reader has read a beginning of its pipe, and what the readers have read so far,
merged, is what has been accepted in chunks. This is lost where a chunk is refused
because the queue is full, or where a line cannot be read: the reader is then done as
if its input had ended, and the end message speaks of the exit status only.
-/

namespace ShellfleetAgent.Agent.LogSources

open ShellfleetAgent.Lib

/-! ## What a reader has read -/

/-- The reader has read `lines`, and all of its pipe if it has ended. -/
structure Reader.Got (reader : Reader) (lines : List Str) : Prop where
  items : reader.pipe.produced.take reader.pipe.read = lines.map .line
  bound : reader.pipe.read ≤ reader.pipe.produced.length
  ended : reader.status = .ended →
    reader.pipe.closed = true ∧ reader.pipe.read = reader.pipe.produced.length

section Reading

variable {pipe pipe' : Pipe} {item : Item} {reader reader' : Reader} {lines : List Str}

theorem next_item (h : pipe.next = some (some item)) :
    pipe.produced[pipe.read]? = some item := by
  unfold Pipe.next at h
  split at h
  · next hitem =>
      cases h
      exact hitem
  · split at h <;> cases h

theorem next_end (h : pipe.next = some none) (hbound : pipe.read ≤ pipe.produced.length) :
    pipe.closed = true ∧ pipe.read = pipe.produced.length := by
  unfold Pipe.next at h
  split at h
  · cases h
  · next hnone =>
      split at h
      · next hclosed =>
          have hle := List.getElem?_eq_none_iff.mp hnone
          exact ⟨hclosed, by omega⟩
      · cases h

/-- One more line read. -/
theorem take_advance {text : Str} (hitem : pipe.produced[pipe.read]? = some (.line text))
    (h : pipe.produced.take pipe.read = lines.map .line) :
    pipe.advance.produced.take pipe.advance.read = (lines ++ [text]).map .line := by
  show pipe.produced.take (pipe.read + 1) = _
  rw [List.take_add_one, h, hitem, List.map_append]
  rfl

theorem write_open (h : pipe.write item = some pipe') :
    pipe.closed = false ∧ pipe' = { pipe with produced := pipe.produced ++ [item] } := by
  unfold Pipe.write at h
  split at h
  · cases h
  · next hopen =>
      cases h
      exact ⟨Bool.eq_false_iff.mpr hopen, rfl⟩

theorem Reader.Got.write (h : reader.Got lines) (hwrite : reader.pipe.write item = some pipe') :
    Reader.Got { reader with pipe := pipe' } lines := by
  obtain ⟨hopen, rfl⟩ := write_open hwrite
  refine ⟨?_, ?_, fun hended => ?_⟩
  · show (reader.pipe.produced ++ [item]).take reader.pipe.read = _
    rw [List.take_append_of_le_length h.bound]
    exact h.items
  · show reader.pipe.read ≤ (reader.pipe.produced ++ [item]).length
    rw [List.length_append]
    exact Nat.le_add_right_of_le h.bound
  · have hclosed := (h.ended hended).1
    rw [hopen] at hclosed
    cases hclosed

theorem Reader.Got.close (h : reader.Got lines) :
    Reader.Got { reader with pipe := reader.pipe.close } lines :=
  ⟨h.items, h.bound, fun hended => ⟨rfl, (h.ended hended).2⟩⟩

theorem Reader.Got.spawn (h : reader.Got lines) :
    Reader.Got { reader with status := .running } lines :=
  ⟨h.items, h.bound, nofun⟩

/-- The next line is there, or the pipe has been read to its end. -/
theorem Reader.Got.nextLine {text : Option Str} (h : reader.Got lines)
    (hreadable : ∀ e, reader.pipe.next ≠ some (some (.unreadable e)))
    (hnext : reader.nextLine = some (reader', text)) : reader'.Got (lines ++ text.toList) := by
  unfold Reader.nextLine at hnext
  split at hnext
  · next hrunning =>
      split at hnext
      · next text hitem =>
          cases hnext
          have hget := next_item hitem
          refine ⟨take_advance hget h.items, ?_, fun hended => ?_⟩
          · obtain ⟨hlt, _⟩ := List.getElem?_eq_some_iff.mp hget
            exact hlt
          · rw [show reader.status = _ from hended] at hrunning
            cases hrunning
      · next e hitem => exact absurd hitem (hreadable e)
      · next hend =>
          cases hnext
          rw [Option.toList_none, List.append_nil]
          exact ⟨h.items, h.bound, fun _ => next_end hend h.bound⟩
      · cases hnext
  · cases hnext

theorem Reader.Got.all (h : reader.Got lines) (hended : reader.status = .ended) :
    reader.pipe.produced = lines.map .line := by
  rw [← h.items, (h.ended hended).2, List.take_length]

/-- A reader that has ended reads nothing. -/
theorem nextLine_running {text : Option Str} (h : reader.nextLine = some (reader', text)) :
    reader.status = .running := by
  unfold Reader.nextLine at h
  split at h
  · next hrunning => exact hrunning
  · cases h

end Reading

/-! ## Both readers -/

/-- What the two readers have read, merged, is `sent`. -/
def Readers.Merged (readers : Readers) (sent : List Str) : Prop :=
  ∃ out err, readers.stdout.Got out ∧ readers.stderr.Got err ∧ Merge out err sent

/-- What the source has produced on its two pipes, merged, is `sent`. -/
def Readers.Carried (readers : Readers) (sent : List Str) : Prop :=
  ∃ out err, readers.stdout.pipe.produced = out.map .line ∧
    readers.stderr.pipe.produced = err.map .line ∧ Merge out err sent

section Both

variable {readers readers' : Readers} {sent : List Str} {side : Side} {item : Item}

/-- Every line of each pipe is sent, in that pipe's order. -/
theorem Readers.Carried.each (h : readers.Carried sent) :
    (∃ out : List Str, readers.stdout.pipe.produced = out.map .line ∧ out.Sublist sent) ∧
      ∃ err : List Str, readers.stderr.pipe.produced = err.map .line ∧ err.Sublist sent := by
  obtain ⟨out, err, hout, herr, hmerge⟩ := h
  exact ⟨⟨out, hout, hmerge.sublist_left⟩, ⟨err, herr, hmerge.sublist_right⟩⟩

theorem merged_idle : idleReaders.Merged [] :=
  ⟨[], [], ⟨rfl, Nat.le_refl 0, nofun⟩, ⟨rfl, Nat.le_refl 0, nofun⟩, .nil⟩

theorem Readers.Merged.write (h : readers.Merged sent)
    (hwrite : readers.write side item = some readers') : readers'.Merged sent := by
  obtain ⟨out, err, hout, herr, hmerge⟩ := h
  obtain ⟨pipe, hpipe, hset⟩ := Option.bind_eq_some_iff.mp hwrite
  cases hset
  cases side with
  | stdout => exact ⟨out, err, hout.write hpipe, herr, hmerge⟩
  | stderr => exact ⟨out, err, hout, herr.write hpipe, hmerge⟩

theorem Readers.Merged.close (h : readers.Merged sent) (side : Side) :
    (readers.close side).Merged sent := by
  obtain ⟨out, err, hout, herr, hmerge⟩ := h
  cases side with
  | stdout => exact ⟨out, err, hout.close, herr, hmerge⟩
  | stderr => exact ⟨out, err, hout, herr.close, hmerge⟩

theorem Readers.Merged.spawn (h : readers.Merged sent) : readers.spawn.Merged sent := by
  obtain ⟨out, err, hout, herr, hmerge⟩ := h
  exact ⟨out, err, hout.spawn, herr.spawn, hmerge⟩

theorem Readers.Merged.nextLine {reader : Reader} {text : Option Str} (h : readers.Merged sent)
    (hreadable : ∀ e, (readers.get side).pipe.next ≠ some (some (.unreadable e)))
    (hnext : (readers.get side).nextLine = some (reader, text)) :
    (readers.set side reader).Merged (sent ++ text.toList) := by
  obtain ⟨out, err, hout, herr, hmerge⟩ := h
  cases side with
  | stdout =>
      refine ⟨out ++ text.toList, err, hout.nextLine hreadable hnext, herr, ?_⟩
      cases text with
      | none => simpa using hmerge
      | some text => exact hmerge.left text
  | stderr =>
      refine ⟨out, err ++ text.toList, hout, herr.nextLine hreadable hnext, ?_⟩
      cases text with
      | none => simpa using hmerge
      | some text => exact hmerge.right text

theorem Readers.Merged.carried (h : readers.Merged sent) (hout : readers.stdout.status = .ended)
    (herr : readers.stderr.status = .ended) : readers.Carried sent := by
  obtain ⟨out, err, hgot, hgot', hmerge⟩ := h
  exact ⟨out, err, hgot.all hout, hgot'.all herr, hmerge⟩

end Both

/-- A line that is read is readable, and the queue is not full then. -/
def Takes (queue : Outgoing) : Option (Option Item) → Bool
  | some (some (.line _)) => queue.refusal ≠ some .full
  | some (some (.unreadable _)) => false
  | _ => true

theorem Takes.readable {queue : Outgoing} {item : Option (Option Item)}
    (h : Takes queue item = true) (e : Str) : item ≠ some (some (.unreadable e)) := by
  intro hitem
  subst hitem
  cases h

theorem Takes.not_full {queue : Outgoing} {reader reader' : Reader} {text : Str}
    (h : Takes queue reader.pipe.next = true)
    (hnext : reader.nextLine = some (reader', some text)) : queue.refusal ≠ some .full := by
  unfold Reader.nextLine at hnext
  split at hnext
  · split at hnext
    · next hitem =>
        rw [hitem] at h
        exact of_decide_eq_true h
    · cases hnext
    · cases hnext
    · cases hnext
  · cases hnext

/-! ## Line by line -/

namespace Unbatched

/-- Every line is readable, and none is refused because the queue is full. -/
def Delivered (s : UnbatchedState) : ChildLabel → Bool
  | .read side => Takes s.queue (s.readers.get side).pipe.next
  | _ => true

structure Inv (stream : Unbatched) (s : UnbatchedState) : Prop where
  merged : ∃ sent, s.readers.Merged sent ∧ (sent.map stream.chunk).Sublist s.queue.accepted
  joined : ∀ status, s.runner = .joinStderr status → s.readers.stdout.status = .ended

variable {stream : Unbatched} {s s' : UnbatchedState} {i : ChildLabel}

/-- Reading changes neither reader that has ended. -/
theorem stdout_set {readers : Readers} {side : Side} {reader reader' : Reader} {text : Option Str}
    (h : (readers.get side).nextLine = some (reader, text))
    (hended : readers.stdout.status = .ended) :
    (readers.set side reader').stdout.status = .ended := by
  cases side with
  | stderr => exact hended
  | stdout =>
      have hrunning := nextLine_running h
      rw [show readers.stdout.status = _ from hrunning] at hended
      cases hended

/-- What a step can be. -/
inductive Move (stream : Unbatched) (s : UnbatchedState) : ChildLabel → UnbatchedState → Prop
  | spawned : Move stream s (.spawn (.ok ()))
      { s with readers := s.readers.spawn, runner := .waiting }
  | spawnFailed (e error : Str) : Move stream s (.spawn (.error e))
      { s with queue := (s.queue.send (stream.finished (some error))).1, runner := .returned }
  | wrote {side : Side} {item : Item} {readers : Readers}
      (h : s.readers.write side item = some readers) :
      Move stream s (.write side item) { s with readers }
  | closed (side : Side) : Move stream s (.close side)
      { s with readers := s.readers.close side }
  | sent {side : Side} {reader : Reader} {text : Str}
      (hnext : (s.readers.get side).nextLine = some (reader, some text))
      (hopen : s.queue.refusal = none) : Move stream s (.read side)
      { s with queue := (s.queue.send (stream.chunk text)).1,
               readers := s.readers.set side reader }
  | refused {side : Side} {reader : Reader} {text : Str} {e : OutgoingSendError}
      (hnext : (s.readers.get side).nextLine = some (reader, some text))
      (hrefused : s.queue.refusal = some e) : Move stream s (.read side)
      { s with readers := s.readers.set side reader.stop }
  | readAll {side : Side} {reader : Reader}
      (hnext : (s.readers.get side).nextLine = some (reader, none)) : Move stream s (.read side)
      { s with readers := s.readers.set side reader }
  | exited (status : ExitStatus) : Move stream s (.exit status)
      { s with runner := .joinStdout status }
  | joinedStdout (status : ExitStatus) (hended : s.readers.stdout.status = .ended) :
      Move stream s .proceed { s with runner := .joinStderr status }
  | finished {status : ExitStatus} (hrunner : s.runner = .joinStderr status)
      (hended : s.readers.stderr.status = .ended) : Move stream s .proceed
      { s with queue := (s.queue.send (stream.finished (status.error stream.name))).1,
               runner := .returned }
  | aborted : Move stream s .abort { s with runner := .returned }
  | queue {e : QueueEnv} {queue : Outgoing} (h : e.run s.queue = some queue) :
      Move stream s (.queue e) { s with queue }

theorem step_move (h : stream.step s i = some s') : Move stream s i s' := by
  cases i with
  | spawn result =>
      simp only [step] at h
      split at h
      · cases h
        exact .spawned
      · cases h
        exact .spawnFailed _ _
      · cases h
  | write side item =>
      obtain ⟨readers, hwrite, rfl⟩ := Option.map_eq_some_iff.mp h
      exact .wrote hwrite
  | close side =>
      cases h
      exact .closed side
  | read side =>
      simp only [step] at h
      split at h
      · next reader text hnext =>
          cases hqueue : s.queue.refusal with
          | none =>
              have hmove : Move stream s (.read side) _ := .sent hnext hqueue
              rw [Outgoing.send_accepted hqueue] at h hmove
              cases h
              exact hmove
          | some e =>
              rw [Outgoing.send_refused hqueue] at h
              cases h
              exact .refused hnext hqueue
      · next hnext =>
          cases h
          exact .readAll hnext
      · cases h
  | exit status =>
      simp only [step] at h
      split at h
      · cases h
        exact .exited status
      · cases h
  | proceed =>
      simp only [step] at h
      split at h
      · next status _ =>
          split at h
          · next hended =>
              cases h
              exact .joinedStdout status hended
          · cases h
      · next status hrunner =>
          split at h
          · next hended =>
              cases h
              exact .finished hrunner hended
          · cases h
      · cases h
  | abort =>
      simp only [step] at h
      split at h
      · cases h
      · cases h
        exact .aborted
  | queue e =>
      obtain ⟨queue, hqueue, rfl⟩ := Option.map_eq_some_iff.mp h
      exact .queue hqueue
  | recv => cases h
  | tick => cases h

theorem Move.grows (h : Move stream s i s') : s.queue.Grows s'.queue := by
  cases h with
  | spawnFailed | sent | finished => exact Outgoing.grows_send _ _
  | queue h => exact QueueEnv.grows h
  | _ => exact .refl _

/-- Once `stdout` has been joined it stays so. -/
theorem Move.joined (h : Move stream s i s') (hended : s.readers.stdout.status = .ended)
    (hspawn : ∀ r, i ≠ .spawn r) : s'.readers.stdout.status = .ended := by
  cases h with
  | spawned => exact absurd rfl (hspawn _)
  | @wrote side _ _ h =>
      obtain ⟨pipe, _, hset⟩ := Option.bind_eq_some_iff.mp h
      cases hset
      cases side <;> exact hended
  | closed side => cases side <;> exact hended
  | sent hnext | refused hnext | readAll hnext => exact stdout_set hnext hended
  | _ => exact hended

theorem Inv.move (h : Inv stream s) (hopen : s.queue.closed = false)
    (hok : Delivered s i = true) (hm : Move stream s i s') : Inv stream s' := by
  obtain ⟨sent, hmerged, hsent⟩ := h.merged
  have hgrown := hsent.trans hm.grows.accepted.sublist
  have hjoined := fun status hrunner => hm.joined (h.joined status hrunner)
  cases hm with
  | spawned => exact ⟨⟨sent, hmerged.spawn, hgrown⟩, nofun⟩
  | spawnFailed | finished | aborted | exited => exact ⟨⟨sent, hmerged, hgrown⟩, nofun⟩
  | wrote hwrite =>
      exact ⟨⟨sent, hmerged.write hwrite, hgrown⟩, fun status hr => hjoined status hr nofun⟩
  | closed side =>
      exact ⟨⟨sent, hmerged.close side, hgrown⟩, fun status hr => hjoined status hr nofun⟩
  | sent hnext hqueue =>
      refine ⟨⟨_, hmerged.nextLine (Takes.readable hok) hnext, ?_⟩,
        fun status hr => hjoined status hr nofun⟩
      rw [Outgoing.send_accepted hqueue, Option.toList_some, List.map_append]
      exact hsent.append (List.Sublist.refl _)
  | refused hnext hrefused =>
      have hfull := Takes.not_full hok hnext
      rcases Outgoing.open_of_not_full hfull with hclosed | hnone
      · rw [hopen] at hclosed
        cases hclosed
      · rw [hnone] at hrefused
        cases hrefused
  | readAll hnext =>
      have hmerged := hmerged.nextLine (Takes.readable hok) hnext
      rw [Option.toList_none, List.append_nil] at hmerged
      exact ⟨⟨sent, hmerged, hgrown⟩, fun status hr => hjoined status hr nofun⟩
  | joinedStdout status hended => exact ⟨⟨sent, hmerged, hgrown⟩, fun _ _ => hended⟩
  | queue => exact ⟨⟨sent, hmerged, hgrown⟩, fun status hr => hjoined status hr nofun⟩

/-- Once the queue is closed nothing is accepted any more. -/
theorem invariant (hr : stream.machine.Reach (fun s i => Delivered s i = true) s) :
    s.queue.closed = true ∨ Inv stream s := by
  refine hr.invariant_until (I := Inv stream) (f := fun s => s.queue.closed) ?_ ?_ ?_
  · intro s ⟨hreaders, hrunner⟩
    refine ⟨⟨[], ?_, List.nil_sublist _⟩, fun status hjoin => ?_⟩
    · rw [hreaders]
      exact merged_idle
    · rw [hrunner] at hjoin
      cases hjoin
  · exact fun s i s' hs => (step_move hs).grows.closed
  · exact fun s i s' hopen h hok hs => h.move hopen hok (step_move hs)

/-- The step that has an end without an error accepted comes after every line. -/
theorem carried {before : List Message} (hchunk : ∀ text, stream.chunk text ≠ stream.finished none)
    (herror : ∀ e, stream.finished (some e) ≠ stream.finished none)
    (hr : stream.machine.Reach (fun s i => Delivered s i = true) s)
    (hs : stream.step s i = some s') (hown : ∀ e, i ≠ .queue e)
    (haccepts : Outgoing.Accepts s.queue s'.queue before (stream.finished none)) :
    ∃ sent, s.readers.Carried sent ∧ (sent.map stream.chunk).Sublist before := by
  cases step_move hs with
  | spawnFailed => exact absurd haccepts.of_send.1 (herror _)
  | sent => exact absurd haccepts.of_send.1 (hchunk _)
  | finished hrunner hended =>
      obtain ⟨_, hbefore, hqueue⟩ := haccepts.of_send
      rcases invariant hr with hclosed | hI
      · rw [Outgoing.closed_of_refusal hqueue] at hclosed
        cases hclosed
      · obtain ⟨sent, hmerged, hsent⟩ := hI.merged
        rw [hbefore]
        exact ⟨sent, hmerged.carried (hI.joined _ hrunner) hended, hsent⟩
  | queue => exact absurd rfl (hown _)
  | _ => exact absurd haccepts (Outgoing.not_accepts rfl)

end Unbatched

end ShellfleetAgent.Agent.LogSources
