import ShellfleetAgent.Agent.K8sLogStreams
import ShellfleetAgent.Proofs.LogBatches
import ShellfleetAgent.Proofs.StreamOutput

/-!
# Pod logs do not mix

The manager's calls are made one after another, so what it holds for a stream id is the
newest stream with that id, and every other one that reads is aborted. From this follows
what the dashboard relies on when it asks for an id again: as long as an aborted task does
not read on before it is dropped, the chunks of the old stream are all before those of the
new one. Each stream by itself goes on as `run_stream` does, whatever the others do to the
queue.
-/

namespace ShellfleetAgent.Agent.K8sLogStreams

open ShellfleetAgent.Lib
open LogSources
open LogSources.K8sLogs (Pump)
open Streams.OutputWorld (accepted)

variable {s s' : PodLogs} {streamId : Str} {handle : Nat} {queue : Outgoing}

/-- The task still has lines to read. -/
def reading : Pump → Bool
  | .connecting | .opening | .streaming _ => true
  | .finishing _ | .returned => false

/-- The task reads, and was not aborted. -/
def PodStream.live (stream : PodStream) : Bool := reading stream.pump && !stream.aborted

/-- The stream that a chunk is of. -/
def chunkOf : Message → Option Str
  | .k8sLogsChunk streamId _ => some streamId
  | _ => none

/-! ## What a stream does -/

/-- The queue is not the stream's own. -/
def Own : K8sLogs.Label → Prop
  | .queue _ => False
  | _ => True

/-- At most one message was sent, and a chunk only of this stream. -/
def SendsOne (streamId : Str) (queue queue' : Outgoing) : Prop :=
  queue' = queue ∨ ∃ message, queue' = (queue.send message).1 ∧
    ∀ other, chunkOf message = some other → other = streamId

section Step

variable {t t' : K8sLogs.State} {label : K8sLogs.Label} {queue' : Outgoing} {message : Message}

theorem accepted_same (queue : Outgoing) : accepted queue queue = [] := List.drop_length

theorem mem_accepted_send {message' : Message}
    (hmem : message' ∈ accepted queue (queue.send message).1) : message' = message := by
  cases hq : queue.refusal with
  | none =>
      rw [Streams.Producer.accepted_send hq] at hmem
      exact List.mem_singleton.mp hmem
  | some e =>
      rw [Outgoing.send_refused hq, accepted_same] at hmem
      cases hmem

theorem chunkOf_accepted (hone : SendsOne streamId queue queue')
    (hmem : message ∈ accepted queue queue') {other : Str} (hchunk : chunkOf message = some other) :
    other = streamId := by
  rcases hone with rfl | ⟨message', rfl, hown⟩
  · rw [accepted_same] at hmem
    cases hmem
  · rw [mem_accepted_send hmem] at hchunk
    exact hown other hchunk

/-- What one stream does to the queue is what any producer does, for the others. -/
theorem SendsOne.env (hone : SendsOne streamId queue queue') :
    queue' = queue ∨ ∃ e : QueueEnv, e.run queue = some queue' := by
  rcases hone with rfl | ⟨message, rfl, _⟩
  · exact .inl rfl
  · exact .inr ⟨.send message, rfl⟩

theorem sendsOne_lastChunk (buf : List Str) :
    SendsOne streamId queue (K8sLogs.lastChunk streamId queue buf) := by
  unfold K8sLogs.lastChunk
  split
  · next drained _ =>
      exact .inr ⟨_, rfl, fun other hother => (Option.some.inj hother).symm⟩
  · exact .inl rfl

theorem sendsOne_step (hown : Own label) (h : K8sLogs.step streamId t label = some t') :
    SendsOne streamId t.queue t'.queue := by
  cases K8sLogs.step_move h with
  | connected | opened | wrote | closed | pushed | ticked | aborted => exact .inl rfl
  | failed | finished => exact .inr ⟨_, rfl, fun other hother => by cases hother⟩
  | full | drained => exact .inr ⟨_, rfl, fun other hother => (Option.some.inj hother).symm⟩
  | unreadable | streamed => exact sendsOne_lastChunk _
  | queue => cases hown

/-- A task that has stopped reading does not start again, and sends no chunk. -/
theorem stopped_step (hown : Own label) (hstopped : reading t.pump = false)
    (h : K8sLogs.step streamId t label = some t') :
    reading t'.pump = false ∧ ∀ message ∈ accepted t.queue t'.queue, chunkOf message = none := by
  have hquiet : ∀ queue, ∀ message ∈ accepted queue queue, chunkOf message = none := by
    intro queue message hmem
    rw [accepted_same] at hmem
    cases hmem
  obtain ⟨queue, source, pump⟩ := t
  cases label with
  | queue e => cases hown
  | abort =>
      cases pump with
      | finishing error => cases h
      | returned => cases h
      | _ => cases hstopped
  | write item =>
      obtain ⟨source', _, rfl⟩ := Option.map_eq_some_iff.mp h
      exact ⟨hstopped, hquiet queue⟩
  | close =>
      cases h
      exact ⟨hstopped, hquiet queue⟩
  | finish =>
      cases pump with
      | finishing error =>
          cases h
          refine ⟨rfl, fun message hmem => ?_⟩
          rw [mem_accepted_send hmem]
          rfl
      | _ => cases h
  | next | connect | opened | tick =>
      cases pump with
      | finishing error => cases h
      | returned => cases h
      | _ => cases hstopped

/-- A chunk is of the stream that sends it, which reads: it sends at a read or at a tick. -/
theorem chunk_step (hown : Own label) (h : K8sLogs.step streamId t label = some t')
    (hmem : message ∈ accepted t.queue t'.queue) {other : Str}
    (hchunk : chunkOf message = some other) :
    other = streamId ∧ reading t.pump = true ∧ (label = .next ∨ label = .tick) := by
  refine ⟨chunkOf_accepted (sendsOne_step hown h) hmem hchunk, ?_, ?_⟩
  · cases hreading : reading t.pump with
    | true => rfl
    | false =>
        have hnone := (stopped_step hown hreading h).2 message hmem
        rw [hchunk] at hnone
        cases hnone
  · cases K8sLogs.step_move h with
    | connected | opened | wrote | closed | aborted =>
        rw [accepted_same] at hmem
        cases hmem
    | failed | finished =>
        rw [mem_accepted_send hmem] at hchunk
        cases hchunk
    | pushed | full | unreadable | streamed => exact .inl rfl
    | ticked | drained => exact .inr rfl
    | queue => cases hown

theorem live_abort (stream : PodStream) : stream.abort.live = false := Bool.and_false _

end Step

/-! ## The manager -/

/-- The manager has this stream in its map, or in hand. -/
def Manages (s : PodLogs) (streamId : Str) (i : Nat) : Prop :=
  s.held streamId = some i ∨ s.main = .inserting streamId i

def idAt (s : PodLogs) (i : Nat) : Option Str := (s.streams[i]?).map (·.streamId)

/-- The streams that have sent a chunk for an id, in the order of the chunks. -/
def senders (sent : List (Nat × Message)) (streamId : Str) : List Nat :=
  (sent.filter fun entry => chunkOf entry.2 = some streamId).map Prod.fst

structure Managed (s : PodLogs) : Prop where
  /-- What is managed is the newest stream of its id. -/
  newest : ∀ streamId i, Manages s streamId i →
    idAt s i = some streamId ∧ ∀ j, idAt s j = some streamId → j ≤ i
  /-- A stream that reads and was not aborted is managed. -/
  reads : ∀ i stream, s.streams[i]? = some stream → stream.live = true →
    Manages s stream.streamId i
  /-- A call of `start` has its id for itself. -/
  taken : ∀ streamId, (s.main = .spawning streamId ∨ ∃ i, s.main = .inserting streamId i) →
    s.held streamId = none
  sentBy : ∀ entry ∈ s.sent, ∀ streamId, chunkOf entry.2 = some streamId →
    idAt s entry.1 = some streamId

section Stop

theorem held_stop (s : PodLogs) (streamId other : Str) :
    (s.stop streamId).held other = if other = streamId then none else s.held other := by
  unfold PodLogs.stop
  split
  · exact Function.update_apply ..
  · next hnone =>
      split
      · next heq => rw [heq, hnone]
      · rfl

theorem main_stop (s : PodLogs) (streamId : Str) : (s.stop streamId).main = s.main := by
  unfold PodLogs.stop
  split <;> rfl

theorem queue_stop (s : PodLogs) (streamId : Str) : (s.stop streamId).queue = s.queue := by
  unfold PodLogs.stop
  split <;> rfl

theorem sent_stop (s : PodLogs) (streamId : Str) : (s.stop streamId).sent = s.sent := by
  unfold PodLogs.stop
  split <;> rfl

theorem streams_stop (s : PodLogs) (streamId : Str) (i : Nat) :
    (s.stop streamId).streams[i]? = (s.streams[i]?).map fun stream =>
      if s.held streamId = some i then stream.abort else stream := by
  unfold PodLogs.stop
  split
  · next handle hheld =>
      rw [List.getElem?_modify, hheld]
      simp only [Option.some.injEq]
      rfl
  · next hnone =>
      rw [hnone]
      simp

theorem idAt_stop (s : PodLogs) (streamId : Str) (i : Nat) :
    idAt (s.stop streamId) i = idAt s i := by
  rw [idAt, streams_stop, Option.map_map, idAt]
  congr 1
  funext stream
  show (if _ then _ else _ : PodStream).streamId = _
  split <;> rfl

theorem manages_stop (hidle : s.main = .idle) {other : Str} {i : Nat} :
    Manages (s.stop streamId) other i ↔ other ≠ streamId ∧ Manages s other i := by
  unfold Manages
  rw [main_stop, hidle, held_stop]
  by_cases heq : other = streamId
  · simp [heq]
  · simp [heq]

theorem Managed.stop (h : Managed s) (hidle : s.main = .idle) (streamId : Str) :
    Managed (s.stop streamId) where
  newest other i hm := by
    obtain ⟨_, hm⟩ := (manages_stop hidle).mp hm
    rw [idAt_stop]
    refine ⟨(h.newest other i hm).1, fun j hj => ?_⟩
    rw [idAt_stop] at hj
    exact (h.newest other i hm).2 j hj
  reads i stream hstream hlive := by
    rw [streams_stop, Option.map_eq_some_iff] at hstream
    obtain ⟨stream, hstream, rfl⟩ := hstream
    split at hlive
    · rw [live_abort] at hlive
      cases hlive
    · next hother =>
        rw [if_neg hother]
        have hm := h.reads i stream hstream hlive
        refine (manages_stop hidle).mpr ⟨?_, hm⟩
        rintro rfl
        rcases hm with hm | hm
        · exact hother hm
        · rw [hidle] at hm
          cases hm
  taken other hbusy := by
    rw [main_stop, hidle] at hbusy
    rcases hbusy with hbusy | ⟨i, hbusy⟩ <;> cases hbusy
  sentBy entry hmem other hchunk := by
    rw [sent_stop] at hmem
    rw [idAt_stop]
    exact h.sentBy entry hmem other hchunk

end Stop

theorem Managed.request (h : Managed s) (hidle : s.main = .idle) (streamId : Str) :
    Managed { s.stop streamId with main := .spawning streamId } := by
  have hstop := h.stop hidle streamId
  have hsame : ∀ other i, Manages { s.stop streamId with main := .spawning streamId } other i →
      Manages (s.stop streamId) other i := by
    rintro other i (hm | hm)
    · exact .inl hm
    · cases hm
  refine ⟨fun other i hm => hstop.newest other i (hsame other i hm), ?_, ?_, hstop.sentBy⟩
  · intro i stream hstream hlive
    rcases hstop.reads i stream hstream hlive with hm | hm
    · exact .inl hm
    · rw [main_stop, hidle] at hm
      cases hm
  · rintro other (hbusy | ⟨i, hbusy⟩)
    · cases hbusy
      exact (held_stop ..).trans (if_pos rfl)
    · cases hbusy

theorem Managed.spawn (h : Managed s) (hmain : s.main = .spawning streamId) :
    Managed { s with
      main := .inserting streamId s.streams.length
      streams := s.streams ++ [⟨streamId, idlePipe, .connecting, false⟩] } := by
  generalize hs' : PodLogs.mk (.inserting streamId s.streams.length) s.held
    (s.streams ++ [⟨streamId, idlePipe, .connecting, false⟩]) s.queue s.sent = s'
  have hfree : s.held streamId = none := h.taken streamId (.inl hmain)
  have hid : ∀ i, idAt s' i = if i = s.streams.length then some streamId else idAt s i := by
    intro i
    rw [← hs', idAt, idAt, List.getElem?_append]
    split
    · next hlt => rw [if_neg (Nat.ne_of_lt hlt)]
    · next hge =>
        split
        · next heq =>
            rw [heq, Nat.sub_self]
            rfl
        · next hne =>
            rw [List.getElem?_eq_none_iff.mpr (Nat.le_of_not_lt hge),
              List.getElem?_eq_none_iff.mpr (by simp; omega)]
  have hheld : ∀ other i, s.held other = some i →
      Manages s other i ∧ i ≠ s.streams.length ∧ other ≠ streamId := by
    intro other i hi
    refine ⟨.inl hi, ?_, ?_⟩
    · rintro rfl
      have hold := (h.newest other _ (.inl hi)).1
      rw [idAt, List.getElem?_eq_none_iff.mpr le_rfl] at hold
      cases hold
    · rintro rfl
      rw [hfree] at hi
      cases hi
  constructor
  · rintro other i (hm | hm)
    · rw [← hs'] at hm
      obtain ⟨hm, hlen, hne⟩ := hheld other i hm
      rw [hid, if_neg hlen]
      refine ⟨(h.newest other i hm).1, fun j hj => ?_⟩
      rw [hid] at hj
      split at hj
      · exact absurd (Option.some.inj hj).symm hne
      · exact (h.newest other i hm).2 j hj
    · rw [← hs'] at hm
      cases hm
      rw [hid, if_pos rfl]
      refine ⟨rfl, fun j hj => ?_⟩
      rw [hid] at hj
      split at hj
      · next heq => exact Nat.le_of_eq heq
      · rw [idAt, Option.map_eq_some_iff] at hj
        obtain ⟨stream, hstream, _⟩ := hj
        exact Nat.le_of_lt (List.getElem?_eq_some_iff.mp hstream).1
  · intro i stream hstream hlive
    rw [← hs'] at hstream
    rw [List.getElem?_append] at hstream
    split at hstream
    · rcases h.reads i stream hstream hlive with hm | hm
      · rw [← hs']
        exact .inl hm
      · rw [hmain] at hm
        cases hm
    · next hge =>
        obtain ⟨hlt, heq⟩ := List.getElem?_eq_some_iff.mp hstream
        have hlen : i = s.streams.length := by
          rw [List.length_singleton] at hlt
          omega
        subst hlen
        rw [← hs']
        cases List.mem_singleton.mp (List.mem_of_getElem? hstream)
        exact .inr rfl
  · rw [← hs']
    rintro other (hbusy | ⟨i, hbusy⟩)
    · cases hbusy
    · cases hbusy
      exact hfree
  · intro entry hmem other hchunk
    rw [← hs'] at hmem
    have hold := h.sentBy entry hmem other hchunk
    rw [hid]
    split
    · next heq =>
        rw [heq, idAt, List.getElem?_eq_none_iff.mpr le_rfl] at hold
        cases hold
    · exact hold

theorem Managed.insert (h : Managed s) (hmain : s.main = .inserting streamId handle) :
    Managed { s with main := .idle, held := Function.update s.held streamId (some handle) } := by
  generalize hs' : PodLogs.mk .idle (Function.update s.held streamId (some handle)) s.streams
    s.queue s.sent = s'
  have hfree : s.held streamId = none := h.taken streamId (.inr ⟨handle, hmain⟩)
  have hid : ∀ i, idAt s' i = idAt s i := by
    intro i
    rw [← hs']
    rfl
  have hsame : ∀ other i, Manages s' other i ↔ Manages s other i := by
    intro other i
    rw [← hs', Manages, Manages, hmain]
    dsimp only
    rw [Function.update_apply]
    by_cases heq : other = streamId
    · subst heq
      rw [if_pos rfl, hfree]
      simp
    · rw [if_neg heq]
      simp [Ne.symm heq]
  constructor
  · intro other i hm
    have hold := h.newest other i ((hsame other i).mp hm)
    rw [hid]
    exact ⟨hold.1, fun j hj => hold.2 j (hid j ▸ hj)⟩
  · intro i stream hstream hlive
    rw [← hs'] at hstream
    exact (hsame _ _).mpr (h.reads i stream hstream hlive)
  · rw [← hs']
    rintro other (hbusy | ⟨i, hbusy⟩) <;> cases hbusy
  · intro entry hmem other hchunk
    rw [← hs'] at hmem
    rw [hid]
    exact h.sentBy entry hmem other hchunk

/-! ## The streams -/

/-- What a step of a stream is. -/
theorem advance_inv {label : K8sLogs.Label} (h : s.advance handle label = some s') :
    ∃ stream r, s.streams[handle]? = some stream ∧
      K8sLogs.step stream.streamId (stream.state s.queue) label = some r ∧
      s' = { s with
        streams := s.streams.set handle { stream with source := r.source, pump := r.pump }
        queue := r.queue
        sent := s.sent ++ (accepted s.queue r.queue).map (handle, ·) } := by
  obtain ⟨stream, hstream, h⟩ := Option.bind_eq_some_iff.mp h
  obtain ⟨r, hr, h⟩ := Option.bind_eq_some_iff.mp h
  exact ⟨stream, r, hstream, hr, (Option.some.inj h).symm⟩

theorem senders_append (sent new : List (Nat × Message)) (streamId : Str) :
    senders (sent ++ new) streamId = senders sent streamId ++ senders new streamId := by
  rw [senders, List.filter_append, List.map_append]
  rfl

theorem mem_senders {sent : List (Nat × Message)} {i : Nat} (hmem : i ∈ senders sent streamId) :
    ∃ message, (i, message) ∈ sent ∧ chunkOf message = some streamId := by
  obtain ⟨entry, hentry, rfl⟩ := List.mem_map.mp hmem
  obtain ⟨hentry, hchunk⟩ := List.mem_filter.mp hentry
  exact ⟨entry.2, hentry, of_decide_eq_true hchunk⟩

theorem idAt_advance {label : K8sLogs.Label} (hs : s.advance handle label = some s') (i : Nat) :
    idAt s' i = idAt s i := by
  obtain ⟨stream, r, hstream, _, rfl⟩ := advance_inv hs
  rw [idAt, idAt, List.getElem?_set]
  split
  · next heq =>
      have hlt : handle < s.streams.length := (List.getElem?_eq_some_iff.mp hstream).1
      rw [← heq, if_pos hlt, hstream]
      rfl
  · rfl

theorem Managed.advance (h : Managed s) {label : K8sLogs.Label} (hown : Own label)
    (hs : s.advance handle label = some s') : Managed s' := by
  have hid := idAt_advance hs
  obtain ⟨stream, r, hstream, hr, rfl⟩ := advance_inv hs
  refine ⟨fun other i hm => ?_, fun i stream' hstream' hlive => ?_, h.taken,
    fun entry hmem other hother => ?_⟩
  · obtain ⟨hold, hnewest⟩ := h.newest other i hm
    rw [hid]
    exact ⟨hold, fun j hj => hnewest j (hid j ▸ hj)⟩
  · rw [List.getElem?_set] at hstream'
    split at hstream'
    · next heq =>
        subst heq
        cases (Option.ite_none_right_eq_some.mp hstream').2
        refine h.reads handle stream hstream ?_
        obtain ⟨hreading, haborted⟩ := Bool.and_eq_true_iff.mp hlive
        refine Bool.and_eq_true_iff.mpr ⟨?_, haborted⟩
        cases hbefore : reading stream.pump with
        | true => rfl
        | false =>
            rw [(stopped_step hown hbefore hr).1] at hreading
            cases hreading
    · exact h.reads i stream' hstream' hlive
  · rw [hid]
    rcases List.mem_append.mp hmem with hmem | hmem
    · exact h.sentBy entry hmem other hother
    · obtain ⟨message, hmessage, rfl⟩ := List.mem_map.mp hmem
      obtain ⟨rfl, _⟩ := chunk_step hown hr hmessage hother
      rw [idAt, hstream]
      rfl

theorem step_stream {label : K8sLogs.Label} (h : podLogs.step s (.stream handle label) = some s') :
    Own label ∧ s.advance handle label = some s' := by
  cases label with
  | abort => cases h
  | queue e => cases h
  | _ => exact ⟨trivial, h⟩

theorem step_drop (h : podLogs.step s (.drop handle) = some s') :
    Own .abort ∧ s.advance handle .abort = some s' := by
  obtain ⟨stream, _, h⟩ := Option.bind_eq_some_iff.mp h
  exact ⟨trivial, (Option.ite_none_right_eq_some.mp h).2⟩

theorem managed (hr : podLogs.Reachable s) : Managed s := by
  refine hr.invariant ?_ ?_
  · rintro s ⟨hmain, hheld, hstreams, hsent⟩
    have hnothing : ∀ streamId i, ¬Manages s streamId i := by
      rintro streamId i (hm | hm)
      · rw [hheld] at hm
        cases hm
      · rw [hmain] at hm
        cases hm
    refine ⟨fun streamId i hm => absurd hm (hnothing streamId i), ?_, ?_, ?_⟩
    · intro i stream hstream
      rw [hstreams] at hstream
      cases hstream
    · intro streamId _
      rw [hheld]
    · intro entry hmem
      rw [hsent] at hmem
      cases hmem
  · intro s label s' _ hI _ hs
    cases label with
    | request streamId =>
        simp only [podLogs, PodLogs.step] at hs
        split at hs
        · next hidle =>
            cases hs
            exact hI.request hidle streamId
        · cases hs
    | spawn =>
        simp only [podLogs, PodLogs.step] at hs
        split at hs
        · next hmain =>
            cases hs
            exact hI.spawn hmain
        · cases hs
    | insert =>
        simp only [podLogs, PodLogs.step] at hs
        split at hs
        · next hmain =>
            cases hs
            exact hI.insert hmain
        · cases hs
    | stopRequest streamId =>
        simp only [podLogs, PodLogs.step] at hs
        split at hs
        · next hidle =>
            cases hs
            exact hI.stop hidle streamId
        · cases hs
    | stream i label =>
        obtain ⟨hown, hs⟩ := step_stream hs
        exact hI.advance hown hs
    | drop i =>
        obtain ⟨hown, hs⟩ := step_drop hs
        exact hI.advance hown hs
    | queue e =>
        obtain ⟨queue, _, rfl⟩ := Option.map_eq_some_iff.mp hs
        exact ⟨hI.newest, hI.reads, hI.taken, hI.sentBy⟩

/-! ## The order of the chunks -/

/-- A task that was aborted does not read on, nor send at a tick, before it is dropped. -/
def Prompt (s : PodLogs) : PodLogs.Label → Prop
  | .stream handle .next | .stream handle .tick =>
      ∀ stream ∈ s.streams[handle]?, stream.aborted = false
  | _ => True

instance (s : PodLogs) : DecidablePred (Prompt s)
  | .stream handle .next | .stream handle .tick =>
      inferInstanceAs (Decidable (∀ stream ∈ s.streams[handle]?, stream.aborted = false))
  | .stream _ (.connect _) | .stream _ (.opened _) | .stream _ (.write _) | .stream _ .close
  | .stream _ .finish | .stream _ .abort | .stream _ (.queue _) | .request _ | .spawn | .insert
  | .stopRequest _ | .drop _ | .queue _ => isTrue trivial

/-- What comes after all that there is, in a list that is in order. -/
theorem ordered_append {sent new : List (Nat × Message)}
    (hold : (senders sent streamId).Pairwise (· ≤ ·))
    (handle : Nat) (hnew : ∀ i ∈ senders new streamId, i = handle)
    (hlast : ∀ i ∈ senders new streamId, ∀ j ∈ senders sent streamId, j ≤ i) :
    (senders (sent ++ new) streamId).Pairwise (· ≤ ·) := by
  rw [senders_append]
  refine List.pairwise_append.mpr ⟨hold, ?_, fun j hj i hi => hlast i hi j hj⟩
  refine List.pairwise_of_forall_mem_list fun i hi j hj => ?_
  rw [hnew i hi, hnew j hj]

theorem ordered_advance (h : Managed s) {label : K8sLogs.Label} (hown : Own label)
    (hok : Prompt s (.stream handle label)) (hs : s.advance handle label = some s')
    (hordered : (senders s.sent streamId).Pairwise (· ≤ ·)) :
    (senders s'.sent streamId).Pairwise (· ≤ ·) := by
  obtain ⟨stream, r, hstream, hr, rfl⟩ := advance_inv hs
  refine ordered_append hordered handle (fun i hi => ?_) fun i hi j hj => ?_
  · obtain ⟨message, hmem, _⟩ := mem_senders hi
    obtain ⟨_, _, heq⟩ := List.mem_map.mp hmem
    exact (congrArg Prod.fst heq).symm
  · obtain ⟨message, hmem, hchunk⟩ := mem_senders hi
    obtain ⟨message', hmem', hchunk'⟩ := mem_senders hj
    obtain ⟨_, hmessage, heq⟩ := List.mem_map.mp hmem
    cases heq
    obtain ⟨rfl, hreading, hlabel⟩ := chunk_step hown hr hmessage hchunk
    have haborted : stream.aborted = false := by
      rcases hlabel with rfl | rfl
      · exact hok stream hstream
      · exact hok stream hstream
    have hlive : stream.live = true := by
      rw [PodStream.live, haborted]
      exact Bool.and_eq_true_iff.mpr ⟨hreading, rfl⟩
    exact (h.newest _ _ (h.reads handle stream hstream hlive)).2 j (h.sentBy _ hmem' _ hchunk')

theorem ordered (hr : podLogs.Reach Prompt s) (streamId : Str) :
    (senders s.sent streamId).Pairwise (· ≤ ·) := by
  refine hr.invariant (I := fun s => (senders s.sent streamId).Pairwise (· ≤ ·)) ?_ ?_
  · rintro s ⟨_, _, _, hsent⟩
    rw [hsent]
    exact .nil
  · intro s label s' hr hI hok hs
    cases label with
    | request other =>
        simp only [podLogs, PodLogs.step] at hs
        split at hs
        · cases hs
          rw [sent_stop]
          exact hI
        · cases hs
    | spawn | insert =>
        simp only [podLogs, PodLogs.step] at hs
        split at hs
        · cases hs
          exact hI
        · cases hs
    | stopRequest other =>
        simp only [podLogs, PodLogs.step] at hs
        split at hs
        · cases hs
          rw [sent_stop]
          exact hI
        · cases hs
    | stream i label =>
        obtain ⟨hown, hs⟩ := step_stream hs
        exact ordered_advance (managed hr.reachable) hown hok hs hI
    | drop i =>
        obtain ⟨hown, hs⟩ := step_drop hs
        exact ordered_advance (managed hr.reachable) hown trivial hs hI
    | queue e =>
        obtain ⟨queue, _, rfl⟩ := Option.map_eq_some_iff.mp hs
        exact hI

/-! ## Each stream by itself -/

/-- The stream is where `run_stream` can be. -/
def Runs (queue : Outgoing) (stream : PodStream) : Prop :=
  (K8sLogs.machine stream.streamId).Reachable (stream.state queue)

theorem Runs.env {stream : PodStream} (h : Runs queue stream) {e : QueueEnv}
    {queue' : Outgoing} (he : e.run queue = some queue') : Runs queue' stream :=
  .step (i := .queue e) h trivial (Option.map_eq_some_iff.mpr ⟨queue', he, rfl⟩)

def AllRun (s : PodLogs) : Prop :=
  ∀ (i : Nat) stream, s.streams[i]? = some stream → Runs s.queue stream

theorem AllRun.stop (h : AllRun s) (streamId : Str) : AllRun (s.stop streamId) := by
  intro i stream hstream
  rw [streams_stop, Option.map_eq_some_iff] at hstream
  obtain ⟨stream, hstream, rfl⟩ := hstream
  rw [queue_stop]
  split <;> exact h i stream hstream

theorem AllRun.spawn (h : AllRun s) (streamId : Str) (main : MainAt) : AllRun { s with
    main, streams := s.streams ++ [⟨streamId, idlePipe, .connecting, false⟩] } := by
  intro i stream hstream
  rcases List.mem_append.mp (List.mem_of_getElem? hstream) with hmem | hmem
  · obtain ⟨j, hj⟩ := List.mem_iff_getElem?.mp hmem
    exact h j stream hj
  · rw [List.mem_singleton.mp hmem]
    exact .init ⟨rfl, rfl⟩

theorem AllRun.advance (h : AllRun s) {label : K8sLogs.Label} (hown : Own label)
    (hs : s.advance handle label = some s') : AllRun s' := by
  obtain ⟨stream, r, hstream, hr, rfl⟩ := advance_inv hs
  intro i stream' hstream'
  dsimp only at hstream' ⊢
  rw [List.getElem?_set] at hstream'
  split at hstream'
  · cases (Option.ite_none_right_eq_some.mp hstream').2
    exact .step (h handle stream hstream) trivial hr
  · have hrun := h i stream' hstream'
    rcases (sendsOne_step hown hr).env with hsame | ⟨e, he⟩
    · rw [hsame]
      exact hrun
    · exact hrun.env he

theorem allRun (hr : podLogs.Reachable s) : AllRun s := by
  refine hr.invariant ?_ ?_
  · rintro s ⟨_, _, hstreams, _⟩ i stream hstream
    rw [hstreams] at hstream
    cases hstream
  · intro s label s' _ hI _ hs
    cases label with
    | request streamId =>
        simp only [podLogs, PodLogs.step] at hs
        split at hs
        · cases hs
          exact hI.stop streamId
        · cases hs
    | spawn =>
        simp only [podLogs, PodLogs.step] at hs
        split at hs
        · cases hs
          exact hI.spawn _ _
        · cases hs
    | insert =>
        simp only [podLogs, PodLogs.step] at hs
        split at hs
        · cases hs
          exact hI
        · cases hs
    | stopRequest streamId =>
        simp only [podLogs, PodLogs.step] at hs
        split at hs
        · cases hs
          exact hI.stop streamId
        · cases hs
    | stream i label =>
        obtain ⟨hown, hs⟩ := step_stream hs
        exact hI.advance hown hs
    | drop i =>
        obtain ⟨hown, hs⟩ := step_drop hs
        exact hI.advance hown hs
    | queue e =>
        obtain ⟨queue, he, rfl⟩ := Option.map_eq_some_iff.mp hs
        exact fun i stream hstream => (hI i stream hstream).env he

/-- However the requests for pod logs follow each other and whatever becomes of the
streams: of the streams with one id that were not aborted only one reads, and that one is
managed; each stream runs as it would alone; and as long as no aborted task goes on before
it is dropped, the chunks for an id come in the order of the requests for it. -/
theorem pod_logs_in_order :
    (podLogs.Reachable s →
      (∀ (i j : Nat) stream stream', s.streams[i]? = some stream →
        s.streams[j]? = some stream' → stream.streamId = stream'.streamId →
          stream.live = true → stream'.live = true → i = j) ∧
      (∀ streamId, s.main = .idle → s.held streamId = none → ∀ (i : Nat) stream,
        s.streams[i]? = some stream → stream.streamId = streamId → stream.live = false) ∧
      ∀ (i : Nat) stream, s.streams[i]? = some stream →
        (K8sLogs.machine stream.streamId).Reachable ⟨s.queue, stream.source, stream.pump⟩) ∧
    (podLogs.Reach Prompt s → ∀ streamId, (senders s.sent streamId).Pairwise (· ≤ ·)) := by
  refine ⟨fun hr => ?_, ordered⟩
  have h := managed hr
  refine ⟨?_, ?_, allRun hr⟩
  · intro i j stream stream' hi hj hid hlive hlive'
    have hm := h.reads i stream hi hlive
    have hm' := h.reads j stream' hj hlive'
    rw [← hid] at hm'
    exact Nat.le_antisymm ((h.newest _ _ hm').2 i (h.newest _ _ hm).1)
      ((h.newest _ _ hm).2 j (h.newest _ _ hm').1)
  · intro streamId hidle hfree i stream hstream hid
    cases hlive : stream.live with
    | false => rfl
    | true =>
        rcases h.reads i stream hstream hlive with hm | hm
        · rw [hid, hfree] at hm
          cases hm
        · rw [hidle] at hm
          cases hm

def quietPods : PodLogs := ⟨.idle, fun _ => none, [], ⟨4, [], 0, false⟩, []⟩

theorem quietPods_init : podLogs.init quietPods := ⟨rfl, rfl, rfl, rfl⟩

/-- One stream from its request to its first chunk. -/
def podChunk (handle : Nat) (line : Str) : List PodLogs.Label :=
  [.request "p".toList, .spawn, .insert, .stream handle (.connect (.ok ())),
    .stream handle (.opened (.ok ())), .stream handle (.write (.line line)),
    .stream handle .next, .stream handle .tick]

/-- The pod's logs are asked for again while they are being followed. -/
theorem pod_logs_in_order_again : ∃ s, podLogs.Reach Prompt s ∧
    s.sent.map Prod.snd = [.k8sLogsChunk "p".toList ["old".toList],
      .k8sLogsChunk "p".toList ["new".toList]] ∧
    (senders s.sent "p".toList).Pairwise (· ≤ ·) ∧ senders s.sent "p".toList ≠ [] ∧
    ∀ stream, s.streams[0]? = some stream → stream.streamId = "p".toList →
      stream.live = false := by
  have hrun : (podLogs.runWithin Prompt quietPods
      (podChunk 0 "old".toList ++ podChunk 1 "new".toList ++ [PodLogs.Label.drop 0])).map
      (fun s => (s.sent, s.streams[1]?)) =
        some ([(0, .k8sLogsChunk "p".toList ["old".toList]),
          (1, .k8sLogsChunk "p".toList ["new".toList])],
          some ⟨"p".toList, ⟨[.line "new".toList], 1, false⟩, .streaming [], false⟩) := by
    rfl
  obtain ⟨s, hs, hview⟩ := Option.map_eq_some_iff.mp hrun
  obtain ⟨hsent, hnew⟩ := Prod.mk.inj hview
  have hr := Machine.Reach.runWithin (.init quietPods_init) hs
  obtain ⟨halways, hordered⟩ := pod_logs_in_order (s := s)
  refine ⟨s, hr, by rw [hsent]; rfl, hordered hr _, by rw [hsent]; decide, ?_⟩
  intro stream hold hid
  cases hlive : stream.live with
  | false => rfl
  | true => cases (halways hr.reachable).1 0 1 stream _ hold hnew hid hlive rfl

end ShellfleetAgent.Agent.K8sLogStreams
