import ShellfleetAgent.Agent.Relay
import ShellfleetAgent.Lib.Lists

/-!
# What the relay passes on

To the gate: a connection carries the frames of one request, from its start to its
close. A session is in the map from the start on, and the close takes it out, so that
nothing follows; everything the session sends goes through one channel to one writer.

From the gate: the reader goes on after a frame that the queue has refused, and what
is accepted later leaves a gap, unless the queue goes on refusing.
-/

namespace ShellfleetAgent.Agent.Relay

open ShellfleetAgent.Lib ShellfleetAgent.Privileged

variable {x : RelayCodec} {s s' : State} {i : Label}

/-! ## What a step can be -/

/-- `main` answers a message with an error, and nothing else comes of it. -/
def Refuses (x : RelayCodec) (s : State) (message : ClientMessage) : Prop :=
  innerMatches x message = false ∨
    message.start = true ∧ s.trustedSessions message.requestId ≠ none ∨
    message.start = false ∧ s.trustedSessions message.requestId = none

inductive Move (x : RelayCodec) (s : State) : Label → State → Prop
  | refused {message : ClientMessage} (error : String) (hrefuses : Refuses x s message) :
      Move x s (.receive message) (s.fail x message.requestId error)
  | sendFailed {message : ClientMessage} {n : Nat} {c : Connection} {error : String}
      (hstart : message.start = false)
      (hmap : s.trustedSessions message.requestId = some n) (hconn : s.connections[n]? = some c)
      (hsend : c.send x message.requestId message.payload = .error error) :
      Move x s (.receive message)
        ((s.fail x message.requestId error).closeIf message.close message.requestId n)
  | relayed {message : ClientMessage} {n : Nat} {c c' : Connection}
      (hmatches : innerMatches x message = true) (hstart : message.start = false)
      (hmap : s.trustedSessions message.requestId = some n) (hconn : s.connections[n]? = some c)
      (hsend : c.send x message.requestId message.payload = .ok c') :
      Move x s (.receive message)
        ({ s with connections := s.connections.set n c' }.closeIf message.close
          message.requestId n)
  | connecting {message : ClientMessage} (hmatches : innerMatches x message = true)
      (hstart : message.start = true) : Move x s (.receive message)
        { s with main := .connecting message.requestId message.payload }
  | connectFailed {requestId : String} {payload : Bytes} {e : String} (error : String)
      (hmain : s.main = .connecting requestId payload) : Move x s (.connected (.error e))
        ({ s with main := .idle }.fail x requestId error)
  | opened {requestId : String} {payload : Bytes} {c : Connection}
      (hmain : s.main = .connecting requestId payload)
      (hsend : (Connection.open requestId).send x requestId payload = .ok c) :
      Move x s (.connected (.ok ()))
        { s with main := .idle, connections := s.connections ++ [c],
                 trustedSessions :=
                   Function.update s.trustedSessions requestId (some s.connections.length),
                 log := s.log ++ [Event.accepted requestId] }
  | firstRefused {requestId : String} {payload : Bytes} (error : String)
      (hmain : s.main = .connecting requestId payload)
      (hsend : (Connection.open requestId).send x requestId payload = .error error) :
      Move x s (.connected (.ok ()))
        ({ s with main := .idle,
                  connections := s.connections ++
                    [{ Connection.open requestId with session := false }] }.fail x requestId error)
  | wrote {n : Nat} {ok : Bool} {c : Connection} {sent : Sent} {channel : List Sent}
      (hconn : s.connections[n]? = some c) (hwriting : c.writing = true)
      (hchannel : c.channel = sent :: channel) : Move x s (.write n ok)
        { s with connections :=
            s.connections.set n { c with channel, written := c.written ++ [sent] } }
  | writerEnded {n : Nat} {ok : Bool} {c : Connection} (channel : List Sent)
      (hconn : s.connections[n]? = some c) : Move x s (.write n ok)
        { s with connections := s.connections.set n { c with channel, writing := false } }
  | forwarded {n : Nat} {c : Connection} (payload : Bytes)
      (hconn : s.connections[n]? = some c) (hreading : c.reading = true) :
      Move x s (.read n (.ok payload)) (s.read x n c (.ok payload))
  | readFailed {n : Nat} {c : Connection} (error : String)
      (hconn : s.connections[n]? = some c) (hreading : c.reading = true) :
      Move x s (.read n (.error error)) (s.read x n c (.error error))
  | queue {e : QueueEnv} {queue : Outgoing} (h : e.run s.queue = some queue) :
      Move x s (.queue e) { s with queue }

theorem receive_move {message : ClientMessage} (h : s.receive x message = some s') :
    Move x s (.receive message) s' := by
  unfold State.receive at h
  cases hmatches : innerMatches x message with
  | false =>
      simp only [hmatches, Bool.not_false, if_true] at h
      cases h
      exact .refused _ (.inl hmatches)
  | true =>
      simp only [hmatches, Bool.not_true, Bool.false_eq_true, if_false] at h
      cases hstart : message.start with
      | true =>
          simp only [hstart, if_true] at h
          cases hmap : s.trustedSessions message.requestId with
          | some n =>
              rw [hmap] at h
              cases h
              refine .refused _ (.inr (.inl ⟨hstart, ?_⟩))
              rw [hmap]
              exact nofun
          | none =>
              rw [hmap] at h
              cases h
              exact .connecting hmatches hstart
      | false =>
          simp only [hstart, Bool.false_eq_true, if_false] at h
          cases hmap : s.trustedSessions message.requestId with
          | none =>
              rw [hmap] at h
              cases h
              exact .refused _ (.inr (.inr ⟨hstart, hmap⟩))
          | some n =>
              rw [hmap] at h
              obtain ⟨c, hconn, h⟩ := Option.bind_eq_some_iff.mp h
              cases hsend : c.send x message.requestId message.payload with
              | ok c' =>
                  simp only [hsend] at h
                  cases h
                  exact .relayed hmatches hstart hmap hconn hsend
              | error error =>
                  simp only [hsend] at h
                  cases h
                  exact .sendFailed hstart hmap hconn hsend

theorem write_move {n : Nat} {ok : Bool} {c : Connection} (hconn : s.connections[n]? = some c)
    (hwriting : c.writing = true) (h : s.write x n ok c = some s') :
    Move x s (.write n ok) s' := by
  unfold State.write at h
  split at h
  · next sent channel hchannel =>
      by_cases hok : ok ∧ Framable x.toCodec sent.payload
      · simp only [if_pos hok] at h
        cases h
        exact .wrote hconn hwriting hchannel
      · simp only [if_neg hok] at h
        cases h
        exact .writerEnded channel hconn
  · next hchannel =>
      split at h
      · cases h
      · cases h
        exact .writerEnded c.channel hconn

theorem step_move (h : s.step x i = some s') : Move x s i s' := by
  cases i with
  | receive message =>
      simp only [State.step] at h
      split at h
      · exact receive_move h
      · cases h
  | connected result =>
      simp only [State.step] at h
      split at h
      · cases h
      · next requestId payload hmain =>
          cases h
          cases result with
          | error e => exact .connectFailed _ hmain
          | ok _ =>
              simp only [State.connected]
              split
              · next c hsend => exact .opened hmain hsend
              · next error hsend => exact .firstRefused error hmain hsend
  | write n ok =>
      obtain ⟨c, hconn, h⟩ := Option.bind_eq_some_iff.mp h
      split at h
      · next hwriting => exact write_move hconn hwriting h
      · cases h
  | read n result =>
      obtain ⟨c, hconn, h⟩ := Option.bind_eq_some_iff.mp h
      split at h
      · next hreading =>
          cases h
          cases result with
          | ok payload => exact .forwarded payload hconn hreading
          | error error => exact .readFailed error hconn hreading
      · cases h
  | queue e =>
      obtain ⟨queue, hqueue, rfl⟩ := Option.map_eq_some_iff.mp h
      exact .queue hqueue

/-- `RelaySession::send` puts the payload into the channel, if anything. -/
theorem send_ok {c c' : Connection} {envelope : String} {payload : Bytes}
    (h : c.send x envelope payload = .ok c') :
    c.writing = true ∧ c' = { c with channel := c.channel ++ [⟨envelope, payload⟩] } := by
  unfold Connection.send at h
  split at h
  · cases h
  · split at h
    · next hwriting =>
        cases h
        exact ⟨hwriting, rfl⟩
    · cases h

/-! ## To the gate -/

/-- What may come between the start of `requestId` and its close. -/
def Middle (requestId : String) : TrustedClientFrame → Prop
  | .approve signedManifest _ _ => signedManifest.manifest.requestId = requestId
  | .ciphertext _ _ | .resize _ _ => True
  | .start _ _ _ | .close => False

/-- A start and what follows it, short of a close. -/
def Opened (requestId : String) (frames : List TrustedClientFrame) : Prop :=
  ∃ operation key middle, frames = .start requestId operation key :: middle ∧
    ∀ f ∈ middle, Middle requestId f

/-- All that may be said on a connection for `requestId`. -/
def Word (requestId : String) (frames : List TrustedClientFrame) : Prop :=
  ∃ opened, Opened requestId opened ∧
    (frames = opened ∨ frames = opened ++ [TrustedClientFrame.close])

/-- The payloads are these frames, all in envelopes of `requestId`. -/
structure Decodes (x : RelayCodec) (requestId : String) (sents : List Sent)
    (frames : List TrustedClientFrame) : Prop where
  frames : sents.map (fun sent => x.decodeClient sent.payload) = frames.map .ok
  envelopes : ∀ sent ∈ sents, sent.envelope = requestId

theorem Decodes.concat {requestId : String} {sents : List Sent} {frames : List TrustedClientFrame}
    {payload : Bytes} {frame : TrustedClientFrame} (h : Decodes x requestId sents frames)
    (hframe : x.decodeClient payload = .ok frame) :
    Decodes x requestId (sents ++ [⟨requestId, payload⟩]) (frames ++ [frame]) := by
  refine ⟨?_, fun sent hsent => ?_⟩
  · rw [List.map_append, List.map_append, h.frames, List.map_singleton, hframe]
    rfl
  · rcases List.mem_append.mp hsent with hsent | hsent
    · exact h.envelopes sent hsent
    · rw [List.mem_singleton.mp hsent]

theorem Opened.concat {requestId : String} {frames : List TrustedClientFrame}
    {frame : TrustedClientFrame} (h : Opened requestId frames) (hframe : Middle requestId frame) :
    Opened requestId (frames ++ [frame]) := by
  obtain ⟨operation, key, middle, rfl, hmiddle⟩ := h
  refine ⟨operation, key, middle ++ [frame], rfl, fun f hf => ?_⟩
  rcases List.mem_append.mp hf with hf | hf
  · exact hmiddle f hf
  · rw [List.mem_singleton.mp hf]
    exact hframe

/-- What an envelope that matches may carry on a session that is open. -/
theorem innerMatches_cases {message : ClientMessage} (h : innerMatches x message = true) :
    (message.start = true ∧ ∃ operation key,
      x.decodeClient message.payload = .ok (.start message.requestId operation key)) ∨
    (message.start = false ∧ message.close = true ∧
      x.decodeClient message.payload = .ok .close) ∨
    message.start = false ∧ message.close = false ∧ ∃ frame,
      x.decodeClient message.payload = .ok frame ∧ Middle message.requestId frame := by
  unfold innerMatches at h
  split at h
  · next inner operation key hdecode =>
      simp only [Bool.and_eq_true, beq_iff_eq] at h
      obtain ⟨⟨hstart, _⟩, rfl⟩ := h
      exact .inl ⟨hstart, operation, key, hdecode⟩
  · next signed _ _ hdecode =>
      simp only [Bool.and_eq_true, Bool.not_eq_true', beq_iff_eq] at h
      exact .inr (.inr ⟨h.1.1, h.1.2, _, hdecode, h.2⟩)
  · next hdecode =>
      simp only [Bool.and_eq_true, Bool.not_eq_true'] at h
      exact .inr (.inl ⟨h.1, h.2, hdecode⟩)
  · next hdecode =>
      simp only [Bool.and_eq_true, Bool.not_eq_true'] at h
      exact .inr (.inr ⟨h.1, h.2, _, hdecode, trivial⟩)
  · next hdecode =>
      simp only [Bool.and_eq_true, Bool.not_eq_true'] at h
      exact .inr (.inr ⟨h.1, h.2, _, hdecode, trivial⟩)
  · cases h

/-- What has been written is a beginning of what has been sent, which is a word, and an
open one while the session is in the map. -/
def Talks (x : RelayCodec) (c : Connection) (live : Prop) : Prop :=
  ∃ sents frames, c.written <+: sents ∧ (c.writing = true → sents = c.written ++ c.channel) ∧
    Decodes x c.requestId sents frames ∧
    (frames = [] ∨ Word c.requestId frames) ∧ (live → Opened c.requestId frames)

structure TalkInv (x : RelayCodec) (s : State) : Prop where
  held : ∀ r n, s.trustedSessions r = some n → ∃ c, s.connections[n]? = some c ∧ c.requestId = r
  talks : ∀ n c, s.connections[n]? = some c →
    Talks x c (s.trustedSessions c.requestId = some n)
  starting : ∀ r payload, s.main = .connecting r payload → ∃ operation key,
    x.decodeClient payload = .ok (.start r operation key)

theorem Talks.mono {c : Connection} {live live' : Prop} (h : Talks x c live)
    (hlive : live' → live) : Talks x c live' := by
  obtain ⟨sents, frames, hwritten, hwriting, hdecodes, hword, hopened⟩ := h
  exact ⟨sents, frames, hwritten, hwriting, hdecodes, hword, fun hl => hopened (hlive hl)⟩

/-- The connections may be changed where the map and `main` stay as they are. -/
theorem TalkInv.set {n : Nat} {c : Connection} (h : TalkInv x s) (c' : Connection)
    (hconn : s.connections[n]? = some c) (hid : c'.requestId = c.requestId)
    (htalks : Talks x c' (s.trustedSessions c.requestId = some n)) :
    TalkInv x { s with connections := s.connections.set n c' } := by
  have hn : n < s.connections.length := (List.getElem?_eq_some_iff.mp hconn).1
  refine ⟨fun r m hmap => ?_, fun m d hm => ?_, h.starting⟩
  · obtain ⟨d, hd, hr⟩ := h.held r m hmap
    by_cases hmn : n = m
    · subst hmn
      rw [hconn] at hd
      cases hd
      exact ⟨c', List.getElem?_set_self hn, hid.trans hr⟩
    · exact ⟨d, (List.getElem?_set_ne hmn).trans hd, hr⟩
  · rcases set_cases hm with ⟨rfl, rfl⟩ | ⟨_, hm⟩
    · rw [hid]
      exact htalks
    · exact h.talks m d hm

/-- The session is taken out of the map. -/
theorem TalkInv.close {r : String} {n : Nat} {c c' : Connection} (h : TalkInv x s)
    (hmap : s.trustedSessions r = some n) (hconn : s.connections[n]? = some c)
    (hid : c'.requestId = c.requestId) (htalks : Talks x c' False) :
    TalkInv x { s with trustedSessions := Function.update s.trustedSessions r none,
                       connections := s.connections.set n c' } := by
  have hn : n < s.connections.length := (List.getElem?_eq_some_iff.mp hconn).1
  have hr : c.requestId = r := by
    obtain ⟨d, hd, hr⟩ := h.held r n hmap
    rw [hconn] at hd
    cases hd
    exact hr
  have hother : ∀ r' m, Function.update s.trustedSessions r none r' = some m →
      s.trustedSessions r' = some m := by
    intro r' m hm
    by_cases hr' : r' = r
    · rw [hr', Function.update_self] at hm
      cases hm
    · rw [Function.update_of_ne hr'] at hm
      exact hm
  refine ⟨fun r' m hm => ?_, fun m d hm => ?_, h.starting⟩
  · obtain ⟨d, hd, hr'⟩ := h.held r' m (hother r' m hm)
    by_cases hmn : n = m
    · subst hmn
      rw [hconn] at hd
      cases hd
      exact ⟨c', List.getElem?_set_self hn, hid.trans hr'⟩
    · exact ⟨d, (List.getElem?_set_ne hmn).trans hd, hr'⟩
  · rcases set_cases hm with ⟨rfl, rfl⟩ | ⟨_, hm⟩
    · refine htalks.mono fun hlive => ?_
      rw [hid, hr] at hlive
      simp only [Function.update_self] at hlive
      cases hlive
    · exact (h.talks m d hm).mono fun hlive => hother _ _ hlive

theorem closeIf_eq {close : Bool} {r : String} {n : Nat} {c : Connection}
    (hconn : s.connections[n]? = some c) : s.closeIf close r n =
      if close then
        { s with trustedSessions := Function.update s.trustedSessions r none,
                 connections := s.connections.set n { c with session := false } }
      else s := by
  unfold State.closeIf
  cases close with
  | false => rfl
  | true =>
      have hmodify : s.connections.modify n (fun c => { c with session := false }) =
          s.connections.set n { c with session := false } := by
        rw [List.modify_eq_set_getElem?, hconn, Option.map_eq_map, Option.map_some,
          Option.getD_some]
      simp only [if_true, hmodify]

/-- The queue and the log have no part in what is said to the gate. -/
theorem TalkInv.of_eq {t : State} (h : TalkInv x s) (hmap : t.trustedSessions = s.trustedSessions)
    (hconns : t.connections = s.connections) (hmain : t.main = s.main ∨ t.main = .idle) :
    TalkInv x t := by
  refine ⟨?_, ?_, fun r payload hr => ?_⟩
  · rw [hmap, hconns]
    exact h.held
  · rw [hmap, hconns]
    exact h.talks
  · rcases hmain with hmain | hmain
    · exact h.starting r payload (hmain ▸ hr)
    · rw [hmain] at hr
      cases hr

theorem TalkInv.relayed {message : ClientMessage} {n : Nat} {c c' : Connection} (h : TalkInv x s)
    (hmatches : innerMatches x message = true) (hstart : message.start = false)
    (hmap : s.trustedSessions message.requestId = some n) (hconn : s.connections[n]? = some c)
    (hsend : c.send x message.requestId message.payload = .ok c') :
    TalkInv x ({ s with connections := s.connections.set n c' }.closeIf message.close
      message.requestId n) := by
  obtain ⟨hwriting, rfl⟩ := send_ok hsend
  have hr : c.requestId = message.requestId := by
    obtain ⟨d, hd, hr⟩ := h.held _ n hmap
    rw [hconn] at hd
    cases hd
    exact hr
  obtain ⟨sents, frames, hwritten, hall, hdecodes, _, hopened⟩ := h.talks n c hconn
  have hopened := hopened (by rw [hr]; exact hmap)
  have hwritten' : c.written <+: sents ++ [⟨message.requestId, message.payload⟩] :=
    hwritten.trans (List.prefix_append _ _)
  have hall' : sents ++ [⟨message.requestId, message.payload⟩] =
      c.written ++ (c.channel ++ [⟨message.requestId, message.payload⟩]) := by
    rw [hall hwriting, List.append_assoc]
  have hn : n < s.connections.length := (List.getElem?_eq_some_iff.mp hconn).1
  rw [closeIf_eq (List.getElem?_set_self hn), List.set_set]
  rcases innerMatches_cases hmatches with ⟨hs, _⟩ | ⟨_, hclose, hdecode⟩ |
    ⟨_, hclose, frame, hdecode, hm⟩
  · rw [hstart] at hs
    cases hs
  · rw [hclose, if_pos rfl]
    refine h.close hmap hconn rfl
      ⟨_, frames ++ [TrustedClientFrame.close], hwritten', fun _ => hall', ?_, ?_, nofun⟩
    · rw [hr] at hdecodes ⊢
      exact hdecodes.concat hdecode
    · exact .inr ⟨frames, hopened, .inr rfl⟩
  · rw [hclose, if_neg Bool.false_ne_true]
    have hopened' : Opened c.requestId (frames ++ [frame]) := hopened.concat (hr ▸ hm)
    refine h.set _ hconn rfl ⟨_, frames ++ [frame], hwritten', fun _ => hall', ?_, ?_, fun _ => ?_⟩
    · rw [hr] at hdecodes ⊢
      exact hdecodes.concat hdecode
    · exact .inr ⟨_, hopened', .inl rfl⟩
    · exact hopened'

/-- A new connection, with nothing sent yet or with the start. -/
theorem TalkInv.append {sessions : String → Option Nat} {main : Main}
    (h : TalkInv x s) (c : Connection) (hmain : main = .idle)
    (hsessions : ∀ r n, sessions r = some n →
      s.trustedSessions r = some n ∨ n = s.connections.length ∧ r = c.requestId)
    (hsame : ∀ r n, n < s.connections.length → sessions r = some n → s.trustedSessions r = some n)
    (htalks : Talks x c (sessions c.requestId = some s.connections.length)) :
    TalkInv x
      { s with connections := s.connections ++ [c], trustedSessions := sessions, main } := by
  refine ⟨fun r n hmap => ?_, fun n d hn => ?_, fun r payload hr => ?_⟩
  · rcases hsessions r n hmap with hmap | ⟨rfl, hr⟩
    · obtain ⟨d, hd, hr⟩ := h.held r n hmap
      exact ⟨d, getElem?_concat_some hd, hr⟩
    · exact ⟨c, List.getElem?_concat_length, hr.symm⟩
  · rcases concat_cases hn with ⟨rfl, rfl⟩ | ⟨hlt, hn⟩
    · exact htalks
    · exact (h.talks n d hn).mono fun hlive => hsame _ n hlt hlive
  · rw [hmain] at hr
    cases hr

theorem TalkInv.move (h : TalkInv x s) (hm : Move x s i s') : TalkInv x s' := by
  cases hm with
  | refused => exact h.of_eq rfl rfl (.inl rfl)
  | @sendFailed message n c error hstart hmap hconn hsend =>
      have hfail : TalkInv x (s.fail x message.requestId error) := h.of_eq rfl rfl (.inl rfl)
      have hconn' : (s.fail x message.requestId error).connections[n]? = some c := hconn
      rw [closeIf_eq hconn']
      split
      · exact hfail.close hmap hconn' rfl ((h.talks n c hconn).mono nofun)
      · exact hfail
  | relayed hmatches hstart hmap hconn hsend => exact h.relayed hmatches hstart hmap hconn hsend
  | connecting hmatches hstart =>
      refine ⟨h.held, h.talks, fun r payload hmain => ?_⟩
      cases hmain
      rcases innerMatches_cases hmatches with ⟨_, hdecode⟩ | ⟨hs, _⟩ | ⟨hs, _⟩
      · exact hdecode
      · rw [hstart] at hs
        cases hs
      · rw [hstart] at hs
        cases hs
  | connectFailed => exact h.of_eq rfl rfl (.inr rfl)
  | @opened r payload c hmain hsend =>
      obtain ⟨_, rfl⟩ := send_ok hsend
      obtain ⟨operation, key, hdecode⟩ := h.starting r payload hmain
      have hopened : Opened r [.start r operation key] := ⟨operation, key, [], rfl, nofun⟩
      refine (h.append _ rfl (fun r' n hmap => ?_) (fun r' n hlt hmap => ?_) ?_).of_eq rfl rfl
        (.inr rfl)
      · by_cases hr : r' = r
        · rw [hr, Function.update_self] at hmap
          exact .inr ⟨(Option.some.inj hmap).symm, hr⟩
        · rw [Function.update_of_ne hr] at hmap
          exact .inl hmap
      · by_cases hr : r' = r
        · rw [hr, Function.update_self] at hmap
          have heq := Option.some.inj hmap
          omega
        · rw [Function.update_of_ne hr] at hmap
          exact hmap
      · refine ⟨[⟨r, payload⟩], [.start r operation key], List.nil_prefix, fun _ => rfl, ?_, ?_,
          fun _ => hopened⟩
        · have hnil : Decodes x r [] [] := ⟨rfl, nofun⟩
          exact hnil.concat hdecode
        · exact .inr ⟨_, hopened, .inl rfl⟩
  | @firstRefused r payload error hmain hsend =>
      have happend := h.append { Connection.open r with session := false } rfl
        (fun r' n hmap => .inl hmap) (fun r' n _ hmap => hmap) ?_
      · exact happend.of_eq rfl rfl (.inr rfl)
      · refine ⟨[], [], List.nil_prefix, fun _ => rfl, ⟨rfl, nofun⟩, .inl rfl, fun hlive => ?_⟩
        obtain ⟨d, hd, _⟩ := h.held _ _ hlive
        rw [List.getElem?_eq_none (Nat.le_refl _)] at hd
        cases hd
  | @wrote n ok c sent channel hconn hwriting hchannel =>
      obtain ⟨sents, frames, hwritten, hall, hrest⟩ := h.talks n c hconn
      have hsents : sents = (c.written ++ [sent]) ++ channel := by
        rw [hall hwriting, hchannel, List.append_assoc]
        rfl
      refine h.set _ hconn rfl ⟨sents, frames, ?_, fun _ => hsents, hrest⟩
      rw [hsents]
      exact List.prefix_append _ _
  | @writerEnded n ok c channel hconn =>
      obtain ⟨sents, frames, hwritten, _, hrest⟩ := h.talks n c hconn
      exact h.set _ hconn rfl ⟨sents, frames, hwritten, nofun, hrest⟩
  | @forwarded n c payload hconn hreading =>
      have hset := h.set
        { c with reading := !State.completes x payload, read := c.read ++ [payload],
                 forwarded := if s.queue.refusal.isNone then c.forwarded ++ [payload]
                   else c.forwarded } hconn rfl (h.talks n c hconn)
      exact hset.of_eq rfl rfl (.inl rfl)
  | @readFailed n c error hconn hreading =>
      have hset := h.set { c with reading := false } hconn rfl (h.talks n c hconn)
      exact hset.of_eq rfl rfl (.inl rfl)
  | queue => exact h.of_eq rfl rfl (.inl rfl)

theorem talkInv {ok : State → Label → Prop} (hr : (machine x).Reach ok s) : TalkInv x s := by
  refine hr.invariant ?_ fun s i s' _ hI _ hs => hI.move (step_move hs)
  intro s ⟨hsessions, hconns, hmain, _⟩
  refine ⟨fun r n hmap => ?_, fun n c hn => ?_, fun r payload hr => ?_⟩
  · rw [hsessions] at hmap
    cases hmap
  · rw [hconns] at hn
    cases hn
  · rw [hmain] at hr
    cases hr

/-- What is written to a connection is a beginning of a start, what may follow it, and a
close; all of it was addressed to the request that the connection was opened for. -/
theorem connection_language (hr : (machine x).Reachable s) {n : Nat} {c : Connection}
    (hconn : s.connections[n]? = some c) :
    (∃ frames word, c.written.map (fun sent => x.decodeClient sent.payload) = frames.map .ok ∧
      frames <+: word ∧ Word c.requestId word) ∧
    ∀ sent ∈ c.written, sent.envelope = c.requestId := by
  obtain ⟨sents, frames, hwritten, _, hdecodes, hword, _⟩ := (talkInv hr).talks n c hconn
  obtain ⟨rest, rfl⟩ := hwritten
  refine ⟨?_, fun sent hsent => hdecodes.envelopes sent (List.mem_append_left _ hsent)⟩
  have hframes := hdecodes.frames
  rw [List.map_append] at hframes
  obtain ⟨said, unsaid, rfl, hsaid, _⟩ := List.append_eq_map_iff.mp hframes
  refine ⟨said, ?_⟩
  rcases hword with hnone | hword
  · obtain ⟨rfl, _⟩ := List.append_eq_nil_iff.mp hnone
    -- Nothing has been said: any word will do.
    let start := TrustedClientFrame.start c.requestId (.rootCommand "" [] 0) (.replicate 32 0)
    exact ⟨[start], hsaid.symm, List.nil_prefix,
      ⟨[start], ⟨_, _, [], rfl, nofun⟩, .inl rfl⟩⟩
  · exact ⟨said ++ unsaid, hsaid.symm, List.prefix_append _ _, hword⟩

/-! One request, under a codec of single bytes. -/

def byteRelay : RelayCodec where
  decodeClient
    | [1] => .ok (.start "r" (.rootCommand "id" [] 5) (.replicate 32 0))
    | [2] => .ok (.ciphertext 0 [])
    | [3] => .ok .close
    | _ => .error "no frame"
  encodeHost
    | .closed => .ok [7]
    | .error _ => .ok [8]
    | _ => .ok [9]
  encodePlaintext _ := .ok []
  canonicalBytes _ := .ok []
  maxTrustedFrameBytes := 65536
  trustedProtocolVersion := 1
  decodeHost
    | [7] => .ok .closed
    | [8] => .ok (.error "failed")
    | [] => .error "no frame"
    | data => .ok (.ciphertext 0 data)

def idleRelay (capacity : Nat) : State :=
  ⟨⟨capacity, [], 0, false⟩, fun _ => none, [], .idle, []⟩

theorem idleRelay_init {capacity : Nat} : (machine byteRelay).init (idleRelay capacity) :=
  ⟨rfl, rfl, rfl, rfl⟩

def startR : ClientMessage := ⟨"r", true, false, [1]⟩

def dataR : ClientMessage := ⟨"r", false, false, [2]⟩

def closeR : ClientMessage := ⟨"r", false, true, [3]⟩

def openR : List Label := [.receive startR, .connected (.ok ())]

theorem connection_language_r : ∃ c : Connection,
    c.written = [⟨"r", [1]⟩, ⟨"r", [2]⟩, ⟨"r", [3]⟩] ∧
    (∃ frames word, c.written.map (fun sent => byteRelay.decodeClient sent.payload) =
      frames.map .ok ∧ frames <+: word ∧ Word c.requestId word) ∧
    ∀ sent ∈ c.written, sent.envelope = c.requestId := by
  have hrun : ((machine byteRelay).run (idleRelay 4) (openR ++ [Label.write 0 true, .receive dataR,
      .receive closeR, .write 0 true, .write 0 true])).bind
        (fun s => s.connections[0]?.map fun c => c.written) =
      some [⟨"r", [1]⟩, ⟨"r", [2]⟩, ⟨"r", [3]⟩] := by
    decide
  obtain ⟨s, hs, hseen⟩ := Option.bind_eq_some_iff.mp hrun
  obtain ⟨c, hconn, hwritten⟩ := Option.map_eq_some_iff.mp hseen
  exact ⟨c, hwritten, connection_language (Machine.Reach.run (.init idleRelay_init) hs) hconn⟩

/-! ## From the gate -/

/-- The reading side of a connection is as it was. -/
structure SameReader (c d : Connection) : Prop where
  requestId : d.requestId = c.requestId
  reading : d.reading = c.reading
  read : d.read = c.read
  forwarded : d.forwarded = c.forwarded

theorem SameReader.refl (c : Connection) : SameReader c c := ⟨rfl, rfl, rfl, rfl⟩

/-- Every connection there is was there before. -/
def Kept (connections connections' : List Connection) : Prop :=
  ∀ (m : Nat) d, connections'[m]? = some d → ∃ c, connections[m]? = some c ∧ SameReader c d

theorem Kept.refl (connections : List Connection) : Kept connections connections :=
  fun _ d hd => ⟨d, hd, .refl d⟩

theorem Kept.set {connections : List Connection} {n : Nat} {c d : Connection}
    (hconn : connections[n]? = some c) (h : SameReader c d) :
    Kept connections (connections.set n d) := by
  intro m e he
  rcases set_cases he with ⟨rfl, rfl⟩ | ⟨_, he⟩
  · exact ⟨c, hconn, h⟩
  · exact ⟨e, he, .refl e⟩

theorem kept_closeIf (s : State) (close : Bool) (r : String) (n : Nat) :
    Kept s.connections (s.closeIf close r n).connections := by
  cases close with
  | false => exact .refl _
  | true =>
      intro m d hd
      replace hd : (s.connections.modify n fun c => { c with session := false })[m]? = some d := hd
      rw [List.getElem?_modify] at hd
      obtain ⟨c, hc, rfl⟩ := Option.map_eq_some_iff.mp hd
      refine ⟨c, hc, ?_⟩
      split
      · exact ⟨rfl, rfl, rfl, rfl⟩
      · exact .refl c

theorem Kept.trans {l₁ l₂ l₃ : List Connection} (h : Kept l₁ l₂) (h' : Kept l₂ l₃) :
    Kept l₁ l₃ := by
  intro m e he
  obtain ⟨d, hd, hde⟩ := h' m e he
  obtain ⟨c, hc, hcd⟩ := h m d hd
  exact ⟨c, hc, hde.requestId.trans hcd.requestId, hde.reading.trans hcd.reading,
    hde.read.trans hcd.read, hde.forwarded.trans hcd.forwarded⟩

/-- The reader that `connect` spawns for `r`. -/
structure Fresh (r : String) (c : Connection) : Prop where
  requestId : c.requestId = r
  read : c.read = []
  forwarded : c.forwarded = []

/-- A step that is not a reader's leaves the readers as they are, or adds one. -/
theorem Move.kept (hm : Move x s i s') (hread : ∀ n r, i ≠ .read n r) :
    Kept s.connections s'.connections ∨
      ∃ r payload c, s.main = .connecting r payload ∧ Fresh r c ∧
        s'.connections = s.connections ++ [c] := by
  cases hm with
  | refused | connecting | connectFailed | queue => exact .inl (.refl _)
  | @sendFailed message n c error hstart hmap hconn hsend =>
      have hkept : Kept s.connections (s.fail x message.requestId error).connections := .refl _
      exact .inl (hkept.trans (kept_closeIf _ _ _ _))
  | @relayed message n c c' hmatches hstart hmap hconn hsend =>
      obtain ⟨_, rfl⟩ := send_ok hsend
      have hkept := Kept.set hconn (d := { c with channel := c.channel ++
        [⟨message.requestId, message.payload⟩] }) ⟨rfl, rfl, rfl, rfl⟩
      exact .inl (hkept.trans (kept_closeIf _ _ _ _))
  | opened hmain hsend =>
      obtain ⟨_, rfl⟩ := send_ok hsend
      exact .inr ⟨_, _, _, hmain, ⟨rfl, rfl, rfl⟩, rfl⟩
  | firstRefused error hmain hsend => exact .inr ⟨_, _, _, hmain, ⟨rfl, rfl, rfl⟩, rfl⟩
  | wrote hconn => exact .inl (.set hconn ⟨rfl, rfl, rfl, rfl⟩)
  | writerEnded channel hconn => exact .inl (.set hconn ⟨rfl, rfl, rfl, rfl⟩)
  | forwarded | readFailed => exact absurd rfl (hread _ _)

theorem Move.grows (hm : Move x s i s') : s.queue.Grows s'.queue := by
  cases hm with
  | @sendFailed message =>
      cases hclose : message.close <;> exact Outgoing.grows_send _ _
  | @relayed message =>
      cases hclose : message.close <;> exact .refl _
  | refused | connectFailed | firstRefused | forwarded | readFailed =>
      exact Outgoing.grows_send _ _
  | queue h => exact QueueEnv.grows h
  | _ => exact .refl _

/-- The message that passes a frame of the gate on. -/
def hostMessage (x : RelayCodec) (r : String) (payload : Bytes) : Message :=
  .trustedOperationHost r (State.completes x payload) payload

/-- A frame that is read after one was refused finds the queue full, or closed, too. -/
def Gapless (s : State) : Label → Bool
  | .read n (.ok _) =>
      match s.connections[n]? with
      | some c => c.forwarded.length = c.read.length || s.queue.refusal.isSome
      | none => true
  | _ => true

/-- The frames accepted are the first of those read, and they are in the queue. -/
structure Forwards (x : RelayCodec) (queue : Outgoing) (c : Connection) : Prop where
  first : c.forwarded <+: c.read
  queued : (c.forwarded.map (hostMessage x c.requestId)).Sublist queue.accepted

theorem Forwards.same {q q' : Outgoing} {c d : Connection} (h : Forwards x q c)
    (hsame : SameReader c d) (hgrows : q.Grows q') : Forwards x q' d := by
  refine ⟨?_, ?_⟩
  · rw [hsame.forwarded, hsame.read]
    exact h.first
  · rw [hsame.forwarded, hsame.requestId]
    exact h.queued.trans hgrows.accepted.sublist

theorem Forwards.read {c : Connection} {payload : Bytes} {reading : Bool} {q : Outgoing}
    (h : Forwards x q c) (hok : c.forwarded.length = c.read.length ∨ q.refusal.isSome) :
    Forwards x (q.send (hostMessage x c.requestId payload)).1
      { c with reading, read := c.read ++ [payload],
               forwarded := if q.refusal.isNone then c.forwarded ++ [payload]
                 else c.forwarded } := by
  cases hqueue : q.refusal with
  | some e =>
      rw [Outgoing.send_refused hqueue]
      exact ⟨h.first.trans (List.prefix_append _ _), h.queued⟩
  | none =>
      rw [hqueue] at hok
      have hall := h.first.eq_of_length (hok.resolve_right nofun)
      rw [Outgoing.send_accepted hqueue]
      refine ⟨?_, ?_⟩
      · show c.forwarded ++ [payload] <+: c.read ++ [payload]
        rw [hall]
      · show ((c.forwarded ++ [payload]).map _).Sublist _
        rw [List.map_append]
        exact h.queued.append (List.Sublist.refl _)

theorem forwards_move (h : ∀ (n : Nat) c, s.connections[n]? = some c → Forwards x s.queue c)
    (hok : Gapless s i = true) (hm : Move x s i s') :
    ∀ (n : Nat) c, s'.connections[n]? = some c → Forwards x s'.queue c := by
  have hgrows := hm.grows
  have hother : (∀ n r, i ≠ .read n r) →
      ∀ (n : Nat) c, s'.connections[n]? = some c → Forwards x s'.queue c := by
    intro hread n c hc
    rcases hm.kept hread with hkept | ⟨r, payload, d, _, hfresh, hconns⟩
    · obtain ⟨d, hd, hsame⟩ := hkept n c hc
      exact (h n d hd).same hsame hgrows
    · rw [hconns] at hc
      rcases concat_cases hc with ⟨rfl, rfl⟩ | ⟨_, hc⟩
      · refine ⟨?_, ?_⟩
        · rw [hfresh.forwarded]
          exact List.nil_prefix
        · rw [hfresh.forwarded]
          exact List.nil_sublist _
      · exact (h n c hc).same (.refl c) hgrows
  cases hm with
  | @forwarded n c payload hconn hreading =>
      simp only [Gapless, hconn, Bool.or_eq_true, decide_eq_true_eq] at hok
      intro m d hd
      rcases set_cases (l := s.connections) hd with ⟨rfl, rfl⟩ | ⟨_, hd⟩
      · exact (h m c hconn).read hok
      · exact (h m d hd).same (.refl d) hgrows
  | @readFailed n c error hconn hreading =>
      intro m d hd
      rcases set_cases (l := s.connections) hd with ⟨rfl, rfl⟩ | ⟨_, hd⟩
      · have hforwards := (h m c hconn).same (.refl c) hgrows
        exact ⟨hforwards.first, hforwards.queued⟩
      · exact (h m d hd).same (.refl d) hgrows
  | _ => exact hother nofun

/-- Where the queue goes on refusing once it has refused a frame of a session, the frames
of the session that it has accepted are the first ones that were read. -/
theorem frames_without_gap (hr : (machine x).Reach (fun s i => Gapless s i = true) s) {n : Nat}
    {c : Connection} (hconn : s.connections[n]? = some c) :
    c.forwarded <+: c.read ∧
      (c.forwarded.map (hostMessage x c.requestId)).Sublist s.queue.accepted := by
  have hforwards : ∀ (n : Nat) c, s.connections[n]? = some c → Forwards x s.queue c := by
    refine hr.invariant (I := fun s => ∀ (n : Nat) c, s.connections[n]? = some c →
      Forwards x s.queue c) ?_ fun s i s' _ hI hok hs => forwards_move hI hok (step_move hs)
    intro s ⟨_, hconns, _⟩ n c hn
    rw [hconns] at hn
    cases hn
  exact ⟨(hforwards n c hconn).first, (hforwards n c hconn).queued⟩

theorem frames_without_gap_r : ∃ (s : State) (c : Connection), s.connections[0]? = some c ∧
    c.read = [[20], [21]] ∧ c.forwarded <+: c.read ∧
    (c.forwarded.map (hostMessage byteRelay c.requestId)).Sublist s.queue.accepted := by
  have hrun : ((machine byteRelay).runWithin (fun s i => Gapless s i = true) (idleRelay 2)
      (openR ++ [Label.read 0 (.ok [20]), .read 0 (.ok [21])])).bind
        (fun s => s.connections[0]?.map fun c => c.read) = some [[20], [21]] := by
    decide
  obtain ⟨s, hs, hseen⟩ := Option.bind_eq_some_iff.mp hrun
  obtain ⟨c, hconn, hread⟩ := Option.map_eq_some_iff.mp hseen
  exact ⟨s, c, hconn, hread,
    frames_without_gap (Machine.Reach.runWithin (.init idleRelay_init) hs) hconn⟩

/-- The queue is full for one frame, and has room for the next. -/
theorem frames_with_gap : ∃ (s : State) (c : Connection), (machine byteRelay).Reachable s ∧
    s.connections[0]? = some c ∧ c.read = [[20], [21], [22]] ∧ c.forwarded = [[20], [22]] ∧
    s.queue.accepted = [hostMessage byteRelay "r" [20], hostMessage byteRelay "r" [22]] := by
  have hrun : ((machine byteRelay).run (idleRelay 1) (openR ++ [Label.read 0 (.ok [20]),
      .read 0 (.ok [21]), .queue .take, .read 0 (.ok [22])])).bind
        (fun s => s.connections[0]?.map fun c => (c.read, c.forwarded, s.queue.accepted)) =
      some ([[20], [21], [22]], [[20], [22]],
        [hostMessage byteRelay "r" [20], hostMessage byteRelay "r" [22]]) := by
    decide
  obtain ⟨s, hs, hseen⟩ := Option.bind_eq_some_iff.mp hrun
  obtain ⟨c, hconn, hseen⟩ := Option.map_eq_some_iff.mp hseen
  obtain ⟨hread, hseen⟩ := Prod.mk.inj hseen
  obtain ⟨hforwarded, haccepted⟩ := Prod.mk.inj hseen
  exact ⟨s, c, Machine.Reach.run (.init idleRelay_init) hs, hconn, hread, hforwarded, haccepted⟩

end ShellfleetAgent.Agent.Relay
