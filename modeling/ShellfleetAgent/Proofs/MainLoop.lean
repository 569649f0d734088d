import ShellfleetAgent.Agent.MainLoop

/-!
# How long a connection lives

The watchdog looks every period, and what it has seen fresh once it sees at most one
period later. So a server that says nothing is noticed within the timeout and a period of
its last text, as late as the loop is; and no connection is given up sooner than that
timeout. The `Ping`s keep one up: each draws a text, so between two texts there is never
more than the heartbeat's period and the time for an answer.
-/

namespace ShellfleetAgent.Agent.MainLoop

open ShellfleetAgent.Lib

variable {s s' : Session} {label : Label} {late reply : Nat}

/-! ## Steps -/

/-- What a step does to the clock, the timers and the logs. -/
inductive Steps (s : Session) : Label → Session → Prop
  | elapse (ms : Nat) : Steps s (.elapse ms) { s with now := s.now + ms }
  | text : Steps s (.read (some (.ok .text)))
      { s with lastRead := s.now, texts := s.texts ++ [s.now] }
  | other {label : Label} {queue : List SessionMessage} {ended : Option Ending}
      (hidle : ∀ secs, ended ≠ some (.idle secs)) : Steps s label { s with queue, ended }
  | beat {queue : List SessionMessage} {heartbeat : Interval}
      (htick : s.heartbeat.tick s.now = some heartbeat) : Steps s .heartbeat
        { s with queue, heartbeat, pings := if s.room then s.pings ++ [s.now] else s.pings }
  | idle {watchdog : Interval} (htick : s.watchdog.tick s.now = some watchdog)
      (hidle : idleTimeout < s.now - s.lastRead) : Steps s .watchdog
        { s with watchdog, ended := some (.idle ((s.now - s.lastRead) / 1000)) }
  | fresh {watchdog : Interval} (htick : s.watchdog.tick s.now = some watchdog)
      (hfresh : s.now - s.lastRead ≤ idleTimeout) :
      Steps s .watchdog { s with watchdog, ended := none }

theorem enqueue_frame (message : SessionMessage) :
    ∃ queue, s.enqueue message = { s with queue } := by
  unfold Session.enqueue
  split
  · exact ⟨_, rfl⟩
  · exact ⟨_, rfl⟩

theorem steps_readFrame {frame : Option (Except Unit WsMessage)} (halive : s.ended = none) :
    Steps s (.read frame) (s.readFrame frame) := by
  unfold Session.readFrame
  split
  · exact .other (by simp)
  · exact .other (by simp)
  · exact .text
  · exact .other (by simp [halive])

theorem steps_of_step (h : s.step label = some s') : s.ended = none ∧ Steps s label s' := by
  unfold Session.step at h
  split at h
  · cases h
  next halive =>
  have hnone : s.ended = none := by simpa using halive
  refine ⟨hnone, ?_⟩
  cases label with
  | elapse ms =>
      cases h
      exact .elapse ms
  | send message =>
      obtain ⟨queue, hqueue⟩ := enqueue_frame (s := s) (.other message)
      rw [Option.some.injEq, hqueue] at h
      subst h
      exact .other (by simp [hnone])
  | read frame =>
      cases h
      exact steps_readFrame hnone
  | write result =>
      simp only [Session.writeNext] at h
      split at h
      · cases h
      · cases h
        refine .other fun secs => ?_
        cases result with
        | written => simp
        | failed => simp
        | notSerialized => simp
  | heartbeat =>
      obtain ⟨heartbeat, htick, rfl⟩ := Option.map_eq_some_iff.mp h
      obtain ⟨queue, hqueue⟩ := enqueue_frame (s := s) .ping
      rw [hqueue]
      exact .beat htick
  | watchdog =>
      obtain ⟨watchdog, htick, rfl⟩ := Option.map_eq_some_iff.mp h
      by_cases hidle : idleTimeout < s.now - s.lastRead
      · rw [if_pos hidle]
        exact .idle htick hidle
      · rw [if_neg hidle]
        exact .fresh htick (Nat.le_of_not_lt hidle)

/-! ## The watchdog -/

/-- The last text is `lastRead`; a watchdog that has not given up is due within a period
of the time it may give up. -/
structure Watched (late : Nat) (s : Session) : Prop where
  period : s.watchdog.period = watchdogPeriod
  last : s.lastRead ∈ s.started :: s.texts
  latest : ∀ t ∈ s.started :: s.texts, t ≤ s.lastRead
  past : s.lastRead ≤ s.now
  due : s.ended = none → s.watchdog.due ≤ s.lastRead + idleTimeout + watchdogPeriod
  bound : s.now ≤ s.lastRead + idleTimeout + watchdogPeriod + late
  idle : ∀ secs, s.ended = some (.idle secs) → s.lastRead + idleTimeout < s.now

theorem watched_start (now : Nat) (queue : List SessionMessage) :
    Watched late (start now queue) where
  period := rfl
  last := List.mem_cons_self ..
  latest t ht := (List.mem_singleton.mp ht).le
  past := Nat.le_refl _
  due _ := by
    show now + watchdogPeriod ≤ now + idleTimeout + watchdogPeriod
    omega
  bound := by
    show now ≤ now + idleTimeout + watchdogPeriod + late
    omega
  idle secs h := by cases h

theorem watched_step (h : Watched late s) (hok : Prompt late s label)
    (hs : s.step label = some s') : Watched late s' := by
  obtain ⟨halive, hsteps⟩ := steps_of_step hs
  have hdue := h.due halive
  have hpast := h.past
  cases hsteps with
  | elapse ms =>
      have hlate : s.now + ms ≤ s.watchdog.due + late := hok
      refine { h with past := ?_, bound := ?_, idle := fun secs hidle => ?_ }
      · show s.lastRead ≤ s.now + ms
        omega
      · show s.now + ms ≤ s.lastRead + idleTimeout + watchdogPeriod + late
        omega
      · rw [show s.ended = some (.idle secs) from hidle] at halive
        cases halive
  | text =>
      refine { h with
        last := ?_, latest := fun t ht => ?_, past := Nat.le_refl _, due := fun _ => ?_,
        bound := ?_, idle := fun secs hidle => ?_ }
      · exact List.mem_cons_of_mem _ (List.mem_append_right _ (List.mem_singleton_self _))
      · rw [← List.cons_append, List.mem_append] at ht
        rcases ht with ht | ht
        · exact (h.latest t ht).trans hpast
        · exact (List.mem_singleton.mp ht).le
      · show s.watchdog.due ≤ s.now + idleTimeout + watchdogPeriod
        omega
      · show s.now ≤ s.now + idleTimeout + watchdogPeriod + late
        omega
      · rw [show s.ended = some (.idle secs) from hidle] at halive
        cases halive
  | other hidle =>
      exact { h with due := fun _ => hdue, idle := fun secs h => absurd h (hidle secs) }
  | beat htick => exact { h with }
  | idle htick hidle =>
      refine { h with
        period := (Interval.tick_period htick).trans h.period
        due := fun hnone => ?_, idle := fun _ _ => ?_ }
      · cases hnone
      · show s.lastRead + idleTimeout < s.now
        omega
  | @fresh watchdog htick hfresh =>
      refine { h with
        period := (Interval.tick_period htick).trans h.period
        due := fun _ => ?_, idle := fun secs hidle => ?_ }
      · have hnext := (Interval.tick_next htick).2
        rw [h.period] at hnext
        show watchdog.due ≤ s.lastRead + idleTimeout + watchdogPeriod
        omega
      · cases hidle

theorem watched (hr : session.Reach (Prompt late) s) : Watched late s := by
  refine hr.invariant ?_ ?_
  · rintro s ⟨now, queue, _, rfl⟩
    exact watched_start now queue
  · intro s label s' _ h hok hs
    exact watched_step h hok hs

/-- A loop that is never later than `late` for its watchdog holds no connection for longer
than the timeout, a period and `late` after the last text of its server, and gives it up
as idle only if no text has come for longer than the timeout. -/
theorem session_watched (hr : session.Reach (Prompt late) s) :
    (∃ t ∈ s.started :: s.texts, s.now ≤ t + idleTimeout + watchdogPeriod + late) ∧
      ∀ secs, s.ended = some (.idle secs) →
        ∀ t ∈ s.started :: s.texts, t + idleTimeout < s.now := by
  have h := watched hr
  refine ⟨⟨s.lastRead, h.last, h.bound⟩, fun secs hidle t ht => ?_⟩
  have hlatest := h.latest t ht
  have hlong := h.idle secs hidle
  omega

/-- Nothing but `Pong`s of the protocol for 90 seconds. -/
def silence : List Label :=
  (List.range 6).flatMap fun _ => [.elapse 15000, .read (some (.ok .pong)), .watchdog]

theorem session_watched_silent : ∃ s : Session, s.ended = some (.idle 90) ∧
    (∃ t ∈ s.started :: s.texts, s.now ≤ t + idleTimeout + watchdogPeriod + 0) ∧
    ∀ t ∈ s.started :: s.texts, t + idleTimeout < s.now := by
  have hrun : ((session.runWithin (Prompt 0) (start 0 []) silence).map (·.ended)) =
      some (some (.idle 90)) := by decide
  obtain ⟨s, hs, hended⟩ := Option.map_eq_some_iff.mp hrun
  have hinit : session.init (start 0 []) := ⟨0, [], by decide, rfl⟩
  obtain ⟨hbound, hidle⟩ := session_watched (Machine.Reach.runWithin (.init hinit) hs)
  exact ⟨s, hended, hbound, hidle 90 hended⟩

/-! ## The heartbeat -/

/-- Either a `Ping` has been queued since the last text, or the next one is due. -/
structure Beating (late reply : Nat) (s : Session) : Prop where
  period : s.heartbeat.period = heartbeatPeriod
  past : s.lastRead ≤ s.now
  soon : s.heartbeat.due ≤ s.now + heartbeatPeriod
  prompt : s.now ≤ s.heartbeat.due + late
  asked : (∃ sent ∈ s.pings, s.lastRead < sent ∧ sent ≤ s.lastRead + heartbeatPeriod + late) ∨
    s.heartbeat.due ≤ s.lastRead + heartbeatPeriod
  recent : s.now ≤ s.lastRead + heartbeatPeriod + late + reply
  alive : ∀ secs, s.ended ≠ some (.idle secs)

theorem beating_start (now : Nat) (queue : List SessionMessage) :
    Beating late reply (start now queue) where
  period := rfl
  past := Nat.le_refl _
  soon := Nat.le_add_right ..
  prompt := Nat.le_add_right ..
  asked := .inr (Nat.le_add_right ..)
  recent := by
    show now ≤ now + heartbeatPeriod + late + reply
    omega
  alive secs h := by cases h

theorem beating_beat (h : Beating late reply s) {queue : List SessionMessage}
    {heartbeat : Interval} (htick : s.heartbeat.tick s.now = some heartbeat) :
    Beating late reply { s with queue, heartbeat, pings := s.pings ++ [s.now] } := by
  have hnext := Interval.tick_next htick
  rw [h.period] at hnext
  have hprompt := h.prompt
  have hpast := h.past
  refine { h with
    period := (Interval.tick_period htick).trans h.period
    soon := hnext.2
    prompt := hnext.1.le.trans (Nat.le_add_right ..), asked := ?_ }
  show (∃ sent ∈ s.pings ++ [s.now],
      s.lastRead < sent ∧ sent ≤ s.lastRead + heartbeatPeriod + late) ∨
    heartbeat.due ≤ s.lastRead + heartbeatPeriod
  rcases h.asked with ⟨sent, hsent, hafter⟩ | hdue
  · exact .inl ⟨sent, List.mem_append_left _ hsent, hafter⟩
  · by_cases hread : s.lastRead < s.now
    · exact .inl ⟨s.now, List.mem_append_right _ (List.mem_singleton_self _), hread, by omega⟩
    · exact .inr (by omega)

theorem beating_step (hwithin : heartbeatPeriod + late + reply ≤ idleTimeout)
    (h : Beating late reply s) (hok : Answered late reply s label)
    (hs : s.step label = some s') : Beating late reply s' := by
  obtain ⟨_, hsteps⟩ := steps_of_step hs
  have hpast := h.past
  have hsoon := h.soon
  cases hsteps with
  | elapse ms =>
      obtain ⟨hprompt, hanswer⟩ := hok
      refine { h with past := ?_, soon := ?_, prompt := hprompt, recent := ?_ }
      · show s.lastRead ≤ s.now + ms
        omega
      · show s.heartbeat.due ≤ s.now + ms + heartbeatPeriod
        omega
      · show s.now + ms ≤ s.lastRead + heartbeatPeriod + late + reply
        rcases h.asked with ⟨sent, hsent, hafter, hsoonAsked⟩ | hdue
        · have hback := hanswer sent hsent hafter
          omega
        · omega
  | text =>
      refine { h with past := Nat.le_refl _, asked := .inr hsoon, recent := ?_ }
      show s.now ≤ s.now + heartbeatPeriod + late + reply
      omega
  | other hidle => exact { h with alive := hidle }
  | beat htick =>
      rw [show s.room = true from hok]
      exact beating_beat h htick
  | idle htick hidle =>
      have hrecent := h.recent
      omega
  | fresh htick hfresh => exact { h with alive := by simp }

theorem beating (hwithin : heartbeatPeriod + late + reply ≤ idleTimeout)
    (hr : session.Reach (Answered late reply) s) : Beating late reply s := by
  refine hr.invariant ?_ ?_
  · rintro s ⟨now, queue, _, rfl⟩
    exact beating_start now queue
  · intro s label s' _ h hok hs
    exact beating_step hwithin h hok hs

/-- A server that lets a text follow every `Ping` in time is never given up as idle. -/
theorem session_kept (hwithin : heartbeatPeriod + late + reply ≤ idleTimeout)
    (hr : session.Reach (Answered late reply) s) (secs : Nat) : s.ended ≠ some (.idle secs) :=
  (beating hwithin hr).alive secs

/-- Two `Ping`s, each answered after 100 milliseconds. -/
def answeredPings : List Label :=
  [.heartbeat, .write .written, .elapse 100, .read (some (.ok .text)), .elapse 14900, .watchdog,
    .elapse 5000, .heartbeat, .write .written, .elapse 100, .read (some (.ok .text))]

theorem session_kept_answered : ∃ s : Session, s.pings = [0, 20000] ∧ s.texts = [100, 20100] ∧
    ∀ secs, s.ended ≠ some (.idle secs) := by
  have hrun : ((session.runWithin (Answered 0 100) (start 0 []) answeredPings).map
      fun s => (s.pings, s.texts)) = some ([0, 20000], [100, 20100]) := by decide
  obtain ⟨s, hs, hlogs⟩ := Option.map_eq_some_iff.mp hrun
  obtain ⟨hpings, htexts⟩ := Prod.mk.inj hlogs
  have hinit : session.init (start 0 []) := ⟨0, [], by decide, rfl⟩
  exact ⟨s, hpings, htexts, fun secs =>
    session_kept (by decide) (Machine.Reach.runWithin (.init hinit) hs) secs⟩

end ShellfleetAgent.Agent.MainLoop
