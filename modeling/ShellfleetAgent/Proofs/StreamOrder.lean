import ShellfleetAgent.Lib.Lists
import ShellfleetAgent.Proofs.Probes

/-!
# Messages in the order they arrive

Each control message is about one stream key, or about the set of probes, or is
refused. What a key or the set comes to is decided by the messages about it, in the
order in which their handlers get to the mutex; that is the order of arrival when
each handler leaves the mutex alone until the earlier ones about the same have
returned. `Settled` and `Busy` say how far the handlers of one resource are then:
some have returned, at most one is at work, and the rest have not begun.
-/

namespace ShellfleetAgent.Agent.Streams

open ShellfleetAgent.Lib

/-- What a control message is about. -/
inductive Resource
  | stream (slot : Slot)
  | probes
  deriving DecidableEq

def ControlMessage.touches (message : ControlMessage) : Option Resource :=
  match message.starts, message.stops, message.syncs with
  | some run, _, _ => some (.stream run.slot)
  | none, some slot, _ => some (.stream slot)
  | none, none, some _ => some .probes
  | none, none, none => none

/-- The messages in order: what is to run under a key, if anything. -/
def applyStream (slot : Slot) (current : Option RunStream) (message : ControlMessage) :
    Option RunStream :=
  if message.touches = some (.stream slot) then message.starts else current

def streamAfter (slot : Slot) (messages : List ControlMessage) : Option RunStream :=
  messages.foldl (applyStream slot) none

/-- The messages in order: which probes are to run. -/
def applyProbes (serialize : HealthProbeSpec → Option Str) (current : Str → Option Str)
    (message : ControlMessage) : Str → Option Str :=
  match message.syncs with
  | some probes => wanted serialize probes
  | none => current

def probesAfter (serialize : HealthProbeSpec → Option Str) (messages : List ControlMessage) :
    Str → Option Str :=
  messages.foldl (applyProbes serialize) fun _ => none

/-- A handler takes a step only when every earlier message about the same has been
handled, and none is cut off. -/
def InOrder (s : StreamState) : StreamLabel → Prop
  | .act t _ => ∀ u message message' ρ, u < t → s.world.received[u]? = some message →
      s.world.received[t]? = some message' → message.touches = some ρ →
        message'.touches = some ρ → handlerStaged.stages s u = none
  | .kill _ => False
  | _ => True

/-! ## Turns -/

section Turns

variable {ρ : Resource} {received : List ControlMessage} {v : Nat → Option Stage} {n t : Nat}
  {x y : Stage} {message : ControlMessage}

theorem touches_start {run : RunStream} (h : message.starts = some run) :
    message.touches = some (.stream run.slot) := by
  rw [ControlMessage.touches, h]

theorem touches_stop {slot : Slot} (h : message.starts = none) (hstop : message.stops = some slot) :
    message.touches = some (.stream slot) := by
  rw [ControlMessage.touches, h, hstop]

theorem touches_sync {probes : List HealthProbeSpec} (h : message.starts = none)
    (hstop : message.stops = none) (hsync : message.syncs = some probes) :
    message.touches = some .probes := by
  rw [ControlMessage.touches, h, hstop, hsync]

theorem touches_refused (h : message.starts = none) (hstop : message.stops = none)
    (hsync : message.syncs = none) : message.touches = none := by
  rw [ControlMessage.touches, h, hstop, hsync]

/-- The handlers for `ρ` before the `n`th have returned, and the others have not
begun. -/
structure Settled (ρ : Resource) (received : List ControlMessage) (v : Nat → Option Stage)
    (n : Nat) : Prop where
  le : n ≤ received.length
  before : ∀ u message, received[u]? = some message → message.touches = some ρ → u < n →
    v u = none
  after : ∀ u message, received[u]? = some message → message.touches = some ρ → n ≤ u →
    v u = some (.asked message)

/-- The `n`th handler is at work on `ρ`; those before have returned, and those after
it have not begun. -/
structure Busy (ρ : Resource) (received : List ControlMessage) (v : Nat → Option Stage)
    (n : Nat) (x : Stage) : Prop where
  here : ∃ message, received[n]? = some message ∧ message.touches = some ρ
  stage : v n = some x
  before : ∀ u message, received[u]? = some message → message.touches = some ρ → u < n →
    v u = none
  after : ∀ u message, received[u]? = some message → message.touches = some ρ → n < u →
    v u = some (.asked message)

theorem Settled.other (h : Settled ρ received v n) (ht : received[t]? = some message)
    (hρ : message.touches ≠ some ρ) (z : Option Stage) :
    Settled ρ received (Function.update v t z) n := by
  have hne : ∀ u m, received[u]? = some m → m.touches = some ρ → u ≠ t := by
    rintro u m hu hm rfl
    rw [hu] at ht
    cases ht
    exact hρ hm
  refine ⟨h.le, fun u m hu hm hlt => ?_, fun u m hu hm hle => ?_⟩
  · rw [Function.update_of_ne (hne u m hu hm)]
    exact h.before u m hu hm hlt
  · rw [Function.update_of_ne (hne u m hu hm)]
    exact h.after u m hu hm hle

theorem Busy.other (h : Busy ρ received v n x) (ht : received[t]? = some message)
    (hρ : message.touches ≠ some ρ) (z : Option Stage) :
    Busy ρ received (Function.update v t z) n x := by
  have hne : ∀ u m, received[u]? = some m → m.touches = some ρ → u ≠ t := by
    rintro u m hu hm rfl
    rw [hu] at ht
    cases ht
    exact hρ hm
  obtain ⟨m, hn, hm⟩ := h.here
  refine ⟨h.here, ?_, fun u m hu hm hlt => ?_, fun u m hu hm hlt => ?_⟩
  · rw [Function.update_of_ne (hne n m hn hm)]
    exact h.stage
  · rw [Function.update_of_ne (hne u m hu hm)]
    exact h.before u m hu hm hlt
  · rw [Function.update_of_ne (hne u m hu hm)]
    exact h.after u m hu hm hlt

/-- The next handler in order begins. -/
theorem Settled.begin (h : Settled ρ received v n) (ht : received[t]? = some message)
    (hρ : message.touches = some ρ) (hv : v t = some (.asked message))
    (hfirst : ∀ u m, u < t → received[u]? = some m → m.touches = some ρ → v u = none) (y : Stage) :
    Busy ρ received (Function.update v t (some y)) t y ∧ n ≤ t ∧
      ∀ u m, n ≤ u → u < t → received[u]? = some m → m.touches ≠ some ρ := by
  have hle : n ≤ t := by
    by_contra hlt
    rw [h.before t message ht hρ (by omega)] at hv
    cases hv
  refine ⟨⟨⟨message, ht, hρ⟩, Function.update_self .., fun u m hu hm hlt => ?_,
    fun u m hu hm hlt => ?_⟩, hle, fun u m hnu hlt hu hm => ?_⟩
  · rw [Function.update_of_ne (by omega)]
    exact hfirst u m hlt hu hm
  · rw [Function.update_of_ne (by omega)]
    exact h.after u m hu hm (by omega)
  · have hasked := h.after u m hu hm hnu
    rw [hfirst u m hlt hu hm] at hasked
    cases hasked

/-- While a handler is at work no other begins. -/
theorem Busy.blocks (h : Busy ρ received v n x) (hx : ∀ m, x ≠ .asked m)
    (ht : received[t]? = some message) (hρ : message.touches = some ρ)
    (hv : v t = some (.asked message))
    (hfirst : ∀ u m, u < t → received[u]? = some m → m.touches = some ρ → v u = none) : False := by
  rcases Nat.lt_trichotomy t n with hlt | rfl | hlt
  · rw [h.before t message ht hρ hlt] at hv
    cases hv
  · rw [h.stage] at hv
    exact hx message (Option.some.inj hv)
  · obtain ⟨m, hn, hm⟩ := h.here
    have hstage := h.stage
    rw [hfirst n m hlt hn hm] at hstage
    cases hstage

/-- Whoever is past the beginning is the one at work. -/
theorem Settled.not_begun (h : Settled ρ received v n) (ht : received[t]? = some message)
    (hρ : message.touches = some ρ) (hv : v t = some y) (hy : ∀ m, y ≠ .asked m) : False := by
  rcases Nat.lt_or_ge t n with hlt | hle
  · rw [h.before t message ht hρ hlt] at hv
    cases hv
  · rw [h.after t message ht hρ hle] at hv
    exact hy message (Option.some.inj hv).symm

theorem Busy.eq (h : Busy ρ received v n x) (ht : received[t]? = some message)
    (hρ : message.touches = some ρ) (hv : v t = some y) (hy : ∀ m, y ≠ .asked m) :
    n = t ∧ x = y := by
  rcases Nat.lt_trichotomy t n with hlt | rfl | hlt
  · rw [h.before t message ht hρ hlt] at hv
    cases hv
  · exact ⟨rfl, Option.some.inj (h.stage.symm.trans hv)⟩
  · rw [h.after t message ht hρ hlt] at hv
    exact absurd (Option.some.inj hv).symm (hy message)

theorem Busy.next (h : Busy ρ received v n x) (y : Stage) :
    Busy ρ received (Function.update v n (some y)) n y := by
  refine ⟨h.here, Function.update_self .., fun u m hu hm hlt => ?_, fun u m hu hm hlt => ?_⟩
  · rw [Function.update_of_ne (by omega)]
    exact h.before u m hu hm hlt
  · rw [Function.update_of_ne (by omega)]
    exact h.after u m hu hm hlt

theorem Busy.finish (h : Busy ρ received v n x) :
    Settled ρ received (Function.update v n none) (n + 1) := by
  obtain ⟨m, hn, _⟩ := h.here
  have hlt : n < received.length := (List.getElem?_eq_some_iff.mp hn).1
  refine ⟨by omega, fun u m hu hm hlt => ?_, fun u m hu hm hle => ?_⟩
  · by_cases heq : u = n
    · rw [heq, Function.update_self]
    · rw [Function.update_of_ne heq]
      exact h.before u m hu hm (by omega)
  · rw [Function.update_of_ne (by omega)]
    exact h.after u m hu hm (by omega)

theorem before_arrive (hle : n ≤ received.length)
    (h : ∀ u m, received[u]? = some m → m.touches = some ρ → u < n → v u = none)
    (message : ControlMessage) : ∀ u m, (received ++ [message])[u]? = some m →
      m.touches = some ρ → u < n →
        Function.update v received.length (some (.asked message)) u = none := by
  intro u m hu hm hlt
  rcases concat_cases hu with ⟨rfl, rfl⟩ | ⟨_, hu⟩
  · omega
  · rw [Function.update_of_ne (by omega)]
    exact h u m hu hm hlt

theorem after_arrive {P : Nat → Prop}
    (h : ∀ u m, received[u]? = some m → m.touches = some ρ → P u → v u = some (.asked m))
    (message : ControlMessage) : ∀ u m, (received ++ [message])[u]? = some m →
      m.touches = some ρ → P u →
        Function.update v received.length (some (.asked message)) u = some (.asked m) := by
  intro u m hu hm hP
  rcases concat_cases hu with ⟨rfl, rfl⟩ | ⟨_, hu⟩
  · rw [Function.update_self]
  · rw [Function.update_of_ne (by omega)]
    exact h u m hu hm hP

/-- A message arrives. -/
theorem Settled.arrive (h : Settled ρ received v n) (message : ControlMessage) :
    Settled ρ (received ++ [message])
      (Function.update v received.length (some (.asked message))) n := by
  have hle := h.le
  refine ⟨?_, before_arrive hle h.before message, after_arrive h.after message⟩
  rw [List.length_append]
  omega

theorem Busy.arrive (h : Busy ρ received v n x) (message : ControlMessage) :
    Busy ρ (received ++ [message])
      (Function.update v received.length (some (.asked message))) n x := by
  obtain ⟨m, hn, hm⟩ := h.here
  have hlt : n < received.length := (List.getElem?_eq_some_iff.mp hn).1
  refine ⟨⟨m, by rw [List.getElem?_append_left hlt, hn], hm⟩, ?_,
    before_arrive (Nat.le_of_lt hlt) h.before message, after_arrive h.after message⟩
  rw [Function.update_of_ne (by omega)]
  exact h.stage

/-- Messages about something else change nothing. -/
theorem foldl_idle {β : Type} {f : β → ControlMessage → β} (b : β)
    (hf : ∀ b m, m.touches ≠ some ρ → f b m = b) (hle : n ≤ t)
    (hidle : ∀ u m, n ≤ u → u < t → received[u]? = some m → m.touches ≠ some ρ) :
    (received.take t).foldl f b = (received.take n).foldl f b := by
  induction t, hle using Nat.le_induction with
  | base => rfl
  | succ t hle ih =>
      rw [List.take_add_one, List.foldl_append,
        ih fun u m hnu hlt hu => hidle u m hnu (by omega) hu]
      cases ht : received[t]? with
      | none => rfl
      | some m => exact hf _ m (hidle t m hle (by omega) ht)

theorem applyStream_idle {slot : Slot} (current : Option RunStream)
    (h : message.touches ≠ some (.stream slot)) : applyStream slot current message = current :=
  if_neg h

theorem applyProbes_idle (serialize : HealthProbeSpec → Option Str)
    (current : Str → Option Str) (h : message.touches ≠ some .probes) :
    applyProbes serialize current message = current := by
  unfold applyProbes
  split
  · next probes hsync =>
      cases message with
      | healthProbeSyncRequest probes => exact absurd rfl h
      | _ => cases hsync
  · rfl

theorem foldl_take_succ {β : Type} {f : β → ControlMessage → β} {b : β}
    (hn : received[n]? = some message) :
    (received.take (n + 1)).foldl f b = f ((received.take n).foldl f b) message := by
  rw [List.take_add_one, hn, List.foldl_append]
  rfl

end Turns

/-! ## Keys and probes -/

/-- The unaborted streams under a key: one, or none. -/
def Only (tasks : List Task) (slot : Slot) (stream : Option (Nat × RunStream)) : Prop :=
  (∀ i run, stream = some (i, run) → run.slot = slot) ∧
    ∀ i run, run.slot = slot → (Unaborted tasks i (.stream run) ↔ stream = some (i, run))

/-- How far the messages about one key are, and what they have come to. -/
inductive SlotInv (w : StreamWorld) (v : Nat → Option Stage) (slot : Slot) : Prop
  | settled {n : Nat} {stream : Option (Nat × RunStream)}
      (hturn : Settled (.stream slot) w.received v n) (honly : Only w.tasks slot stream)
      (hheld : w.held slot = stream.map (·.1))
      (hval : stream.map (·.2) = streamAfter slot (w.received.take n))
  | cleared {n : Nat} {run : RunStream} (hslot : run.slot = slot)
      (hturn : Busy (.stream slot) w.received v n (.cleared run)) (honly : Only w.tasks slot none)
      (hheld : w.held slot = none)
  | spawned {n i : Nat} {run : RunStream} (hslot : run.slot = slot)
      (hturn : Busy (.stream slot) w.received v n (.spawned run i))
      (honly : Only w.tasks slot (some (i, run))) (hheld : w.held slot = none)
  | finished {n : Nat} {stream : Option (Nat × RunStream)}
      (hturn : Busy (.stream slot) w.received v n .finished) (honly : Only w.tasks slot stream)
      (hheld : w.held slot = stream.map (·.1))
      (hval : stream.map (·.2) = streamAfter slot (w.received.take (n + 1)))

/-- How far the messages about the probes are, and what they have come to. -/
inductive ProbeInv (serialize : HealthProbeSpec → Option Str) (w : StreamWorld)
    (v : Nat → Option Stage) : Prop
  | settled {n : Nat} (hturn : Settled .probes w.received v n)
      (hshows : Shows w.probes (probesAfter serialize (w.received.take n)))
  | finished {n : Nat} (hturn : Busy .probes w.received v n .finished)
      (hshows : Shows w.probes (probesAfter serialize (w.received.take (n + 1))))

/-- A handler is at work on its message. -/
def Stage.isFor (message : ControlMessage) : Stage → Prop
  | .asked message' => message' = message
  | .cleared run | .spawned run _ => message.starts = some run
  | .finished => True

structure OrderInv (serialize : HealthProbeSpec → Option Str) (w : StreamWorld)
    (v : Nat → Option Stage) : Prop where
  numbered : ∀ t x, v t = some x → ∃ message, w.received[t]? = some message ∧ x.isFor message
  slots : ∀ slot, SlotInv w v slot
  inStep : InStep serialize w.probes w.tasks
  probes : ProbeInv serialize w v

section Keys

variable {serialize : HealthProbeSpec → Option Str} {w w' : StreamWorld}
  {v : Nat → Option Stage} {slot : Slot} {stream : Option (Nat × RunStream)} {t : Nat}
  {message : ControlMessage} {tasks tasks' : List Task}

theorem Only.congr (h : Only tasks slot stream) (hsame : ∀ i run, run.slot = slot →
    (Unaborted tasks' i (.stream run) ↔ Unaborted tasks i (.stream run))) :
    Only tasks' slot stream :=
  ⟨h.1, fun i run hslot => (hsame i run hslot).trans (h.2 i run hslot)⟩

theorem Only.spawn {run : RunStream} (h : Only tasks run.slot none) :
    Only (spawn tasks (.stream run)) run.slot (some (tasks.length, run)) := by
  refine ⟨fun i run' heq => ?_, fun i run' hslot => ?_⟩
  · cases heq
    rfl
  · rw [unaborted_spawn, h.2 i run' hslot]
    constructor
    · rintro (hnone | ⟨rfl, hbody⟩)
      · cases hnone
      · cases hbody
        rfl
    · intro heq
      cases heq
      exact .inr ⟨rfl, rfl⟩

/-- A step about something else, which leaves the key alone. -/
theorem SlotInv.other (h : SlotInv w v slot) (hreceived : w'.received = w.received)
    (hheld : w'.held slot = w.held slot)
    (hsame : ∀ i run, run.slot = slot →
      (Unaborted w'.tasks i (.stream run) ↔ Unaborted w.tasks i (.stream run)))
    (ht : w.received[t]? = some message) (hρ : message.touches ≠ some (.stream slot))
    (z : Option Stage) : SlotInv w' (Function.update v t z) slot := by
  cases h with
  | settled hturn honly hh hval =>
      have hturn := hturn.other ht hρ z
      rw [← hreceived] at hturn hval
      exact .settled hturn (honly.congr hsame) (hheld.trans hh) hval
  | cleared hslot hturn honly hh =>
      have hturn := hturn.other ht hρ z
      rw [← hreceived] at hturn
      exact .cleared hslot hturn (honly.congr hsame) (hheld.trans hh)
  | spawned hslot hturn honly hh =>
      have hturn := hturn.other ht hρ z
      rw [← hreceived] at hturn
      exact .spawned hslot hturn (honly.congr hsame) (hheld.trans hh)
  | finished hturn honly hh hval =>
      have hturn := hturn.other ht hρ z
      rw [← hreceived] at hturn hval
      exact .finished hturn (honly.congr hsame) (hheld.trans hh) hval

theorem ProbeInv.other (h : ProbeInv serialize w v) (hreceived : w'.received = w.received)
    (hprobes : w'.probes = w.probes) (ht : w.received[t]? = some message)
    (hρ : message.touches ≠ some .probes) (z : Option Stage) :
    ProbeInv serialize w' (Function.update v t z) := by
  cases h with
  | settled hturn hshows =>
      have hturn := hturn.other ht hρ z
      rw [← hreceived] at hturn hshows
      rw [← hprobes] at hshows
      exact .settled hturn hshows
  | finished hturn hshows =>
      have hturn := hturn.other ht hρ z
      rw [← hreceived] at hturn hshows
      rw [← hprobes] at hshows
      exact .finished hturn hshows

theorem SlotInv.arrive (h : SlotInv w v slot) (message : ControlMessage) :
    SlotInv { w with received := w.received ++ [message] }
      (Function.update v w.received.length (some (.asked message))) slot := by
  cases h with
  | settled hturn honly hh hval =>
      refine .settled (hturn.arrive message) honly hh ?_
      rw [List.take_append_of_le_length hturn.le]
      exact hval
  | cleared hslot hturn honly hh => exact .cleared hslot (hturn.arrive message) honly hh
  | spawned hslot hturn honly hh => exact .spawned hslot (hturn.arrive message) honly hh
  | finished hturn honly hh hval =>
      refine .finished (hturn.arrive message) honly hh ?_
      obtain ⟨m, hn, _⟩ := hturn.here
      have hlt := (List.getElem?_eq_some_iff.mp hn).1
      rw [List.take_append_of_le_length (by omega)]
      exact hval

theorem ProbeInv.arrive (h : ProbeInv serialize w v) (message : ControlMessage) :
    ProbeInv serialize { w with received := w.received ++ [message] }
      (Function.update v w.received.length (some (.asked message))) := by
  cases h with
  | settled hturn hshows =>
      refine .settled (hturn.arrive message) ?_
      rw [List.take_append_of_le_length hturn.le]
      exact hshows
  | finished hturn hshows =>
      refine .finished (hturn.arrive message) ?_
      obtain ⟨m, hn, _⟩ := hturn.here
      have hlt := (List.getElem?_eq_some_iff.mp hn).1
      rw [List.take_append_of_le_length (by omega)]
      exact hshows

/-- A handler that has come to its end returns. -/
theorem SlotInv.finish (h : SlotInv w v slot) (ht : w.received[t]? = some message)
    (hv : v t = some .finished) : SlotInv w (Function.update v t none) slot := by
  by_cases hρ : message.touches = some (.stream slot)
  · cases h with
    | settled hturn honly hh hval => exact (hturn.not_begun ht hρ hv nofun).elim
    | cleared hslot hturn honly hh => cases (hturn.eq ht hρ hv nofun).2
    | spawned hslot hturn honly hh => cases (hturn.eq ht hρ hv nofun).2
    | finished hturn honly hh hval =>
        obtain ⟨rfl, _⟩ := hturn.eq ht hρ hv nofun
        exact .settled hturn.finish honly hh hval
  · exact h.other rfl rfl (fun _ _ _ => Iff.rfl) ht hρ none

theorem ProbeInv.finish (h : ProbeInv serialize w v) (ht : w.received[t]? = some message)
    (hv : v t = some .finished) : ProbeInv serialize w (Function.update v t none) := by
  by_cases hρ : message.touches = some .probes
  · cases h with
    | settled hturn hshows => exact (hturn.not_begun ht hρ hv nofun).elim
    | finished hturn hshows =>
        obtain ⟨rfl, _⟩ := hturn.eq ht hρ hv nofun
        exact .settled hturn.finish hshows
  · exact h.other rfl rfl ht hρ none

/-- A removal aborts the stream that is held, and nothing else. -/
theorem exec_remove_only {ch : Except OutgoingSendError Unit} (honly : Only w.tasks slot stream)
    (hheld : w.held slot = stream.map (·.1))
    (hw : (w.exec serialize (.remove slot) ch).1 = w') :
    w'.received = w.received ∧ w'.probes = w.probes ∧
      w'.held = Function.update w.held slot none ∧
      (∀ i run, Unaborted w'.tasks i (.stream run) ↔
        Unaborted w.tasks i (.stream run) ∧ run.slot ≠ slot) ∧
      ∀ i spec, Unaborted w'.tasks i (.probe spec) ↔ Unaborted w.tasks i (.probe spec) := by
  rw [StreamWorld.exec, hheld] at hw
  cases stream with
  | none =>
      subst hw
      refine ⟨rfl, rfl, ?_, fun i run => ?_, fun i spec => Iff.rfl⟩
      · rw [← show w.held slot = none from hheld, Function.update_eq_self]
        rfl
      · refine (and_iff_left_of_imp fun hu hslot => ?_).symm
        cases (honly.2 i run hslot).mp hu
  | some found =>
      obtain ⟨handle, run₀⟩ := found
      subst hw
      have hslot₀ := honly.1 handle run₀ rfl
      have hu₀ := (honly.2 handle run₀ hslot₀).mpr rfl
      refine ⟨rfl, rfl, rfl, fun i run => ?_, fun i spec => ?_⟩
      · show Unaborted (abort w.tasks handle) i _ ↔ _
        rw [unaborted_abort]
        refine and_congr_right fun hu => ⟨fun hne hslot => ?_, ?_⟩
        · cases (honly.2 i run hslot).mp hu
          exact hne rfl
        · rintro hslot rfl
          cases hu.unique hu₀
          exact hslot hslot₀
      · show Unaborted (abort w.tasks handle) i _ ↔ _
        rw [unaborted_abort]
        refine and_iff_left_of_imp ?_
        rintro hu rfl
        cases hu.unique hu₀

/-- A handler that is at work goes on with its message. -/
theorem numbered_update (hI : OrderInv serialize w v) (hreceived : w'.received = w.received)
    {y : Stage} (ht : w.received[t]? = some message) (hy : y.isFor message) :
    ∀ u x, Function.update v t (some y) u = some x →
      ∃ m, w'.received[u]? = some m ∧ x.isFor m := by
  intro u x hu
  rw [hreceived]
  rcases update_some hu with ⟨rfl, rfl⟩ | ⟨hut, hu⟩
  · exact ⟨message, ht, hy⟩
  · exact hI.numbered u x hu

/-- The earlier messages about the same have all been handled. -/
def First (w : StreamWorld) (v : Nat → Option Stage) (t : Nat) : Prop :=
  ∀ u message message' ρ, u < t → w.received[u]? = some message →
    w.received[t]? = some message' → message.touches = some ρ → message'.touches = some ρ →
      v u = none

theorem OrderInv.remove (hI : OrderInv serialize w v) {ch : Except OutgoingSendError Unit}
    (ht : w.received[t]? = some message) (hv : v t = some (.asked message))
    (hρ : message.touches = some (.stream slot)) (hfirst : First w v t)
    (hw : (w.exec serialize (.remove slot) ch).1 = w') {y : Stage}
    (hy : (∃ run, message.starts = some run ∧ run.slot = slot ∧ y = .cleared run) ∨
      (message.starts = none ∧ y = .finished)) :
    OrderInv serialize w' (Function.update v t (some y)) := by
  have hfirst' : ∀ u m, u < t → w.received[u]? = some m → m.touches = some (.stream slot) →
      v u = none := fun u m hlt hu hm => hfirst u m message _ hlt hu ht hm hρ
  cases hI.slots slot with
  | cleared _ hturn _ _ => exact (hturn.blocks nofun ht hρ hv hfirst').elim
  | spawned _ hturn _ _ => exact (hturn.blocks nofun ht hρ hv hfirst').elim
  | finished hturn _ _ _ => exact (hturn.blocks nofun ht hρ hv hfirst').elim
  | @settled n stream hturn honly hheld hval =>
      obtain ⟨hreceived, hprobes, hheld', hstreams, hsame⟩ := exec_remove_only honly hheld hw
      obtain ⟨hbusy, hle, hidle⟩ := hturn.begin ht hρ hv hfirst' y
      rw [← hreceived] at hbusy
      have hnone : Only w'.tasks slot none := by
        refine ⟨nofun, fun i run hslot => iff_of_false (fun hu => ?_) nofun⟩
        exact ((hstreams i run).mp hu).2 hslot
      have hfree : w'.held slot = none := by rw [hheld', Function.update_self]
      have hstep := hI.inStep.congr hsame
      rw [← hprobes] at hstep
      refine ⟨numbered_update hI hreceived ht ?_, fun slot' => ?_, hstep, ?_⟩
      · rcases hy with ⟨run, hrun, _, rfl⟩ | ⟨_, rfl⟩
        · exact hrun
        · trivial
      · by_cases hslot' : slot' = slot
        · subst hslot'
          rcases hy with ⟨run, hrun, hslot, rfl⟩ | ⟨hstarts, rfl⟩
          · exact .cleared hslot hbusy hnone hfree
          · refine .finished hbusy hnone hfree ?_
            rw [hreceived, streamAfter, foldl_take_succ ht, applyStream, if_pos hρ, hstarts]
            rfl
        · refine (hI.slots slot').other hreceived ?_ (fun i run hslot => ?_) ht ?_ (some y)
          · rw [hheld', Function.update_of_ne hslot']
          · rw [hstreams i run]
            exact and_iff_left (hslot ▸ hslot')
          · rw [hρ]
            intro heq
            cases heq
            exact hslot' rfl
      · refine hI.probes.other hreceived hprobes ht ?_ (some y)
        rw [hρ]
        exact nofun

/-- A step of a start past its clearing, in the world it has to itself as far as its
key goes. -/
theorem OrderInv.proceed (hI : OrderInv serialize w v) {run : RunStream} {y : Stage}
    (ht : w.received[t]? = some message) (hrun : message.starts = some run)
    (hreceived : w'.received = w.received) (hprobes : w'.probes = w.probes)
    (hheld : ∀ slot, slot ≠ run.slot → w'.held slot = w.held slot)
    (hstreams : ∀ i run', run'.slot ≠ run.slot →
      (Unaborted w'.tasks i (.stream run') ↔ Unaborted w.tasks i (.stream run')))
    (hsame : ∀ i spec, Unaborted w'.tasks i (.probe spec) ↔ Unaborted w.tasks i (.probe spec))
    (hy : y.isFor message) (hslot : SlotInv w' (Function.update v t (some y)) run.slot) :
    OrderInv serialize w' (Function.update v t (some y)) := by
  have hρ := touches_start hrun
  have hstep := hI.inStep.congr hsame
  rw [← hprobes] at hstep
  refine ⟨numbered_update hI hreceived ht hy, fun slot => ?_, hstep, ?_⟩
  · by_cases heq : slot = run.slot
    · rw [heq]
      exact hslot
    · refine (hI.slots slot).other hreceived (hheld slot heq) (fun i run' h => ?_) ht ?_ (some y)
      · exact hstreams i run' (h ▸ heq)
      · rw [hρ]
        intro h
        cases h
        exact heq rfl
  · refine hI.probes.other hreceived hprobes ht ?_ (some y)
    rw [hρ]
    exact nofun

theorem OrderInv.spawn (hI : OrderInv serialize w v) {run : RunStream}
    (hv : v t = some (.cleared run)) :
    OrderInv serialize { w with tasks := spawn w.tasks (.stream run) }
      (Function.update v t (some (.spawned run w.tasks.length))) := by
  obtain ⟨message, ht, hrun⟩ := hI.numbered t _ hv
  refine hI.proceed ht hrun rfl rfl (fun _ _ => rfl) (fun i run' hne => ?_)
    (fun i spec => ?_) hrun ?_
  · rw [unaborted_spawn]
    refine or_iff_left ?_
    rintro ⟨_, hbody⟩
    cases hbody
    exact hne rfl
  · rw [unaborted_spawn]
    exact or_iff_left fun h => by cases h.2
  · have hρ := touches_start hrun
    cases hI.slots run.slot with
    | settled hturn _ _ _ => exact (hturn.not_begun ht hρ hv nofun).elim
    | spawned _ hturn _ _ => cases (hturn.eq ht hρ hv nofun).2
    | finished hturn _ _ _ => cases (hturn.eq ht hρ hv nofun).2
    | cleared hslot hturn honly hheld =>
        obtain ⟨rfl, hsame⟩ := hturn.eq ht hρ hv nofun
        cases hsame
        exact .spawned rfl (hturn.next _) honly.spawn hheld

theorem OrderInv.insert (hI : OrderInv serialize w v) {run : RunStream} {i : Nat}
    (hv : v t = some (.spawned run i)) :
    OrderInv serialize { w with held := Function.update w.held run.slot (some i) }
      (Function.update v t (some .finished)) := by
  obtain ⟨message, ht, hrun⟩ := hI.numbered t _ hv
  refine hI.proceed ht hrun rfl rfl (fun slot hne => Function.update_of_ne hne _ _)
    (fun _ _ _ => Iff.rfl) (fun _ _ => Iff.rfl) trivial ?_
  have hρ := touches_start hrun
  cases hI.slots run.slot with
  | settled hturn _ _ _ => exact (hturn.not_begun ht hρ hv nofun).elim
  | cleared _ hturn _ _ => cases (hturn.eq ht hρ hv nofun).2
  | finished hturn _ _ _ => cases (hturn.eq ht hρ hv nofun).2
  | spawned hslot hturn honly hheld =>
      obtain ⟨rfl, hsame⟩ := hturn.eq ht hρ hv nofun
      cases hsame
      refine .finished (hturn.next _) honly (Function.update_self ..) ?_
      rw [streamAfter, foldl_take_succ ht, applyStream, if_pos hρ, hrun]
      rfl

theorem OrderInv.send (hI : OrderInv serialize w v) (ht : w.received[t]? = some message)
    (hρ : message.touches = none) :
    OrderInv serialize w (Function.update v t (some .finished)) := by
  have hne : ∀ ρ, message.touches ≠ some ρ := by
    intro ρ
    rw [hρ]
    exact nofun
  refine ⟨numbered_update hI rfl ht trivial, fun slot => ?_, hI.inStep, ?_⟩
  · exact (hI.slots slot).other rfl rfl (fun _ _ _ => Iff.rfl) ht (hne _) _
  · exact hI.probes.other rfl rfl ht (hne _) _

theorem OrderInv.sync (hI : OrderInv serialize w v) {probes : List HealthProbeSpec}
    (ht : w.received[t]? = some message) (hv : v t = some (.asked message))
    (hsync : message.syncs = some probes) (hρ : message.touches = some .probes)
    (hfirst : First w v t) :
    OrderInv serialize
      { w with
        probes := (sync serialize probes (w.probes, w.tasks)).1
        tasks := (sync serialize probes (w.probes, w.tasks)).2 }
      (Function.update v t (some .finished)) := by
  have hfirst' : ∀ u m, u < t → w.received[u]? = some m → m.touches = some .probes →
      v u = none := fun u m hlt hu hm => hfirst u m message _ hlt hu ht hm hρ
  cases hI.probes with
  | finished hturn _ => exact (hturn.blocks nofun ht hρ hv hfirst').elim
  | settled hturn hshows =>
      obtain ⟨hbusy, _, _⟩ := hturn.begin ht hρ hv hfirst' .finished
      obtain ⟨hstep, hshows'⟩ := sync_inStep hI.inStep hshows probes
      refine ⟨numbered_update hI rfl ht trivial, fun slot => ?_, hstep, .finished hbusy ?_⟩
      · refine (hI.slots slot).other ?_ ?_ (fun i run _ => ?_) ht ?_ _
        · rfl
        · rfl
        · exact sync_streams hI.inStep hshows probes i run
        · rw [hρ]
          exact nofun
      · rw [probesAfter, foldl_take_succ ht, applyProbes, hsync]
        exact hshows'

theorem SlotInv.env (h : SlotInv w v slot) (hsame : ∀ i run,
    Unaborted tasks' i (.stream run) ↔ Unaborted w.tasks i (.stream run)) :
    SlotInv { w with tasks := tasks' } v slot := by
  cases h with
  | settled hturn honly hheld hval =>
      exact .settled hturn (honly.congr fun i run _ => hsame i run) hheld hval
  | cleared hslot hturn honly hheld =>
      exact .cleared hslot hturn (honly.congr fun i run _ => hsame i run) hheld
  | spawned hslot hturn honly hheld =>
      exact .spawned hslot hturn (honly.congr fun i run _ => hsame i run) hheld
  | finished hturn honly hheld hval =>
      exact .finished hturn (honly.congr fun i run _ => hsame i run) hheld hval

theorem OrderInv.start : OrderInv serialize ⟨fun _ => none, [], [], []⟩ fun _ => none := by
  have hturn : ∀ ρ, Settled ρ [] (fun _ => none) 0 := by
    intro ρ
    refine ⟨Nat.le_refl 0, fun u m hu => ?_, fun u m hu => ?_⟩
    · cases hu
    · cases hu
  have hempty : ∀ i body, ¬Unaborted [] i body := by
    intro i body hu
    exact absurd hu.lt (Nat.not_lt_zero i)
  refine ⟨nofun, fun slot => ?_, ⟨nofun, ?_, nofun⟩, .settled (hturn .probes) ?_⟩
  · have honly : Only [] slot none := by
      refine ⟨nofun, fun i run _ => ?_⟩
      exact iff_of_false (hempty i _) nofun
    exact .settled (hturn _) honly rfl rfl
  · exact fun i spec hu => (hempty i _ hu).elim
  · exact fun id sig => iff_of_false (fun h => by obtain ⟨_, h⟩ := h; cases h) nofun

theorem OrderInv.arrive (hI : OrderInv serialize w v) (message : ControlMessage) :
    OrderInv serialize { w with received := w.received ++ [message] }
      (Function.update v w.received.length (some (.asked message))) := by
  refine ⟨fun t x ht => ?_, fun slot => (hI.slots slot).arrive message, hI.inStep,
    hI.probes.arrive message⟩
  rcases update_some ht with ⟨rfl, rfl⟩ | ⟨heq, ht⟩
  · exact ⟨message, List.getElem?_concat_length, rfl⟩
  · obtain ⟨m, hm, hx⟩ := hI.numbered t x ht
    have hlt := (List.getElem?_eq_some_iff.mp hm).1
    exact ⟨m, by rw [List.getElem?_append_left hlt, hm], hx⟩

end Keys

theorem handlerStaged_inOrder (serialize : HealthProbeSpec → Option Str) :
    handlerStaged.Sound (streamHost serialize) InOrder (OrderInv serialize) where
  init w hw := by
    subst hw
    exact .start
  spawn s t message w' hI _ _ hw := by
    dsimp only [streamHost] at hw
    split at hw
    · next heq =>
        cases hw
        subst heq
        exact hI.arrive message
    · cases hw
  act s t ch o x w' r hI hv hnext hmay hok hx := by
    refine ⟨trivial, ?_⟩
    have hexec : s.world.exec serialize o ch = (w', r) := Option.some.inj hx
    have hw : (s.world.exec serialize o ch).1 = w' := by rw [hexec]
    have hr : (s.world.exec serialize o ch).2 = r := by rw [hexec]
    obtain ⟨message, ht, hfor⟩ := hI.numbered t x hv
    cases x with
    | asked message' =>
        obtain rfl : message' = message := hfor
        cases o with
        | remove slot =>
            rcases hmay with ⟨run, hrun, rfl⟩ | ⟨hnone, hstop⟩
            · exact hI.remove ht hv (touches_start hrun) hok hw
                (.inl ⟨run, hrun, rfl, next_start hrun _⟩)
            · exact hI.remove ht hv (touches_stop hnone hstop) hok hw
                (.inr ⟨hnone, next_other hnone _⟩)
        | send m =>
            obtain ⟨hnone, hstop, hsync⟩ := hmay
            subst hw
            rw [next_other hnone]
            exact hI.send ht (touches_refused hnone hstop hsync)
        | sync probes =>
            obtain ⟨hnone, hstop, hsync⟩ := hmay
            subst hw
            rw [next_other hnone]
            exact hI.sync ht hv hsync (touches_sync hnone hstop hsync) hok
        | spawn run => cases hmay
        | insert slot handle => cases hmay
    | cleared run =>
        cases o with
        | spawn run' =>
            obtain rfl : run' = run := hmay
            subst hw hr
            exact hI.spawn hv
        | _ => cases hmay
    | spawned run i =>
        cases o with
        | insert slot handle =>
            obtain ⟨rfl, rfl⟩ := hmay
            subst hw
            exact hI.insert hv
        | _ => cases hmay
    | finished => cases hmay
  ended w v t x hI hv hx := by
    obtain rfl : x = .finished := hx
    obtain ⟨message, ht, _⟩ := hI.numbered t _ hv
    refine ⟨fun u x hu => ?_, fun slot => (hI.slots slot).finish ht hv, hI.inStep,
      hI.probes.finish ht hv⟩
    exact hI.numbered u x (update_none hu).2
  kill s t x hI hv hok := hok.elim
  env s e w' hI hok hw := by
    obtain ⟨tasks, he, rfl⟩ := Option.map_eq_some_iff.mp hw
    have hsame := unaborted_env he
    refine ⟨hI.numbered, fun slot => (hI.slots slot).env fun i run => hsame i _, ?_, ?_⟩
    · exact hI.inStep.congr fun i spec => hsame i _
    · cases hI.probes with
      | settled hturn hshows => exact .settled hturn hshows
      | finished hturn hshows => exact .finished hturn hshows

/-- Every handler that `main` has spawned has returned. -/
def AllHandled (s : StreamState) : Prop := ∀ t, s.threads t = none ∨ handled s t = true

theorem AllHandled.stages {s : StreamState} (h : AllHandled s) (t : Nat) :
    handlerStaged.stages s t = none := by
  rcases h t with hnone | hhandled
  · rw [Staged.stages, hnone]
    rfl
  · unfold handled at hhandled
    split at hhandled
    · next tr ht =>
        rw [Staged.stages, ht]
        show (if (tr.live && !true) = true then _ else none) = none
        rw [Bool.not_true, Bool.and_false, if_neg Bool.false_ne_true]
    · cases hhandled

section Order

variable {serialize : HealthProbeSpec → Option Str} {w : StreamWorld}
  {v : Nat → Option Stage} {ρ : Resource} {received : List ControlMessage} {n : Nat}

/-- Once all have returned, the rest of the messages are about something else. -/
theorem Settled.rest (h : Settled ρ received v n) (hdone : ∀ t, v t = none) {β : Type}
    {f : β → ControlMessage → β} (hf : ∀ b m, m.touches ≠ some ρ → f b m = b) (b : β) :
    (received.take n).foldl f b = received.foldl f b := by
  have hidle := foldl_idle b hf h.le fun u m hnu _ hu hm => by
    have hasked := h.after u m hu hm hnu
    rw [hdone u] at hasked
    cases hasked
  rw [List.take_length] at hidle
  exact hidle.symm

theorem SlotInv.handled {slot : Slot} (h : SlotInv w v slot) (hdone : ∀ t, v t = none) :
    ∃ stream, Only w.tasks slot stream ∧ stream.map (·.2) = streamAfter slot w.received := by
  cases h with
  | settled hturn honly hheld hval =>
      refine ⟨_, honly, hval.trans ?_⟩
      exact hturn.rest hdone (fun b m hm => applyStream_idle b hm) none
  | cleared _ hturn _ _ => cases (hdone _).symm.trans hturn.stage
  | spawned _ hturn _ _ => cases (hdone _).symm.trans hturn.stage
  | finished hturn _ _ _ => cases (hdone _).symm.trans hturn.stage

theorem ProbeInv.handled (h : ProbeInv serialize w v) (hdone : ∀ t, v t = none) :
    Shows w.probes (probesAfter serialize w.received) := by
  cases h with
  | settled hturn hshows =>
      have hrest := hturn.rest hdone (fun b m hm => applyProbes_idle serialize b hm)
        fun _ => none
      rw [probesAfter, ← hrest]
      exact hshows
  | finished hturn _ => cases (hdone _).symm.trans hturn.stage

end Order

/-- What runs under a key. -/
def RunsUnder (w : StreamWorld) (slot : Slot) (run : RunStream) : Prop :=
  run.slot = slot ∧ ∃ i, Unaborted w.tasks i (.stream run)

/-- The signatures of the probes that run under an id. -/
def ProbesUnder (serialize : HealthProbeSpec → Option Str) (w : StreamWorld) (id sig : Str) :
    Prop :=
  ∃ i spec, Unaborted w.tasks i (.probe spec) ∧ spec.id = id ∧ serialize spec = some sig

/-- When each handler waits for the earlier messages about the same, what has come of
all of them in the end is what they come to in the order of their arrival: one stream
for a key, or none, and one probe for an id, or none. -/
theorem streams_in_order {serialize : HealthProbeSpec → Option Str} {s : StreamState}
    (hr : (streamPool serialize).Reach InOrder s) (hdone : AllHandled s) :
    (∀ slot run, RunsUnder s.world slot run ↔
      streamAfter slot s.world.received = some run) ∧
    (∀ i j run run', Unaborted s.world.tasks i (.stream run) →
      Unaborted s.world.tasks j (.stream run') → run.slot = run'.slot → i = j) ∧
    (∀ id sig, ProbesUnder serialize s.world id sig ↔
      probesAfter serialize s.world.received id = some sig) ∧
    (∀ i j spec spec', Unaborted s.world.tasks i (.probe spec) →
      Unaborted s.world.tasks j (.probe spec') → spec.id = spec'.id → i = j) ∧
    (∀ messages message slot, s.world.received = messages ++ [message] → message.starts = none →
      message.stops = some slot → ∀ run, ¬RunsUnder s.world slot run) ∧
    ∀ messages probes,
      s.world.received = messages ++ [ControlMessage.healthProbeSyncRequest probes] →
      ∀ id sig, ProbesUnder serialize s.world id sig ↔ wanted serialize probes id = some sig := by
  have hI := (Staged.invariant handlerStaged_holds (handlerStaged_inOrder serialize) hr).1
  have hnone := hdone.stages
  have hstream : ∀ slot run, RunsUnder s.world slot run ↔
      streamAfter slot s.world.received = some run := by
    intro slot run
    obtain ⟨stream, honly, hval⟩ := (hI.slots slot).handled hnone
    rw [← hval, Option.map_eq_some_iff]
    constructor
    · intro ⟨hslot, i, hu⟩
      exact ⟨_, (honly.2 i run hslot).mp hu, rfl⟩
    · intro ⟨found, hfound, hrun⟩
      obtain ⟨i, run'⟩ := found
      obtain rfl : run' = run := hrun
      have hslot := honly.1 i run' hfound
      exact ⟨hslot, i, (honly.2 i run' hslot).mpr hfound⟩
  have hprobe : ∀ id sig, ProbesUnder serialize s.world id sig ↔
      probesAfter serialize s.world.received id = some sig := by
    intro id sig
    rw [← hI.probes.handled hnone id sig]
    constructor
    · intro ⟨i, spec, hu, hid, hsig⟩
      obtain ⟨sig', hmem⟩ := hI.inStep.probe i spec hu
      obtain ⟨spec', hu', _, hsig'⟩ := hI.inStep.entry _ _ _ hmem
      cases hu.unique hu'
      rw [hsig] at hsig'
      cases hsig'
      exact ⟨i, hid ▸ hmem⟩
    · intro ⟨i, hmem⟩
      obtain ⟨spec, hu, hid, hsig⟩ := hI.inStep.entry _ _ _ hmem
      exact ⟨i, spec, hu, hid, hsig⟩
  refine ⟨hstream, fun i j run run' hi hj hslot => ?_, hprobe, fun i j spec spec' hi hj hid => ?_,
    fun messages message slot hlast hstarts hstop run hruns => ?_,
    fun messages probes hlast id sig => ?_⟩
  · obtain ⟨stream, honly, _⟩ := (hI.slots run'.slot).handled hnone
    have hi := (honly.2 i run hslot).mp hi
    rw [(honly.2 j run' rfl).mp hj] at hi
    cases hi
    rfl
  · obtain ⟨sig, hmem⟩ := hI.inStep.probe i spec hi
    obtain ⟨sig', hmem'⟩ := hI.inStep.probe j spec' hj
    have hsame := hI.inStep.unique _ hmem _ hmem' hid
    exact congrArg (·.2.2) hsame
  · have hafter := (hstream slot run).mp hruns
    rw [hlast, streamAfter, List.foldl_append] at hafter
    have hρ := touches_stop hstarts hstop
    rw [List.foldl_cons, List.foldl_nil, applyStream, if_pos hρ, hstarts] at hafter
    cases hafter
  · rw [hprobe id sig, hlast, probesAfter, List.foldl_append]
    rfl

/-! Messages that overtake each other. -/

def webStop : ControlMessage := .dockerLogsStop "web".toList

/-- A probe of a host, by its name. -/
def tcpProbe (id : String) : HealthProbeSpec :=
  ⟨id.toList, .tcp, "127.0.0.1:80".toList, 10, 1, none, none, []⟩

/-- Every earlier handler has returned. -/
def AfterAll (s : StreamState) : StreamLabel → Bool
  | .act t _ => (List.range t).all fun u => (handlerStaged.stages s u).isNone
  | .kill _ => false
  | _ => true

theorem AfterAll.inOrder {s : StreamState} {i : StreamLabel} (h : AfterAll s i = true) :
    InOrder s i := by
  cases i with
  | act t ch =>
      intro u message message' ρ hlt _ _ _ _
      have hu := List.all_eq_true.mp h u (List.mem_range.mpr hlt)
      exact Option.isNone_iff_eq_none.mp hu
  | kill t => cases h
  | _ => trivial

theorem allHandled {serialize : HealthProbeSpec → Option Str}
    {ok : StreamState → StreamLabel → Prop} {s : StreamState}
    (hr : (streamPool serialize).Reach ok s)
    (h : (List.range s.world.received.length).all (handled s) = true) : AllHandled s := by
  intro t
  by_cases ht : t < s.world.received.length
  · exact .inr (List.all_eq_true.mp h t (List.mem_range.mpr ht))
  · exact .inl (threads_none hr t (Nat.le_of_not_lt ht))

def tcpSync (ids : List String) : ControlMessage := .healthProbeSyncRequest (ids.map tcpProbe)

/-- Handlers that have all returned, and what they have done. -/
def allSeen (s : StreamState) : Bool × List ControlMessage × List Task :=
  ((List.range s.world.received.length).all (handled s), s.world.received, s.world.tasks)

/-- Each message is handled before the next one comes in. -/
theorem streams_in_order_web : ∃ s : StreamState, AllHandled s ∧
    s.world.received = [webRequest, webStop, tcpSync ["a"], tcpSync ["b"]] ∧
    (∀ run, ¬RunsUnder s.world webLogs.slot run) ∧
    ∀ id sig, ProbesUnder (fun p => some p.id) s.world id sig ↔
      wanted (fun p => some p.id) [tcpProbe "b"] id = some sig := by
  have hrun : ((streamPool fun p => some p.id).runWithin (fun s i => AfterAll s i = true)
      idleStreams ([Pool.Label.spawn 0 webRequest] ++ handles [0, 0, 0] ++
        [Pool.Label.spawn 1 webStop] ++ handles [1] ++
        [Pool.Label.spawn 2 (tcpSync ["a"])] ++ handles [2] ++
        [Pool.Label.spawn 3 (tcpSync ["b"])] ++ handles [3])).map
      (fun s => ((allSeen s).1, (allSeen s).2.1)) =
      some (true, [webRequest, webStop, tcpSync ["a"], tcpSync ["b"]]) := by
    decide
  obtain ⟨s, hs, hseen⟩ := Option.map_eq_some_iff.mp hrun
  obtain ⟨hhandled, hseen⟩ := Prod.mk.inj hseen
  have hreceived : s.world.received = [webRequest, webStop, tcpSync ["a"]] ++ [tcpSync ["b"]] :=
    hseen
  have hr := Machine.Reach.runWithin_mono (.init idleStreams_init)
    (fun _ _ => AfterAll.inOrder) hs
  have hdone := allHandled hr hhandled
  obtain ⟨hstream, _, _, _, _, hprobes⟩ := streams_in_order hr hdone
  refine ⟨s, hdone, hreceived, fun run hruns => ?_, hprobes _ _ hreceived⟩
  have hafter := (hstream webLogs.slot run).mp hruns
  rw [hreceived] at hafter
  cases hafter

/-- The handler of the later message gets to the mutex first: the stream runs on after
its stop has been handled, and the probes are those of the earlier request. -/
theorem streams_overtaken :
    (∃ s : StreamState, (streamPool fun p => some p.id).Reachable s ∧ AllHandled s ∧
      s.world.received = [webRequest, webStop] ∧ s.world.Live 0 webLogs) ∧
    ∃ s : StreamState, (streamPool fun p => some p.id).Reachable s ∧ AllHandled s ∧
      s.world.received = [tcpSync ["a"], tcpSync ["b"]] ∧
      Unaborted s.world.tasks 1 (.probe (tcpProbe "a")) ∧
      ¬Unaborted s.world.tasks 0 (.probe (tcpProbe "b")) := by
  constructor
  · have hrun : ((streamPool fun p => some p.id).run idleStreams
        ([Pool.Label.spawn 0 webRequest, .spawn 1 webStop] ++ handles [1, 0, 0, 0])).map allSeen =
        some (true, [webRequest, webStop], [⟨.stream webLogs, false, false, false⟩]) := by
      decide
    obtain ⟨s, hs, hseen⟩ := Option.map_eq_some_iff.mp hrun
    obtain ⟨hhandled, hseen⟩ := Prod.mk.inj hseen
    obtain ⟨hreceived, htasks⟩ := Prod.mk.inj hseen
    have hr := Machine.Reach.run (.init idleStreams_init) hs
    exact ⟨s, hr, allHandled hr hhandled, hreceived,
      ⟨⟨.stream webLogs, false, false, false⟩, by rw [htasks]; rfl, rfl, rfl⟩⟩
  · have hrun : ((streamPool fun p => some p.id).run idleStreams
        ([Pool.Label.spawn 0 (tcpSync ["a"]), .spawn 1 (tcpSync ["b"])] ++
          handles [1, 0])).map allSeen =
        some (true, [tcpSync ["a"], tcpSync ["b"]],
          [⟨.probe (tcpProbe "b"), false, true, false⟩,
            ⟨.probe (tcpProbe "a"), false, false, false⟩]) := by
      decide
    obtain ⟨s, hs, hseen⟩ := Option.map_eq_some_iff.mp hrun
    obtain ⟨hhandled, hseen⟩ := Prod.mk.inj hseen
    obtain ⟨hreceived, htasks⟩ := Prod.mk.inj hseen
    have hr := Machine.Reach.run (.init idleStreams_init) hs
    refine ⟨s, hr, allHandled hr hhandled, hreceived, ?_, ?_⟩
    · rw [show s.world.tasks = _ from htasks]
      exact ⟨_, rfl, rfl, rfl⟩
    · rw [show s.world.tasks = _ from htasks]
      intro ⟨task, htask, _, haborted⟩
      cases htask
      cases haborted

end ShellfleetAgent.Agent.Streams
