import ShellfleetAgent.Agent.Streams
import ShellfleetAgent.Lib.Stage

/-!
# Whose streams are live

A stream task belongs to somebody: to the start call that has spawned it, until that
call hands the `JoinHandle` to its manager, and from then on to the manager, until a
stop or the next start takes it out and aborts it. A task is lost when an insertion
overwrites the handle of a live one; that takes a start that clears its key while
another start for the same key is already past its own clearing.
-/

namespace ShellfleetAgent.Agent.Streams

open ShellfleetAgent.Lib

/-! ## Messages -/

/-- The stream that a message asks for, if its arguments are accepted. -/
def ControlMessage.starts : ControlMessage → Option RunStream
  | .dockerLogsRequest containerId tail follow =>
      if validContainerId containerId then some (.logs containerId (min tail maxDockerTail) follow)
      else none
  | .journalLogsRequest unit lines follow =>
      if validUnitName unit then some (.journal unit (min lines maxJournalLines) follow) else none
  | .journalStreamRequest args => some (.journalStream args)
  | _ => none

/-- The stream that a message is to stop. -/
def ControlMessage.stops : ControlMessage → Option Slot
  | .dockerLogsStop containerId => some ⟨.logs, containerId⟩
  | .journalLogsStop unit => some ⟨.journal, unit⟩
  | .journalStreamStop streamId => some ⟨.journalStream, streamId⟩
  | _ => none

/-- The probes that a message is to set up. -/
def ControlMessage.syncs : ControlMessage → Option (List HealthProbeSpec)
  | .healthProbeSyncRequest probes => some probes
  | _ => none

/-- A message starts a stream, stops one, sets up the probes, or is refused. -/
theorem handle_cases (message : ControlMessage) :
    (∃ run, message.starts = some run ∧ handle message = start run) ∨
    (∃ slot, message.starts = none ∧ message.stops = some slot ∧ handle message = stop slot) ∨
    (∃ probes, message.starts = none ∧ message.stops = none ∧ message.syncs = some probes ∧
      handle message = ask (.sync probes)) ∨
    (∃ m, message.starts = none ∧ message.stops = none ∧ message.syncs = none ∧
      handle message = (ask (.send m)).bind fun _ => .ret ()) := by
  cases message with
  | dockerLogsRequest containerId tail follow =>
      by_cases hvalid : validContainerId containerId = true
      · refine .inl ⟨.logs containerId (min tail maxDockerTail) follow, if_pos hvalid, ?_⟩
        rw [handle, LogStreams.start, if_pos hvalid]
      · refine .inr (.inr (.inr ⟨.dockerLogsEnd containerId (some "invalid container id".toList),
          if_neg hvalid, rfl, rfl, ?_⟩))
        rw [handle, LogStreams.start, if_neg hvalid]
        rfl
  | dockerLogsStop containerId => exact .inr (.inl ⟨_, rfl, rfl, rfl⟩)
  | journalLogsRequest unit lines follow =>
      by_cases hvalid : validUnitName unit = true
      · refine .inl ⟨.journal unit (min lines maxJournalLines) follow, if_pos hvalid, ?_⟩
        rw [handle, Journal.JournalStreams.start, if_pos hvalid]
      · refine .inr (.inr (.inr ⟨.journalLogsEnd unit (some "invalid unit name".toList),
          if_neg hvalid, rfl, rfl, ?_⟩))
        rw [handle, Journal.JournalStreams.start, if_neg hvalid]
        rfl
  | journalLogsStop unit => exact .inr (.inl ⟨_, rfl, rfl, rfl⟩)
  | journalStreamRequest args => exact .inl ⟨_, rfl, rfl⟩
  | journalStreamStop streamId => exact .inr (.inl ⟨_, rfl, rfl, rfl⟩)
  | healthProbeSyncRequest probes => exact .inr (.inr (.inl ⟨_, rfl, rfl, rfl, rfl⟩))

/-! ## Stages of a handler -/

/-- Where a handler is: it has done nothing, its start has cleared the key, or has
spawned the task and holds its handle. -/
inductive Stage
  | asked (message : ControlMessage)
  | cleared (run : RunStream)
  | spawned (run : RunStream) (handle : Nat)
  | finished

namespace Stage

def next : Stage → Event StreamOp StreamResp → Stage
  | .asked message, _ =>
      match message.starts with
      | some run => .cleared run
      | none => .finished
  | .cleared run, ⟨.spawn _, handle⟩ => .spawned run handle
  | .spawned _ _, _ => .finished
  | x, _ => x

def may : Stage → StreamOp → Prop
  | .asked message, .remove slot =>
      (∃ run, message.starts = some run ∧ slot = run.slot) ∨
        (message.starts = none ∧ message.stops = some slot)
  | .asked message, .send _ =>
      message.starts = none ∧ message.stops = none ∧ message.syncs = none
  | .asked message, .sync probes =>
      message.starts = none ∧ message.stops = none ∧ message.syncs = some probes
  | .cleared run, .spawn run' => run' = run
  | .spawned run handle, .insert slot handle' => slot = run.slot ∧ handle' = handle
  | _, _ => False

/-- A start past its clearing, and the key it is for. -/
def claims : Stage → Option Slot
  | .cleared run | .spawned run _ => some run.slot
  | _ => none

end Stage

def handlerStaged : Staged handlerCode Stage where
  first := .asked
  next := Stage.next
  may := Stage.may
  answer _ _ _ := True
  loop _ l := l.elim
  done x := x = .finished

theorem next_start {message : ControlMessage} {run : RunStream} (h : message.starts = some run)
    (e : Event StreamOp StreamResp) : handlerStaged.next (.asked message) e = .cleared run := by
  show (Stage.asked message).next e = .cleared run
  rw [Stage.next, h]

theorem next_other {message : ControlMessage} (h : message.starts = none)
    (e : Event StreamOp StreamResp) : handlerStaged.next (.asked message) e = .finished := by
  show (Stage.asked message).next e = .finished
  rw [Stage.next, h]

theorem handlerStaged_holds : handlerStaged.Holds where
  start message := by
    show handlerStaged.wp ((handle message).bind fun _ => .ret (Sum.inr ()))
      handlerStaged.roundPost (.asked message)
    rcases handle_cases message with ⟨run, hrun, hp⟩ | ⟨slot, hnone, hstop, hp⟩ |
      ⟨probes, hnone, hstop, hsync, hp⟩ | ⟨m, hnone, hstop, hsync, hp⟩
    · rw [hp]
      refine ⟨.inl ⟨run, hrun, rfl⟩, fun _ _ => ?_⟩
      rw [next_start hrun]
      exact ⟨rfl, fun handle _ => ⟨⟨rfl, rfl⟩, fun _ _ => rfl⟩⟩
    · rw [hp]
      exact ⟨.inr ⟨hnone, hstop⟩, fun _ _ => next_other hnone _⟩
    · rw [hp]
      exact ⟨⟨hnone, hstop, hsync⟩, fun _ _ => next_other hnone _⟩
    · rw [hp]
      exact ⟨⟨hnone, hstop, hsync⟩, fun _ _ => next_other hnone _⟩
  again _ l _ := l.elim

/-! ## Tasks -/

/-- The tasks move on: each stays what it is, none comes back to life, and only
probes are new. -/
structure Evolves (tasks tasks' : List Task) : Prop where
  old : ∀ (i : Nat) (task : Task), tasks[i]? = some task → ∃ task', tasks'[i]? = some task' ∧
    task'.body = task.body ∧ task'.polled = task.polled ∧ (task'.live = true → task.live = true)
  new : ∀ (i : Nat) (task' : Task), tasks[i]? = none → tasks'[i]? = some task' →
    ∃ spec, task'.body = .probe spec

section Tasks

variable {tasks tasks' tasks'' : List Task}

theorem Evolves.refl (tasks : List Task) : Evolves tasks tasks := by
  refine ⟨fun i task h => ⟨task, h, rfl, rfl, id⟩, fun i task' h h' => ?_⟩
  rw [h] at h'
  cases h'

theorem Evolves.trans (h : Evolves tasks tasks') (h' : Evolves tasks' tasks'') :
    Evolves tasks tasks'' := by
  refine ⟨fun i task hi => ?_, fun i task'' hi hi'' => ?_⟩
  · obtain ⟨task', hi', hbody, hpolled, hlive⟩ := h.old i task hi
    obtain ⟨task'', hi'', hbody', hpolled', hlive'⟩ := h'.old i task' hi'
    exact ⟨task'', hi'', hbody'.trans hbody, hpolled'.trans hpolled, fun hl => hlive (hlive' hl)⟩
  · cases hi' : tasks'[i]? with
    | none => exact h'.new i task'' hi' hi''
    | some task' =>
        obtain ⟨spec, hspec⟩ := h.new i task' hi hi'
        obtain ⟨_, hi₂, hbody, _⟩ := h'.old i task' hi'
        rw [hi''] at hi₂
        cases hi₂
        exact ⟨spec, hbody.trans hspec⟩

theorem getElem?_abort (tasks : List Task) (handle i : Nat) :
    (abort tasks handle)[i]? =
      if handle = i then tasks[i]?.map fun task => { task with aborted := true }
      else tasks[i]? := by
  rw [abort, List.getElem?_modify]
  split
  · rfl
  · simp

theorem Evolves.abort (tasks : List Task) (handle : Nat) :
    Evolves tasks (Streams.abort tasks handle) := by
  refine ⟨fun i task hi => ?_, fun i task' hi hi' => ?_⟩
  · rw [getElem?_abort, hi]
    split
    · exact ⟨_, rfl, rfl, rfl, fun hlive => by simp [Task.live] at hlive⟩
    · exact ⟨task, rfl, rfl, rfl, id⟩
  · rw [getElem?_abort, hi] at hi'
    split at hi' <;> cases hi'

theorem getElem?_spawn (tasks : List Task) (body : Body) (i : Nat) :
    (spawn tasks body)[i]? =
      if i = tasks.length then some ⟨body, false, false, false⟩ else tasks[i]? := by
  rw [spawn, List.getElem?_append]
  by_cases hlt : i < tasks.length
  · rw [if_pos hlt, if_neg (by omega)]
  · rw [if_neg hlt]
    by_cases heq : i = tasks.length
    · rw [if_pos heq, heq, Nat.sub_self]
      rfl
    · rw [if_neg heq, List.getElem?_eq_none (by simp; omega), List.getElem?_eq_none (by omega)]

theorem Evolves.spawn (tasks : List Task) (spec : HealthProbeSpec) :
    Evolves tasks (Streams.spawn tasks (.probe spec)) := by
  refine ⟨fun i task hi => ⟨task, ?_, rfl, rfl, id⟩, fun i task' hi hi' => ?_⟩
  · have hlt : i < tasks.length := (List.getElem?_eq_some_iff.mp hi).1
    rw [getElem?_spawn, if_neg (by omega), hi]
  · rw [getElem?_spawn] at hi'
    split at hi'
    · cases hi'
      exact ⟨spec, rfl⟩
    · rw [hi] at hi'
      cases hi'

variable {serialize : HealthProbeSpec → Option Str}

theorem Evolves.syncOne (state : ProbeMap × List Task) (p : HealthProbeSpec) :
    Evolves state.2 (Streams.syncOne serialize state p).2 := by
  unfold Streams.syncOne
  split
  · exact .refl _
  · dsimp only
    split
    · exact .spawn _ _
    · split
      · exact .refl _
      · exact (Evolves.abort _ _).trans (.spawn _ _)

theorem Evolves.sync (probes : List HealthProbeSpec) (state : ProbeMap × List Task) :
    Evolves state.2 (Streams.sync serialize probes state).2 := by
  have hadd : ∀ (probes : List HealthProbeSpec) (state : ProbeMap × List Task),
      Evolves state.2 (probes.foldl (Streams.syncOne serialize) state).2 := by
    intro probes
    induction probes with
    | nil => exact fun state => .refl _
    | cons p probes ih => exact fun state => (Evolves.syncOne state p).trans (ih _)
  have hdrop : ∀ (entries : ProbeMap) (tasks : List Task), Evolves tasks
      (entries.foldl (fun tasks entry => Streams.abort tasks entry.2.2) tasks) := by
    intro entries
    induction entries with
    | nil => exact fun tasks => .refl _
    | cons entry entries ih => exact fun tasks => (Evolves.abort tasks _).trans (ih _)
  exact (hadd probes state).trans (hdrop _ _)

end Tasks

/-! ## Owners -/

namespace StreamWorld

/-- A task of `run` that is neither finished nor aborted. -/
def Live (w : StreamWorld) (i : Nat) (run : RunStream) : Prop :=
  ∃ task, w.tasks[i]? = some task ∧ task.body = .stream run ∧ task.live = true

/-- The task has been polled: its `run_stream` has begun. -/
def Begun (w : StreamWorld) (i : Nat) : Prop :=
  ∃ task, w.tasks[i]? = some task ∧ task.polled = true

end StreamWorld

/-- A start clears its key only when no other start for that key is past its own
clearing, and none is cut off with a handle in its hands. For a stream never to run
outside the map, a task is not polled before its handle is in there. -/
def Apart (strict : Prop) (s : StreamState) : StreamLabel → Prop
  | .act t _ => ∀ message run, handlerStaged.stages s t = some (.asked message) →
      message.starts = some run →
        ∀ u x, handlerStaged.stages s u = some x → x.claims ≠ some run.slot
  | .env (.poll i) => strict → ∀ u run, handlerStaged.stages s u ≠ some (.spawned run i)
  | .kill t => ∀ run i, handlerStaged.stages s t ≠ some (.spawned run i)
  | _ => True

structure StreamInv (strict : Prop) (w : StreamWorld) (v : Nat → Option Stage) : Prop where
  owned : ∀ i run, w.Live i run → w.held run.slot = some i ∨ ∃ t, v t = some (.spawned run i)
  fresh : ∀ t run i, v t = some (.spawned run i) → i < w.tasks.length ∧ (strict → ¬w.Begun i)
  claim : ∀ t x slot, v t = some x → x.claims = some slot →
    w.held slot = none ∧ ∀ u y, v u = some y → y.claims = some slot → u = t

section Invariant

variable {strict : Prop} {w w' : StreamWorld} {v : Nat → Option Stage} {t : Nat} {x y : Stage}
  {run : RunStream} {slot : Slot} {i j : Nat}

theorem Evolves.live (h : Evolves w.tasks w'.tasks) (hl : w'.Live i run) : w.Live i run := by
  obtain ⟨task', hi', hbody, hlive⟩ := hl
  cases hi : w.tasks[i]? with
  | none =>
      obtain ⟨spec, hspec⟩ := h.new i task' hi hi'
      rw [hspec] at hbody
      cases hbody
  | some task =>
      obtain ⟨_, hi₂, hbody', _, hlive'⟩ := h.old i task hi
      rw [hi'] at hi₂
      cases hi₂
      exact ⟨task, hi, hbody'.symm.trans hbody, hlive' hlive⟩

theorem Evolves.length (h : Evolves w.tasks w'.tasks) (hi : i < w.tasks.length) :
    i < w'.tasks.length := by
  obtain ⟨_, hi', _⟩ := h.old i _ (List.getElem?_eq_getElem hi)
  exact (List.getElem?_eq_some_iff.mp hi').1

theorem Evolves.begun (h : Evolves w.tasks w'.tasks) (hi : i < w.tasks.length)
    (hb : w'.Begun i) : w.Begun i := by
  obtain ⟨task', hi', hpolled⟩ := hb
  obtain ⟨_, hi₂, _, hpolled', _⟩ := h.old i _ (List.getElem?_eq_getElem hi)
  rw [hi'] at hi₂
  cases hi₂
  exact ⟨_, List.getElem?_eq_getElem hi, hpolled'.symm.trans hpolled⟩

/-- A claim after a thread has come to hold none was another thread's before. -/
theorem claims_other {z : Option Stage} (hz : ∀ x, z = some x → x.claims = none) {u : Nat}
    (hu : Function.update v t z u = some x) (hx : x.claims ≠ none) : u ≠ t ∧ v u = some x := by
  rcases update_cases hu with ⟨_, hu⟩ | hv
  · exact absurd (hz x hu) hx
  · exact hv

/-- A thread that comes to hold no claim and no handle, in a world where the tasks
have moved on and the map is as it was. -/
theorem StreamInv.settle (hI : StreamInv strict w v) (hheld : w'.held = w.held)
    (htasks : Evolves w.tasks w'.tasks) {z : Option Stage}
    (hfrom : ∀ run i, v t ≠ some (.spawned run i)) (hz : ∀ x, z = some x → x.claims = none) :
    StreamInv strict w' (Function.update v t z) := by
  refine ⟨fun i run hl => ?_, fun u run i hu => ?_, fun u x slot hu hx => ?_⟩
  · rw [hheld]
    refine (hI.owned i run (htasks.live hl)).imp_right ?_
    intro ⟨u, hu⟩
    exact ⟨u, update_kept hu (hfrom run i)⟩
  · obtain ⟨_, hv⟩ := claims_other hz hu (by simp [Stage.claims])
    obtain ⟨hlt, hfresh⟩ := hI.fresh u run i hv
    exact ⟨htasks.length hlt, fun hs hb => hfresh hs (htasks.begun hlt hb)⟩
  · obtain ⟨_, hv⟩ := claims_other hz hu (by rw [hx]; exact Option.some_ne_none _)
    rw [hheld]
    refine (hI.claim u x slot hv hx).imp_right fun hone u' y hu' hy => ?_
    obtain ⟨_, hv'⟩ := claims_other hz hu' (by rw [hy]; exact Option.some_ne_none _)
    exact hone u' y hv' hy

/-- After a removal the key is free, and what was held there is not live. -/
theorem exec_remove {serialize : HealthProbeSpec → Option Str} {ch : Except OutgoingSendError Unit}
    (hw : (w.exec serialize (.remove slot) ch).1 = w') :
    w'.held = Function.update w.held slot none ∧ Evolves w.tasks w'.tasks ∧
      ∀ i run, w.held slot = some i → ¬w'.Live i run := by
  rw [StreamWorld.exec] at hw
  split at hw
  · next handle hheld =>
      subst hw
      refine ⟨rfl, .abort _ _, fun i run hi hl => ?_⟩
      rw [hheld] at hi
      cases hi
      obtain ⟨task, htask, _, hlive⟩ := hl
      rw [getElem?_abort, if_pos rfl] at htask
      obtain ⟨old, _, rfl⟩ := Option.map_eq_some_iff.mp htask
      simp [Task.live] at hlive
  · next hheld =>
      subst hw
      refine ⟨?_, .refl _, fun i run hi => ?_⟩
      · rw [← hheld, Function.update_eq_self]
      · rw [hheld] at hi
        cases hi

/-- A stop takes the handle out, or a start does, whose key is free from then on. -/
theorem StreamInv.remove (hI : StreamInv strict w v)
    (hheld : w'.held = Function.update w.held slot none) (htasks : Evolves w.tasks w'.tasks)
    (hgone : ∀ i run, w.held slot = some i → ¬w'.Live i run)
    (hfrom : ∀ run i, v t ≠ some (.spawned run i))
    (hy : y = .finished ∨ ∃ run, y = .cleared run ∧ run.slot = slot ∧
      ∀ u x, v u = some x → x.claims ≠ some slot) :
    StreamInv strict w' (Function.update v t (some y)) := by
  have hhand : ∀ run i, y ≠ .spawned run i := by
    rintro run i rfl
    rcases hy with h | ⟨_, h, _⟩ <;> cases h
  have hclaim : ∀ slot', y.claims = some slot' →
      slot' = slot ∧ ∀ u x, v u = some x → x.claims ≠ some slot := by
    intro slot' hslot
    rcases hy with rfl | ⟨run, rfl, rfl, hfree⟩
    · cases hslot
    · exact ⟨(Option.some.inj hslot).symm, hfree⟩
  refine ⟨fun i run hl => ?_, ?_, ?_⟩
  · rcases hI.owned i run (htasks.live hl) with hi | ⟨u, hu⟩
    · have hne : run.slot ≠ slot := by
        intro heq
        exact hgone i run (heq ▸ hi) hl
      exact .inl (by rw [hheld, Function.update_of_ne hne, hi])
    · exact .inr ⟨u, update_kept hu (hfrom run i)⟩
  · intro u run i hu
    rcases update_some hu with ⟨_, hy⟩ | ⟨_, hu⟩
    · exact absurd hy.symm (hhand run i)
    · obtain ⟨hlt, hfresh⟩ := hI.fresh u run i hu
      exact ⟨htasks.length hlt, fun hs hb => hfresh hs (htasks.begun hlt hb)⟩
  · intro u x slot' hu hx
    rcases update_some hu with ⟨rfl, rfl⟩ | ⟨_, hv⟩
    · obtain ⟨rfl, hfree⟩ := hclaim slot' hx
      refine ⟨by rw [hheld, Function.update_self], fun u' z hu' hz => ?_⟩
      by_contra hne
      rw [Function.update_of_ne hne] at hu'
      exact hfree u' z hu' hz
    · obtain ⟨hnone, hone⟩ := hI.claim u x slot' hv hx
      refine ⟨?_, fun u' z hu' hz => ?_⟩
      · rw [hheld]
        by_cases hslot : slot' = slot
        · rw [hslot, Function.update_self]
        · rw [Function.update_of_ne hslot, hnone]
      · rcases update_some hu' with ⟨_, rfl⟩ | ⟨_, hv'⟩
        · obtain ⟨rfl, hfree⟩ := hclaim slot' hz
          exact absurd hx (hfree u x hv)
        · exact hone u' z hv' hz

/-- A start goes from its clearing to the spawned task, or from there to its
insertion. -/
theorem StreamInv.spawn (hI : StreamInv strict w v) (ht : v t = some (.cleared run))
    (hheld : w'.held = w.held) (htasks : w'.tasks = Streams.spawn w.tasks (.stream run)) :
    StreamInv strict w' (Function.update v t (some (.spawned run w.tasks.length))) := by
  have hother : ∀ i, i < w.tasks.length → w'.tasks[i]? = w.tasks[i]? := by
    intro i hi
    rw [htasks, getElem?_spawn, if_neg (by omega)]
  have hnew : w'.tasks[w.tasks.length]? = some ⟨.stream run, false, false, false⟩ := by
    rw [htasks, getElem?_spawn, if_pos rfl]
  have hclaims : ∀ u x, Function.update v t (some (.spawned run w.tasks.length)) u = some x →
      ∃ y, v u = some y ∧ y.claims = x.claims := by
    intro u x hu
    rcases update_some hu with ⟨rfl, rfl⟩ | ⟨hut, hu⟩
    · exact ⟨_, ht, rfl⟩
    · exact ⟨x, hu, rfl⟩
  refine ⟨fun i run' hl => ?_, ?_, ?_⟩
  · obtain ⟨task, hi, hbody, hlive⟩ := hl
    rw [htasks, getElem?_spawn] at hi
    split at hi
    · next heq =>
        cases hi
        cases hbody
        exact .inr ⟨t, by rw [Function.update_self, heq]⟩
    · rcases hI.owned i run' ⟨task, hi, hbody, hlive⟩ with hi | ⟨u, hu⟩
      · exact .inl (by rw [hheld, hi])
      · have hcleared : v t ≠ some (.spawned run' i) := by
          rw [ht]
          nofun
        exact .inr ⟨u, update_kept hu hcleared⟩
  · intro u run' i hu
    have hlen : w'.tasks.length = w.tasks.length + 1 := by
      rw [htasks, Streams.spawn, List.length_append, List.length_singleton]
    rcases update_some hu with ⟨_, hx⟩ | ⟨_, hu⟩
    · cases hx
      refine ⟨by omega, fun _ hb => ?_⟩
      obtain ⟨task, hi, hpolled⟩ := hb
      rw [hnew] at hi
      cases hi
      cases hpolled
    · obtain ⟨hlt, hfresh⟩ := hI.fresh u run' i hu
      refine ⟨by omega, fun hs hb => hfresh hs ?_⟩
      obtain ⟨task, hi, hpolled⟩ := hb
      exact ⟨task, by rw [← hother i hlt, hi], hpolled⟩
  · intro u x slot hu hx
    obtain ⟨y, hy, hclaim⟩ := hclaims u x hu
    rw [hheld]
    refine (hI.claim u y slot hy (hclaim.trans hx)).imp_right fun hone u' z hu' hz => ?_
    obtain ⟨y', hy', hclaim'⟩ := hclaims u' z hu'
    exact hone u' y' hy' (hclaim'.trans hz)

theorem StreamInv.insert (hI : StreamInv strict w v) (ht : v t = some (.spawned run i))
    (hheld : w'.held = Function.update w.held run.slot (some i)) (htasks : w'.tasks = w.tasks) :
    StreamInv strict w' (Function.update v t (some .finished)) := by
  obtain ⟨hnone, hone⟩ := hI.claim t _ run.slot ht rfl
  have hlive : ∀ j run', w'.Live j run' → w.Live j run' := by
    intro j run' hl
    rw [StreamWorld.Live, htasks] at hl
    exact hl
  have hz : ∀ x, some Stage.finished = some x → x.claims = none := by
    intro x hx
    cases hx
    rfl
  refine ⟨fun j run' hl => ?_, fun u run' j hu => ?_, fun u x slot hu hx => ?_⟩
  · by_cases hslot : run'.slot = run.slot
    · -- The key was free, so the only live task for it is the one in hand.
      rcases hI.owned j run' (hlive j run' hl) with hj | ⟨u, hu⟩
      · rw [hslot, hnone] at hj
        cases hj
      · obtain rfl := hone u _ hu (congrArg some hslot)
        rw [ht] at hu
        cases hu
        exact .inl (by rw [hheld, Function.update_self])
    · rcases hI.owned j run' (hlive j run' hl) with hj | ⟨u, hu⟩
      · exact .inl (by rw [hheld, Function.update_of_ne hslot, hj])
      · have hother : v t ≠ some (.spawned run' j) := by
          intro heq
          rw [ht] at heq
          cases heq
          exact hslot rfl
        exact .inr ⟨u, update_kept hu hother⟩
  · obtain ⟨_, hv⟩ := claims_other hz hu (by simp [Stage.claims])
    rw [StreamWorld.Begun, htasks]
    exact hI.fresh u run' j hv
  · obtain ⟨hut, hv⟩ := claims_other hz hu (by rw [hx]; exact Option.some_ne_none _)
    obtain ⟨hnone', hone'⟩ := hI.claim u x slot hv hx
    refine ⟨?_, fun u' y hu' hy => ?_⟩
    · have hslot : slot ≠ run.slot := by
        rintro rfl
        exact hut (hone u x hv hx)
      rw [hheld, Function.update_of_ne hslot, hnone']
    · obtain ⟨_, hv'⟩ := claims_other hz hu' (by rw [hy]; exact Option.some_ne_none _)
      exact hone' u' y hv' hy

/-- A task is polled, or comes to its end. -/
theorem StreamInv.env (hI : StreamInv strict w v) {e : TaskEnv} {tasks : List Task}
    (he : e.run w.tasks = some tasks)
    (hok : ∀ i, e = .poll i → strict → ∀ u run, v u ≠ some (.spawned run i)) :
    StreamInv strict { w with tasks } v := by
  have hmodify : ∀ handle f, tasks = w.tasks.modify handle f →
      ∀ i task', tasks[i]? = some task' →
        ∃ task, w.tasks[i]? = some task ∧ task' = if handle = i then f task else task := by
    intro handle f htasks i task' hi
    rw [htasks, List.getElem?_modify] at hi
    obtain ⟨task, htask, rfl⟩ := Option.map_eq_some_iff.mp hi
    refine ⟨task, htask, ?_⟩
    split <;> rfl
  cases e with
  | poll handle =>
      simp only [TaskEnv.run, Option.bind_eq_bind, Option.bind_eq_some_iff] at he
      obtain ⟨task, hhandle, he⟩ := he
      split at he
      · cases he
        refine ⟨fun i run hl => hI.owned i run ?_, fun u run i hu => ?_, hI.claim⟩
        · obtain ⟨task', hi, hbody, hlive⟩ := hl
          obtain ⟨task, htask, rfl⟩ := hmodify _ _ rfl i task' hi
          refine ⟨task, htask, ?_, ?_⟩
          · split at hbody <;> exact hbody
          · split at hlive <;> exact hlive
        · obtain ⟨hlt, hfresh⟩ := hI.fresh u run i hu
          refine ⟨by rw [List.length_modify]; exact hlt, fun hs hb => hfresh hs ?_⟩
          obtain ⟨task', hi, hpolled⟩ := hb
          obtain ⟨task, htask, rfl⟩ := hmodify _ _ rfl i task' hi
          split at hpolled
          · next heq => exact absurd hu (hok i (heq ▸ rfl) hs u run)
          · exact ⟨task, htask, hpolled⟩
      · cases he
  | finish handle =>
      simp only [TaskEnv.run, Option.bind_eq_bind, Option.bind_eq_some_iff] at he
      obtain ⟨task, hhandle, he⟩ := he
      split at he
      · split at he
        · cases he
          refine ⟨fun i run hl => hI.owned i run ?_, fun u run i hu => ?_, hI.claim⟩
          · obtain ⟨task', hi, hbody, hlive⟩ := hl
            obtain ⟨task, htask, rfl⟩ := hmodify _ _ rfl i task' hi
            split at hlive
            · simp [Task.live] at hlive
            · next hne =>
                rw [if_neg hne] at hbody
                exact ⟨task, htask, hbody, hlive⟩
          · obtain ⟨hlt, hfresh⟩ := hI.fresh u run i hu
            refine ⟨by rw [List.length_modify]; exact hlt, fun hs hb => hfresh hs ?_⟩
            obtain ⟨task', hi, hpolled⟩ := hb
            obtain ⟨task, htask, rfl⟩ := hmodify _ _ rfl i task' hi
            refine ⟨task, htask, ?_⟩
            split at hpolled <;> exact hpolled
        · cases he
      · cases he

end Invariant

theorem handlerStaged_sound (strict : Prop) (serialize : HealthProbeSpec → Option Str) :
    handlerStaged.Sound (streamHost serialize) (Apart strict) (StreamInv strict) where
  init w hw := by
    subst hw
    refine ⟨fun i run hl => ?_, nofun, nofun⟩
    obtain ⟨task, hi, _⟩ := hl
    cases hi
  spawn s t message w' hI ht _ hw := by
    dsimp only [streamHost] at hw
    split at hw
    · cases hw
      refine hI.settle ?_ ?_ (fun run i h => ?_) fun x hx => ?_
      · rfl
      · exact .refl s.world.tasks
      · rw [ht] at h
        cases h
      · cases hx
        rfl
    · cases hw
  act s t ch o x w' r hI ht hnext hmay hok hx := by
    refine ⟨trivial, ?_⟩
    have hexec : s.world.exec serialize o ch = (w', r) := Option.some.inj hx
    obtain hw : (s.world.exec serialize o ch).1 = w' := by rw [hexec]
    have hr : (s.world.exec serialize o ch).2 = r := by rw [hexec]
    cases x with
    | asked message =>
        have hfrom : ∀ run i, handlerStaged.stages s t ≠ some (.spawned run i) := by
          intro run i h
          rw [ht] at h
          cases h
        cases o with
        | remove slot =>
            obtain ⟨hheld, htasks, hgone⟩ := exec_remove hw
            refine hI.remove hheld htasks hgone hfrom ?_
            rcases hmay with ⟨run, hrun, rfl⟩ | ⟨hnone, _⟩
            · exact .inr ⟨run, next_start hrun _, rfl, hok message run ht hrun⟩
            · exact .inl (next_other hnone _)
        | send m =>
            obtain ⟨hnone, _⟩ := hmay
            subst hw
            rw [next_other hnone]
            refine hI.settle ?_ ?_ hfrom fun x hx => ?_
            · rfl
            · exact .refl s.world.tasks
            · cases hx
              rfl
        | sync probes =>
            obtain ⟨hnone, _⟩ := hmay
            subst hw
            rw [next_other hnone]
            refine hI.settle ?_ ?_ hfrom fun x hx => ?_
            · rfl
            · exact .sync probes (s.world.probes, s.world.tasks)
            · cases hx
              rfl
        | spawn run => cases hmay
        | insert slot handle => cases hmay
    | cleared run =>
        cases o with
        | spawn run' =>
            obtain rfl : run' = run := hmay
            subst hw hr
            exact hI.spawn ht rfl rfl
        | _ => cases hmay
    | spawned run i =>
        cases o with
        | insert slot handle =>
            obtain ⟨rfl, rfl⟩ := hmay
            subst hw
            exact hI.insert ht rfl rfl
        | _ => cases hmay
    | finished => cases hmay
  ended w v t x hI ht hx := by
    obtain rfl : x = .finished := hx
    refine hI.settle rfl (.refl _) (fun run i h => ?_) nofun
    rw [ht] at h
    cases h
  kill s t x hI _ hok := hI.settle rfl (.refl _) hok nofun
  env s e w' hI hok hw := by
    obtain ⟨tasks, he, rfl⟩ := Option.map_eq_some_iff.mp hw
    refine hI.env he fun i hi => ?_
    subst hi
    exact hok

/-- In a run in which no start clears a key while another start for it is past its
clearing, every live stream is held by its manager or still in the hands of the start
that has spawned it, and it is held if tasks are not polled in between; there is one
for each key at most, and a stop leaves none unless a start has one in hand. -/
theorem streams_held {strict : Prop} {serialize : HealthProbeSpec → Option Str} {s : StreamState}
    (hr : (streamPool serialize).Reach (Apart strict) s) :
    (∀ i run, s.world.Live i run → s.world.held run.slot = some i ∨
      ∃ t, handlerStaged.stages s t = some (.spawned run i)) ∧
    (strict → ∀ i run, s.world.Live i run → s.world.Begun i →
      s.world.held run.slot = some i) ∧
    (∀ i j run run', s.world.Live i run → s.world.Live j run' → run.slot = run'.slot → i = j) ∧
    ∀ slot ch, (∀ t run i, handlerStaged.stages s t = some (.spawned run i) → run.slot ≠ slot) →
      ∀ i run, run.slot = slot → ¬(s.world.exec serialize (.remove slot) ch).1.Live i run := by
  have hI := (Staged.invariant handlerStaged_holds (handlerStaged_sound strict serialize) hr).1
  refine ⟨hI.owned, fun hs i run hl hb => ?_, fun i j run run' hi hj hslot => ?_, ?_⟩
  · rcases hI.owned i run hl with h | ⟨t, ht⟩
    · exact h
    · exact absurd hb ((hI.fresh t run i ht).2 hs)
  · rcases hI.owned i run hi with hheld | ⟨t, ht⟩ <;>
      rcases hI.owned j run' hj with hheld' | ⟨u, hu⟩
    · rw [hslot, hheld'] at hheld
      exact (Option.some.inj hheld).symm
    · rw [hslot, (hI.claim u _ run'.slot hu rfl).1] at hheld
      cases hheld
    · rw [← hslot, (hI.claim t _ run.slot ht rfl).1] at hheld'
      cases hheld'
    · obtain rfl := (hI.claim t _ run.slot ht rfl).2 u _ hu (congrArg some hslot.symm)
      rw [ht] at hu
      cases hu
      rfl
  · intro slot ch hfree i run hslot hl
    have hexec : (s.world.exec serialize (.remove slot) ch).1 = _ := rfl
    obtain ⟨_, htasks, hgone⟩ := exec_remove hexec
    rcases hI.owned i run (htasks.live hl) with hheld | ⟨t, ht⟩
    · rw [hslot] at hheld
      exact hgone i run hheld hl
    · exact hfree t run i ht hslot

theorem exec_received (serialize : HealthProbeSpec → Option Str) (w : StreamWorld) (o : StreamOp)
    (ch : Except OutgoingSendError Unit) : (w.exec serialize o ch).1.received = w.received := by
  cases o with
  | remove slot =>
      simp only [StreamWorld.exec]
      split <;> rfl
  | _ => rfl

/-- No thread but the handlers of the messages received. -/
theorem threads_none {serialize : HealthProbeSpec → Option Str}
    {ok : StreamState → StreamLabel → Prop} {s : StreamState}
    (hr : (streamPool serialize).Reach ok s) :
    ∀ t, s.world.received.length ≤ t → s.threads t = none := by
  have hother : ∀ (s : StreamState) (w : StreamWorld) u th th',
      (∀ t, s.world.received.length ≤ t → s.threads t = none) →
      s.threads u = some th → w.received = s.world.received →
      ∀ t, w.received.length ≤ t → (s.set w u th').threads t = none := by
    intro s w u th th' hI hu hw t ht
    rw [hw] at ht
    have hne : t ≠ u := by
      intro htu
      rw [← htu, hI t ht] at hu
      cases hu
    show Function.update s.threads u (some th') t = none
    rw [Function.update_of_ne hne]
    exact hI t ht
  refine hr.invariant (I := fun s => ∀ t, s.world.received.length ≤ t → s.threads t = none) ?_ ?_
  · intro s hs t _
    exact hs.2 t
  intro s i s' _ hI _ hs
  rcases Pool.step_cases hs with ⟨u, c, w, rfl, _, hw, rfl⟩ |
    ⟨u, ch, c, o, k, hist, w, r, rfl, hu, hw, rfl⟩ | ⟨u, c, l, hist, rfl, hu, rfl⟩ |
    ⟨u, c, p, hist, rfl, hu, _, rfl⟩ | ⟨e, w, rfl, hw, rfl⟩
  · simp only [streamHost] at hw
    split at hw
    · next hu =>
        cases hw
        intro t ht
        simp only [Pool.State.set, List.length_append, List.length_singleton] at ht ⊢
        rw [Function.update_of_ne (by omega)]
        exact hI t (by omega)
    · cases hw
  · have hreceived := exec_received serialize s.world o ch
    rw [Option.some.inj hw] at hreceived
    exact hother s w u _ _ hI hu hreceived
  · exact hother s _ u _ _ hI hu rfl
  · exact hother s _ u _ _ hI hu rfl
  · obtain ⟨tasks, _, rfl⟩ := Option.map_eq_some_iff.mp hw
    exact hI

/-! Two requests for the logs of one container. -/

def webLogs : RunStream := .logs "web".toList 10 true

def webRequest : ControlMessage := .dockerLogsRequest "web".toList 10 true

def idleStreams : StreamState where
  world := ⟨fun _ => none, [], [], []⟩
  threads _ := none

theorem idleStreams_init {serialize : HealthProbeSpec → Option Str} :
    (streamPool serialize).init idleStreams := ⟨rfl, fun _ => rfl⟩

/-- The next call of a handler, whatever the queue may say. -/
def handles (ts : List Nat) : List StreamLabel := ts.map fun t => .act t (.ok ())

/-- The tasks, and what is held for `web`. -/
def webStreams (s : StreamState) : List Task × Option Nat :=
  (s.world.tasks, s.world.held webLogs.slot)

/-- A handler has returned. -/
def handled (s : StreamState) (t : Nat) : Bool :=
  match s.threads t with
  | some ⟨_, .ret (.inr ())⟩ => true
  | _ => false

/-- No handler is past its clearing. -/
def unclaimed (s : StreamState) : Bool :=
  (List.range s.world.received.length).all fun t =>
    ((handlerStaged.stages s t).bind Stage.claims).isNone

/-- A clearing, or a poll, while no handler is past its clearing. -/
def OneByOne (s : StreamState) : StreamLabel → Bool
  | .spawn _ _ => true
  | .act t _ =>
      match handlerStaged.stages s t with
      | some (.asked _) => unclaimed s
      | _ => true
  | .env _ => unclaimed s
  | _ => false

section OneByOne

variable {serialize : HealthProbeSpec → Option Str} {s : StreamState} {i : StreamLabel}
  {strict : Prop}

theorem claims_none (hr : (streamPool serialize).Reachable s) (h : unclaimed s = true) {t : Nat}
    {x : Stage} (ht : handlerStaged.stages s t = some x) : x.claims = none := by
  by_cases hlen : t < s.world.received.length
  · have hclaims := List.all_eq_true.mp h t (List.mem_range.mpr hlen)
    rw [ht] at hclaims
    exact Option.isNone_iff_eq_none.mp hclaims
  · rw [Staged.stages, threads_none hr t (Nat.le_of_not_lt hlen)] at ht
    cases ht

theorem OneByOne.apart (hr : (streamPool serialize).Reachable s) (h : OneByOne s i = true) :
    Apart strict s i := by
  cases i with
  | spawn t message => trivial
  | act t ch =>
      intro message run ht _ u x hu hclaims
      simp only [OneByOne, ht] at h
      rw [claims_none hr h hu] at hclaims
      cases hclaims
  | again t => cases h
  | kill t => cases h
  | env e =>
      cases e with
      | poll j =>
          intro _ u run hu
          have hclaims := claims_none hr h hu
          cases hclaims
      | _ => trivial

end OneByOne

/-- The second request comes in with the first, and is handled after it. -/
theorem streams_held_twice : ∃ s : StreamState, handled s 0 = true ∧ handled s 1 = true ∧
    s.world.Live 1 webLogs ∧ s.world.held webLogs.slot = some 1 ∧
    (∀ j, s.world.Live j webLogs → j = 1) ∧
    ∀ i run, run.slot = webLogs.slot →
      ¬(s.world.exec (fun p => some p.id) (.remove webLogs.slot) (.ok ())).1.Live i run := by
  have hrun : ((streamPool fun p => some p.id).runWithin (fun s i => OneByOne s i = true)
      idleStreams
      ([Pool.Label.spawn 0 webRequest, .spawn 1 webRequest] ++ handles [0, 0, 0] ++
        [Pool.Label.env (.poll 0)] ++ handles [1, 1, 1] ++ [Pool.Label.env (.poll 1)])).map
      (fun s => ([0, 1].all (handled s), unclaimed s, webStreams s)) =
      some (true, true,
        [⟨.stream webLogs, true, true, false⟩, ⟨.stream webLogs, true, false, false⟩],
        some 1) := by
    decide
  obtain ⟨s, hs, hseen⟩ := Option.map_eq_some_iff.mp hrun
  obtain ⟨hhandled, hseen⟩ := Prod.mk.inj hseen
  obtain ⟨hclear, hseen⟩ := Prod.mk.inj hseen
  obtain ⟨htasks, _⟩ := Prod.mk.inj hseen
  simp only [List.all_cons, List.all_nil, Bool.and_true, Bool.and_eq_true] at hhandled
  have hwithin := Machine.Reach.runWithin (.init idleStreams_init) hs
  have hr : (streamPool fun p => some p.id).Reach (Apart True) s :=
    hwithin.mono_reachable fun _ _ => OneByOne.apart
  obtain ⟨_, hheld, hone, hstop⟩ := streams_held hr
  have htask : s.world.tasks[1]? = some ⟨.stream webLogs, true, false, false⟩ := by
    rw [htasks]
    rfl
  have hlive : s.world.Live 1 webLogs := ⟨_, htask, rfl, rfl⟩
  refine ⟨s, hhandled.1, hhandled.2, hlive, hheld trivial 1 webLogs hlive ⟨_, htask, rfl⟩,
    fun j hj => hone j 1 webLogs webLogs hj hlive rfl, hstop webLogs.slot (.ok ()) ?_⟩
  intro t run i ht
  have hclaims := claims_none hwithin.reachable hclear ht
  cases hclaims

/-- Both requests have cleared the key before either inserts its handle: the second
insertion drops the first handle, and no stop ever reaches that stream. -/
theorem streams_lost : ∃ s : StreamState, (streamPool fun p => some p.id).Reachable s ∧
    handled s 0 = true ∧ handled s 1 = true ∧ handled s 2 = true ∧ s.world.Live 0 webLogs ∧
      s.world.Begun 0 ∧ s.world.held webLogs.slot = none := by
  have hrun : ((streamPool fun p => some p.id).run idleStreams
      ([Pool.Label.spawn 0 webRequest, .spawn 1 webRequest] ++ handles [0, 1, 0, 1, 0, 1] ++
        [Pool.Label.env (.poll 0), .env (.poll 1), .spawn 2 (.dockerLogsStop "web".toList)] ++
        handles [2])).map (fun s => ([0, 1, 2].all (handled s), webStreams s)) =
      some (true, [⟨.stream webLogs, true, false, false⟩, ⟨.stream webLogs, true, true, false⟩],
        none) := by
    decide
  obtain ⟨s, hs, hseen⟩ := Option.map_eq_some_iff.mp hrun
  obtain ⟨hhandled, hseen⟩ := Prod.mk.inj hseen
  obtain ⟨htasks, hheld⟩ := Prod.mk.inj hseen
  simp only [List.all_cons, List.all_nil, Bool.and_true, Bool.and_eq_true] at hhandled
  obtain ⟨h₀, h₁, h₂⟩ := hhandled
  have htask : s.world.tasks[0]? = some ⟨.stream webLogs, true, false, false⟩ := by
    rw [htasks]
    rfl
  exact ⟨s, Machine.Reach.run (.init idleStreams_init) hs, h₀, h₁, h₂, ⟨_, htask, rfl, rfl⟩,
    ⟨_, htask, rfl⟩, hheld⟩

end ShellfleetAgent.Agent.Streams
