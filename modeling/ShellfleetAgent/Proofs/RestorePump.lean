import ShellfleetAgent.Agent.RestorePump

/-!
# A restore that waits for a `tar` that waits for it

The streams of `tar` are read only when the pump is through, so a write to them that does
not fit goes on only then; and the pump is through only if what the object has left fits
in `tar`'s stdin. As long as one of the two holds at every write of `tar` no circular wait
comes about, and where neither does there is no way round it.
-/

namespace ShellfleetAgent.Agent.Backup.Restoring

open ShellfleetAgent.Lib
open LogSources (Side)

variable {maxBytes : Nat} {uri dest : Str} {s s' : State} {label : Label}

/-! ## What is still to be pumped -/

/-- The bytes that `tar` would get of a body, with `total` bytes seen before. -/
def toCome (maxBytes : Nat) : Nat → List (Except Str Bytes) → Nat
  | _, [] | _, .error _ :: _ => 0
  | total, .ok chunk :: body =>
      let total := min (total + chunk.length) (UInt64.size - 1)
      if total > maxBytes then 0 else chunk.length + toCome maxBytes total body

/-- The bytes that are still to go into `tar`'s stdin. -/
def State.left (maxBytes : Nat) (s : State) : Nat :=
  match s.pump with
  | .pulling => toCome maxBytes s.totalBytes s.body
  | .writing _ rest => rest.length + toCome maxBytes s.totalBytes s.body
  | _ => 0

/-- A write of `tar` that fits in the pipe, or that comes when the rest of the object fits
in the other one. -/
def HasRoom (maxBytes : Nat) (s : State) : Label → Prop
  | .tarWrites stream data =>
      data.length ≤ (s.streams stream).room ∨ s.left maxBytes ≤ s.stdin.room
  | _ => True

instance (maxBytes : Nat) (s : State) (label : Label) : Decidable (HasRoom maxBytes s label) :=
  match label with
  | .tarWrites stream data => inferInstanceAs (Decidable
      (data.length ≤ (s.streams stream).room ∨ s.left maxBytes ≤ s.stdin.room))
  | .next | .put _ | .written | .writeFails _ | .shutdown | .kill | .drain _ _ | .waitFails _
  | .report | .tarReads _ | .tarPuts _ | .tarResumes | .tarExits _ => .isTrue trivial

theorem next_left (maxBytes : Nat) (hpump : s.pump = .pulling) :
    (s.next maxBytes).left maxBytes ≤ s.left maxBytes ∧
      (s.next maxBytes).stdin = s.stdin ∧ (s.next maxBytes).tar = s.tar ∧
      (s.next maxBytes).streams = s.streams := by
  have hleft : s.left maxBytes = toCome maxBytes s.totalBytes s.body := by
    rw [State.left, hpump]
  rw [hleft]
  unfold State.next
  split
  · exact ⟨Nat.zero_le _, rfl, rfl, rfl⟩
  · exact ⟨Nat.zero_le _, rfl, rfl, rfl⟩
  · next chunk body hbody =>
      rw [hbody, toCome]
      dsimp only
      split
      · exact ⟨Nat.zero_le _, rfl, rfl, rfl⟩
      · exact ⟨Nat.le_refl _, rfl, rfl, rfl⟩

/-! ## What a step does -/

/-- The steps, by what they do to the pipes. -/
inductive Moved (maxBytes : Nat) (s : State) (label : Label) (s' : State) : Prop
  | pumped (htar : s'.tar = s.tar) (hstreams : s'.streams = s.streams)
      (hleft : s.left maxBytes ≤ s.stdin.room → s'.left maxBytes ≤ s'.stdin.room)
  | drained (stream : Side) (n : Nat) (htar : s'.tar = s.tar)
      (hstreams : s'.streams = Function.update s.streams stream ((s.streams stream).drop n))
      (hleft : s'.left maxBytes = s.left maxBytes) (hstdin : s'.stdin = s.stdin)
  | read (n : Nat) (hs' : s' = { s with stdin := s.stdin.drop n }) (htar : s.tar = .running)
  | writes (stream : Side) (data : Bytes) (hlabel : label = .tarWrites stream data)
      (hs' : s' = { s with tar := .writing stream data })
  | puts (stream : Side) (rest : Bytes) (n : Nat) (pipe : Pipe)
      (htar : s.tar = .writing stream rest)
      (hput : (s.streams stream).put (rest.take n) = some pipe)
      (hs' : s' = { s with
        streams := Function.update s.streams stream pipe
        tar := .writing stream (rest.drop n) })
  | ended (tar : Tar) (htar : s'.tar = tar) (hnot : ∀ stream rest, tar ≠ .writing stream rest)

theorem step_moved (hs : s.step maxBytes uri dest label = some s') : Moved maxBytes s label s' := by
  cases label with
  | next =>
      simp only [State.step] at hs
      split at hs
      · next hpump =>
          cases hs
          obtain ⟨hleft, hstdin, htar, hstreams⟩ := next_left maxBytes hpump
          refine .pumped htar hstreams fun hle => ?_
          rw [hstdin]
          omega
      · cases hs
  | put n =>
      simp only [State.step] at hs
      split at hs
      · next chunk rest hpump =>
          split at hs
          · next hn =>
              obtain ⟨stdin, hput, heq⟩ := Option.map_eq_some_iff.mp hs
              subst heq
              obtain ⟨hfits, hroom⟩ := Pipe.put_eq_some hput
              refine .pumped rfl rfl fun hle => ?_
              rw [State.left, hpump] at hle
              rw [List.length_take] at hfits hroom
              show (rest.drop n).length + _ ≤ stdin.room
              rw [List.length_drop, hroom]
              dsimp only at hle ⊢
              omega
          · cases hs
      · cases hs
  | written =>
      simp only [State.step] at hs
      split at hs
      · next chunk hpump =>
          cases hs
          refine .pumped rfl rfl fun hle => ?_
          rw [State.left, hpump] at hle
          show toCome maxBytes s.totalBytes s.body ≤ s.stdin.room
          simpa using hle
      · cases hs
  | writeFails e =>
      simp only [State.step] at hs
      split at hs
      · cases hs
        exact .pumped rfl rfl fun _ => Nat.zero_le _
      · cases hs
  | shutdown =>
      simp only [State.step] at hs
      split at hs
      · cases hs
        exact .pumped rfl rfl fun _ => Nat.zero_le _
      · cases hs
        exact .pumped rfl rfl fun _ => Nat.zero_le _
      · cases hs
  | kill =>
      simp only [State.step] at hs
      split at hs
      · cases hs
        exact .ended (.exited none) rfl nofun
      · cases hs
  | drain stream n =>
      simp only [State.step] at hs
      split at hs
      · next hpump =>
          cases hs
          exact .drained stream n rfl rfl rfl rfl
      · cases hs
  | waitFails e =>
      simp only [State.step] at hs
      split at hs
      · cases hs
        exact .pumped rfl rfl fun _ => Nat.zero_le _
      · cases hs
  | report =>
      simp only [State.step] at hs
      split at hs
      · split at hs
        · cases hs
          exact .pumped rfl rfl fun _ => Nat.zero_le _
        · cases hs
      · cases hs
  | tarReads n =>
      simp only [State.step] at hs
      split at hs
      · next htar =>
          cases hs
          exact .read n rfl htar
      · cases hs
  | tarWrites stream data =>
      simp only [State.step] at hs
      split at hs
      · cases hs
        exact .writes stream data rfl rfl
      · cases hs
  | tarPuts n =>
      simp only [State.step] at hs
      split at hs
      · next stream rest htar =>
          split at hs
          · obtain ⟨pipe, hput, heq⟩ := Option.map_eq_some_iff.mp hs
            exact .puts stream rest n pipe htar hput heq.symm
          · cases hs
      · cases hs
  | tarResumes =>
      simp only [State.step] at hs
      split at hs
      · cases hs
        exact .ended .running rfl nofun
      · cases hs
  | tarExits code =>
      simp only [State.step] at hs
      split at hs
      · cases hs
      · cases hs
        exact .ended (.exited code) rfl nofun

/-! ## No circular wait -/

/-- A write of `tar` that can end, or a pump that can. -/
def Clear (maxBytes : Nat) (s : State) : Prop :=
  ∀ stream rest, s.tar = .writing stream rest →
    rest.length ≤ (s.streams stream).room ∨ s.left maxBytes ≤ s.stdin.room

theorem Clear.step (hI : Clear maxBytes s) (hok : HasRoom maxBytes s label)
    (hs : s.step maxBytes uri dest label = some s') : Clear maxBytes s' := by
  intro stream rest htar
  cases step_moved hs with
  | pumped htar' hstreams hleft =>
      rw [htar'] at htar
      rw [hstreams]
      exact (hI stream rest htar).imp id hleft
  | drained drainedStream n htar' hstreams hleft hstdin =>
      rw [htar'] at htar
      rw [hstreams, hleft, hstdin]
      refine (hI stream rest htar).imp (fun hfits => hfits.trans ?_) id
      by_cases heq : stream = drainedStream
      · subst heq
        rw [Function.update_self]
        exact Pipe.le_room_drop
      · rw [Function.update_of_ne heq]
  | read n hs' htar' =>
      subst hs'
      exact absurd (htar'.symm.trans htar) nofun
  | writes writtenStream data hlabel hs' =>
      subst hlabel hs'
      cases htar
      exact hok
  | puts writtenStream before n pipe htar' hput hs' =>
      subst hs'
      cases htar
      obtain ⟨hfits, hroom⟩ := Pipe.put_eq_some hput
      refine (hI _ _ htar').imp (fun hle => ?_) id
      rw [List.length_take] at hfits hroom
      show (before.drop n).length ≤ (Function.update s.streams stream pipe stream).room
      rw [Function.update_self, List.length_drop, hroom]
      omega
  | ended tar htar' hnot => exact absurd (htar'.symm.trans htar) (hnot _ _)

theorem Clear.not_blocked (hI : Clear maxBytes s) : ¬ (s.PumpBlocked ∧ s.TarBlocked) := by
  intro hblocked
  obtain ⟨hpump, htar⟩ := hblocked
  unfold State.PumpBlocked at hpump
  unfold State.TarBlocked at htar
  split at hpump
  · next chunk rest heq =>
      split at htar
      · next stream data hwriting =>
          have hrest := List.length_pos_iff.mpr hpump.1
          have hdata := List.length_pos_iff.mpr htar.1
          have hor := hI stream data hwriting
          rw [State.left, heq] at hor
          dsimp only at hor
          omega
      · exact htar
  · exact hpump

/-- Where every write of `tar` has room, or the rest of the object has, the pump and `tar`
never wait for each other. -/
theorem never_both_blocked (hr : (restoring maxBytes uri dest).Reach (HasRoom maxBytes) s) :
    ¬ (s.PumpBlocked ∧ s.TarBlocked) := by
  refine Clear.not_blocked (hr.invariant (I := Clear maxBytes) ?_ ?_)
  · intro s hinit
    obtain ⟨body, stdin, streams, _, _, heq⟩ := hinit
    subst heq
    intro stream rest htar
    cases htar
  · intro s label s' _ hI hok hs
    exact hI.step hok hs

/-- A restore whose `tar` has a line to say. -/
theorem one_warning : ∃ s : State, s.tar = .writing .stderr [33] ∧
    ¬ (s.PumpBlocked ∧ s.TarBlocked) := by
  have hrun : ((restoring 10 [] []).runWithin (HasRoom 10) (spawned [.ok [1, 2]] 4 fun _ => 4)
      [.next, .put 1, .tarWrites .stderr [33]]).map State.tar = some (.writing .stderr [33]) := by
    decide
  obtain ⟨s, hs, htar⟩ := Option.map_eq_some_iff.mp hrun
  have hinit : (restoring 10 [] []).init (spawned [.ok [1, 2]] 4 fun _ => 4) :=
    ⟨_, _, _, by omega, fun _ => by omega, rfl⟩
  exact ⟨s, htar, never_both_blocked (Machine.Reach.runWithin (.init hinit) hs)⟩

/-! ## The circular wait -/

theorem step_put (maxBytes : Nat) (uri dest : Str) {chunk rest : Bytes}
    (hpump : s.pump = .writing chunk rest) {n : Nat} (hn : 0 < n) (hle : n ≤ rest.length)
    (hroom : n ≤ s.stdin.room) :
    ∃ stdin, stdin.room = s.stdin.room - n ∧ s.step maxBytes uri dest (.put n) =
      some { s with stdin, pump := .writing chunk (rest.drop n) } := by
  have hlen : (rest.take n).length = n := List.length_take_of_le hle
  have hfits : (rest.take n).length ≤ s.stdin.room := by omega
  obtain ⟨stdin, hput⟩ := Pipe.put_of_le hfits
  have hleft := (Pipe.put_eq_some hput).2
  rw [hlen] at hleft
  refine ⟨stdin, hleft, ?_⟩
  simp only [State.step, hpump, if_pos (And.intro hn hle), hput, Option.map_some]

theorem step_tarPuts (maxBytes : Nat) (uri dest : Str) {stream : Side} {rest : Bytes}
    (htar : s.tar = .writing stream rest) {n : Nat} (hn : 0 < n) (hle : n ≤ rest.length)
    (hroom : n ≤ (s.streams stream).room) :
    ∃ pipe, pipe.room = (s.streams stream).room - n ∧ s.step maxBytes uri dest (.tarPuts n) =
      some { s with
        streams := Function.update s.streams stream pipe
        tar := .writing stream (rest.drop n) } := by
  have hlen : (rest.take n).length = n := List.length_take_of_le hle
  have hfits : (rest.take n).length ≤ (s.streams stream).room := by omega
  obtain ⟨pipe, hput⟩ := Pipe.put_of_le hfits
  have hleft := (Pipe.put_eq_some hput).2
  rw [hlen] at hleft
  refine ⟨pipe, hleft, ?_⟩
  simp only [State.step, htar, if_pos (And.intro hn hle), hput, Option.map_some]

/-- From here on the two can come to wait for each other. -/
def Stuck (maxBytes : Nat) (uri dest : Str) (s : State) : Prop :=
  ∃ labels s', (restoring maxBytes uri dest).run s labels = some s' ∧
    s'.PumpBlocked ∧ s'.TarBlocked

theorem Stuck.now (hpump : s.PumpBlocked) (htar : s.TarBlocked) : Stuck maxBytes uri dest s :=
  ⟨[], s, rfl, hpump, htar⟩

theorem Stuck.after (hs : s.step maxBytes uri dest label = some s')
    (h : Stuck maxBytes uri dest s') : Stuck maxBytes uri dest s := by
  obtain ⟨labels, last, hrun, hblocked⟩ := h
  refine ⟨label :: labels, last, ?_, hblocked⟩
  show (s.step maxBytes uri dest label).bind _ = _
  rw [hs, Option.bind_some, hrun]

/-- A pump that comes to wait, with `tar` waiting already, wherever it takes up this body. -/
def Waits (maxBytes : Nat) (uri dest : Str) (total : Nat) (body : List (Except Str Bytes)) : Prop :=
  ∀ s : State, s.TarBlocked → s.pump = .pulling → s.body = body → s.totalBytes = total →
    s.stdin.room < toCome maxBytes total body → Stuck maxBytes uri dest s

theorem Waits.written {chunk : Bytes} (h : Waits maxBytes uri dest s.totalBytes s.body)
    (htar : s.TarBlocked) (hpump : s.pump = .writing chunk [])
    (hroom : s.stdin.room < toCome maxBytes s.totalBytes s.body) : Stuck maxBytes uri dest s := by
  have hs : s.step maxBytes uri dest .written =
      some { s with piped := s.piped ++ [chunk], pump := .pulling } := by
    simp only [State.step, hpump]
  refine Stuck.after hs ?_
  exact h _ htar rfl rfl rfl hroom

/-- `write_all` fills the pipe, or gets through and goes on with the rest of the body. -/
theorem Waits.writing {chunk rest : Bytes} (h : Waits maxBytes uri dest s.totalBytes s.body)
    (htar : s.TarBlocked) (hpump : s.pump = .writing chunk rest)
    (hroom : s.stdin.room < rest.length + toCome maxBytes s.totalBytes s.body) :
    Stuck maxBytes uri dest s := by
  by_cases hall : rest.length ≤ s.stdin.room
  · by_cases hnil : rest = []
    · subst hnil
      rw [List.length_nil, Nat.zero_add] at hroom
      exact h.written htar hpump hroom
    · obtain ⟨stdin, hleft, hs⟩ :=
        step_put maxBytes uri dest hpump (List.length_pos_iff.mpr hnil) (Nat.le_refl _) hall
      refine Stuck.after hs ?_
      rw [List.drop_length]
      refine Waits.written h htar rfl ?_
      show stdin.room < toCome maxBytes s.totalBytes s.body
      omega
  · by_cases hfull : s.stdin.room = 0
    · refine .now ?_ htar
      unfold State.PumpBlocked
      rw [hpump]
      refine ⟨fun hnil => hall ?_, hfull⟩
      rw [hnil]
      exact Nat.zero_le _
    · obtain ⟨stdin, hleft, hs⟩ :=
        step_put maxBytes uri dest hpump (Nat.pos_of_ne_zero hfull) (by omega) (Nat.le_refl _)
      refine Stuck.after hs (.now ⟨fun hnil => ?_, ?_⟩ htar)
      · have hlen := congrArg List.length hnil
        rw [List.length_drop, List.length_nil] at hlen
        omega
      · show stdin.room = 0
        omega

/-- The induction is on the body: every chunk that fits brings the pump to the next. -/
theorem waits (total : Nat) (body : List (Except Str Bytes)) :
    Waits maxBytes uri dest total body := by
  induction body generalizing total with
  | nil =>
      intro s _ _ _ _ hroom
      exact absurd hroom (Nat.not_lt_zero _)
  | cons item body ih =>
      intro s htar hpump hbody htotal hroom
      cases item with
      | error e => exact absurd hroom (Nat.not_lt_zero _)
      | ok chunk =>
          rw [toCome] at hroom
          split at hroom
          · exact absurd hroom (Nat.not_lt_zero _)
          · next hle =>
              have hs : s.step maxBytes uri dest .next = some { s with
                  body, totalBytes := min (total + chunk.length) (UInt64.size - 1)
                  pump := .writing chunk chunk } := by
                simp only [State.step, hpump, State.next, hbody, htotal, if_neg hle]
              refine Stuck.after hs ?_
              exact Waits.writing (ih _) htar rfl hroom

theorem blocked_stuck (htar : s.TarBlocked) (hleft : s.stdin.room < s.left maxBytes) :
    Stuck maxBytes uri dest s := by
  unfold State.left at hleft
  split at hleft
  · next hpump => exact waits _ _ s htar hpump rfl rfl hleft
  · next chunk rest hpump => exact (waits _ _).writing htar hpump hleft
  · exact absurd hleft (Nat.not_lt_zero _)

/-- A write of `tar` for which there is no room, while there is none for the rest of the
object, leads to a circular wait. -/
theorem stuck_of_no_room (stream : Side) (data : Bytes) (htar : s.tar = .running)
    (hno : ¬ HasRoom maxBytes s (.tarWrites stream data)) : Stuck maxBytes uri dest s := by
  obtain ⟨hdata, hleft⟩ := not_or.mp hno
  have hwrites : s.step maxBytes uri dest (.tarWrites stream data) =
      some { s with tar := .writing stream data } := by
    simp only [State.step, htar]
  refine Stuck.after hwrites ?_
  by_cases hfull : (s.streams stream).room = 0
  · refine blocked_stuck ⟨fun hnil => hdata ?_, hfull⟩ (Nat.not_le.mp hleft)
    rw [hnil]
    exact Nat.zero_le _
  · obtain ⟨pipe, hroom, hs⟩ := step_tarPuts maxBytes uri dest
      (s := { s with tar := .writing stream data }) rfl (Nat.pos_of_ne_zero hfull) (by omega)
      (Nat.le_refl _)
    refine Stuck.after hs (blocked_stuck ⟨fun hnil => ?_, ?_⟩ (Nat.not_le.mp hleft))
    · have hlen := congrArg List.length hnil
      rw [List.length_drop, List.length_nil] at hlen
      omega
    · show (Function.update s.streams stream pipe stream).room = 0
      rw [Function.update_self, hroom]
      exact Nat.sub_self _

/-! Pipes of 64 KiB, an object one byte longer, and warnings of `tar` as long. -/

def crowded : State :=
  spawned [.ok (List.replicate 65537 0)] 65536 fun _ => 65536

theorem crowded_left : crowded.left s3RestoreMaxBytesDefault = 65537 := by
  show toCome s3RestoreMaxBytesDefault 0 [.ok (List.replicate 65537 0)] = 65537
  rw [toCome, List.length_replicate, toCome]
  rfl

theorem warnings_block : (restoring s3RestoreMaxBytesDefault [] []).init crowded ∧
    ∃ labels s, (restoring s3RestoreMaxBytesDefault [] []).run crowded labels = some s ∧
      s.PumpBlocked ∧ s.TarBlocked := by
  refine ⟨⟨_, _, _, by omega, fun _ => by omega, rfl⟩, ?_⟩
  refine stuck_of_no_room .stderr (List.replicate 65537 32) rfl ?_
  show ¬ (_ ≤ 65536 ∨ _ ≤ 65536)
  rw [crowded_left, List.length_replicate]
  omega

/-! ## What a step does to the pump -/

/-- The steps, by what becomes of the pump. -/
inductive Advanced (maxBytes : Nat) (uri dest : Str) (s : State) : Label → State → Prop
  | quiet {label : Label} {s' : State} (hlabel : label ≠ .kill ∧ ∀ e, label ≠ .writeFails e)
      (hpump : s'.pump = s.pump) (hpiped : s'.piped = s.piped) (hbody : s'.body = s.body)
      (htotal : s'.totalBytes = s.totalBytes) (hobject : s'.object = s.object)
      (htar : ∀ code, s.tar = .exited code → s'.tar = .exited code) :
      Advanced maxBytes uri dest s label s'
  | next (hpump : s.pump = .pulling) : Advanced maxBytes uri dest s .next (s.next maxBytes)
  | put (n : Nat) (chunk rest : Bytes) (stdin : Pipe) (hpump : s.pump = .writing chunk rest) :
      Advanced maxBytes uri dest s (.put n) { s with stdin, pump := .writing chunk (rest.drop n) }
  | written (chunk : Bytes) (hpump : s.pump = .writing chunk []) :
      Advanced maxBytes uri dest s .written { s with piped := s.piped ++ [chunk], pump := .pulling }
  | writeFails (chunk rest : Bytes) (e : Str) (hpump : s.pump = .writing chunk rest) :
      Advanced maxBytes uri dest s (.writeFails e) { s with pump := .closing (some (.tarStdin e)) }
  | ending (hpump : s.pump = .closing none) :
      Advanced maxBytes uri dest s .shutdown { s with pump := .waiting }
  | failing (e : BackupError) (hpump : s.pump = .closing (some e)) :
      Advanced maxBytes uri dest s .shutdown { s with pump := .killing e }
  | killed (e : BackupError) (hpump : s.pump = .killing e) :
      Advanced maxBytes uri dest s .kill
        { s with tar := .exited none, pump := .returned (restoreFailed [] e) }
  | waitFails (e : Str) (hpump : s.pump = .waiting) :
      Advanced maxBytes uri dest s (.waitFails e)
        { s with pump := .returned (restoreFailed [] (.tarWait e)) }
  | reported (code : Option Int) (hpump : s.pump = .waiting) (htar : s.tar = .exited code) :
      Advanced maxBytes uri dest s .report
        { s with pump := .returned (reportRestored uri dest [] (s.output code)) }

theorem step_advanced (hs : s.step maxBytes uri dest label = some s') :
    Advanced maxBytes uri dest s label s' := by
  cases label with
  | next =>
      simp only [State.step] at hs
      split at hs
      · next hpump =>
          cases hs
          exact .next hpump
      · cases hs
  | put n =>
      simp only [State.step] at hs
      split at hs
      · next chunk rest hpump =>
          split at hs
          · obtain ⟨stdin, _, heq⟩ := Option.map_eq_some_iff.mp hs
            subst heq
            exact .put n chunk rest stdin hpump
          · cases hs
      · cases hs
  | written =>
      simp only [State.step] at hs
      split at hs
      · next chunk hpump =>
          cases hs
          exact .written chunk hpump
      · cases hs
  | writeFails e =>
      simp only [State.step] at hs
      split at hs
      · next chunk rest hpump =>
          cases hs
          exact .writeFails chunk rest e hpump
      · cases hs
  | shutdown =>
      simp only [State.step] at hs
      split at hs
      · next e hpump =>
          cases hs
          exact .failing e hpump
      · next hpump =>
          cases hs
          exact .ending hpump
      · cases hs
  | kill =>
      simp only [State.step] at hs
      split at hs
      · next e hpump =>
          cases hs
          exact .killed e hpump
      · cases hs
  | waitFails e =>
      simp only [State.step] at hs
      split at hs
      · next hpump =>
          cases hs
          exact .waitFails e hpump
      · cases hs
  | report =>
      simp only [State.step] at hs
      split at hs
      · next code hpump htar =>
          split at hs
          · cases hs
            exact .reported code hpump htar
          · cases hs
      · cases hs
  | drain stream n =>
      simp only [State.step] at hs
      split at hs
      · cases hs
        exact .quiet (by simp) rfl rfl rfl rfl rfl fun code htar => htar
      · cases hs
  | tarReads n =>
      simp only [State.step] at hs
      split at hs
      · cases hs
        exact .quiet (by simp) rfl rfl rfl rfl rfl fun code htar => htar
      · cases hs
  | tarWrites stream data =>
      simp only [State.step] at hs
      split at hs
      · next hrunning =>
          cases hs
          refine .quiet (by simp) rfl rfl rfl rfl rfl fun code htar => ?_
          rw [hrunning] at htar
          cases htar
      · cases hs
  | tarPuts n =>
      simp only [State.step] at hs
      split at hs
      · next stream rest hwriting =>
          split at hs
          · obtain ⟨pipe, _, heq⟩ := Option.map_eq_some_iff.mp hs
            subst heq
            refine .quiet (by simp) rfl rfl rfl rfl rfl fun code htar => ?_
            rw [hwriting] at htar
            cases htar
          · cases hs
      · cases hs
  | tarResumes =>
      simp only [State.step] at hs
      split at hs
      · next stream hwriting =>
          cases hs
          refine .quiet (by simp) rfl rfl rfl rfl rfl fun code htar => ?_
          rw [hwriting] at htar
          cases htar
      · cases hs
  | tarExits code =>
      simp only [State.step] at hs
      split at hs
      · cases hs
      · next hrunning =>
          cases hs
          exact .quiet (by simp) rfl rfl rfl rfl rfl fun code htar => absurd htar (hrunning code)

/-! ## The same as `restoreS3` -/

/-- `restoreS3` from where `tar` is spawned. -/
def pumped (maxBytes : Nat) (uri dest : Str) (child : TarChild)
    (object : List (Except Str Bytes)) : List Bytes × Option RestoreReport :=
  match pump maxBytes child.write 0 0 object with
  | (piped, some e) => (piped, restoreFailed [] e)
  | (piped, none) =>
    match child.wait with
    | .error e => (piped, restoreFailed [] (.tarWait e))
    | .ok out => (piped, reportRestored uri dest [] out)

theorem restoreS3_eq {host : BackupHost} {after : HostFiles} {rest bucket key : Str}
    {object : List (Except Str Bytes)} {child : TarChild}
    (hsplit : Text.splitTwo '/' rest = (bucket, key)) (hnames : ¬ (bucket = [] ∨ key = []))
    (hget : host.s3GetObject bucket key = .ok object)
    (htar : host.tarPiped (tarExtractArgs (OsStr.ofChars ['-']) dest) = .ok child) :
    ((restoreS3 host after rest dest).piped, (restoreS3 host after rest dest).report) =
      pumped (s3RestoreMaxBytes host.vars) ("s3://".toList ++ bucket ++ ['/'] ++ key) dest child
        object := by
  unfold restoreS3 pumped
  simp only [hsplit, if_neg hnames, hget, htar]
  obtain ⟨piped, err⟩ := pump (s3RestoreMaxBytes host.vars) child.write 0 0 object
  cases err with
  | some e => rfl
  | none => cases child.wait <;> rfl

/-- What is piped so far, and what a `tar` makes of the rest. -/
def Pumps (maxBytes : Nat) (uri dest : Str) (s : State) : Prop :=
  match s.pump with
  | .pulling => ∀ write : Nat → Option Str, (∀ i < s.piped.length, write i = none) →
      pump maxBytes write 0 0 s.object =
        (s.piped ++ (pump maxBytes write s.piped.length s.totalBytes s.body).1,
          (pump maxBytes write s.piped.length s.totalBytes s.body).2)
  | .writing chunk _ => ∀ write : Nat → Option Str, (∀ i < s.piped.length, write i = none) →
      pump maxBytes write 0 0 s.object =
        match write s.piped.length with
        | some e => (s.piped, some (.tarStdin e))
        | none =>
          (s.piped ++ chunk :: (pump maxBytes write (s.piped.length + 1) s.totalBytes s.body).1,
            (pump maxBytes write (s.piped.length + 1) s.totalBytes s.body).2)
  | .closing pipeErr => ∃ write, pump maxBytes write 0 0 s.object = (s.piped, pipeErr)
  | .killing e => ∃ write, pump maxBytes write 0 0 s.object = (s.piped, some e)
  | .waiting => ∃ write, pump maxBytes write 0 0 s.object = (s.piped, none)
  | .returned report => ∃ child, pumped maxBytes uri dest child s.object = (s.piped, report)

/-- A step that leaves the pump alone. -/
theorem Pumps.same (hI : Pumps maxBytes uri dest s) (hpump : s'.pump = s.pump)
    (hpiped : s'.piped = s.piped) (hbody : s'.body = s.body)
    (htotal : s'.totalBytes = s.totalBytes) (hobject : s'.object = s.object) :
    Pumps maxBytes uri dest s' := by
  unfold Pumps at hI ⊢
  rw [hpump, hpiped, hbody, htotal, hobject]
  exact hI

theorem Pumps.next (hI : Pumps maxBytes uri dest s) (hpump : s.pump = .pulling) :
    Pumps maxBytes uri dest (s.next maxBytes) := by
  unfold Pumps at hI
  rw [hpump] at hI
  dsimp only at hI
  unfold State.next
  split
  · next hbody =>
      refine ⟨fun _ => none, ?_⟩
      rw [hI _ fun _ _ => rfl, hbody, pump, List.append_nil]
  · next e body hbody =>
      refine ⟨fun _ => none, ?_⟩
      rw [hI _ fun _ _ => rfl, hbody, pump, List.append_nil]
  · next chunk body hbody =>
      dsimp only
      split
      · next hlong =>
          refine ⟨fun _ => none, ?_⟩
          rw [hI _ fun _ _ => rfl, hbody, pump, if_pos hlong, List.append_nil]
      · next hlong =>
          intro write hwrite
          show pump maxBytes write 0 0 s.object = _
          rw [hI write hwrite, hbody, pump, if_neg hlong]
          dsimp only
          cases write s.piped.length with
          | none => rfl
          | some e => rw [List.append_nil]

theorem Pumps.written {chunk rest : Bytes} (hI : Pumps maxBytes uri dest s)
    (hpump : s.pump = .writing chunk rest) :
    Pumps maxBytes uri dest { s with piped := s.piped ++ [chunk], pump := .pulling } := by
  unfold Pumps at hI
  rw [hpump] at hI
  dsimp only at hI
  intro write hwrite
  rw [List.length_append] at hwrite
  show pump maxBytes write 0 0 s.object = _
  rw [hI write fun i hi => hwrite i (by omega), hwrite s.piped.length (by simp)]
  simp

theorem Pumps.writeFails {chunk rest : Bytes} {e : Str} (hI : Pumps maxBytes uri dest s)
    (hpump : s.pump = .writing chunk rest) :
    Pumps maxBytes uri dest { s with pump := .closing (some (.tarStdin e)) } := by
  unfold Pumps at hI
  rw [hpump] at hI
  dsimp only at hI
  refine ⟨fun i => if i < s.piped.length then none else some e, ?_⟩
  show pump maxBytes _ 0 0 s.object = _
  rw [hI _ fun i hi => if_pos hi, if_neg (Nat.lt_irrefl _)]

theorem Pumps.step (hI : Pumps maxBytes uri dest s)
    (hs : s.step maxBytes uri dest label = some s') : Pumps maxBytes uri dest s' := by
  cases step_advanced hs with
  | quiet hlabel hpump hpiped hbody htotal hobject htar =>
      exact hI.same hpump hpiped hbody htotal hobject
  | next hpump => exact hI.next hpump
  | put n chunk rest stdin hpump =>
      unfold Pumps at hI
      rw [hpump] at hI
      exact hI
  | written chunk hpump => exact hI.written hpump
  | writeFails chunk rest e hpump => exact hI.writeFails hpump
  | ending hpump =>
      unfold Pumps at hI
      rw [hpump] at hI
      exact hI
  | failing e hpump =>
      unfold Pumps at hI
      rw [hpump] at hI
      exact hI
  | killed e hpump =>
      unfold Pumps at hI
      rw [hpump] at hI
      obtain ⟨write, hwrite⟩ := hI
      refine ⟨⟨write, .error []⟩, ?_⟩
      rw [pumped, hwrite]
  | waitFails e hpump =>
      unfold Pumps at hI
      rw [hpump] at hI
      obtain ⟨write, hwrite⟩ := hI
      refine ⟨⟨write, .error e⟩, ?_⟩
      rw [pumped, hwrite]
  | reported code hpump htar =>
      unfold Pumps at hI
      rw [hpump] at hI
      obtain ⟨write, hwrite⟩ := hI
      refine ⟨⟨write, .ok (s.output code)⟩, ?_⟩
      rw [pumped, hwrite]

/-- A restore that returns does what `restoreS3` does with some `tar`. -/
theorem returned_pumped {report : Option RestoreReport}
    (hr : (restoring maxBytes uri dest).Reachable s) (hreturned : s.pump = .returned report) :
    ∃ child, pumped maxBytes uri dest child s.object = (s.piped, report) := by
  have hI : Pumps maxBytes uri dest s := by
    refine hr.invariant (I := Pumps maxBytes uri dest) ?_ ?_
    · intro s hinit
      obtain ⟨body, stdin, streams, _, _, heq⟩ := hinit
      subst heq
      intro write _
      rfl
    · intro s label s' _ hI _ hs
      exact hI.step hs
  unfold Pumps at hI
  rw [hreturned] at hI
  exact hI

end ShellfleetAgent.Agent.Backup.Restoring
