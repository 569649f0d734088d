import ShellfleetAgent.Proofs.RestorePump

/-!
# What a restore has given to `tar`

Chunks go to `tar` whole and in order, and one that would take them past the limit does not
go at all. So a restore that succeeds has given it the object, and one that was interrupted,
by the body, by the limit or by `tar`'s stdin, ends with `tar` killed.
-/

namespace ShellfleetAgent.Agent.Backup.Restoring

open ShellfleetAgent.Lib

variable {maxBytes : Nat} {uri dest : Str} {s s' : State} {label : Label} {labels : List Label}
  {body : List (Except Str Bytes)}

/-- The bytes in the chunks of a body. -/
def bodyBytes : List (Except Str Bytes) → Nat
  | [] => 0
  | .error _ :: body => bodyBytes body
  | .ok chunk :: body => chunk.length + bodyBytes body

@[simp] theorem bodyBytes_append (body body' : List (Except Str Bytes)) :
    bodyBytes (body ++ body') = bodyBytes body + bodyBytes body' := by
  induction body with
  | nil => exact (Nat.zero_add _).symm
  | cons item body ih =>
      rw [List.cons_append]
      cases item with
      | error e => exact ih
      | ok chunk => rw [bodyBytes, bodyBytes, ih, Nat.add_assoc]

/-- What is in `tar`'s stdin, as items of the body. -/
def State.given (s : State) : List (Except Str Bytes) := s.piped.map .ok

/-- What stops the loop before the body is through. -/
def Interrupted (maxBytes : Nat) (body : List (Except Str Bytes)) (labels : List Label) : Prop :=
  maxBytes < bodyBytes body ∨ (∃ e, .error e ∈ body) ∨ ∃ e, .writeFails e ∈ labels

/-- Neither a write that failed nor a kill so far. -/
def Undisturbed (labels : List Label) : Prop :=
  .kill ∉ labels ∧ ∀ e, .writeFails e ∉ labels

theorem unkilled_concat (h : .kill ∉ labels) (hkill : label ≠ .kill) :
    .kill ∉ labels ++ [label] := by
  intro hmem
  cases List.mem_append.mp hmem with
  | inl hbefore => exact h hbefore
  | inr hlast => exact hkill (List.mem_singleton.mp hlast).symm

theorem Undisturbed.concat (h : Undisturbed labels) (hkill : label ≠ .kill)
    (hwrite : ∀ e, label ≠ .writeFails e) : Undisturbed (labels ++ [label]) := by
  refine ⟨unkilled_concat h.1 hkill, fun e hmem => ?_⟩
  cases List.mem_append.mp hmem with
  | inl hbefore => exact h.2 e hbefore
  | inr hlast => exact hwrite e (List.mem_singleton.mp hlast).symm

theorem Interrupted.concat (h : Interrupted maxBytes body labels) :
    Interrupted maxBytes body (labels ++ [label]) := by
  refine h.imp id fun hlater => hlater.imp id fun hwrite => ?_
  obtain ⟨e, hmem⟩ := hwrite
  exact ⟨e, List.mem_append_left _ hmem⟩

/-- What was given to `tar` is the start of the body, and within the limit. -/
structure Aligned (maxBytes : Nat) (body : List (Except Str Bytes)) (s : State) : Prop where
  start : s.given <+: body
  fits : bodyBytes s.given ≤ maxBytes

/-- The whole body is given, and nothing stood in the way. -/
structure Whole (maxBytes : Nat) (body : List (Except Str Bytes)) (labels : List Label)
    (s : State) : Prop where
  undisturbed : Undisturbed labels
  all : body = s.given
  fits : bodyBytes s.given ≤ maxBytes

theorem Whole.not_interrupted (h : Whole maxBytes body labels s) :
    ¬ Interrupted maxBytes body labels := by
  intro hinterrupted
  cases hinterrupted with
  | inl hlong =>
      have hfits := h.fits
      rw [← h.all] at hfits
      omega
  | inr hfailed =>
      cases hfailed with
      | inl hbody =>
          obtain ⟨e, hmem⟩ := hbody
          rw [h.all] at hmem
          obtain ⟨chunk, _, heq⟩ := List.mem_map.mp hmem
          cases heq
      | inr hwrite =>
          obtain ⟨e, hmem⟩ := hwrite
          exact h.undisturbed.2 e hmem

/-- How far a restore of `body` has come, at each place of its loop and behind it. -/
def Standing (maxBytes : Nat) (body : List (Except Str Bytes)) (labels : List Label)
    (s : State) : Prop :=
  match s.pump with
  | .pulling => Undisturbed labels ∧ body = s.given ++ s.body ∧
      s.totalBytes = min (bodyBytes s.given) (UInt64.size - 1)
  | .writing chunk _ => Undisturbed labels ∧ body = s.given ++ .ok chunk :: s.body ∧
      s.totalBytes = min (bodyBytes s.given + chunk.length) (UInt64.size - 1) ∧
      s.totalBytes ≤ maxBytes
  | .closing none | .waiting => Undisturbed labels ∧ body = s.given
  | .closing (some _) | .killing _ => .kill ∉ labels ∧ Interrupted maxBytes body labels
  | .returned report =>
      (Undisturbed labels ∧ body = s.given ∧
        ∀ r, report = some r → r.success → s.tar = .exited (some 0)) ∨
      (.kill ∈ labels ∧ Interrupted maxBytes body labels ∧ ∃ e, report = restoreFailed [] e)

structure Delivers (maxBytes : Nat) (body : List (Except Str Bytes)) (labels : List Label)
    (s : State) : Prop where
  aligned : Aligned maxBytes body s
  standing : Standing maxBytes body labels s

theorem Aligned.same (h : Aligned maxBytes body s) (hpiped : s'.piped = s.piped) :
    Aligned maxBytes body s' := by
  have hgiven : s'.given = s.given := by rw [State.given, State.given, hpiped]
  constructor
  · rw [hgiven]
    exact h.start
  · rw [hgiven]
    exact h.fits

/-- The next item is given to `tar`, is the end, or interrupts the restore. -/
theorem Delivers.next (h : Delivers maxBytes body labels s) (hpump : s.pump = .pulling) :
    Delivers maxBytes body (labels ++ [Label.next]) (s.next maxBytes) := by
  have hstanding := h.standing
  unfold Standing at hstanding
  rw [hpump] at hstanding
  obtain ⟨hundisturbed, hbody, htotal⟩ := hstanding
  have hafter : Undisturbed (labels ++ [Label.next]) := hundisturbed.concat nofun nofun
  unfold State.next
  split
  · next hnil =>
      rw [hnil, List.append_nil] at hbody
      exact ⟨h.aligned.same rfl, hafter, hbody⟩
  · next e rest hitem =>
      refine ⟨h.aligned.same rfl, hafter.1, .inr (.inl ⟨e, ?_⟩)⟩
      rw [hbody, hitem]
      exact List.mem_append_right _ (List.mem_cons_self ..)
  · next chunk rest hitem =>
      rw [hitem] at hbody
      dsimp only
      split
      · next hlong =>
          refine ⟨h.aligned.same rfl, hafter.1, .inl ?_⟩
          rw [hbody, bodyBytes_append, bodyBytes]
          omega
      · next hle =>
          refine ⟨h.aligned.same rfl, hafter, hbody, ?_, Nat.not_lt.mp hle⟩
          show min (s.totalBytes + chunk.length) _ = min (bodyBytes s.given + chunk.length) _
          omega

/-- A chunk that is through. The counter stays below what was given only where it is full,
and so many bytes are not in the bucket. -/
theorem Delivers.written {chunk : Bytes}
    (hs3 : maxBytes < UInt64.size - 1 ∨ bodyBytes body < UInt64.size)
    (h : Delivers maxBytes body labels s) (hpump : s.pump = .writing chunk []) :
    Delivers maxBytes body (labels ++ [Label.written])
      { s with piped := s.piped ++ [chunk], pump := .pulling } := by
  have hstanding := h.standing
  unfold Standing at hstanding
  rw [hpump] at hstanding
  obtain ⟨hundisturbed, hbody, htotal, hle⟩ := hstanding
  have hgiven : State.given { s with piped := s.piped ++ [chunk], pump := .pulling } =
      s.given ++ [Except.ok chunk] := List.map_append
  have hbytes : bodyBytes (s.given ++ [Except.ok chunk]) = bodyBytes s.given + chunk.length := by
    rw [bodyBytes_append, bodyBytes, bodyBytes, Nat.add_zero]
  have hless : bodyBytes s.given + chunk.length ≤ bodyBytes body := by
    rw [hbody, bodyBytes_append, bodyBytes]
    omega
  have hbody' : body = s.given ++ [Except.ok chunk] ++ s.body := by
    rw [hbody, List.append_assoc, List.singleton_append]
  refine ⟨⟨?_, ?_⟩, hundisturbed.concat nofun nofun, ?_, ?_⟩
  · rw [hgiven]
    exact ⟨s.body, hbody'.symm⟩
  · rw [hgiven, hbytes]
    omega
  · rw [hgiven]
    exact hbody'
  · rw [hgiven, hbytes]
    exact htotal

theorem reportRestored_success {log : Str} {out : Output} {report : RestoreReport}
    (h : reportRestored uri dest log out = some report) (hsuccess : report.success) :
    out.code = some 0 := by
  unfold reportRestored at h
  split at h
  · cases h
  · split at h
    · cases h
      cases hsuccess
    · next hexit => simpa [Output.success] using hexit

theorem Delivers.step (hs3 : maxBytes < UInt64.size - 1 ∨ bodyBytes body < UInt64.size)
    (h : Delivers maxBytes body labels s) (hs : s.step maxBytes uri dest label = some s') :
    Delivers maxBytes body (labels ++ [label]) s' := by
  have hstanding := h.standing
  unfold Standing at hstanding
  cases step_advanced hs with
  | quiet hlabel hpump hpiped hbody htotal hobject htar =>
      have hgiven : s'.given = s.given := by rw [State.given, State.given, hpiped]
      refine ⟨h.aligned.same hpiped, ?_⟩
      unfold Standing
      rw [hpump, hgiven, hbody, htotal]
      split at hstanding
      · exact ⟨hstanding.1.concat hlabel.1 hlabel.2, hstanding.2⟩
      · exact ⟨hstanding.1.concat hlabel.1 hlabel.2, hstanding.2⟩
      · exact ⟨hstanding.1.concat hlabel.1 hlabel.2, hstanding.2⟩
      · exact ⟨hstanding.1.concat hlabel.1 hlabel.2, hstanding.2⟩
      · exact ⟨unkilled_concat hstanding.1 hlabel.1, hstanding.2.concat⟩
      · exact ⟨unkilled_concat hstanding.1 hlabel.1, hstanding.2.concat⟩
      · refine hstanding.imp (fun hwhole => ?_) fun hkilled => ?_
        · exact ⟨hwhole.1.concat hlabel.1 hlabel.2, hwhole.2.1,
            fun r hr hsuccess => htar _ (hwhole.2.2 r hr hsuccess)⟩
        · exact ⟨List.mem_append_left _ hkilled.1, hkilled.2.1.concat, hkilled.2.2⟩
  | next hpump => exact h.next hpump
  | put n chunk rest stdin hpump =>
      rw [hpump] at hstanding
      exact ⟨h.aligned.same rfl, hstanding.1.concat nofun nofun, hstanding.2⟩
  | written chunk hpump => exact h.written hs3 hpump
  | writeFails chunk rest e hpump =>
      rw [hpump] at hstanding
      exact ⟨h.aligned.same rfl, unkilled_concat hstanding.1.1 nofun, .inr (.inr ⟨e, by simp⟩)⟩
  | ending hpump =>
      rw [hpump] at hstanding
      exact ⟨h.aligned.same rfl, hstanding.1.concat nofun nofun, hstanding.2⟩
  | failing e hpump =>
      rw [hpump] at hstanding
      exact ⟨h.aligned.same rfl, unkilled_concat hstanding.1 nofun, hstanding.2.concat⟩
  | killed e hpump =>
      rw [hpump] at hstanding
      exact ⟨h.aligned.same rfl, .inr ⟨by simp, hstanding.2.concat, e, rfl⟩⟩
  | waitFails e hpump =>
      rw [hpump] at hstanding
      refine ⟨h.aligned.same rfl, .inl ⟨hstanding.1.concat nofun nofun, hstanding.2, ?_⟩⟩
      intro r hr hsuccess
      cases hr
      cases hsuccess
  | reported code hpump htar =>
      rw [hpump] at hstanding
      refine ⟨h.aligned.same rfl, .inl ⟨hstanding.1.concat nofun nofun, hstanding.2, ?_⟩⟩
      intro r hr hsuccess
      have hcode := reportRestored_success hr hsuccess
      show s.tar = .exited (some 0)
      rw [htar]
      exact congrArg _ hcode

theorem spawned_delivers (stdin : Nat) (streams : LogSources.Side → Nat) :
    Delivers maxBytes body [] (spawned body stdin streams) := by
  refine ⟨⟨List.nil_prefix, Nat.zero_le _⟩, ⟨nofun, nofun⟩, rfl, ?_⟩
  exact (Nat.zero_min _).symm

theorem run_delivers (hs3 : maxBytes < UInt64.size - 1 ∨ bodyBytes body < UInt64.size)
    {stdin : Nat} {streams : LogSources.Side → Nat}
    (hrun : (restoring maxBytes uri dest).run (spawned body stdin streams) labels = some s) :
    Delivers maxBytes body labels s := by
  have hrun' := Machine.run_history (I := Delivers maxBytes body)
    (fun _ _ _ _ h hs => h.step hs3 hs) (spawned_delivers stdin streams) hrun
  exact hrun'

theorem Delivers.whole (h : Delivers maxBytes body labels s) (hundisturbed : Undisturbed labels)
    (hbody : body = s.given) : Whole maxBytes body labels s :=
  ⟨hundisturbed, hbody, h.aligned.fits⟩

theorem Delivers.success {report : RestoreReport} (h : Delivers maxBytes body labels s)
    (hreturned : s.pump = .returned (some report)) (hsuccess : report.success) :
    Whole maxBytes body labels s ∧ s.tar = .exited (some 0) := by
  have hstanding := h.standing
  unfold Standing at hstanding
  rw [hreturned] at hstanding
  cases hstanding with
  | inl hwhole =>
      obtain ⟨hundisturbed, hbody, htar⟩ := hwhole
      exact ⟨h.whole hundisturbed hbody, htar report rfl hsuccess⟩
  | inr hkilled =>
      obtain ⟨_, _, e, hfailed⟩ := hkilled
      cases hfailed
      cases hsuccess

theorem Delivers.killed {report : Option RestoreReport} (h : Delivers maxBytes body labels s)
    (hinterrupted : Interrupted maxBytes body labels) (hreturned : s.pump = .returned report) :
    .kill ∈ labels ∧ ∃ e, report = restoreFailed [] e := by
  have hstanding := h.standing
  unfold Standing at hstanding
  rw [hreturned] at hstanding
  cases hstanding with
  | inl hwhole => exact absurd hinterrupted (h.whole hwhole.1 hwhole.2.1).not_interrupted
  | inr hkilled => exact ⟨hkilled.1, hkilled.2.2⟩

theorem Delivers.not_waiting (h : Delivers maxBytes body labels s)
    (hinterrupted : Interrupted maxBytes body labels) : s.pump ≠ .waiting := by
  intro hwaiting
  have hstanding := h.standing
  unfold Standing at hstanding
  rw [hwaiting] at hstanding
  exact (h.whole hstanding.1 hstanding.2).not_interrupted hinterrupted

theorem run_kill (s : State) {e : BackupError} (hpump : s.pump = .closing (some e)) :
    (restoring maxBytes uri dest).run s [.shutdown, .kill] =
      some { s with tar := .exited none, pump := .returned (restoreFailed [] e) } := by
  simp only [Machine.run, restoring, State.step, hpump, Option.bind_some]

/-- `tar` gets the start of the object, chunk by chunk and within the limit; a success has
given it all of the object, and an interruption is the end of `tar` and a failure. That no
object has 2^64 bytes matters only where the limit is the greatest there is. -/
theorem restore_delivers (vars : Vars) (uri dest : Str) (body : List (Except Str Bytes))
    (stdin : Nat) (streams : LogSources.Side → Nat) (labels : List Label) {s : State}
    (hs3 : s3RestoreMaxBytes vars < UInt64.size - 1 ∨ bodyBytes body < UInt64.size)
    (hrun : (restoring (s3RestoreMaxBytes vars) uri dest).run (spawned body stdin streams)
      labels = some s) :
    (s.given <+: body ∧ bodyBytes s.given ≤ s3RestoreMaxBytes vars) ∧
      (∀ report, s.pump = .returned (some report) → report.success →
        s.given = body ∧ (∀ e, .error e ∉ body) ∧ (∀ e, .writeFails e ∉ labels) ∧
          s.tar = .exited (some 0)) ∧
      (Interrupted (s3RestoreMaxBytes vars) body labels → s.pump ≠ .waiting ∧
        ∀ report, s.pump = .returned report →
          .kill ∈ labels ∧ ∃ e, report = some ⟨false, [], some e⟩) ∧
      ∀ e, s.pump = .closing (some e) →
        ∃ s', (restoring (s3RestoreMaxBytes vars) uri dest).run s [.shutdown, .kill] = some s' ∧
          s'.tar = .exited none ∧ s'.pump = .returned (some ⟨false, [], some e⟩) := by
  have h := run_delivers hs3 hrun
  refine ⟨⟨h.aligned.start, h.aligned.fits⟩, ?_, ?_, ?_⟩
  · intro report hreturned hsuccess
    obtain ⟨hwhole, htar⟩ := h.success hreturned hsuccess
    refine ⟨hwhole.all.symm, fun e hmem => ?_, hwhole.undisturbed.2, htar⟩
    exact hwhole.not_interrupted (.inr (.inl ⟨e, hmem⟩))
  · intro hinterrupted
    exact ⟨h.not_waiting hinterrupted, fun report hreturned => h.killed hinterrupted hreturned⟩
  · intro e hpump
    exact ⟨_, run_kill s hpump, rfl, rfl⟩

/-- A limit of two bytes, and a second chunk that is one too many. -/
theorem restore_delivers_first_chunk :
    ∃ s, (restoring (s3RestoreMaxBytes ⟨none, none, some ['2']⟩) [] []).run
        (spawned [.ok [1, 2], .ok [3]] 4 fun _ => 4)
        [.next, .put 2, .written, .next, .shutdown, .kill] = some s ∧
      s.given <+: [.ok [1, 2], .ok [3]] ∧ s.piped = [[1, 2]] ∧
      ∀ report, s.pump = .returned report → ∃ e, report = some ⟨false, [], some e⟩ := by
  refine ⟨_, rfl, ?_⟩
  have h := restore_delivers ⟨none, none, some ['2']⟩ [] [] [.ok [1, 2], .ok [3]] 4 (fun _ => 4)
    [.next, .put 2, .written, .next, .shutdown, .kill] (.inl (by decide)) rfl
  exact ⟨h.1.1, rfl, fun report hreturned =>
    ((h.2.2.1 (.inl (by decide))).2 report hreturned).2⟩

end ShellfleetAgent.Agent.Backup.Restoring
