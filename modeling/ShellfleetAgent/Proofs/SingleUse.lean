import ShellfleetAgent.Proofs.Gate

/-!
# An approval is good once

What any interleaving of challenges and approvals does to the rows of
`trusted_requests`. A row is written twice in its life, by the insert and by
the commit that consumes it; everything else is `exec_cases` again. Restarting
the gate is killing every thread, so nothing here says it separately.
-/

namespace ShellfleetAgent.Privileged

open ShellfleetAgent.Lib

/-- Somewhere in this history a call of `approve` returned `Ok` for `id`. -/
def ApprovedIn (x : Externals) (h : GateHistory) (id : String) : Prop :=
  ∃ before e after g signed approver signature now m, h = before ++ e ++ after ∧
    Returns (GateState.approve x g signed approver signature now).run e (.ok m) ∧
    m.requestId = id

/-- Operations that can change a committed row. -/
def GateOp.Writes : GateOp → Prop
  | .insertPending .. | .commit => True
  | _ => False

variable {x : Externals} {s s' : GatePoolState} {t : Nat} {h : GateHistory} {id : String}

theorem ApprovedIn.won (ha : ApprovedIn x h id) (h₀ : GateHistory) :
    ∃ l, (ledger h₀).won ++ l ++ [id] <+: (ledger (h₀ ++ h)).won := by
  obtain ⟨before, e, after, g, signed, approver, signature, now, m, rfl, hr, rfl⟩ := ha
  obtain ⟨l, hl⟩ := won_append h₀ before
  have he := approve_won (h₀ ++ before) hr
  refine ⟨l, ?_⟩
  rw [hl, ← he]
  have hafter := won_append (h₀ ++ before ++ e) after
  simpa only [List.append_assoc] using hafter

theorem ApprovedIn.mem_won (ha : ApprovedIn x h id) : id ∈ (ledger h).won := by
  obtain ⟨l, hl⟩ := ha.won []
  exact hl.subset (List.mem_append_right _ (List.mem_singleton_self _))

/-- What one row may become, over any stretch of a run. -/
def RowsKept (w w' : GateWorld) : Prop :=
  ∀ id row, w.rows id = some row →
    ∃ row', w'.rows id = some row' ∧ row'.manifest = row.manifest ∧
      (row.status = "consumed" → row' = row)

theorem RowsKept.of_eq {w w' : GateWorld} (h : w'.rows = w.rows) : RowsKept w w' := by
  intro id row hr
  exact ⟨row, by rw [h]; exact hr, rfl, fun _ => rfl⟩

theorem rows_of_not_writes {w w' : GateWorld} {o : GateOp} {ch : GateChoice} {r : GateResp o}
    (ho : ¬o.Writes) (hx : w.exec t o ch = some (w', r)) : w'.rows = w.rows := by
  rcases GateWorld.exec_cases hx with ⟨_, rfl⟩ | ⟨id, m, e, hev, _⟩ | ⟨id, now, hev, hw⟩ |
    ⟨hev, _⟩ | ⟨e, hev, _⟩ | ⟨hev, rfl⟩
  · rfl
  · cases hev
    exact absurd trivial ho
  · rcases GateWorld.update_cases hw with ⟨rfl, _⟩ | ⟨row, _, _, _, _, rfl⟩ <;> rfl
  · cases hev
    exact absurd trivial ho
  · cases hev
    exact absurd trivial ho
  · exact w.discard_rows t

theorem GateInv.rowsKept {w w' : GateWorld} {v : Nat → Option GateTrace} (hI : GateInv w v)
    {o : GateOp} {ch : GateChoice} {r : GateResp o} (hx : w.exec t o ch = some (w', r)) :
    RowsKept w w' := by
  have hsettle : RowsKept w (w.settle t) := fun _ _ hr => hI.settle_consumed hr
  rcases GateWorld.exec_cases hx with ⟨_, rfl⟩ | ⟨id, m, e, hev, hw⟩ | ⟨id, now, hev, hw⟩ |
    ⟨hev, rfl⟩ | ⟨e, hev, rfl | rfl⟩ | ⟨hev, rfl⟩
  · exact .of_eq rfl
  · -- An insert is refused where there is a row.
    obtain ⟨_, hnone, _, hrows⟩ := GateWorld.insert_cases hw
    intro id' row hr
    have hne : id' ≠ id := by
      rintro rfl
      simp [hnone] at hr
    exact ⟨row, by rw [hrows, Function.update_of_ne hne]; exact hr, rfl, fun _ => rfl⟩
  · rcases GateWorld.update_cases hw with ⟨rfl, _⟩ | ⟨row, _, _, _, _, rfl⟩ <;> exact .of_eq rfl
  · exact hsettle
  · exact .of_eq rfl
  · exact hsettle
  · exact .of_eq (w.discard_rows t)

theorem rowsKept_run (hr : (gatePool x).Reachable s)
    {is : List (Pool.Label GateCall GateChoice GateEnv)}
    (h : (gatePool x).run s is = some s') : RowsKept s.world s'.world := by
  refine Machine.Reach.run_rel (R := fun s s' : GatePoolState => RowsKept s.world s'.world)
    (fun _ => .of_eq rfl) ?_ ?_ hr h
  · intro s₁ s₂ s₃ h₁ h₂ id row hr
    obtain ⟨row₂, hr₂, hm₂, hc₂⟩ := h₁ id row hr
    obtain ⟨row₃, hr₃, hm₃, hc₃⟩ := h₂ id row₂ hr₂
    refine ⟨row₃, hr₃, hm₃.trans hm₂, fun hs => ?_⟩
    obtain rfl := hc₂ hs
    exact hc₃ hs
  · intro s i s' hr hs
    rcases Pool.step_cases hs with ⟨t, c, w, rfl, _, hw, rfl⟩ |
      ⟨t, ch, c, o, k, hist, w, r, rfl, _, hx, rfl⟩ | ⟨t, c, l, hist, rfl, _, rfl⟩ |
      ⟨t, c, p, hist, rfl, _, _, rfl⟩ | ⟨e, w, rfl, hw, rfl⟩
    · cases hw
      exact .of_eq rfl
    · exact (gate_invariant hr).1.rowsKept hx
    · exact .of_eq rfl
    · exact .of_eq (s.world.discard_rows t)
    · cases e <;> cases hw <;> exact .of_eq rfl

/-- One step of an `approve` that has not called `commit` by the end of the run. -/
theorem approve_step_rows (hr : (gatePool x).Reachable s) {ch : GateChoice} {s₁ : GatePoolState}
    (hs : (gatePool x).step s (.act t ch) = some s₁)
    {is : List (Pool.Label GateCall GateChoice GateEnv)} (hrun : (gatePool x).run s₁ is = some s')
    {tr : GateTrace} (ht : s'.view t = some tr) (happrove : ¬tr.call.mayInsert)
    (hcommit : ∀ ev ∈ tr.hist, ev.op ≠ .commit) : s₁.world.rows = s.world.rows := by
  have hr₁ : (gatePool x).Reachable s₁ := .step hr trivial hs
  obtain ⟨c, o, k, hist, w, r, hu, hx, rfl⟩ := Pool.act_cases hs
  obtain ⟨tr', ht', hc, hgrown⟩ := Pool.trace_grows hr₁ hrun
    (Pool.State.view_eq (Function.update_self ..))
  rw [ht] at ht'
  cases ht'
  have hmay : (gateContract (gateEntry x) c).may hist o := ((gate_invariant hr).2 t _ hu).1
  refine rows_of_not_writes (fun hw => ?_) hx
  cases o with
  | insertPending id m e => exact happrove (hc ▸ hmay.2.1 id m e rfl)
  | commit =>
      have hmem : (⟨.commit, r⟩ : GateEvent) ∈ tr.hist :=
        hgrown.subset (List.mem_append_right _ (List.mem_singleton_self _))
      exact hcommit _ hmem rfl
  | _ => exact hw

/-- Wherever `approve` is called from, its commit is its only write. -/
theorem approve_writes {g : GateState} {signed : SignedTrustedManifest} {approver : Key}
    {signature : Bytes} {now : Int} :
    (g.approve x signed approver signature now).run.Only fun o => o.Writes → o = .commit := by
  have hquiet : ∀ o, Quiet (.approve g signed approver signature now) o →
      o.Writes → o = .commit := by
    intro o ho hw
    cases o <;> first | rfl | exact ho.elim | exact hw.elim
  refine .run_bind (quiet_checkApproval.mono hquiet) fun canonical => ?_
  refine .run_bind (only_ask .openDb nofun) fun _ => .run_bind ?_ fun _ => trivial
  refine .run_bind (only_ask .begin nofun) fun _ => .run_bind (only_always ?_) fun r => ?_
  · refine .run_bind (only_ask (.selectRequest _) nofun) fun selected => ?_
    split
    · trivial
    · split
      · trivial
      · refine .run_bind (only_ask (.updateConsumed ..) nofun) fun changed => ?_
        split
        · trivial
        · exact only_ask .commit fun _ => rfl
  · cases r with
    | ok a => trivial
    | error e => exact .run_bind (only_always (only_ask .rollback nofun)) fun _ => trivial

/-- Single use, over any interleaving of any number of challenges, approvals
and whole connections, killed at any point: `approve` returns `Ok` at most once
for a request id, in one thread or in two; rows keep their manifest, and once
consumed do not change; and an `approve` that has not called `commit` changed no
row on its way and, once it has returned, leaves nothing to be committed. The
last two parts say the same of an `approve` inside a connection: of its
operations only the commit can change a row. -/
theorem approval_single_use (hr : (gatePool x).Reachable s) :
    (∀ t u tr tr' id, s.view t = some tr → s.view u = some tr' →
      ApprovedIn x tr.hist id → ApprovedIn x tr'.hist id → t = u) ∧
    (∀ t tr h₁ h₂ id, s.view t = some tr → tr.hist = h₁ ++ h₂ →
      ApprovedIn x h₁ id → ¬ApprovedIn x h₂ id) ∧
    (∀ is s', (gatePool x).run s is = some s' → ∀ id row, s.world.rows id = some row →
      ∃ row', s'.world.rows id = some row' ∧ row'.manifest = row.manifest ∧
        (row.status = "consumed" → row' = row)) ∧
    (∀ t g signed approver signature now h live p,
      s.threads t = some ⟨⟨.approve g signed approver signature now, h, live⟩, p⟩ →
      (∀ ev ∈ h, ev.op ≠ .commit) →
      (∀ s₁ ch s₂ is, (gatePool x).Reachable s₁ → (gatePool x).step s₁ (.act t ch) = some s₂ →
        (gatePool x).run s₂ is = some s → s₂.world.rows = s₁.world.rows) ∧
      (∀ r, p = .ret (.inr r) → ∀ pending, s.world.pending = some pending →
        pending.thread ≠ t)) ∧
    (∀ g signed approver signature now,
      (GateState.approve x g signed approver signature now).run.Only
        fun o => o.Writes → o = .commit) ∧
    (∀ t ch s' tr o k, (gatePool x).step s (.act t ch) = some s' →
      s.threads t = some ⟨tr, .call o k⟩ → ¬o.Writes → s'.world.rows = s.world.rows) := by
  obtain ⟨hI, hK⟩ := gate_invariant hr
  refine ⟨?_, ?_, ?_, ?_, fun _ _ _ _ _ => approve_writes, ?_⟩
  · intro t u tr tr' id ht hu ha ha'
    exact hI.once t u tr tr' id ht hu ha.mem_won ha'.mem_won
  · intro t tr h₁ h₂ id ht hh ha₁ ha₂
    obtain ⟨l, hl⟩ := ha₂.won h₁
    have hnodup := (hI.kept t tr ht).nodup
    rw [hh] at hnodup
    have hnodup := hnodup.sublist hl.sublist
    rw [List.nodup_append] at hnodup
    exact hnodup.2.2 id (List.mem_append_left _ ha₁.mem_won) id (List.mem_singleton_self _) rfl
  · intro is s' hrun
    exact rowsKept_run hr hrun
  · intro t g signed approver signature now h live p ht hcommit
    refine ⟨fun s₁ ch s₂ is hr₁ hs hrun => ?_, ?_⟩
    · exact approve_step_rows hr₁ hs hrun (Pool.State.view_eq ht) (fun hc => hc) hcommit
    · rintro r rfl pending hp hpt
      have hidle : Idle h := hK t _ ht
      obtain ⟨c', h', hv, hne⟩ := (hI.locked pending hp).owner
      rw [hpt, Pool.State.view_eq ht] at hv
      cases hv
      exact hne hidle
  · intro t ch s' tr o k hs ht ho
    obtain ⟨c, o', k', hist, w, r, ht', hx, rfl⟩ := Pool.act_cases hs
    rw [ht] at ht'
    cases ht'
    exact rows_of_not_writes ho hx

/-- Whether a finished `approve` returned `Ok`. -/
def approveOk (s : GatePoolState) (t : Nat) : Option Bool :=
  match s.threads t with
  | some ⟨_, .ret (.inr (.approved r))⟩ => some r.isOk
  | _ => none

def plainApprove : GateCall :=
  .approve plainGate plainChallenge (Vector.replicate 32 9) [9, 0x6d] 1000

/-- Two approvals of one request both read it as pending before either updates. -/
def plainRace : List (Pool.Label GateCall GateChoice GateEnv) :=
  [.spawn 0 (.challenge plainGate (.start "request-1" (.rootCommand "/bin/true" [] 60)
      (Vector.replicate 32 3)) 1000),
    .act 0 (.key (Vector.replicate 32 5)), .act 0 (.var none), .act 0 .ok, .act 0 .ok,
    .spawn 1 plainApprove, .spawn 2 plainApprove,
    .act 1 (.var none), .act 1 .ok, .act 1 .ok, .act 1 .ok, .act 1 .ok,
    .act 2 (.var none), .act 2 .ok, .act 2 .ok, .act 2 .ok, .act 2 .ok,
    .act 1 .ok, .act 1 .ok, .act 2 .ok, .act 2 .ok]

/-- Only the first to update gets its approval. -/
theorem approval_single_use_race :
    ∃ s : GatePoolState, (gatePool plainExternals).Reachable s ∧
      approveOk s 1 = some true ∧ approveOk s 2 = some false ∧
      ∀ t u tr tr' id, s.view t = some tr → s.view u = some tr' →
        ApprovedIn plainExternals tr.hist id → ApprovedIn plainExternals tr'.hist id → t = u := by
  have hrun : ((gatePool plainExternals).run plainWorld plainRace).map
      (fun s => (approveOk s 1, approveOk s 2)) = some (some true, some false) := by
    decide
  obtain ⟨s, hs, hok⟩ := Option.map_eq_some_iff.mp hrun
  have hinit : (gatePool plainExternals).init plainWorld := ⟨rfl, fun _ => rfl⟩
  have hr := Machine.Reach.run (.init hinit) hs
  exact ⟨s, hr, congrArg Prod.fst hok, congrArg Prod.snd hok, (approval_single_use hr).1⟩

end ShellfleetAgent.Privileged
