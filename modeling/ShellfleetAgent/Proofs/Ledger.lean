import Mathlib.Data.List.Induction
import Mathlib.Data.List.Infix
import ShellfleetAgent.Privileged.GateWorld

/-!
# What a gate thread's history says about the database

A thread's own history fixes where it stands: whether it holds an update it has
not committed, and which request ids it has seen committed. `GateInv` ties that
to the shared world. Only four operations matter to it (an insert, an update
that changed a row, a commit, a rollback), and `exec_cases` says once what each
of them does; every clause of the invariant is then a walk through those cases.
-/

namespace ShellfleetAgent.Privileged

open ShellfleetAgent.Lib

abbrev GateEvent := Event GateOp GateResp
abbrev GateTrace := Trace GateOp GateResp GateCall

/-- Where a thread stands with its transaction. -/
inductive Txn
  | idle
  | updated (requestId : String)
  | failed

/-- A history's account: the transaction, and the ids committed so far. -/
structure Ledger where
  txn : Txn
  won : List String

namespace Ledger

def start : Ledger := { txn := .idle, won := [] }

/-- A commit that answers ok makes the id of the update permanent. -/
def won_commit (l : Ledger) : Ledger :=
  match l.txn with
  | .updated id => { txn := .idle, won := l.won ++ [id] }
  | _ => l

def step (l : Ledger) (e : GateEvent) : Ledger :=
  match e with
  | ⟨.updateConsumed id _, .ok n⟩ => if n = 1 then { l with txn := .updated id } else l
  | ⟨.commit, .ok _⟩ => l.won_commit
  | ⟨.commit, .error _⟩ => { l with txn := .failed }
  | ⟨.rollback, _⟩ => { l with txn := .idle }
  | _ => l

end Ledger

def ledger (h : GateHistory) : Ledger := h.foldl Ledger.step .start

@[simp] theorem ledger_nil : ledger [] = .start := rfl

@[simp] theorem ledger_snoc (h : GateHistory) (e : GateEvent) :
    ledger (h ++ [e]) = (ledger h).step e := by
  simp [ledger]

theorem Ledger.step_commit {l : Ledger} {id : String} (hl : l.txn = .updated id) (u : Unit) :
    l.step ⟨.commit, .ok u⟩ = { txn := .idle, won := l.won ++ [id] } := by
  simp [step, won_commit, hl]

theorem Ledger.step_won (l : Ledger) (e : GateEvent) : l.won <+: (l.step e).won := by
  unfold Ledger.step
  split
  · split
    · exact List.prefix_rfl
    · exact List.prefix_rfl
  · unfold won_commit
    split
    · exact List.prefix_append _ _
    · exact List.prefix_rfl
  · exact List.prefix_rfl
  · exact List.prefix_rfl
  · exact List.prefix_rfl

theorem won_append (h e : GateHistory) : (ledger h).won <+: (ledger (h ++ e)).won := by
  induction e using List.reverseRecOn with
  | nil =>
      rw [List.append_nil]
  | append_singleton e ev ih =>
      rw [← List.append_assoc, ledger_snoc]
      exact ih.trans (Ledger.step_won _ _)

theorem GateWorld.insert_cases {w w' : GateWorld} {id : String} {m : Bytes} {e : Int}
    (h : w.insert id m e = some w') :
    w.pending = none ∧ w.rows id = none ∧ w'.pending = none ∧
      w'.rows = Function.update w.rows id (some ⟨m, "pending", e, none⟩) := by
  unfold insert at h
  split at h
  · next hp hr => cases h; exact ⟨hp, hr, hp, rfl⟩
  · cases h

/-- An update changes no row of the database until it is committed. -/
theorem GateWorld.update_cases {w w' : GateWorld} {t : Nat} {id : String} {now : Int} {n : Nat}
    (h : w.update t id now = some (w', n)) :
    (w' = w ∧ n = 0) ∨
      ∃ row, w.pending = none ∧ w.rows id = some row ∧ row.status = "pending" ∧ n = 1 ∧
        w' = { w with pending := some ⟨t, id, { row with
                 status := "consumed", consumedAt := some now }⟩ } := by
  unfold update at h
  split at h
  · cases h
  · next hp =>
      split at h
      · cases h; exact .inl ⟨rfl, rfl⟩
      · next row hr =>
          split at h
          · next hs => cases h; exact .inr ⟨row, hp, hr, hs, rfl, rfl⟩
          · cases h; exact .inl ⟨rfl, rfl⟩

theorem GateWorld.update_same {w w' : GateWorld} {t : Nat} {id : String} {now : Int} {n : Nat}
    (h : w.update t id now = some (w', n)) (hn : n ≠ 1) : w' = w := by
  rcases update_cases h with ⟨hw, _⟩ | ⟨row, _, _, _, h1, _⟩
  · exact hw
  · exact absurd h1 hn

/-- What one operation of thread `t` can do to the world. -/
theorem GateWorld.exec_cases {w w' : GateWorld} {t : Nat} {o : GateOp} {ch : GateChoice}
    {r : GateResp o} (h : w.exec t o ch = some (w', r)) :
    ((∀ l : Ledger, l.step ⟨o, r⟩ = l) ∧ w' = w) ∨
    (∃ id m e, (⟨o, r⟩ : GateEvent) = ⟨.insertPending id m e, .ok ()⟩ ∧
      w.insert id m e = some w') ∨
    (∃ id now, (⟨o, r⟩ : GateEvent) = ⟨.updateConsumed id now, .ok 1⟩ ∧
      w.update t id now = some (w', 1)) ∨
    ((⟨o, r⟩ : GateEvent) = ⟨.commit, .ok ()⟩ ∧ w' = w.settle t) ∨
    (∃ e, (⟨o, r⟩ : GateEvent) = ⟨.commit, .error e⟩ ∧ (w' = w ∨ w' = w.settle t)) ∨
    ((⟨o, r⟩ : GateEvent) = ⟨.rollback, ()⟩ ∧ w' = w.discard t) := by
  cases o with
  | insertPending id m e =>
      cases ch with
      | ok =>
          obtain ⟨w', hw, heq⟩ := Option.map_eq_some_iff.mp h
          cases heq
          exact .inr (.inl ⟨id, m, e, rfl, hw⟩)
      | fail e => cases h; exact .inl ⟨fun _ => rfl, rfl⟩
      | _ => cases h
  | updateConsumed id now =>
      cases ch with
      | ok =>
          obtain ⟨⟨w', n⟩, hw, heq⟩ := Option.map_eq_some_iff.mp h
          cases heq
          by_cases hn : n = 1
          · subst hn
            exact .inr (.inr (.inl ⟨id, now, rfl, hw⟩))
          · exact .inl ⟨fun l => by simp [Ledger.step, hn], update_same hw hn⟩
      | fail e => cases h; exact .inl ⟨fun _ => rfl, rfl⟩
      | _ => cases h
  | commit =>
      cases ch with
      | ok => cases h; exact .inr (.inr (.inr (.inl ⟨rfl, rfl⟩)))
      | fail e => cases h; exact .inr (.inr (.inr (.inr (.inl ⟨e, rfl, .inl rfl⟩))))
      | failCommitted e =>
          cases h; exact .inr (.inr (.inr (.inr (.inl ⟨e, rfl, .inr rfl⟩))))
      | _ => cases h
  | rollback =>
      cases ch with
      | ok => cases h; exact .inr (.inr (.inr (.inr (.inr ⟨rfl, rfl⟩))))
      | _ => cases h
  | readExact n =>
      cases ch with
      | bytes b =>
          simp only [exec] at h
          split at h
          · cases h; exact .inl ⟨fun _ => rfl, rfl⟩
          · cases h
      | fail e => cases h; exact .inl ⟨fun _ => rfl, rfl⟩
      | _ => cases h
  | _ =>
      cases ch <;> cases h <;> exact .inl ⟨fun _ => rfl, rfl⟩

/-! ## The invariant -/

/-- One thread's account against the world: an uncommitted update is really
there, and what was won is consumed. -/
structure Kept (w : GateWorld) (t : Nat) (tr : GateTrace) : Prop where
  updated : ∀ id, tr.live = true → (ledger tr.hist).txn = .updated id →
    ∃ p, w.pending = some p ∧ p.thread = t ∧ p.requestId = id
  consumed : ∀ id ∈ (ledger tr.hist).won, ∃ row, w.rows id = some row ∧ row.status = "consumed"
  nodup : (ledger tr.hist).won.Nodup

/-- An uncommitted update belongs to a live thread that has not finished its
transaction, and would turn a pending row into a consumed one. -/
structure Locked (w : GateWorld) (v : Nat → Option GateTrace) (p : PendingWrite) : Prop where
  owner : ∃ c h, v p.thread = some ⟨c, h, true⟩ ∧ (ledger h).txn ≠ .idle
  row : ∃ row, w.rows p.requestId = some row ∧ row.status = "pending" ∧
    p.row.manifest = row.manifest ∧ p.row.status = "consumed"

structure GateInv (w : GateWorld) (v : Nat → Option GateTrace) : Prop where
  locked : ∀ p, w.pending = some p → Locked w v p
  kept : ∀ t tr, v t = some tr → Kept w t tr
  once : ∀ t u tr tr' id, v t = some tr → v u = some tr' →
    id ∈ (ledger tr.hist).won → id ∈ (ledger tr'.hist).won → t = u

variable {w w' : GateWorld} {v : Nat → Option GateTrace} {t : Nat} {c : GateCall}
  {h h' : GateHistory}

/-- `once` after thread `t` has moved on without winning anything. -/
theorem GateInv.once_same (hI : GateInv w v) (ht : v t = some ⟨c, h, true⟩) {live : Bool}
    (hwon : (ledger h').won = (ledger h).won) (u₁ u₂ : Nat) (tr₁ tr₂ : GateTrace) (id : String)
    (h₁ : Function.update v t (some ⟨c, h', live⟩) u₁ = some tr₁)
    (h₂ : Function.update v t (some ⟨c, h', live⟩) u₂ = some tr₂)
    (hw₁ : id ∈ (ledger tr₁.hist).won) (hw₂ : id ∈ (ledger tr₂.hist).won) : u₁ = u₂ := by
  rcases update_some h₁ with ⟨hu₁, rfl⟩ | ⟨_, hv₁⟩
  · rcases update_some h₂ with ⟨hu₂, _⟩ | ⟨_, hv₂⟩
    · exact hu₁.trans hu₂.symm
    · exact hu₁.trans (hI.once _ _ _ _ id ht hv₂ (hwon ▸ hw₁) hw₂)
  · rcases update_some h₂ with ⟨hu₂, rfl⟩ | ⟨_, hv₂⟩
    · exact (hI.once _ _ _ _ id hv₁ ht hw₁ (hwon ▸ hw₂)).trans hu₂.symm
    · exact hI.once _ _ _ _ id hv₁ hv₂ hw₁ hw₂

/-- A step that neither the ledger nor the world notices. -/
theorem GateInv.neutral (hI : GateInv w v) (ht : v t = some ⟨c, h, true⟩)
    (hl : ledger h' = ledger h) : GateInv w (Function.update v t (some ⟨c, h', true⟩)) where
  locked p hp := by
    obtain ⟨⟨c₀, h₀, hv, hne⟩, hrow⟩ := hI.locked p hp
    refine ⟨?_, hrow⟩
    by_cases hpt : p.thread = t
    · rw [hpt, ht] at hv
      cases hv
      exact ⟨c, h', by rw [hpt, Function.update_self], hl ▸ hne⟩
    · exact ⟨c₀, h₀, by rw [Function.update_of_ne hpt]; exact hv, hne⟩
  kept u tr hu := by
    rcases update_some hu with ⟨rfl, rfl⟩ | ⟨_, hu⟩
    · have hk := hI.kept _ _ ht
      exact ⟨fun id hlive => hl ▸ hk.updated id hlive, hl ▸ hk.consumed, hl ▸ hk.nodup⟩
    · exact hI.kept u tr hu
  once := hI.once_same ht (by rw [hl])

/-- A new row appears under a key that had none, while nobody holds the lock. -/
theorem GateInv.insert (hI : GateInv w v) {id : String} {m : Bytes} {e : Int}
    (hw : w.insert id m e = some w') : GateInv w' v := by
  obtain ⟨_, hnone, hp', hrows⟩ := GateWorld.insert_cases hw
  refine ⟨fun p hp => by simp [hp'] at hp, fun u tr hu => ?_, hI.once⟩
  have hk := hI.kept u tr hu
  refine ⟨fun id' hlive hl => ?_, fun id' hid => ?_, hk.nodup⟩
  · obtain ⟨p, hp, _⟩ := hk.updated id' hlive hl
    simp_all
  · obtain ⟨row, hr, hs⟩ := hk.consumed id' hid
    have hne : id' ≠ id := by
      rintro rfl
      simp [hnone] at hr
    exact ⟨row, by rw [hrows, Function.update_of_ne hne]; exact hr, hs⟩

/-- The thread takes the lock. Nobody held it, so nobody else can be in the
middle of a transaction. -/
theorem GateInv.update (hI : GateInv w v) (ht : v t = some ⟨c, h, true⟩)
    {id : String} {now : Int} (hw : w.update t id now = some (w', 1))
    (hl : ledger h' = { ledger h with txn := .updated id }) :
    GateInv w' (Function.update v t (some ⟨c, h', true⟩)) := by
  rcases GateWorld.update_cases hw with ⟨_, h0⟩ | ⟨row, hnone, hrow, hpend, _, rfl⟩
  · cases h0
  have hwon : (ledger h').won = (ledger h).won := by rw [hl]
  refine ⟨fun p hp => ?_, fun u tr hu => ?_, hI.once_same ht hwon⟩
  · cases hp
    exact ⟨⟨c, h', Function.update_self .., by rw [hl]; nofun⟩, row, hrow, hpend, rfl, rfl⟩
  · rcases update_some hu with ⟨rfl, rfl⟩ | ⟨_, hv⟩
    · have hk := hI.kept _ _ ht
      refine ⟨fun id' _ htxn => ?_, hwon ▸ hk.consumed, hwon ▸ hk.nodup⟩
      rw [hl] at htxn
      cases htxn
      exact ⟨_, rfl, rfl, rfl⟩
    · have hk := hI.kept _ _ hv
      refine ⟨fun id' hlive htxn => ?_, hk.consumed, hk.nodup⟩
      obtain ⟨p, hp, _⟩ := hk.updated id' hlive htxn
      simp [hnone] at hp

/-- What `settle` does for the thread that holds the lock. -/
theorem GateWorld.settle_own {p : PendingWrite} (hp : w.pending = some p) (ht : p.thread = t) :
    w.settle t = { w with
      rows := Function.update w.rows p.requestId (some p.row), pending := none } := by
  simp [settle, hp, ht]

/-- The rows that were consumed stay, whoever settles. -/
theorem GateInv.settle_consumed (hI : GateInv w v) {id : String} {row : Row}
    (hr : w.rows id = some row) :
    ∃ row', (w.settle t).rows id = some row' ∧ row'.manifest = row.manifest ∧
      (row.status = "consumed" → row' = row) := by
  unfold GateWorld.settle
  split
  · next p hp =>
      split
      · obtain ⟨row₀, hr₀, hs₀, hm₀, _⟩ := (hI.locked p hp).row
        by_cases hid : id = p.requestId
        · subst hid
          rw [hr] at hr₀
          cases hr₀
          refine ⟨p.row, by simp, hm₀, fun hs => ?_⟩
          rw [hs] at hs₀
          exact absurd hs₀ (by decide)
        · exact ⟨row, by simp [Function.update_of_ne hid, hr], rfl, fun _ => rfl⟩
      · exact ⟨row, hr, rfl, fun _ => rfl⟩
  · exact ⟨row, hr, rfl, fun _ => rfl⟩

/-- The update of the thread that holds the lock becomes permanent. -/
theorem GateInv.settle (hI : GateInv w v) (ht : v t = some ⟨c, h, true⟩) {id : String}
    (htxn : (ledger h).txn = .updated id)
    (hl : (ledger h').txn = .idle ∧ (ledger h').won = (ledger h).won ++ [id] ∨
      (ledger h').txn = .failed ∧ (ledger h').won = (ledger h).won) :
    GateInv (w.settle t) (Function.update v t (some ⟨c, h', true⟩)) := by
  have hk := hI.kept _ _ ht
  obtain ⟨p, hp, hpt, rfl⟩ := hk.updated id rfl htxn
  obtain ⟨row, hrow, hpend, _, hcons⟩ := (hI.locked p hp).row
  have hset := GateWorld.settle_own hp hpt
  -- The row was pending until now, so no thread has won this id.
  have hfresh : ∀ u tr, v u = some tr → p.requestId ∉ (ledger tr.hist).won := by
    intro u tr hu hmem
    obtain ⟨row', hr', hs'⟩ := (hI.kept u tr hu).consumed _ hmem
    rw [hrow] at hr'
    cases hr'
    rw [hpend] at hs'
    exact absurd hs' (by decide)
  have hold : ∀ id, (∃ row, w.rows id = some row ∧ row.status = "consumed") →
      ∃ row, (w.settle t).rows id = some row ∧ row.status = "consumed" := by
    rintro id ⟨row, hr, hs⟩
    obtain ⟨row', hr', _, hsame⟩ := hI.settle_consumed (t := t) hr
    exact ⟨row', hr', hsame hs ▸ hs⟩
  have hwon : ∀ id, id ∈ (ledger h').won → id ∈ (ledger h).won ∨ id = p.requestId := by
    intro id hid
    rcases hl with ⟨_, hl⟩ | ⟨_, hl⟩
    · rw [hl] at hid
      simpa using hid
    · exact .inl (hl ▸ hid)
  refine ⟨fun q hq => by simp [hset] at hq, fun u tr hu => ?_, ?_⟩
  · rcases update_some hu with ⟨rfl, rfl⟩ | ⟨hne, hv⟩
    · refine ⟨fun id' _ htxn' => ?_, fun id' hid => ?_, ?_⟩
      · rcases hl with ⟨hl, _⟩ | ⟨hl, _⟩ <;> rw [hl] at htxn' <;> cases htxn'
      · rcases hwon id' hid with hid | rfl
        · exact hold id' (hk.consumed id' hid)
        · exact ⟨p.row, by simp [hset], hcons⟩
      · rcases hl with ⟨_, hl⟩ | ⟨_, hl⟩
        · rw [hl]
          have hnot := hfresh _ _ ht
          exact List.nodup_append.mpr ⟨hk.nodup, by simp, by
            intro a ha b hb
            simp only [List.mem_singleton] at hb
            rintro rfl
            exact hnot (hb ▸ ha)⟩
        · exact hl ▸ hk.nodup
    · have hku := hI.kept _ _ hv
      refine ⟨fun id' hlive htxn' => ?_, fun id' hid => hold id' (hku.consumed id' hid), hku.nodup⟩
      -- Only one thread holds the lock.
      obtain ⟨q, hq, hqt, _⟩ := hku.updated id' hlive htxn'
      rw [hp] at hq
      cases hq
      exact absurd (hqt.symm.trans hpt) hne
  · intro u₁ u₂ tr₁ tr₂ id h₁ h₂ hw₁ hw₂
    rcases update_some h₁ with ⟨hu₁, rfl⟩ | ⟨_, hv₁⟩
    · rcases update_some h₂ with ⟨hu₂, _⟩ | ⟨_, hv₂⟩
      · exact hu₁.trans hu₂.symm
      · rcases hwon id hw₁ with hw₁ | rfl
        · exact hu₁.trans (hI.once _ _ _ _ id ht hv₂ hw₁ hw₂)
        · exact absurd hw₂ (hfresh _ _ hv₂)
    · rcases update_some h₂ with ⟨hu₂, rfl⟩ | ⟨_, hv₂⟩
      · rcases hwon id hw₂ with hw₂ | rfl
        · exact (hI.once _ _ _ _ id hv₁ ht hw₁ hw₂).trans hu₂.symm
        · exact absurd hw₁ (hfresh _ _ hv₁)
      · exact hI.once _ _ _ _ id hv₁ hv₂ hw₁ hw₂

/-- A commit that fails without effect leaves the lock where it was. -/
theorem GateInv.fail (hI : GateInv w v) (ht : v t = some ⟨c, h, true⟩)
    (hl : ledger h' = { ledger h with txn := .failed }) :
    GateInv w (Function.update v t (some ⟨c, h', true⟩)) where
  locked p hp := by
    obtain ⟨⟨c₀, h₀, hv, hne⟩, hrow⟩ := hI.locked p hp
    refine ⟨?_, hrow⟩
    by_cases hpt : p.thread = t
    · exact ⟨c, h', by rw [hpt, Function.update_self], by rw [hl]; nofun⟩
    · exact ⟨c₀, h₀, by rw [Function.update_of_ne hpt]; exact hv, hne⟩
  kept u tr hu := by
    rcases update_some hu with ⟨rfl, rfl⟩ | ⟨_, hu⟩
    · have hk := hI.kept _ _ ht
      have hwon : (ledger h').won = (ledger h).won := by rw [hl]
      refine ⟨fun id _ htxn => ?_, hwon ▸ hk.consumed, hwon ▸ hk.nodup⟩
      rw [hl] at htxn
      cases htxn
    · exact hI.kept u tr hu
  once := hI.once_same ht (by rw [hl])

theorem GateWorld.discard_rows (w : GateWorld) (t : Nat) : (w.discard t).rows = w.rows := by
  unfold discard
  split
  · split <;> rfl
  · rfl

theorem GateWorld.discard_pending {w : GateWorld} {t : Nat} {p : PendingWrite} :
    (w.discard t).pending = some p ↔ w.pending = some p ∧ p.thread ≠ t := by
  unfold discard
  split
  · next q hq =>
      split
      · next hqt => simp [hq]; rintro rfl; exact hqt
      · next hqt => simp [hq]; rintro rfl; exact hqt
  · next hq => simp [hq]

/-- A thread that rolls back, or is killed, gives up what it had not committed. -/
theorem GateInv.discard (hI : GateInv w v) (ht : v t = some ⟨c, h, true⟩) {live : Bool}
    (hidle : live = true → (ledger h').txn = .idle) (hwon : (ledger h').won = (ledger h).won) :
    GateInv (w.discard t) (Function.update v t (some ⟨c, h', live⟩)) where
  locked p hp := by
    obtain ⟨hp, hne⟩ := GateWorld.discard_pending.mp hp
    obtain ⟨⟨c₀, h₀, hv, htxn⟩, row, hrow, hrest⟩ := hI.locked p hp
    exact ⟨⟨c₀, h₀, by rw [Function.update_of_ne hne]; exact hv, htxn⟩, row,
      by rw [GateWorld.discard_rows]; exact hrow, hrest⟩
  kept u tr hu := by
    rcases update_some hu with ⟨rfl, rfl⟩ | ⟨hne, hu⟩
    · have hk := hI.kept _ _ ht
      refine ⟨fun id hlive htxn => ?_, fun id hid => ?_, hwon ▸ hk.nodup⟩
      · rw [hidle hlive] at htxn
        cases htxn
      · rw [GateWorld.discard_rows]
        exact hk.consumed id (hwon ▸ hid)
    · have hk := hI.kept u tr hu
      refine ⟨fun id hlive htxn => ?_, fun id hid => ?_, hk.nodup⟩
      · obtain ⟨p, hp, hpu, hpid⟩ := hk.updated id hlive htxn
        exact ⟨p, GateWorld.discard_pending.mpr ⟨hp, by rw [hpu]; exact hne⟩, hpu, hpid⟩
      · rw [GateWorld.discard_rows]
        exact hk.consumed id hid
  once := hI.once_same ht hwon

theorem GateInv.spawn (hI : GateInv w v) (ht : v t = none) :
    GateInv w (Function.update v t (some ⟨c, [], true⟩)) where
  locked p hp := by
    obtain ⟨⟨c₀, h₀, hv, hne⟩, hrow⟩ := hI.locked p hp
    refine ⟨⟨c₀, h₀, ?_, hne⟩, hrow⟩
    rw [Function.update_of_ne]
    · exact hv
    · rintro rfl
      rw [ht] at hv
      cases hv
  kept u tr hu := by
    rcases update_some hu with ⟨rfl, rfl⟩ | ⟨_, hu⟩
    · exact ⟨nofun, nofun, List.nodup_nil⟩
    · exact hI.kept u tr hu
  once u₁ u₂ tr₁ tr₂ id h₁ h₂ hw₁ hw₂ := by
    rcases update_some h₁ with ⟨_, rfl⟩ | ⟨_, hv₁⟩
    · cases hw₁
    · rcases update_some h₂ with ⟨_, rfl⟩ | ⟨_, hv₂⟩
      · cases hw₂
      · exact hI.once _ _ _ _ id hv₁ hv₂ hw₁ hw₂

/-- What the transaction must be for an operation to make sense: an update
starts from no uncommitted update, a commit from one. -/
def Txn.allows (txn : Txn) : GateOp → Prop
  | .updateConsumed .. => txn = .idle
  | .commit => ∃ id, txn = .updated id
  | _ => True

/-- Any operation its transaction allows keeps the invariant. -/
theorem GateInv.act (hI : GateInv w v) (ht : v t = some ⟨c, h, true⟩) {o : GateOp}
    {ch : GateChoice} {r : GateResp o} (hok : (ledger h).txn.allows o)
    (hx : w.exec t o ch = some (w', r)) :
    GateInv w' (Function.update v t (some ⟨c, h ++ [⟨o, r⟩], true⟩)) := by
  have hl := ledger_snoc h ⟨o, r⟩
  rcases GateWorld.exec_cases hx with ⟨hsame, rfl⟩ | ⟨id, m, e, hev, hw⟩ | ⟨id, now, hev, hw⟩ |
    ⟨hev, rfl⟩ | ⟨e, hev, hw⟩ | ⟨hev, rfl⟩
  · exact hI.neutral ht (by rw [hl, hsame])
  · cases hev
    exact (hI.insert hw).neutral ht hl
  · cases hev
    exact hI.update ht hw hl
  · cases hev
    obtain ⟨id, htxn⟩ := hok
    exact hI.settle ht htxn (.inl (by rw [hl, Ledger.step_commit htxn]; exact ⟨rfl, rfl⟩))
  · cases hev
    obtain ⟨id, htxn⟩ := hok
    rcases hw with rfl | rfl
    · exact hI.fail ht hl
    · exact hI.settle ht htxn (.inr (by rw [hl]; exact ⟨rfl, rfl⟩))
  · cases hev
    exact hI.discard ht (fun _ => by rw [hl]; rfl) (by rw [hl]; rfl)

end ShellfleetAgent.Privileged
