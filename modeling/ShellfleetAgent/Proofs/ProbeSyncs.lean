import Mathlib.Data.List.Nodup
import ShellfleetAgent.Proofs.Probes

/-!
# One task for every probe

After any number of syncs the probes that run are those of the last list, one task for each
id and started from the last spec with that id. `Proofs.Probes` says so of the signatures;
that a signature belongs to one spec only makes it so of the specs. A probe that stays in
the list as it is keeps its task.
-/

namespace ShellfleetAgent.Agent.Streams

open ShellfleetAgent.Lib

variable {serialize : HealthProbeSpec → Option Str} {map : ProbeMap} {tasks tasks' : List Task}
  {target : Str → Option Str} {p q : HealthProbeSpec} {probes : List HealthProbeSpec}
  {handle : Nat} {s s' : ProbeMap × List Task}

/-- A task that runs this probe. -/
def ProbeRuns (tasks : List Task) (handle : Nat) (p : HealthProbeSpec) : Prop :=
  ∃ task, tasks[handle]? = some task ∧ task.body = .probe p ∧ task.live

/-- The last spec with this id. -/
def lastSpec (probes : List HealthProbeSpec) (id : Str) : Option HealthProbeSpec :=
  (probes.filter (·.id = id)).getLast?

theorem lastSpec_concat (probes : List HealthProbeSpec) (p : HealthProbeSpec) (id : Str) :
    lastSpec (probes ++ [p]) id = if p.id = id then some p else lastSpec probes id := by
  rw [lastSpec, List.filter_append, List.filter_singleton]
  split
  · next hid => rw [decide_eq_true hid, cond_true, List.getLast?_concat]
  · next hid => rw [decide_eq_false hid, cond_false, List.append_nil, lastSpec]

theorem lastSpec_id {id : Str} (h : lastSpec probes id = some p) : p ∈ probes ∧ p.id = id := by
  have hmem := List.mem_filter.mp (List.mem_of_getLast? h)
  exact ⟨hmem.1, by simpa using hmem.2⟩

theorem wanted_eq_lastSpec (hok : ∀ p, (serialize p).isSome) (probes : List HealthProbeSpec)
    (id : Str) : wanted serialize probes id = (lastSpec probes id).bind serialize := by
  induction probes using List.reverseRecOn with
  | nil => rfl
  | append_singleton probes p ih =>
      obtain ⟨sig, hsig⟩ := Option.isSome_iff_exists.mp (hok p)
      rw [wanted, List.foldl_append, List.foldl_cons, List.foldl_nil, wantedOne, hsig,
        lastSpec_concat]
      dsimp only
      by_cases hid : p.id = id
      · subst hid
        rw [Function.update_self, if_pos rfl, Option.bind_some, hsig]
      · rw [Function.update_of_ne (Ne.symm hid), if_neg hid]
        exact ih

/-! ## A probe comes to no end of its own -/

/-- Only streams have come to their end. -/
def Endless (tasks : List Task) : Prop :=
  ∀ (i : Nat) (task : Task) (p : HealthProbeSpec), tasks[i]? = some task →
    task.body = .probe p → task.finished = false

theorem Endless.probeRuns (h : Endless tasks) :
    ProbeRuns tasks handle p ↔ Unaborted tasks handle (.probe p) := by
  constructor
  · intro hruns
    obtain ⟨task, hi, hbody, hlive⟩ := hruns
    refine ⟨task, hi, hbody, ?_⟩
    simp only [Task.live, Bool.and_eq_true, Bool.not_eq_eq_eq_not, Bool.not_true] at hlive
    exact hlive.1
  · intro halive
    obtain ⟨task, hi, hbody, halive⟩ := halive
    refine ⟨task, hi, hbody, ?_⟩
    rw [Task.live, halive, h handle task p hi hbody]
    rfl

theorem Endless.abort (h : Endless tasks) (handle : Nat) :
    Endless (Streams.abort tasks handle) := by
  intro i task p hi hbody
  rw [getElem?_abort] at hi
  split at hi
  · obtain ⟨old, hold, heq⟩ := Option.map_eq_some_iff.mp hi
    subst heq
    exact h i old p hold hbody
  · exact h i task p hi hbody

theorem Endless.spawn (h : Endless tasks) (body : Body) : Endless (Streams.spawn tasks body) := by
  intro i task p hi hbody
  rw [getElem?_spawn] at hi
  split at hi
  · cases hi
    rfl
  · exact h i task p hi hbody

theorem Endless.drop (h : Endless tasks) (entries : ProbeMap) :
    Endless (entries.foldl (fun tasks entry => Streams.abort tasks entry.2.2) tasks) := by
  induction entries generalizing tasks with
  | nil => exact h
  | cons entry entries ih => exact ih (h.abort entry.2.2)

theorem Endless.syncOne (h : Endless s.2) (p : HealthProbeSpec) :
    Endless (syncOne serialize s p).2 := by
  unfold Streams.syncOne
  split
  · exact h
  · dsimp only
    split
    · exact h.spawn _
    · split
      · exact h
      · exact (h.abort _).spawn _

theorem Endless.sync (h : Endless s.2) (probes : List HealthProbeSpec) :
    Endless (sync serialize probes s).2 := by
  have hall : Endless (probes.foldl (Streams.syncOne serialize) s).2 := by
    induction probes generalizing s with
    | nil => exact h
    | cons p probes ih => exact ih (h.syncOne p)
  exact hall.drop _

theorem Endless.env (h : Endless tasks) {e : TaskEnv} (he : e.run tasks = some tasks') :
    Endless tasks' := by
  intro i task p hi hbody
  cases e with
  | poll handle =>
      simp only [TaskEnv.run, Option.bind_eq_bind, Option.bind_eq_some_iff] at he
      obtain ⟨polled, _, he⟩ := he
      split at he
      · cases he
        rw [List.getElem?_modify] at hi
        obtain ⟨old, hold, heq⟩ := Option.map_eq_some_iff.mp hi
        subst heq
        split at hbody
        · next hsame =>
            rw [if_pos hsame]
            exact h i old p hold hbody
        · next hother =>
            rw [if_neg hother]
            exact h i old p hold hbody
      · cases he
  | finish handle =>
      simp only [TaskEnv.run, Option.bind_eq_bind, Option.bind_eq_some_iff] at he
      obtain ⟨ended, hended, he⟩ := he
      split at he
      · next run hstream =>
          split at he
          · cases he
            rw [List.getElem?_modify] at hi
            obtain ⟨old, hold, heq⟩ := Option.map_eq_some_iff.mp hi
            subst heq
            split at hbody
            · next hsame =>
                subst hsame
                rw [hended] at hold
                cases hold
                rw [hstream] at hbody
                cases hbody
            · next hother =>
                rw [if_neg hother]
                exact h i old p hold hbody
          · cases he
      · cases he

/-! ## A probe that stays keeps its task -/

theorem InStep.entry_of_alive {id sig : Str} (h : InStep serialize map tasks)
    (hmem : (id, sig, handle) ∈ map) (halive : Unaborted tasks handle (.probe p)) :
    p.id = id ∧ serialize p = some sig := by
  obtain ⟨spec, hu, hid, hsig⟩ := h.entry id sig handle hmem
  cases hu.unique halive
  exact ⟨hid, hsig⟩

theorem syncOne_keeps (h : InStep serialize map tasks)
    (halive : Unaborted tasks handle (.probe p)) (hsame : q.id = p.id → q = p) :
    Unaborted (syncOne serialize (map, tasks) q).2 handle (.probe p) := by
  unfold syncOne
  cases hsig : serialize q with
  | none => exact halive
  | some sig =>
      dsimp only
      cases hlookup : map.lookup q.id with
      | none => exact unaborted_spawn.mpr (.inl halive)
      | some found =>
          obtain ⟨existing, old⟩ := found
          dsimp only
          split
          · exact halive
          · next hne =>
              refine unaborted_spawn.mpr (.inl (unaborted_abort.mpr ⟨halive, fun heq => hne ?_⟩))
              -- The entry under this id is for the probe itself.
              subst heq
              have hmem : (q.id, existing, old) ∈ map := by
                obtain ⟨l₁, l₂, hmap, _⟩ := List.lookup_eq_some_iff.mp hlookup
                rw [hmap]
                simp
              obtain ⟨hid, hexisting⟩ := h.entry_of_alive hmem halive
              rw [hsame hid.symm, hexisting] at hsig
              exact Option.some.inj hsig

theorem syncAll_keeps (h : InStep serialize map tasks) (hshows : Shows map target)
    (halive : Unaborted tasks handle (.probe p)) (hsame : ∀ q ∈ probes, q.id = p.id → q = p) :
    Unaborted (probes.foldl (syncOne serialize) (map, tasks)).2 handle (.probe p) := by
  induction probes generalizing map tasks target with
  | nil => exact halive
  | cons q probes ih =>
      obtain ⟨h', hshows'⟩ := syncOne_inStep h hshows q
      have halive' := syncOne_keeps h halive (hsame q (List.mem_cons_self ..))
      exact ih h' hshows' halive' fun r hr => hsame r (List.mem_cons_of_mem _ hr)

theorem sync_keeps (hok : ∀ p, (serialize p).isSome) (h : InStep serialize map tasks)
    (hshows : Shows map target) (halive : Unaborted tasks handle (.probe p))
    (hmem : p ∈ probes) (hsame : ∀ q ∈ probes, q.id = p.id → q = p) :
    Unaborted (sync serialize probes (map, tasks)).2 handle (.probe p) := by
  have halive' := syncAll_keeps h hshows halive hsame
  obtain ⟨h', _⟩ := syncAll_inStep h hshows probes
  refine (unaborted_drop _ _).mpr ⟨halive', fun entry hentry heq => ?_⟩
  obtain ⟨hentry, hdrop⟩ := List.mem_filter.mp hentry
  obtain ⟨id, sig, old⟩ := entry
  obtain rfl : old = handle := heq
  obtain ⟨hid, _⟩ := h'.entry_of_alive hentry halive'
  have hkept : p.id ∈ kept serialize probes := mem_kept.mpr ⟨p, hmem, rfl, hok p⟩
  rw [hid] at hkept
  simp only [decide_eq_true_eq] at hdrop
  exact hdrop hkept

/-! ## Every call -/

structure Synced (serialize : HealthProbeSpec → Option Str) (s : ProbeMap × List Task) :
    Prop where
  inStep : InStep serialize s.1 s.2
  shows : ∃ target, Shows s.1 target
  endless : Endless s.2

theorem Synced.sync (h : Synced serialize s) (probes : List HealthProbeSpec) :
    Synced serialize (sync serialize probes s) := by
  obtain ⟨target, hshows⟩ := h.shows
  obtain ⟨hinStep', hshows'⟩ := sync_inStep h.inStep hshows probes
  exact ⟨hinStep', ⟨_, hshows'⟩, h.endless.sync probes⟩

theorem synced (hr : (healthProbes serialize).Reachable s) : Synced serialize s := by
  refine hr.invariant (I := Synced serialize) ?_ ?_
  · intro s hinit
    subst hinit
    refine ⟨⟨by simp, fun handle p halive => ?_, by simp⟩, ⟨fun _ => none, by simp [Shows]⟩, ?_⟩
    · exact absurd halive.lt (Nat.not_lt_zero _)
    · intro i task p hi
      simp at hi
  · intro s label s' _ h _ hs
    cases label with
    | sync probes =>
        cases hs
        exact h.sync probes
    | env e =>
        obtain ⟨tasks, he, heq⟩ := Option.map_eq_some_iff.mp hs
        subst heq
        exact ⟨h.inStep.congr fun i spec => unaborted_env he i _, h.shows, h.endless.env he⟩

theorem lastSpec_some {id : Str} (h : id ∈ probes.map (·.id)) :
    ∃ p, lastSpec probes id = some p := by
  obtain ⟨p, hmem, hid⟩ := List.mem_map.mp h
  have hne : probes.filter (·.id = id) ≠ [] :=
    List.ne_nil_of_mem (List.mem_filter.mpr ⟨hmem, by simpa using hid⟩)
  exact ⟨_, List.getLast?_eq_some_getLast hne⟩

/-- After every sync there runs one task for each id of the list, started from the last spec
with that id, and all others have been aborted; a probe that is in the list as it was keeps
its task. -/
theorem one_task_for_each (serialize : HealthProbeSpec → Option Str)
    (probes : List HealthProbeSpec) {s s' : ProbeMap × List Task}
    (hok : ∀ p, (serialize p).isSome) (hinj : ∀ p q, serialize p = serialize q → p = q)
    (hr : (healthProbes serialize).Reachable s)
    (hs : (healthProbes serialize).step s (.sync probes) = some s') :
    (∀ id ∈ probes.map (·.id), ∃! handle, ∃ p, p.id = id ∧ ProbeRuns s'.2 handle p) ∧
      (∀ handle p, ProbeRuns s'.2 handle p → lastSpec probes p.id = some p) ∧
      (∀ (handle : Nat) task p, s'.2[handle]? = some task → task.body = .probe p →
        ¬ ProbeRuns s'.2 handle p → task.aborted) ∧
      ((probes.map (·.id)).Nodup → ∀ p ∈ probes, ∀ handle,
        ProbeRuns s.2 handle p → ProbeRuns s'.2 handle p) := by
  have h := synced hr
  obtain ⟨target, hshows⟩ := h.shows
  cases hs
  have h' := h.sync probes
  have hshows' := (sync_inStep h.inStep hshows probes).2
  refine ⟨fun id hid => ?_, fun handle p hruns => ?_, fun handle task p hi hbody hstopped => ?_,
    fun hnodup p hmem handle hruns => ?_⟩
  · obtain ⟨last, hlast⟩ := lastSpec_some hid
    obtain ⟨sig, hsig⟩ := Option.isSome_iff_exists.mp (hok last)
    have hwanted : wanted serialize probes id = some sig := by
      rw [wanted_eq_lastSpec hok, hlast, Option.bind_some, hsig]
    obtain ⟨handle, hentry⟩ := (hshows' id sig).mpr hwanted
    obtain ⟨spec, halive, hspec, _⟩ := h'.inStep.entry id sig handle hentry
    refine ⟨handle, ⟨spec, hspec, h'.endless.probeRuns.mpr halive⟩, fun other hother => ?_⟩
    obtain ⟨q, hq, hruns⟩ := hother
    obtain ⟨sig', hentry'⟩ := h'.inStep.probe other q (h'.endless.probeRuns.mp hruns)
    rw [hq] at hentry'
    exact congrArg (·.2.2) (h'.inStep.unique _ hentry' _ hentry rfl)
  · have halive := h'.endless.probeRuns.mp hruns
    obtain ⟨sig, hentry⟩ := h'.inStep.probe handle p halive
    obtain ⟨_, hsig⟩ := h'.inStep.entry_of_alive hentry halive
    have hwanted := (hshows' p.id sig).mp ⟨handle, hentry⟩
    rw [wanted_eq_lastSpec hok] at hwanted
    obtain ⟨q, hlast, hq⟩ := Option.bind_eq_some_iff.mp hwanted
    rw [hlast, hinj q p (hq.trans hsig.symm)]
  · have hfinished := h'.endless handle task p hi hbody
    by_contra halive
    refine hstopped ⟨task, hi, hbody, ?_⟩
    rw [Task.live, hfinished, Bool.eq_false_of_not_eq_true halive]
    rfl
  · have halive := h.endless.probeRuns.mp hruns
    refine h'.endless.probeRuns.mpr (sync_keeps hok h.inStep hshows halive hmem ?_)
    intro q hq hid
    exact List.inj_on_of_nodup_map hnodup hq hmem hid

/-! Specs spelled out: a text for each, and another one for every other. -/

def spellField (field rest : Str) : Str := field.flatMap (fun c => ['+', c]) ++ '.' :: rest

theorem spellField_inj {field field' rest rest' : Str}
    (h : spellField field rest = spellField field' rest') : field = field' ∧ rest = rest' := by
  induction field generalizing field' with
  | nil =>
      cases field' with
      | nil => exact ⟨rfl, List.tail_eq_of_cons_eq h⟩
      | cons c field' => exact absurd (List.head_eq_of_cons_eq h) (by decide)
  | cons c field ih =>
      cases field' with
      | nil => exact absurd (List.head_eq_of_cons_eq h) (by decide)
      | cons c' field' =>
          have htail := List.tail_eq_of_cons_eq h
          obtain ⟨hfield, hrest⟩ := ih (List.tail_eq_of_cons_eq htail)
          rw [List.head_eq_of_cons_eq htail, hfield]
          exact ⟨rfl, hrest⟩

def spell (fields : List Str) : Str := fields.foldr spellField []

theorem spell_injective : Function.Injective spell := by
  intro fields
  induction fields with
  | nil =>
      intro fields' h
      cases fields' with
      | nil => rfl
      | cons field fields' => cases field <;> cases h
  | cons field fields ih =>
      intro fields' h
      cases fields' with
      | nil => cases field <;> cases h
      | cons field' fields' =>
          obtain ⟨hfield, hrest⟩ := spellField_inj h
          rw [hfield, ih hrest]

def HealthProbeKind.name : HealthProbeKind → Str
  | .http => "http".toList
  | .tcp => "tcp".toList
  | .exec => "exec".toList

def HealthProbeSpec.fields (p : HealthProbeSpec) : List Str :=
  [p.id, p.kind.name, p.target, Text.decimal p.intervalSecs, Text.decimal p.timeoutSecs,
    (p.expectStatus.map Text.decimal).getD [], (p.expectBody.map ('=' :: ·)).getD []] ++ p.env

theorem fields_injective : Function.Injective HealthProbeSpec.fields := by
  intro p q h
  obtain ⟨hid, hkind, htarget, hinterval, htimeout, hstatus, hbody, henv⟩ :
      p.id = q.id ∧ p.kind.name = q.kind.name ∧ p.target = q.target ∧
        Text.decimal p.intervalSecs = Text.decimal q.intervalSecs ∧
        Text.decimal p.timeoutSecs = Text.decimal q.timeoutSecs ∧
        (p.expectStatus.map Text.decimal).getD [] = (q.expectStatus.map Text.decimal).getD [] ∧
        (p.expectBody.map ('=' :: ·)).getD [] = (q.expectBody.map ('=' :: ·)).getD [] ∧
        p.env = q.env := by
    simpa [HealthProbeSpec.fields] using h
  have hkind' : p.kind = q.kind := by
    revert hkind
    cases p.kind <;> cases q.kind <;> decide
  have hstatus' : p.expectStatus = q.expectStatus := by
    revert hstatus
    cases p.expectStatus with
    | none =>
        cases q.expectStatus with
        | none => exact fun _ => rfl
        | some n => exact fun h => absurd h.symm (Text.decimal_ne_nil n)
    | some m =>
        cases q.expectStatus with
        | none => exact fun h => absurd h (Text.decimal_ne_nil m)
        | some n => exact fun h => congrArg some (Text.decimal_injective h)
  have hbody' : p.expectBody = q.expectBody := by
    revert hbody
    cases p.expectBody <;> cases q.expectBody <;> simp
  cases p
  cases q
  simp only [HealthProbeSpec.mk.injEq]
  exact ⟨hid, hkind', htarget, Text.decimal_injective hinterval, Text.decimal_injective htimeout,
    hstatus', hbody', henv⟩

def port (interval : Nat) : HealthProbeSpec :=
  ⟨"web".toList, .tcp, "localhost:80".toList, interval, 5, none, none, []⟩

theorem spelled_injective (p q : HealthProbeSpec)
    (h : some (spell p.fields) = some (spell q.fields)) : p = q :=
  fields_injective (spell_injective (Option.some.inj h))

/-- One id twice in a list: the last spec is started, and at the next sync it stays. -/
theorem one_task_for_each_twice :
    ∃ s s' : ProbeMap × List Task,
      (∀ handle p, ProbeRuns s.2 handle p → p = port 30) ∧
      ProbeRuns s.2 1 (port 30) ∧ ProbeRuns s'.2 1 (port 30) := by
  have hr : (healthProbes fun p => some (spell p.fields)).Reachable ([], []) := .init rfl
  have hfirst := one_task_for_each _ [port 10, port 30] (fun _ => rfl) spelled_injective hr rfl
  have hruns : ProbeRuns (sync (fun p => some (spell p.fields)) [port 10, port 30] ([], [])).2 1
      (port 30) := ⟨⟨.probe (port 30), false, false, false⟩, by decide, rfl, rfl⟩
  have hsecond := one_task_for_each _ [port 30] (fun _ => rfl) spelled_injective
    (.step (i := .sync [port 10, port 30]) hr trivial rfl) rfl
  refine ⟨_, _, fun handle p hp => ?_, hruns, hsecond.2.2.2 (by decide) _ (by simp) 1 hruns⟩
  have hlast := hfirst.2.1 handle p hp
  have hid : p.id = (port 30).id := by
    have hmem := (lastSpec_id hlast).1
    rcases List.mem_pair.mp hmem with heq | heq
    · rw [heq]
      rfl
    · rw [heq]
  rw [hid] at hlast
  exact (Option.some.inj hlast).symm

end ShellfleetAgent.Agent.Streams
