import ShellfleetAgent.Proofs.Streams

/-!
# What a sync leaves

`HealthProbes::sync` goes through the new probes one by one and then drops what they
did not keep. Through all of it the map and the running probes stay in step: every
entry is for a running probe with its signature, every running probe has an entry,
and no two entries have one id. So what it leaves is read off the map.
-/

namespace ShellfleetAgent.Agent.Streams

open ShellfleetAgent.Lib

/-- Task `i` has not been aborted. -/
def Unaborted (tasks : List Task) (i : Nat) (body : Body) : Prop :=
  ∃ task, tasks[i]? = some task ∧ task.body = body ∧ task.aborted = false

section Tasks

variable {tasks tasks' : List Task} {i handle : Nat} {body body' : Body}

theorem Unaborted.lt (h : Unaborted tasks i body) : i < tasks.length := by
  obtain ⟨task, hi, _⟩ := h
  exact (List.getElem?_eq_some_iff.mp hi).1

theorem Unaborted.unique (h : Unaborted tasks i body) (h' : Unaborted tasks i body') :
    body = body' := by
  obtain ⟨task, hi, hbody, _⟩ := h
  obtain ⟨task', hi', hbody', _⟩ := h'
  rw [hi] at hi'
  cases hi'
  exact hbody.symm.trans hbody'

@[simp] theorem unaborted_abort :
    Unaborted (abort tasks handle) i body ↔ Unaborted tasks i body ∧ handle ≠ i := by
  unfold Unaborted
  rw [getElem?_abort]
  by_cases heq : handle = i
  · rw [if_pos heq]
    refine iff_of_false ?_ fun h => h.2 heq
    intro ⟨task, hi, _, halive⟩
    obtain ⟨old, _, rfl⟩ := Option.map_eq_some_iff.mp hi
    cases halive
  · rw [if_neg heq]
    exact ⟨fun h => ⟨h, heq⟩, fun h => h.1⟩

@[simp] theorem unaborted_spawn {new : Body} :
    Unaborted (spawn tasks new) i body ↔
      Unaborted tasks i body ∨ (i = tasks.length ∧ body = new) := by
  constructor
  · intro ⟨task, hi, hbody, halive⟩
    rw [getElem?_spawn] at hi
    split at hi
    · next heq =>
        cases hi
        exact .inr ⟨heq, hbody.symm⟩
    · exact .inl ⟨task, hi, hbody, halive⟩
  · intro h
    rcases h with h | ⟨rfl, rfl⟩
    · have hlt := h.lt
      obtain ⟨task, hi, hbody, halive⟩ := h
      exact ⟨task, by rw [getElem?_spawn, if_neg (by omega), hi], hbody, halive⟩
    · exact ⟨_, by rw [getElem?_spawn, if_pos rfl], rfl, rfl⟩

theorem unaborted_drop (entries : ProbeMap) (tasks : List Task) :
    Unaborted (entries.foldl (fun tasks entry => abort tasks entry.2.2) tasks) i body ↔
      Unaborted tasks i body ∧ ∀ entry ∈ entries, entry.2.2 ≠ i := by
  induction entries generalizing tasks with
  | nil => simp
  | cons entry entries ih =>
      rw [List.foldl_cons, ih, unaborted_abort, List.forall_mem_cons, and_assoc]

/-- Being polled, or coming to an end, is no abort. -/
theorem unaborted_env {e : TaskEnv} (he : e.run tasks = some tasks') (i : Nat) (body : Body) :
    Unaborted tasks' i body ↔ Unaborted tasks i body := by
  have hmodify : ∀ handle (f : Task → Task), (∀ task, (f task).body = task.body ∧
      (f task).aborted = task.aborted) →
        (Unaborted (tasks.modify handle f) i body ↔ Unaborted tasks i body) := by
    intro handle f hf
    unfold Unaborted
    rw [List.getElem?_modify]
    constructor
    · intro ⟨task, hi, hbody, halive⟩
      obtain ⟨old, hold, rfl⟩ := Option.map_eq_some_iff.mp hi
      refine ⟨old, hold, ?_, ?_⟩
      · split at hbody
        · exact (hf old).1.symm.trans hbody
        · exact hbody
      · split at halive
        · exact (hf old).2.symm.trans halive
        · exact halive
    · intro ⟨task, hi, hbody, halive⟩
      refine ⟨_, by rw [hi]; rfl, ?_, ?_⟩
      · split
        · exact (hf task).1.trans hbody
        · exact hbody
      · split
        · exact (hf task).2.trans halive
        · exact halive
  cases e with
  | poll handle =>
      simp only [TaskEnv.run, Option.bind_eq_bind, Option.bind_eq_some_iff] at he
      obtain ⟨task, _, he⟩ := he
      split at he
      · cases he
        exact hmodify handle _ fun _ => ⟨rfl, rfl⟩
      · cases he
  | finish handle =>
      simp only [TaskEnv.run, Option.bind_eq_bind, Option.bind_eq_some_iff] at he
      obtain ⟨task, _, he⟩ := he
      split at he
      · split at he
        · cases he
          exact hmodify handle _ fun _ => ⟨rfl, rfl⟩
        · cases he
      · cases he

end Tasks

/-- The map and the running probes are in step. -/
structure InStep (serialize : HealthProbeSpec → Option Str) (map : ProbeMap)
    (tasks : List Task) : Prop where
  entry : ∀ id sig handle, (id, sig, handle) ∈ map →
    ∃ spec, Unaborted tasks handle (.probe spec) ∧ spec.id = id ∧ serialize spec = some sig
  probe : ∀ handle spec, Unaborted tasks handle (.probe spec) →
    ∃ sig, (spec.id, sig, handle) ∈ map
  unique : ∀ e ∈ map, ∀ e' ∈ map, e.1 = e'.1 → e = e'

theorem InStep.congr {serialize : HealthProbeSpec → Option Str} {map : ProbeMap}
    {tasks tasks' : List Task} (h : InStep serialize map tasks)
    (hsame : ∀ i spec, Unaborted tasks' i (.probe spec) ↔ Unaborted tasks i (.probe spec)) :
    InStep serialize map tasks' := by
  refine ⟨fun id sig handle hmem => ?_, fun handle spec hu => ?_, h.unique⟩
  · obtain ⟨spec, hu, hrest⟩ := h.entry id sig handle hmem
    exact ⟨spec, (hsame handle spec).mpr hu, hrest⟩
  · exact h.probe handle spec ((hsame handle spec).mp hu)

/-- The signatures in the map. -/
def Shows (map : ProbeMap) (target : Str → Option Str) : Prop :=
  ∀ id sig, (∃ handle, (id, sig, handle) ∈ map) ↔ target id = some sig

/-- What one probe of a new set asks for. -/
def wantedOne (serialize : HealthProbeSpec → Option Str) (target : Str → Option Str)
    (p : HealthProbeSpec) : Str → Option Str :=
  match serialize p with
  | some sig => Function.update target p.id (some sig)
  | none => target

/-- The probes of a set: for each id the signature of the last one with that id. -/
def wanted (serialize : HealthProbeSpec → Option Str) (probes : List HealthProbeSpec) :
    Str → Option Str :=
  probes.foldl (wantedOne serialize) fun _ => none

section Sync

variable {serialize : HealthProbeSpec → Option Str} {map : ProbeMap} {tasks : List Task}
  {target : Str → Option Str} {p : HealthProbeSpec} {probes : List HealthProbeSpec} {sig : Str}

/-- Once nothing for its id is left, a new probe is put in. -/
theorem InStep.put (h : InStep serialize (map.filter (·.1 ≠ p.id)) tasks)
    (hsig : serialize p = some sig) :
    InStep serialize ((p.id, sig, tasks.length) :: map.filter (·.1 ≠ p.id))
      (spawn tasks (.probe p)) := by
  refine ⟨fun id sig' handle hmem => ?_, fun handle spec hu => ?_, fun e he e' he' hid => ?_⟩
  · rcases List.mem_cons.mp hmem with heq | hmem
    · cases heq
      exact ⟨p, unaborted_spawn.mpr (.inr ⟨rfl, rfl⟩), rfl, hsig⟩
    · obtain ⟨spec, hu, hrest⟩ := h.entry id sig' handle hmem
      exact ⟨spec, unaborted_spawn.mpr (.inl hu), hrest⟩
  · rcases unaborted_spawn.mp hu with hu | ⟨rfl, hbody⟩
    · obtain ⟨sig', hmem⟩ := h.probe handle spec hu
      exact ⟨sig', List.mem_cons_of_mem _ hmem⟩
    · cases hbody
      exact ⟨sig, List.mem_cons_self ..⟩
  · have hne : ∀ e ∈ map.filter (·.1 ≠ p.id), e.1 ≠ p.id := by
      intro e he
      simpa using (List.mem_filter.mp he).2
    rcases List.mem_cons.mp he with rfl | he <;> rcases List.mem_cons.mp he' with rfl | he'
    · rfl
    · exact absurd hid.symm (hne e' he')
    · exact absurd hid (hne e he)
    · exact h.unique e he e' he' hid

theorem Shows.put (h : Shows map target) (n : Nat) :
    Shows ((p.id, sig, n) :: map.filter (·.1 ≠ p.id)) (Function.update target p.id (some sig)) := by
  intro id sig'
  by_cases hid : id = p.id
  · subst hid
    rw [Function.update_self]
    constructor
    · intro ⟨handle, hmem⟩
      rcases List.mem_cons.mp hmem with heq | hmem
      · cases heq
        rfl
      · simp at hmem
    · intro heq
      cases heq
      exact ⟨n, List.mem_cons_self ..⟩
  · rw [Function.update_of_ne hid, ← h id sig']
    refine exists_congr fun handle => ?_
    simp [hid]

theorem syncOne_inStep (h : InStep serialize map tasks) (hshows : Shows map target)
    (p : HealthProbeSpec) :
    InStep serialize (syncOne serialize (map, tasks) p).1 (syncOne serialize (map, tasks) p).2 ∧
      Shows (syncOne serialize (map, tasks) p).1 (wantedOne serialize target p) := by
  unfold syncOne wantedOne
  cases hsig : serialize p with
  | none => exact ⟨h, hshows⟩
  | some sig =>
      dsimp only
      cases hlookup : map.lookup p.id with
      | none =>
          have hnone : ∀ e ∈ map, e.1 ≠ p.id := by
            intro e he heq
            have := List.lookup_eq_none_iff.mp hlookup e he
            simp [heq] at this
          have hfilter : map.filter (·.1 ≠ p.id) = map := by
            refine List.filter_eq_self.mpr fun e he => ?_
            simpa using hnone e he
          refine ⟨InStep.put ?_ hsig, hshows.put _⟩
          rw [hfilter]
          exact h
      | some found =>
          obtain ⟨existing, handle⟩ := found
          have hmem : (p.id, existing, handle) ∈ map := by
            obtain ⟨l₁, l₂, rfl, _⟩ := List.lookup_eq_some_iff.mp hlookup
            simp
          dsimp only
          split
          · next heq =>
              subst heq
              refine ⟨h, ?_⟩
              have hself : target p.id = some existing := (hshows p.id existing).mp ⟨handle, hmem⟩
              rw [← hself, Function.update_eq_self]
              exact hshows
          · refine ⟨InStep.put ?_ hsig, hshows.put _⟩
            refine ⟨fun id sig' handle' he => ?_, fun handle' spec hu => ?_,
              fun e he e' he' => ?_⟩
            · obtain ⟨he, hne⟩ := List.mem_filter.mp he
              obtain ⟨spec, hu, hid, hrest⟩ := h.entry id sig' handle' he
              refine ⟨spec, unaborted_abort.mpr ⟨hu, ?_⟩, hid, hrest⟩
              -- Another id, so another task.
              rintro rfl
              obtain ⟨spec', hu', hid', _⟩ := h.entry _ _ _ hmem
              cases hu.unique hu'
              rw [← hid, hid'] at hne
              simp at hne
            · obtain ⟨hu, hne⟩ := unaborted_abort.mp hu
              obtain ⟨sig', he⟩ := h.probe handle' spec hu
              refine ⟨sig', List.mem_filter.mpr ⟨he, ?_⟩⟩
              simp only [ne_eq, decide_not, Bool.not_eq_eq_eq_not, Bool.not_true,
                decide_eq_false_iff_not]
              intro hid
              exact hne (congrArg (·.2.2) (h.unique _ he _ hmem hid)).symm
            · exact h.unique e (List.mem_filter.mp he).1 e' (List.mem_filter.mp he').1

theorem syncAll_inStep (h : InStep serialize map tasks) (hshows : Shows map target)
    (probes : List HealthProbeSpec) :
    InStep serialize (probes.foldl (syncOne serialize) (map, tasks)).1
        (probes.foldl (syncOne serialize) (map, tasks)).2 ∧
      Shows (probes.foldl (syncOne serialize) (map, tasks)).1
        (probes.foldl (wantedOne serialize) target) := by
  induction probes generalizing map tasks target with
  | nil => exact ⟨h, hshows⟩
  | cons p probes ih =>
      obtain ⟨h', hshows'⟩ := syncOne_inStep h hshows p
      exact ih h' hshows'

theorem mem_kept {id : Str} :
    id ∈ kept serialize probes ↔ ∃ p ∈ probes, p.id = id ∧ (serialize p).isSome = true := by
  simp only [kept, List.mem_map, List.mem_filter]
  constructor
  · rintro ⟨p, ⟨hmem, hsome⟩, hid⟩
    exact ⟨p, hmem, hid, hsome⟩
  · rintro ⟨p, hmem, hid, hsome⟩
    exact ⟨p, ⟨hmem, hsome⟩, hid⟩

/-- For an id that is kept it does not matter what was there before, and the others
are as before. -/
theorem foldl_wantedOne (serialize : HealthProbeSpec → Option Str)
    (target target' : Str → Option Str) (probes : List HealthProbeSpec)
    (id : Str) :
    (id ∈ kept serialize probes → probes.foldl (wantedOne serialize) target id =
      probes.foldl (wantedOne serialize) target' id) ∧
    (id ∉ kept serialize probes → probes.foldl (wantedOne serialize) target id = target id) := by
  have hcongr : ∀ (probes : List HealthProbeSpec) (t t' : Str → Option Str), t id = t' id →
      probes.foldl (wantedOne serialize) t id = probes.foldl (wantedOne serialize) t' id := by
    intro probes
    induction probes with
    | nil => exact fun t t' h => h
    | cons p probes ih =>
        intro t t' h
        rw [List.foldl_cons, List.foldl_cons]
        refine ih _ _ ?_
        unfold wantedOne
        cases serialize p with
        | none => exact h
        | some sig =>
            dsimp only
            by_cases hid : id = p.id
            · rw [hid, Function.update_self, Function.update_self]
            · rw [Function.update_of_ne hid, Function.update_of_ne hid, h]
  induction probes generalizing target target' with
  | nil => exact ⟨nofun, fun _ => rfl⟩
  | cons p probes ih =>
      rw [List.foldl_cons, List.foldl_cons, mem_kept]
      obtain ⟨hin, hout⟩ := ih (wantedOne serialize target p) (wantedOne serialize target' p)
      by_cases hrest : id ∈ kept serialize probes
      · refine ⟨fun _ => hin hrest, fun hnot => absurd ?_ hnot⟩
        obtain ⟨q, hq, hid, hsome⟩ := mem_kept.mp hrest
        exact ⟨q, List.mem_cons_of_mem _ hq, hid, hsome⟩
      · constructor
        · intro ⟨q, hq, hid, hsome⟩
          rcases List.mem_cons.mp hq with rfl | hq
          · refine hcongr probes _ _ ?_
            obtain ⟨sig, hsig⟩ := Option.isSome_iff_exists.mp hsome
            rw [wantedOne, wantedOne, hsig]
            dsimp only
            rw [← hid, Function.update_self, Function.update_self]
          · exact absurd (mem_kept.mpr ⟨q, hq, hid, hsome⟩) hrest
        · intro hnot
          rw [hout hrest, wantedOne]
          cases hsig : serialize p with
          | none => rfl
          | some sig =>
              refine Function.update_of_ne (fun heq => hnot ?_) _ _
              exact ⟨p, List.mem_cons_self .., heq.symm, by rw [hsig]; rfl⟩

/-- Dropping entries with their tasks. -/
theorem InStep.drop (h : InStep serialize map tasks) (keep : List Str) :
    InStep serialize (map.filter (·.1 ∈ keep))
      ((map.filter (·.1 ∉ keep)).foldl (fun tasks entry => abort tasks entry.2.2) tasks) := by
  refine ⟨fun id sig handle hmem => ?_, fun handle spec hu => ?_, fun e he e' he' => ?_⟩
  · obtain ⟨hmem, hkeep⟩ := List.mem_filter.mp hmem
    obtain ⟨spec, hu, hid, hsig⟩ := h.entry id sig handle hmem
    refine ⟨spec, (unaborted_drop _ _).mpr ⟨hu, fun entry hentry heq => ?_⟩, hid, hsig⟩
    -- One task, so one id: it is kept or dropped, not both.
    obtain ⟨hentry, hdrop⟩ := List.mem_filter.mp hentry
    obtain ⟨id', sig', handle'⟩ := entry
    obtain rfl : handle' = handle := heq
    obtain ⟨spec', hu', hid', _⟩ := h.entry id' sig' handle' hentry
    cases hu.unique hu'
    rw [hid] at hid'
    subst hid'
    simp only [decide_eq_true_eq] at hkeep hdrop
    exact hdrop hkeep
  · obtain ⟨hu, hdropped⟩ := (unaborted_drop _ _).mp hu
    obtain ⟨sig, hmem⟩ := h.probe handle spec hu
    refine ⟨sig, List.mem_filter.mpr ⟨hmem, ?_⟩⟩
    by_contra hkeep
    refine hdropped _ (List.mem_filter.mpr ⟨hmem, ?_⟩) rfl
    simpa using hkeep
  · exact h.unique e (List.mem_filter.mp he).1 e' (List.mem_filter.mp he').1

/-- A sync leaves the probes of its set running, and no others. -/
theorem sync_inStep (h : InStep serialize map tasks) (hshows : Shows map target)
    (probes : List HealthProbeSpec) :
    InStep serialize (sync serialize probes (map, tasks)).1
        (sync serialize probes (map, tasks)).2 ∧
      Shows (sync serialize probes (map, tasks)).1 (wanted serialize probes) := by
  obtain ⟨h', hshows'⟩ := syncAll_inStep h hshows probes
  refine ⟨h'.drop _, fun id sig => ?_⟩
  show (∃ handle, (id, sig, handle) ∈ List.filter _ _) ↔ _
  simp only [List.mem_filter, decide_eq_true_eq, exists_and_right]
  rw [hshows' id sig]
  obtain ⟨hin, _⟩ := foldl_wantedOne serialize target (fun _ => none) probes id
  obtain ⟨_, hout⟩ := foldl_wantedOne serialize (fun _ => none) target probes id
  by_cases hkeep : id ∈ kept serialize probes
  · rw [hin hkeep, wanted]
    exact and_iff_left hkeep
  · rw [wanted, hout hkeep]
    exact iff_of_false (fun h => hkeep h.2) nofun

/-- A sync aborts and starts probes only. -/
theorem sync_streams (h : InStep serialize map tasks) (hshows : Shows map target)
    (probes : List HealthProbeSpec) (i : Nat) (run : RunStream) :
    Unaborted (sync serialize probes (map, tasks)).2 i (.stream run) ↔
      Unaborted tasks i (.stream run) := by
  have hone : ∀ (map : ProbeMap) (tasks : List Task) (p : HealthProbeSpec),
      InStep serialize map tasks →
        (Unaborted (syncOne serialize (map, tasks) p).2 i (.stream run) ↔
          Unaborted tasks i (.stream run)) := by
    intro map tasks p h
    unfold syncOne
    split
    · exact Iff.rfl
    · dsimp only
      split
      · simp
      · next existing handle hlookup =>
          split
          · exact Iff.rfl
          · simp only [unaborted_spawn, unaborted_abort, reduceCtorEq, and_false, or_false,
              and_iff_left_iff_imp]
            rintro hu rfl
            have hmem : (p.id, existing, handle) ∈ map := by
              obtain ⟨l₁, l₂, rfl, _⟩ := List.lookup_eq_some_iff.mp hlookup
              simp
            obtain ⟨spec, hu', _⟩ := h.entry _ _ _ hmem
            cases hu.unique hu'
  have hall : ∀ (probes : List HealthProbeSpec) (map : ProbeMap) (tasks : List Task)
      (target : Str → Option Str), InStep serialize map tasks → Shows map target →
        (Unaborted (probes.foldl (syncOne serialize) (map, tasks)).2 i (.stream run) ↔
          Unaborted tasks i (.stream run)) := by
    intro probes
    induction probes with
    | nil => exact fun map tasks target _ _ => Iff.rfl
    | cons p probes ih =>
        intro map tasks target h hshows
        obtain ⟨h', hshows'⟩ := syncOne_inStep h hshows p
        exact (ih _ _ _ h' hshows').trans (hone map tasks p h)
  obtain ⟨h', _⟩ := syncAll_inStep h hshows probes
  rw [← hall probes map tasks target h hshows]
  show Unaborted (List.foldl _ _ _) _ _ ↔ _
  rw [unaborted_drop]
  refine and_iff_left_of_imp fun hu entry hentry heq => ?_
  obtain ⟨id, sig, handle⟩ := entry
  obtain rfl : handle = i := heq
  obtain ⟨spec, hu', _⟩ := h'.entry id sig handle (List.mem_filter.mp hentry).1
  cases hu.unique hu'

end Sync

end ShellfleetAgent.Agent.Streams
