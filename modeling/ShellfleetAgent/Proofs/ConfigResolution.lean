import ShellfleetAgent.Proofs.ConfigSpelling

/-!
# What an accepted path is resolved to

`check` splits, keeps a stack and puts a string together again. The stack is the path read
from the left, so it holds the one list of names that is left of the path when everything
that leads nowhere is left out of it, and the string has these names between its slashes.
So it is a path with nothing to leave out, and `check` returns it as it is.
-/

namespace ShellfleetAgent.Agent.Config

open ShellfleetAgent.Lib

/-! ## The reference -/

/-- The lexical resolution of an absolute path, as POSIX has it. -/
def LexicallyResolves (path resolved : Str) : Prop :=
  ∃ kept, ResolvesTo (pathSteps path) kept ∧
    resolved = '/' :: ['/'].intercalate kept ++
      (if path.getLast? = some '/' ∧ kept ≠ [] then ['/'] else [])

theorem lexicallyResolves_iff {path resolved : Str} :
    LexicallyResolves path resolved ↔ resolved = normalPath path := by
  constructor
  · intro h
    obtain ⟨kept, hkept, rfl⟩ := h
    rw [resolvesTo_iff, ← normalSegments_lexical] at hkept
    rw [hkept]
    rfl
  · rintro rfl
    exact ⟨_, resolvesTo_iff.mpr (normalSegments_lexical path), rfl⟩

/-! ## The string -/

/-- What splitting the string gives behind its root. -/
theorem splitOn_normalPath {path : Str} (hsome : normalSegments path ≠ []) :
    (normalPath path).splitOn '/' =
      [] :: normalSegments path ++ (if path.getLast? = some '/' then [[]] else []) := by
  have hrooted : (rooted (normalSegments path)).splitOn '/' = [] :: normalSegments path :=
    splitOn_rooted slash_notMem_normalSegments hsome
  rw [normalPath_eq, ending]
  by_cases hslash : path.getLast? = some '/'
  · rw [if_pos ⟨hslash, hsome⟩, if_pos hslash, List.splitOn_append_cons_self, hrooted,
      List.splitOn_nil]
  · rw [if_neg fun h => hslash h.1, if_neg hslash, List.append_nil, List.append_nil, hrooted]

theorem getLast?_normalPath {path : Str} (hsome : normalSegments path ≠ []) :
    (normalPath path).getLast? = some '/' ↔ path.getLast? = some '/' := by
  constructor
  · intro hlast
    obtain ⟨front, hfront⟩ := List.getLast?_eq_some_iff.mp hlast
    have hsplit := splitOn_normalPath hsome
    rw [hfront, List.splitOn_append_cons_self, List.splitOn_nil] at hsplit
    by_contra hslash
    rw [if_neg hslash, List.append_nil] at hsplit
    have hempty := congrArg List.getLast? hsplit
    rw [List.getLast?_concat, List.getLast?_cons_of_ne_nil hsome] at hempty
    exact (normalSegments_names (List.mem_of_getLast? hempty.symm)).2.1 rfl
  · intro hslash
    rw [normalPath_eq, ending, if_pos ⟨hslash, hsome⟩]
    exact List.getLast?_concat

theorem normalSegments_normalPath (path : Str) :
    normalSegments (normalPath path) = normalSegments path := by
  by_cases hsome : normalSegments path = []
  · rw [normalPath_eq, ending, hsome, if_neg fun h => h.2 rfl]
    decide
  · have hkeep : (normalSegments path).map segmentStep = (normalSegments path).map .name := by
      refine List.map_congr_left fun s hs => ?_
      obtain ⟨_, hne, hdot, hup⟩ := normalSegments_names hs
      rw [segmentStep, if_neg (not_or.mpr ⟨hne, hdot⟩), if_neg hup]
    have hnowhere : ∀ cur, Fs.lexical cur ((if path.getLast? = some '/' then [[]] else []).map
        segmentStep) = cur := by
      intro cur
      split
      · rfl
      · rfl
    rw [normalSegments_lexical (normalPath path), pathSteps, splitOn_normalPath hsome,
      List.map_append, Fs.lexical_append, hnowhere, List.map_cons, hkeep]
    show Fs.lexical [] ((normalSegments path).map .name) = _
    rw [Fs.lexical_names, List.nil_append]

theorem normalPath_normalPath (path : Str) : normalPath (normalPath path) = normalPath path := by
  have hending : ending (normalPath path) = ending path := by
    rw [ending, ending, normalSegments_normalPath]
    by_cases hsome : normalSegments path = []
    · rw [if_neg fun h => h.2 hsome, if_neg fun h => h.2 hsome]
    · simp only [getLast?_normalPath hsome]
  show rooted (normalSegments (normalPath path)) ++ ending (normalPath path) = _
  rw [normalSegments_normalPath, hending, ← normalPath_eq]

/-- There is nothing in the string but slashes and what was there. -/
theorem mem_normalPath {path : Str} {c : Char} (h : c ∈ normalPath path) : c = '/' ∨ c ∈ path := by
  rw [normalPath_eq, rooted] at h
  rcases List.mem_append.mp h with h | h
  · rcases List.mem_cons.mp h with h | h
    · exact .inl h
    · rcases mem_intercalate h with h | ⟨s, hs, hc⟩
      · exact .inl h
      · exact .inr (mem_of_mem_splitOn (normalSegments_names hs).1 hc)
  · rcases ending_cases path with hending | ⟨hending, _⟩
    · rw [hending] at h
      cases h
    · rw [hending] at h
      exact .inl (List.mem_singleton.mp h)

/-! ## `check` -/

theorem check_nul {path p : Str} (hok : check path = .ok p) : Char.ofNat 0 ∉ path := by
  intro hmem
  unfold check at hok
  split at hok
  · cases hok
  · split at hok
    · cases hok
    · cases hok

theorem check_returned {path p : Str} (hok : check path = .ok p) : check p = .ok p := by
  obtain ⟨rfl, hdenied, hallowed⟩ := check_ok hok
  have hnul : Char.ofNat 0 ∉ normalPath path := fun hmem =>
    (mem_normalPath hmem).elim (by decide) (check_nul hok)
  have hsame := normalPath_normalPath path
  have haccepts : Accepts (lowercase (normalPath (normalPath path))) := by
    rw [hsame]
    exact ⟨hdenied, hallowed⟩
  have hisOk := (check_isOk_iff rfl hnul).mpr haccepts
  cases hcheck : check (normalPath path) with
  | error e =>
      rw [hcheck] at hisOk
      cases hisOk
  | ok q => rw [(check_ok hcheck).1, hsame]

theorem check_some {path p : Str} (hok : check path = .ok p) : normalSegments path ≠ [] := by
  obtain ⟨rfl, _, hallowed⟩ := check_ok hok
  intro hnone
  rw [normalPath_eq, ending, hnone, if_neg fun h => h.2 rfl] at hallowed
  exact absurd hallowed (by decide)

/-- An accepted path is returned as the one path it resolves to. Between its slashes there
is no segment that leads nowhere or up, and it is accepted once more as it is. -/
theorem check_resolves {path p : Str} (hok : check path = .ok p) :
    (∀ resolved, LexicallyResolves path resolved ↔ resolved = p) ∧
      (∃ segments, p.splitOn '/' =
          [] :: segments ++ (if path.getLast? = some '/' then [[]] else []) ∧
        ∀ s ∈ segments, s ≠ [] ∧ s ≠ ['.'] ∧ s ≠ ['.', '.']) ∧
      check p = .ok p := by
  have hsome := check_some hok
  have hreturned := check_returned hok
  obtain ⟨rfl, _, _⟩ := check_ok hok
  exact ⟨fun _ => lexicallyResolves_iff,
    ⟨_, splitOn_normalPath hsome, fun s hs => (normalSegments_names hs).2⟩, hreturned⟩

theorem nginx_resolves :
    (∀ resolved, LexicallyResolves "/etc//ssl/./../nginx/".toList resolved ↔
        resolved = "/etc/nginx/".toList) ∧
      (∃ segments, "/etc/nginx/".toList.splitOn '/' =
          [] :: segments ++
            (if "/etc//ssl/./../nginx/".toList.getLast? = some '/' then [[]] else []) ∧
        ∀ s ∈ segments, s ≠ [] ∧ s ≠ ['.'] ∧ s ≠ ['.', '.']) ∧
      check "/etc/nginx/".toList = .ok "/etc/nginx/".toList :=
  check_resolves (by decide)

end ShellfleetAgent.Agent.Config
