import ShellfleetAgent.Lib.Lexical
import ShellfleetAgent.Proofs.Config

/-!
# How an accepted path is spelled

The policy is matched against a lower-cased string with a slash at its end if the path had
one, and what is returned is the string as it was. So a directory that is not on the
allow-list may be accepted for another that is spelled without capitals, and the verdict
on some paths turns on the slash.
-/

namespace ShellfleetAgent.Agent.Config

open ShellfleetAgent.Lib

/-! ## Normalised strings -/

def rooted (segments : List Str) : Str := '/' :: ['/'].intercalate segments

/-- What a segment asks for: an empty one and `.` lead nowhere. -/
def segmentStep (s : Str) : Step Str :=
  if s = [] ∨ s = ['.'] then .here else if s = ['.', '.'] then .up else .name s

def pathSteps (path : Str) : List (Step Str) := (path.splitOn '/').map segmentStep

theorem segmentStep_name {s n : Str} (h : segmentStep s = .name n) :
    n = s ∧ s ≠ [] ∧ s ≠ ['.'] ∧ s ≠ ['.', '.'] := by
  unfold segmentStep at h
  split at h
  · cases h
  · next hhere =>
      split at h
      · cases h
      · next hup =>
          cases h
          exact ⟨rfl, fun hs => hhere (.inl hs), fun hs => hhere (.inr hs), hup⟩

/-- The loop over the segments, from any stack. -/
theorem foldl_segments (segments stack : List Str) :
    (segments.filter fun s => s ≠ [] ∧ s ≠ ['.']).foldl
        (fun stack s => if s = ['.', '.'] then stack.dropLast else stack ++ [s]) stack =
      Fs.lexical stack (segments.map segmentStep) := by
  induction segments generalizing stack with
  | nil => rfl
  | cons s segments ih =>
      rw [List.map_cons]
      by_cases hhere : s = [] ∨ s = ['.']
      · have hdrop : ¬(s ≠ [] ∧ s ≠ ['.']) := fun h => hhere.elim h.1 h.2
        rw [List.filter_cons_of_neg (by simpa using hdrop), segmentStep, if_pos hhere]
        exact ih stack
      · have hkeep := not_or.mp hhere
        rw [List.filter_cons_of_pos (by simpa using hkeep), segmentStep, if_neg hhere,
          List.foldl_cons]
        by_cases hup : s = ['.', '.']
        · rw [if_pos hup, if_pos hup]
          exact ih stack.dropLast
        · rw [if_neg hup, if_neg hup]
          exact ih (stack ++ [s])

theorem normalSegments_lexical (path : Str) :
    normalSegments path = Fs.lexical [] (pathSteps path) := foldl_segments _ []

/-- A kept segment is one of the path's, and leads somewhere. -/
theorem normalSegments_names {path s : Str} (h : s ∈ normalSegments path) :
    s ∈ path.splitOn '/' ∧ s ≠ [] ∧ s ≠ ['.'] ∧ s ≠ ['.', '.'] := by
  rw [normalSegments_lexical] at h
  obtain ⟨segment, hsegment, hname⟩ :=
    List.mem_map.mp ((Fs.mem_lexical h).resolve_left List.not_mem_nil)
  obtain ⟨rfl, hs⟩ := segmentStep_name hname
  exact ⟨hsegment, hs⟩

theorem slash_notMem_normalSegments {path : Str} : ∀ s ∈ normalSegments path, '/' ∉ s :=
  fun _ hs => not_mem_of_mem_splitOn (normalSegments_names hs).1

/-- The slash that stays at the end. -/
def ending (path : Str) : Str :=
  if path.getLast? = some '/' ∧ normalSegments path ≠ [] then ['/'] else []

theorem normalPath_eq (path : Str) :
    normalPath path = rooted (normalSegments path) ++ ending path := rfl

theorem ending_cases (path : Str) :
    ending path = [] ∨ ending path = ['/'] ∧ normalSegments path ≠ [] := by
  unfold ending
  split
  · next h => exact .inr ⟨rfl, h.2⟩
  · exact .inl rfl

theorem lowercase_rooted (segments : List Str) :
    lowercase (rooted segments) = rooted (segments.map lowercase) := by
  induction segments with
  | nil => decide
  | cons s segments ih =>
      cases segments with
      | nil =>
          show lowercase ('/' :: ['/'].intercalate [s]) = '/' :: ['/'].intercalate [lowercase s]
          rw [List.intercalate_singleton, List.intercalate_singleton]
          rfl
      | cons s' segments =>
          have htail := (List.cons.inj ih).2
          rw [List.map_cons] at htail
          rw [List.map_cons, List.map_cons, rooted, rooted, List.intercalate_cons_cons,
            List.intercalate_cons_cons, ← htail]
          show lowercase ('/' :: (s ++ ['/'] ++ _)) = _
          rw [← List.singleton_append, lowercase_append, lowercase_append, lowercase_append]
          rfl

/-! ## Capitals -/

/-- The allow-list, segment by segment. -/
def allowDirs : List (List Str) :=
  [["etc"], ["opt"], ["usr", "local", "etc"], ["srv"], ["home"], ["var", "log"]].map
    (·.map String.toList)

theorem allowPrefixes_eq : allowPrefixes = allowDirs.map fun dir => rooted dir ++ ['/'] := by
  decide

theorem allowDirs_segments :
    ∀ dir ∈ allowDirs, dir ≠ [] ∧ (∀ s ∈ dir, '/' ∉ s) ∧ dir.map lowercase = dir := by
  decide

/-- None of them is inside another. -/
theorem allowDirs_apart : ∀ dir ∈ allowDirs, ∀ dir' ∈ allowDirs, dir <+: dir' → dir = dir' := by
  decide

theorem allowed_iff {segments : List Str} {t : Str} (hslash : ∀ s ∈ segments, '/' ∉ s)
    (ht : t = [] ∨ t = ['/'] ∧ segments ≠ []) : allowed (rooted segments ++ t) = true ↔
      ∃ dir ∈ allowDirs, dir <+: segments ∧ (segments = dir → t = ['/']) := by
  have hbefore : ∀ dir ∈ allowDirs, rooted dir ++ ['/'] <+: rooted segments ++ t ↔
      dir <+: segments ∧ (segments = dir → t = ['/']) := by
    intro dir hdir
    obtain ⟨hne, hnot, _⟩ := allowDirs_segments dir hdir
    exact rooted_prefix_iff hne hnot hslash ht
  rw [allowed, allowPrefixes_eq, List.any_map, List.any_eq_true]
  constructor
  · intro h
    obtain ⟨dir, hdir, hpre⟩ := h
    exact ⟨dir, hdir, (hbefore dir hdir).mp (List.isPrefixOf_iff_prefix.mp hpre)⟩
  · intro h
    obtain ⟨dir, hdir, hpre⟩ := h
    exact ⟨dir, hdir, List.isPrefixOf_iff_prefix.mpr ((hbefore dir hdir).mpr hpre)⟩

/-- What is allowed in lower case begins with one of the directories, but for capitals. -/
theorem folded_of_allowed {segments : List Str} {t : Str} (hslash : ∀ s ∈ segments, '/' ∉ s)
    (ht : t = [] ∨ t = ['/'] ∧ segments ≠ [])
    (hallowed : allowed (lowercase (rooted segments ++ t)) = true) :
    ∃ dir ∈ allowDirs, dir <+: segments.map lowercase ∧
      (segments.map lowercase = dir → t = ['/']) := by
  have hlower : lowercase t = t := by
    rcases ht with rfl | ⟨rfl, _⟩
    · rfl
    · decide
  rw [lowercase_append, lowercase_rooted, hlower, allowed_iff] at hallowed
  · exact hallowed
  · intro s hs
    obtain ⟨s', hs', rfl⟩ := List.mem_map.mp hs
    exact slash_notMem_lowercase (hslash s' hs')
  · rcases ht with h | ⟨h, hne⟩
    · exact .inl h
    · exact .inr ⟨h, by simpa using hne⟩

/-- A path that is allowed in lower case is allowed as it is exactly if it begins with
one of the directories, letter for letter. -/
theorem allowed_spelled {segments : List Str} {t : Str} (hslash : ∀ s ∈ segments, '/' ∉ s)
    (ht : t = [] ∨ t = ['/'] ∧ segments ≠ [])
    (hallowed : allowed (lowercase (rooted segments ++ t)) = true) :
    allowed (rooted segments ++ t) = true ↔ ∃ dir ∈ allowDirs, dir <+: segments := by
  rw [allowed_iff hslash ht]
  constructor
  · intro h
    obtain ⟨dir, hdir, hpre, _⟩ := h
    exact ⟨dir, hdir, hpre⟩
  · intro h
    obtain ⟨dir, hdir, hpre⟩ := h
    refine ⟨dir, hdir, hpre, fun heq => ?_⟩
    obtain ⟨dir', hdir', hpre', hend⟩ := folded_of_allowed hslash ht hallowed
    rw [heq, (allowDirs_segments dir hdir).2.2] at hpre' hend
    exact hend (allowDirs_apart dir' hdir' dir hdir hpre').symm

/-- The returned path is on the allow-list, letter for letter. -/
def Within (q : OsStr) : Prop := ∃ a ∈ allowPrefixes, OsStr.ofChars a <+: q

instance (q : OsStr) : Decidable (Within q) :=
  inferInstanceAs (Decidable (∃ a ∈ allowPrefixes, _))

/-- The first of the segments are those of a directory on the allow-list. -/
def SpelledUnder (segments : List OsStr) : Prop :=
  ∃ dir ∈ allowDirs, dir.map OsStr.ofChars <+: segments

theorem ofChars_injective : Function.Injective OsStr.ofChars := by
  intro s t h
  have hchars := congrArg OsStr.toChars h
  rw [OsStr.toChars_ofChars, OsStr.toChars_ofChars] at hchars
  exact Option.some.inj hchars

theorem within_ofChars {s : Str} : Within (OsStr.ofChars s) ↔ allowed s = true := by
  have hbefore : ∀ a : Str, OsStr.ofChars a <+: OsStr.ofChars s ↔ a <+: s :=
    fun a => List.prefix_map_iff_of_injective fun _ _ h => OsChar.chr.inj h
  rw [allowed, List.any_eq_true]
  constructor
  · intro h
    obtain ⟨a, ha, hpre⟩ := h
    exact ⟨a, ha, List.isPrefixOf_iff_prefix.mpr ((hbefore a).mp hpre)⟩
  · intro h
    obtain ⟨a, ha, hpre⟩ := h
    exact ⟨a, ha, (hbefore a).mpr (List.isPrefixOf_iff_prefix.mp hpre)⟩

theorem spelledUnder_ofChars {segments : List Str} :
    SpelledUnder (segments.map OsStr.ofChars) ↔ ∃ dir ∈ allowDirs, dir <+: segments := by
  have hbefore : ∀ dir : List Str, dir.map OsStr.ofChars <+: segments.map OsStr.ofChars ↔
      dir <+: segments := fun dir => List.prefix_map_iff_of_injective ofChars_injective
  constructor
  · intro h
    obtain ⟨dir, hdir, hpre⟩ := h
    exact ⟨dir, hdir, (hbefore dir).mp hpre⟩
  · intro h
    obtain ⟨dir, hdir, hpre⟩ := h
    exact ⟨dir, hdir, (hbefore dir).mpr hpre⟩

/-! ### Letter case -/

/-- One of the letters that `to_ascii_lowercase` changes. -/
def capital : OsChar → Bool
  | .chr c => c.isUpper
  | .raw _ => false

def foldCase (s : OsStr) : OsStr := s.map fun
  | .chr c => .chr c.toLower
  | .raw b => .raw b

/-- There is no capital letter in the segments that, but for capitals, are those of a
directory on the allow-list. -/
def LowerCase (segments : List OsStr) : Prop :=
  ∀ dir ∈ allowDirs, dir.map OsStr.ofChars <+: segments.map foldCase →
    ∀ s ∈ segments.take dir.length, ∀ c ∈ s, capital c = false

theorem toLower_eq_self {c : Char} : c.toLower = c ↔ c.isUpper = false := by
  unfold Char.toLower Char.isUpper
  split
  · next h =>
      refine iff_of_false (fun heq => ?_) (by simpa using h)
      have hval := congrArg (fun c : Char => c.val.toNat) heq
      have hhi := UInt32.le_iff_toNat_le.mp h.2
      simp only [UInt32.toNat_add, UInt32.toNat_sub] at hval hhi
      simp at hval hhi
      omega
  · next h => exact iff_of_true rfl (by simpa using h)

theorem foldCase_eq_self {s : OsStr} : foldCase s = s ↔ ∀ c ∈ s, capital c = false := by
  induction s with
  | nil => exact iff_of_true rfl nofun
  | cons c s ih =>
      rw [foldCase, List.map_cons, List.cons.injEq, List.forall_mem_cons, ← foldCase, ih]
      cases c with
      | raw b => exact and_congr_left fun _ => iff_of_true rfl rfl
      | chr c =>
          refine and_congr_left fun _ => ?_
          rw [OsChar.chr.injEq, capital]
          exact toLower_eq_self

theorem foldCase_ofChars (s : Str) : foldCase (OsStr.ofChars s) = OsStr.ofChars (lowercase s) := by
  rw [foldCase, OsStr.ofChars, OsStr.ofChars, lowercase, List.map_map, List.map_map]
  rfl

theorem map_foldCase_ofChars (segments : List Str) :
    (segments.map OsStr.ofChars).map foldCase = (segments.map lowercase).map OsStr.ofChars := by
  rw [List.map_map, List.map_map]
  exact List.map_congr_left fun s _ => foldCase_ofChars s

theorem allowDirs_foldCase {dir : List Str} (hdir : dir ∈ allowDirs) :
    (dir.map OsStr.ofChars).map foldCase = dir.map OsStr.ofChars := by
  rw [map_foldCase_ofChars, (allowDirs_segments dir hdir).2.2]

theorem allowDirs_capital {dir : List Str} (hdir : dir ∈ allowDirs) :
    ∀ s ∈ dir.map OsStr.ofChars, ∀ c ∈ s, capital c = false := by
  have hall : ∀ dir ∈ allowDirs, ∀ s ∈ dir.map OsStr.ofChars, ∀ c ∈ s, capital c = false := by
    decide
  exact hall dir hdir

/-- Segments that are those of a directory but for capitals are its own exactly if there
are none. -/
theorem spelledUnder_iff {segments : List OsStr}
    (hfolded : ∃ dir ∈ allowDirs, dir.map OsStr.ofChars <+: segments.map foldCase) :
    SpelledUnder segments ↔ LowerCase segments := by
  constructor
  · intro ⟨dir, hdir, hpre⟩ dir' hdir' hpre' s hs
    -- the directory that is matched is the one that is spelled
    have hpre'' := hpre.map foldCase
    rw [allowDirs_foldCase hdir] at hpre''
    have hsame : dir' = dir := by
      rcases List.prefix_or_prefix_of_prefix hpre' hpre'' with h | h
      · exact allowDirs_apart dir' hdir' dir hdir
          ((List.prefix_map_iff_of_injective ofChars_injective).mp h)
      · exact (allowDirs_apart dir hdir dir' hdir'
          ((List.prefix_map_iff_of_injective ofChars_injective).mp h)).symm
    subst hsame
    rw [List.prefix_iff_eq_take, List.length_map] at hpre
    rw [← hpre] at hs
    exact allowDirs_capital hdir s hs
  · intro hlower
    obtain ⟨dir, hdir, hpre⟩ := hfolded
    refine ⟨dir, hdir, ?_⟩
    have htake : (segments.take dir.length).map foldCase = segments.take dir.length :=
      (List.map_congr_left fun s hs => foldCase_eq_self.mpr (hlower dir hdir hpre s hs)).trans
        (List.map_id _)
    rw [List.prefix_iff_eq_take, List.length_map, ← List.map_take, htake] at hpre
    rw [hpre]
    exact List.take_prefix ..

/-- What the guard has let pass in lower case has the segments of a directory but for
capitals. -/
theorem folded_segments {segments : List Str} {t : Str} (hslash : ∀ s ∈ segments, '/' ∉ s)
    (ht : t = [] ∨ t = ['/'] ∧ segments ≠ [])
    (hallowed : allowed (lowercase (rooted segments ++ t)) = true) :
    ∃ dir ∈ allowDirs, dir.map OsStr.ofChars <+: (segments.map OsStr.ofChars).map foldCase := by
  obtain ⟨dir, hdir, hpre, _⟩ := folded_of_allowed hslash ht hallowed
  refine ⟨dir, hdir, ?_⟩
  rw [map_foldCase_ofChars]
  exact hpre.map OsStr.ofChars

/-- No directory of the host is one of the allow-list but for capitals. -/
def NoLookalike (h : HostFiles) : Prop :=
  ∀ loc, (h.fs.node loc).isSome → ∀ dir ∈ allowDirs,
    loc.map foldCase = dir.map OsStr.ofChars → loc = dir.map OsStr.ofChars

/-- On such a host everything that is there is spelled as it reads without capitals. -/
theorem NoLookalike.lowerCase {h : HostFiles} (hhost : NoLookalike h) {loc : List OsStr}
    (hloc : (h.fs.node loc).isSome) : LowerCase loc := by
  intro dir hdir hpre s hs
  rw [List.prefix_iff_eq_take, List.length_map, ← List.map_take] at hpre
  have hthere := Fs.isSome_of_prefix hloc (List.take_prefix dir.length loc)
  rw [hhost _ hthere dir hdir hpre.symm] at hs
  exact allowDirs_capital hdir s hs

/-! ### The three entry points -/

/-- The location of a path that is text. -/
theorem location_segments {loc : List OsStr} {s : Str} (hnames : ∀ name ∈ loc, slash ∉ name)
    (hne : loc ≠ []) (hs : OsStr.toChars (Path.ofLocation loc) = some s) :
    ∃ segments, loc = segments.map OsStr.ofChars ∧ s = rooted segments ∧
      ∀ x ∈ segments, '/' ∉ x := by
  have hsplit : (OsStr.ofChars s).splitOn slash = [] :: loc := by
    rw [← OsStr.eq_ofChars hs, Path.ofLocation, splitOn_rooted hnames hne]
  rw [Path.splitOn_ofChars] at hsplit
  cases hpieces : s.splitOn '/' with
  | nil => exact absurd hpieces (List.splitOn_ne_nil _ _)
  | cons first segments =>
      rw [hpieces, List.map_cons] at hsplit
      obtain ⟨hfirst, hloc⟩ := List.cons.inj hsplit
      refine ⟨segments, hloc.symm, ?_, ?_⟩
      · have hjoin : ['/'].intercalate (s.splitOn '/') = s := List.intercalate_splitOn '/'
        have hsegments : segments ≠ [] := by
          intro hnil
          rw [hnil] at hloc
          exact hne hloc.symm
        rw [hpieces, List.map_eq_nil_iff.mp hfirst, List.intercalate_cons_of_ne_nil hsegments]
          at hjoin
        exact hjoin.symm
      · intro x hx
        have hmem : x ∈ s.splitOn '/' := by
          rw [hpieces]
          exact List.mem_cons_of_mem _ hx
        exact not_mem_of_mem_splitOn hmem

theorem checkRead_ok {h : HostFiles} {path : Str} {q : OsStr} (hok : checkRead h path = .ok q) :
    ∃ lex loc s, check path = .ok lex ∧ h.canonicalize (OsStr.ofChars lex) = some loc ∧
      q = Path.ofLocation loc ∧ OsStr.toChars q = some s ∧ allowed (lowercase s) = true := by
  unfold checkRead at hok
  split at hok
  · cases hok
  next lex hlex =>
  split at hok
  · cases hok
  next loc hloc =>
  dsimp only at hok
  split at hok
  · cases hok
  next s hs =>
  split at hok
  · cases hok
  next hrecheck =>
  cases hok
  exact ⟨lex, loc, s, hlex, hloc, rfl, hs, (recheck_ok hrecheck).2⟩

theorem isAbsolute_check {path lex : Str} (hcheck : check path = .ok lex) :
    Path.isAbsolute (OsStr.ofChars lex) = true := by
  rw [(check_ok hcheck).1, normalPath_eq]
  rfl

theorem check_within {path q : Str} (hok : check path = .ok q) :
    Within (OsStr.ofChars q) ↔ LowerCase ((normalSegments path).map OsStr.ofChars) := by
  obtain ⟨rfl, _, hallowed⟩ := check_ok hok
  have hfolded := folded_segments slash_notMem_normalSegments (ending_cases path) hallowed
  rw [within_ofChars, ← spelledUnder_iff hfolded, spelledUnder_ofChars]
  exact allowed_spelled slash_notMem_normalSegments (ending_cases path) hallowed

theorem checkRead_within {h : HostFiles} (hnames : h.Named) {path : Str} {q : OsStr}
    (hok : checkRead h path = .ok q) :
    Within q ↔ ∃ loc, h.canonicalize (OsStr.ofChars (normalPath path)) = some loc ∧
      LowerCase loc := by
  obtain ⟨lex, loc, s, hlex, hloc, rfl, hs, hallowed⟩ := checkRead_ok hok
  have hloc' := hloc
  rw [(check_ok hlex).1] at hloc'
  have hne : loc ≠ [] := by
    intro hnil
    subst hnil
    cases hs
    exact absurd hallowed (by decide)
  obtain ⟨segments, rfl, rfl, hslash⟩ :=
    location_segments (hnames.canonicalize (isAbsolute_check hlex) hloc) hne hs
  have hallowed' : allowed (lowercase (rooted segments ++ [])) = true := by
    rwa [List.append_nil]
  have hspelled := allowed_spelled hslash (.inl rfl) hallowed'
  rw [List.append_nil] at hspelled
  rw [OsStr.eq_ofChars hs, within_ofChars, hspelled, ← spelledUnder_ofChars,
    spelledUnder_iff (folded_segments hslash (.inl rfl) hallowed')]
  constructor
  · intro hunder
    exact ⟨_, hloc', hunder⟩
  · intro hunder
    obtain ⟨loc, hfound, hunder⟩ := hunder
    rw [hloc'] at hfound
    cases hfound
    exact hunder

theorem checkWrite_within {h : HostFiles} (hnames : h.Named) {path : Str} {parent name : OsStr}
    (hok : checkWrite h path = .ok (parent, name)) :
    Within (Path.join parent name) ↔ ∃ lexParent loc,
      Path.parent (OsStr.ofChars (normalPath path)) = some lexParent ∧
      h.canonicalize lexParent = some loc ∧ LowerCase loc := by
  obtain ⟨lex, lexParent, loc, dir, hlex, hparent, hname, hloc, rfl, hdir, _, hallowed⟩ :=
    checkWrite_ok hok
  obtain ⟨leaf, rfl, hleaf, _⟩ := leaf_ok hlex hname
  have hparent' := hparent
  rw [(check_ok hlex).1] at hparent'
  have hne : loc ≠ [] := by
    intro hnil
    subst hnil
    cases hdir
    exact absurd hallowed (by decide)
  have habs := Path.isAbsolute_parent (isAbsolute_check hlex) hparent
  obtain ⟨segments, rfl, rfl, hslash⟩ :=
    location_segments (hnames.canonicalize habs hloc) hne hdir
  have hsegments : segments ≠ [] := by
    intro hnil
    rw [hnil] at hne
    exact hne rfl
  obtain ⟨t, ht, hdirectory⟩ : ∃ t, (t = [] ∨ t = ['/'] ∧ segments ≠ []) ∧
      inDirectory (rooted segments) [] = rooted segments ++ t := by
    unfold inDirectory
    split
    · exact ⟨[], .inl rfl, rfl⟩
    · exact ⟨['/'], .inr ⟨rfl, hsegments⟩, List.append_nil _⟩
  have hjoin : inDirectory (rooted segments) leaf = rooted segments ++ t ++ leaf := by
    rw [← hdirectory]
    unfold inDirectory
    split
    · rw [List.append_nil]
    · rw [List.append_nil]
  have hlower := lowercase_inDirectory (rooted segments) []
  rw [hdirectory, show lowercase [] = [] from rfl, List.append_nil] at hlower
  rw [← hlower] at hallowed
  have hspelled := allowed_spelled hslash ht hallowed
  have hdirne : Path.ofLocation (segments.map OsStr.ofChars) ≠ [] := List.cons_ne_nil _ _
  rw [← writeTarget, OsStr.eq_ofChars (writeTarget_chars hdir hdirne rfl hleaf), within_ofChars,
    hjoin]
  have hleafless : allowed (rooted segments ++ t ++ leaf) = true ↔
      allowed (rooted segments ++ t) = true := ⟨allowed_leaf hleaf, allowed_append⟩
  rw [hleafless, hspelled, ← spelledUnder_ofChars,
    spelledUnder_iff (folded_segments hslash ht hallowed)]
  constructor
  · intro hunder
    exact ⟨lexParent, _, hparent', hloc, hunder⟩
  · intro hunder
    obtain ⟨lexParent', loc, hsame, hfound, hunder⟩ := hunder
    obtain rfl : lexParent = lexParent' := Option.some.inj (hparent'.symm.trans hsame)
    rw [hloc] at hfound
    cases hfound
    exact hunder

theorem checkRead_within_of_noLookalike {h : HostFiles} (hnames : h.Named)
    (hhost : NoLookalike h) {path : Str} {q : OsStr} (hok : checkRead h path = .ok q) :
    Within q := by
  obtain ⟨lex, loc, _, hlex, hloc, _⟩ := checkRead_ok hok
  have hthere := HostFiles.isSome_of_canonicalize (isAbsolute_check hlex) hloc
  rw [(check_ok hlex).1] at hloc
  exact (checkRead_within hnames hok).mpr ⟨loc, hloc, hhost.lowerCase hthere⟩

theorem checkWrite_within_of_noLookalike {h : HostFiles} (hnames : h.Named)
    (hhost : NoLookalike h) {path : Str} {parent name : OsStr}
    (hok : checkWrite h path = .ok (parent, name)) : Within (Path.join parent name) := by
  obtain ⟨lex, lexParent, loc, _, hlex, hparent, _, hloc, _⟩ := checkWrite_ok hok
  have habs := Path.isAbsolute_parent (isAbsolute_check hlex) hparent
  have hthere := HostFiles.isSome_of_canonicalize habs hloc
  rw [(check_ok hlex).1] at hparent
  exact (checkWrite_within hnames hok).mpr
    ⟨lexParent, loc, hparent, hloc, hhost.lowerCase hthere⟩

/-- What is returned is on the allow-list, letter for letter, exactly if what the guard has
matched without regard to capitals has none: in the path for `check`, and for the two others
in the place the path, or its parent, leads to on this host. So nothing goes wrong for them on
a host without directories that are on the allow-list but for capitals. -/
theorem returned_within_iff (h : HostFiles) (hnames : h.Named) (path : Str) :
    (∀ q, check path = .ok q → (Within (OsStr.ofChars q) ↔
      LowerCase ((normalSegments path).map OsStr.ofChars))) ∧
    (∀ q, checkRead h path = .ok q → (Within q ↔
      ∃ loc, h.canonicalize (OsStr.ofChars (normalPath path)) = some loc ∧ LowerCase loc)) ∧
    (∀ parent name, checkWrite h path = .ok (parent, name) → (Within (Path.join parent name) ↔
      ∃ lexParent loc, Path.parent (OsStr.ofChars (normalPath path)) = some lexParent ∧
        h.canonicalize lexParent = some loc ∧ LowerCase loc)) ∧
    (NoLookalike h → (∀ q, checkRead h path = .ok q → Within q) ∧
      ∀ parent name, checkWrite h path = .ok (parent, name) → Within (Path.join parent name)) := by
  refine ⟨fun _ => check_within, fun _ => checkRead_within hnames,
    fun _ _ => checkWrite_within hnames, fun hhost => ⟨fun _ hok => ?_, fun _ _ hok => ?_⟩⟩
  · exact checkRead_within_of_noLookalike hnames hhost hok
  · exact checkWrite_within_of_noLookalike hnames hhost hok

/-! A host with two directories that differ in a capital. -/

def capitalsEntries : List (List OsStr × Node OsStr) :=
  [([os "etc"], .dir), ([os "etc", os "motd"], .file), ([os "ETC"], .dir),
    ([os "ETC", os "motd"], .file)]

def capitalsHost : HostFiles where
  fs := Fs.ofEntries capitalsEntries (by decide)
  cwd := []

theorem capitalsHost_named : capitalsHost.Named := by
  intro loc hloc
  by_cases hnil : loc = []
  · subst hnil
    exact nofun
  · have hall : ∀ loc ∈ capitalsEntries.map Prod.fst, ∀ name ∈ loc, slash ∉ name := by
      decide
    exact hall loc ((Fs.ofEntries_isSome (by decide) hnil).mp hloc)

theorem motd_within :
    (Within (os "/etc/motd") ↔
      LowerCase ((normalSegments "/etc/./motd".toList).map OsStr.ofChars)) ∧
    (Within (os "/etc/motd") ↔
      ∃ loc, capitalsHost.canonicalize (OsStr.ofChars (normalPath "/etc/./motd".toList)) =
        some loc ∧ LowerCase loc) ∧
    (Within (Path.join (os "/etc") (os "motd")) ↔ ∃ lexParent loc,
      Path.parent (OsStr.ofChars (normalPath "/etc/./motd".toList)) = some lexParent ∧
        capitalsHost.canonicalize lexParent = some loc ∧ LowerCase loc) := by
  obtain ⟨hcheck, hread, hwrite, _⟩ :=
    returned_within_iff capitalsHost capitalsHost_named "/etc/./motd".toList
  exact ⟨hcheck _ (by decide), hread _ (by decide), hwrite _ _ (by decide)⟩

/-- All three return `/ETC/motd`. -/
theorem capitals_accepted :
    (check "/ETC/motd".toList = .ok "/ETC/motd".toList ∧
      checkRead capitalsHost "/ETC/motd".toList = .ok (os "/ETC/motd") ∧
      checkWrite capitalsHost "/ETC/motd".toList = .ok (os "/ETC", os "motd") ∧
      Path.join (os "/ETC") (os "motd") = os "/ETC/motd") ∧
    ¬Within (os "/ETC/motd") := by
  decide +kernel

/-! ## The slash at the end -/

/-- The policy lets the string through. -/
def Accepts (lower : Str) : Prop := deniedPath lower = none ∧ allowed lower = true

instance (lower : Str) : Decidable (Accepts lower) := inferInstanceAs (Decidable (_ ∧ _))

/-- The directories that are denied with their slash only. -/
def slashDenied : List Str :=
  ["/etc/ssh/", "/etc/letsencrypt/", "/etc/ssl/private/", "/etc/kubernetes/"].map String.toList

/-- The path is a directory of the allow-list itself, or one that is denied with its slash
only, or Docker's credentials in a place that no other rule denies. -/
def SlashMatters (lower : Str) : Prop :=
  lower ++ ['/'] ∈ allowPrefixes ∨ lower ++ ['/'] ∈ slashDenied ∨
    dockerConfig <:+ lower ∧ deniedPath (lower ++ ['/']) = none ∧ allowed lower = true

instance (lower : Str) : Decidable (SlashMatters lower) :=
  inferInstanceAs (Decidable (_ ∨ _ ∨ _ ∧ _ ∧ _))

theorem prefix_slash_iff {d p : Str} : d <+: p ++ ['/'] ↔ d <+: p ∨ d = p ++ ['/'] := by
  rw [List.prefix_concat_iff]
  exact or_comm

theorem allowed_slash {p : Str} :
    allowed (p ++ ['/']) = true ↔ allowed p = true ∨ p ++ ['/'] ∈ allowPrefixes := by
  constructor
  · intro h
    obtain ⟨a, ha, hpre⟩ := List.any_eq_true.mp h
    rcases prefix_slash_iff.mp (List.isPrefixOf_iff_prefix.mp hpre) with hpre | rfl
    · exact .inl (List.any_eq_true.mpr ⟨a, ha, List.isPrefixOf_iff_prefix.mpr hpre⟩)
    · exact .inr ha
  · intro h
    rcases h with h | h
    · exact allowed_append h
    · exact List.any_eq_true.mpr ⟨_, h, List.isPrefixOf_iff_prefix.mpr List.prefix_rfl⟩

theorem not_dockerConfig_slash {p : Str} : ¬dockerConfig <:+ p ++ ['/'] := by
  intro h
  obtain ⟨z, hz⟩ := h
  have hlast := congrArg List.getLast? hz
  rw [List.getLast?_append_of_ne_nil _ (by decide), List.getLast?_concat] at hlast
  exact absurd hlast (by decide)

/-- With the slash, one more prefix rule may match and the suffix rule cannot. -/
theorem deniedPath_slash {p : Str} : deniedPath (p ++ ['/']) = none ↔
    p ++ ['/'] ∉ denyPrefixes ∧ (∀ d ∈ denyPrefixes, ¬d <+: p) ∧
      ∀ c ∈ p.splitOn '/', c ∉ credentialDirs ∧ c ≠ ".netrc".toList := by
  rw [deniedPath_eq_none, List.splitOn_append_cons_self, List.splitOn_nil]
  constructor
  · intro h
    obtain ⟨hpre, hcomps, _⟩ := h
    refine ⟨fun hmem => hpre _ hmem List.prefix_rfl, ?_, ?_⟩
    · exact fun d hd hmatch => hpre d hd (prefix_slash_iff.mpr (.inl hmatch))
    · exact fun c hc => hcomps c (List.mem_append_left _ hc)
  · intro h
    obtain ⟨hnot, hpre, hcomps⟩ := h
    refine ⟨?_, ?_, not_dockerConfig_slash⟩
    · intro d hd hmatch
      rcases prefix_slash_iff.mp hmatch with hmatch | rfl
      · exact hpre d hd hmatch
      · exact hnot hd
    · intro c hc
      rcases List.mem_append.mp hc with hc | hc
      · exact hcomps c hc
      · rw [List.mem_singleton.mp hc]
        decide

theorem allowPrefixes_dirs : ∀ a ∈ allowPrefixes, Accepts a ∧ allowed a.dropLast = false := by
  decide

theorem denyPrefixes_dirs :
    ∀ d ∈ denyPrefixes, d.getLast? = some '/' → Accepts d.dropLast → d ∈ slashDenied := by
  decide

theorem slashDenied_dirs :
    ∀ d ∈ slashDenied, d ∈ denyPrefixes ∧ Accepts d.dropLast := by
  decide

theorem accepts_slash_iff {p : Str} : (Accepts p ↔ Accepts (p ++ ['/'])) ↔ ¬SlashMatters p := by
  constructor
  · intro hsame hmatters
    rcases hmatters with hroot | hdenied | ⟨hdocker, hnone, hallowed⟩
    · obtain ⟨haccepts, hnot⟩ := allowPrefixes_dirs _ hroot
      rw [List.dropLast_concat] at hnot
      rw [(hsame.mpr haccepts).2] at hnot
      cases hnot
    · obtain ⟨hmem, haccepts⟩ := slashDenied_dirs _ hdenied
      rw [List.dropLast_concat] at haccepts
      exact (deniedPath_slash.mp (hsame.mp haccepts).1).1 hmem
    · have haccepts := hsame.mpr ⟨hnone, allowed_append hallowed⟩
      exact (deniedPath_eq_none.mp haccepts.1).2.2 hdocker
  · intro hnot
    constructor
    · intro haccepts
      obtain ⟨hpre, hcomps, _⟩ := deniedPath_eq_none.mp haccepts.1
      refine ⟨deniedPath_slash.mpr ⟨fun hmem => hnot (.inr (.inl ?_)), hpre, hcomps⟩,
        allowed_append haccepts.2⟩
      exact denyPrefixes_dirs _ hmem List.getLast?_concat (by rwa [List.dropLast_concat])
    · intro haccepts
      have hallowed : allowed p = true :=
        (allowed_slash.mp haccepts.2).resolve_right fun hroot => hnot (.inl hroot)
      obtain ⟨_, hpre, hcomps⟩ := deniedPath_slash.mp haccepts.1
      refine ⟨deniedPath_eq_none.mpr ⟨hpre, hcomps, fun hdocker => hnot (.inr (.inr ?_))⟩,
        hallowed⟩
      exact ⟨hdocker, haccepts.1, hallowed⟩

theorem check_isOk_iff {path : Str} (habs : path.head? = some '/')
    (hnul : Char.ofNat 0 ∉ path) :
    (check path).isOk = true ↔ Accepts (lowercase (normalPath path)) := by
  have hne : path ≠ [] := by
    intro hnil
    rw [hnil] at habs
    cases habs
  unfold check
  rw [if_neg hne, if_neg (not_not.mpr habs), if_neg hnul, Accepts]
  dsimp only
  cases hdenied : deniedPath (lowercase (normalPath path)) with
  | some reason => exact iff_of_false Bool.false_ne_true nofun
  | none =>
      dsimp only
      by_cases hallowed : allowed (lowercase (normalPath path)) = true
      · rw [if_pos hallowed]
        exact iff_of_true rfl ⟨rfl, hallowed⟩
      · rw [if_neg hallowed]
        exact iff_of_false Bool.false_ne_true fun h => hallowed h.2

/-- Two spellings of one path get one verdict exactly if both end in a slash or neither
does, or the slash does not matter. -/
theorem verdict_same_iff (path path' : Str) (habs : path.head? = some '/')
    (habs' : path'.head? = some '/') (hnul : Char.ofNat 0 ∉ path) (hnul' : Char.ofNat 0 ∉ path')
    (hsame : normalSegments path = normalSegments path') :
    (check path).isOk = (check path').isOk ↔
      ((path.getLast? = some '/' ↔ path'.getLast? = some '/') ∨
        ¬SlashMatters (lowercase (rooted (normalSegments path)))) := by
  have hlower : ∀ p, lowercase (normalPath p) =
      lowercase (rooted (normalSegments p)) ++ ending p := by
    intro p
    rw [normalPath_eq, lowercase_append]
    rcases ending_cases p with h | ⟨h, _⟩
    · rw [h]
      rfl
    · rw [h]
      rfl
  rw [Bool.eq_iff_iff, check_isOk_iff habs hnul, check_isOk_iff habs' hnul', hlower, hlower,
    ← hsame, ending, ending, ← hsame]
  by_cases hroot : normalSegments path = []
  · rw [hroot, if_neg (by simp), if_neg (by simp)]
    exact iff_of_true Iff.rfl (.inr (by decide))
  · by_cases hend : path.getLast? = some '/'
    · rw [if_pos ⟨hend, hroot⟩]
      by_cases hend' : path'.getLast? = some '/'
      · rw [if_pos ⟨hend', hroot⟩]
        exact iff_of_true Iff.rfl (.inl (iff_of_true hend hend'))
      · have hother : ¬(path.getLast? = some '/' ↔ path'.getLast? = some '/') :=
          fun h => hend' (h.mp hend)
        rw [if_neg fun h => hend' h.1, List.append_nil, ← accepts_slash_iff]
        exact ⟨fun h => .inr h.symm, fun h => (h.resolve_left hother).symm⟩
    · rw [if_neg fun h => hend h.1, List.append_nil]
      by_cases hend' : path'.getLast? = some '/'
      · have hother : ¬(path.getLast? = some '/' ↔ path'.getLast? = some '/') :=
          fun h => hend (h.mpr hend')
        rw [if_pos ⟨hend', hroot⟩, ← accepts_slash_iff]
        exact ⟨fun h => .inr h, fun h => h.resolve_left hother⟩
      · rw [if_neg fun h => hend' h.1, List.append_nil]
        exact iff_of_true Iff.rfl (.inl (iff_of_false hend hend'))

theorem nginx_same :
    (check "/etc/nginx/".toList).isOk = (check "/etc//ssl/../nginx".toList).isOk ↔
      (("/etc/nginx/".toList.getLast? = some '/' ↔
          "/etc//ssl/../nginx".toList.getLast? = some '/') ∨
        ¬SlashMatters (lowercase (rooted (normalSegments "/etc/nginx/".toList)))) :=
  verdict_same_iff _ _ rfl rfl (by decide) (by decide) (by decide)

/-- A denied directory without its slash, and Docker's credentials with one. -/
theorem slash_tells :
    (normalSegments "/etc/ssh".toList = normalSegments "/etc/ssh/".toList ∧
      check "/etc/ssh".toList = .ok "/etc/ssh".toList ∧
      check "/etc/ssh/".toList = .error (.blockedByDenyList "/etc/ssh/".toList)) ∧
    (normalSegments "/home/u/.docker/config.json".toList =
        normalSegments "/home/u/.docker/config.json/".toList ∧
      check "/home/u/.docker/config.json".toList =
        .error (.blockedByDenyList "any .docker/config.json file".toList) ∧
      check "/home/u/.docker/config.json/".toList = .ok "/home/u/.docker/config.json/".toList) := by
  decide +kernel

end ShellfleetAgent.Agent.Config
