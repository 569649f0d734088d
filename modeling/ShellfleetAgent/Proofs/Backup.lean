import Mathlib.Data.List.Infix
import ShellfleetAgent.Agent.Backup

/-!
# What the backup roots contain

`within_roots` compares three notions of where a path is: its spelling, the
place `canonicalize` finds, and, where that finds nothing, the spelling again.
The kernel knows a fourth, the place it would create. Spelling and place agree
as long as the kernel's walk meets no link (`locate_asSpelled`), and where the
path resolves the check has looked at the place itself; what is left is a path
that does not exist yet. It is in the roots if its deepest ancestor that is there is
(`HostFiles.NewBelow.ancestor`), which the check does not ask.

`restore` checks a path and then makes it with all its ancestors, so it inherits the
law with one exception less: a spelling that `..` leads back from a new directory
leaves that directory behind. `run_backup` checks its sources only: what it writes is
confined where the destination and the archive's name happen to be.
-/

namespace ShellfleetAgent.Agent.Backup

open ShellfleetAgent.Lib

/-- The kernel would read or create `p` below one of the roots. -/
def Inside (h : HostFiles) (p : OsStr) (roots : List OsStr) : Prop :=
  ∀ loc ∈ h.locate p, ∃ r ∈ roots, ∃ root ∈ h.locate r, root <+: loc

/-- The kernel's walk of `p` meets no link. -/
def AsSpelled (h : HostFiles) (p : OsStr) : Prop :=
  ∃ loc, h.fs.walk true (h.start p) (Path.steps p) = .arrived loc

/-! ## Spellings and places -/

theorem isPrefix_canonical {root loc : List OsStr} :
    canonical root <+: canonical loc ↔ root <+: loc := by
  rw [canonical, canonical, List.cons_prefix_cons]
  refine ⟨fun h => ?_, fun h => ⟨rfl, h.map _⟩⟩
  have hinj : Function.Injective Component.normal := fun _ _ h => Component.normal.inj h
  exact (List.prefix_map_iff_of_injective hinj).mp h.2

theorem pop_canonical (loc : List OsStr) : pop (canonical loc) = canonical loc.dropLast := by
  rcases List.eq_nil_or_concat loc with rfl | ⟨init, name, rfl⟩
  · rfl
  · have hcanonical : canonical (init ++ [name]) = canonical init ++ [Component.normal name] := by
      simp [canonical]
    rw [List.concat_eq_append, hcanonical, pop, List.getLast?_concat, List.dropLast_concat,
      List.dropLast_concat]

/-- Normalising a spelling is walking it. -/
theorem foldl_normalize (segments : List OsStr) (loc : List OsStr) :
    (segments.filterMap Path.component).foldl normalizeStep (canonical loc) =
      canonical (Fs.lexical loc (segments.map Path.step)) := by
  induction segments generalizing loc with
  | nil => rfl
  | cons s segments ih =>
      rw [List.map_cons, List.filterMap_cons]
      by_cases hhere : s = [] ∨ s = Path.dot
      · rw [Path.component, if_pos hhere, Path.step, if_pos hhere]
        exact ih loc
      · by_cases hup : s = Path.dotDot
        · rw [Path.component, if_neg hhere, if_pos hup, Path.step, if_neg hhere, if_pos hup]
          show List.foldl normalizeStep (pop (canonical loc)) _ = _
          rw [pop_canonical]
          exact ih loc.dropLast
        · rw [Path.component, if_neg hhere, if_neg hup, Path.step, if_neg hhere, if_neg hup]
          have hpush : normalizeStep (canonical loc) (.normal s) = canonical (loc ++ [s]) := by
            simp [normalizeStep, canonical]
          show List.foldl normalizeStep (normalizeStep (canonical loc) (.normal s)) _ = _
          rw [hpush]
          exact ih (loc ++ [s])

theorem normalizeLexical_absolute {p : OsStr} (hp : Path.isAbsolute p = true) :
    normalizeLexical p = canonical (Fs.lexical [] (Path.steps p)) := by
  rw [normalizeLexical, Path.components, hp]
  exact foldl_normalize (p.splitOn slash) []

theorem rootDir_mem_normalizeStep {out : List Component} {c : Component}
    (h : .rootDir ∈ normalizeStep out c) : .rootDir ∈ out ∨ c = .rootDir := by
  cases c with
  | rootDir => exact .inr rfl
  | curDir => exact .inl h
  | parentDir =>
      rw [normalizeStep, pop] at h
      split at h
      · exact .inl h
      · exact .inl h
      · exact .inl (List.mem_of_mem_dropLast h)
  | normal name =>
      rw [normalizeStep, List.mem_append, List.mem_singleton] at h
      exact .inl (h.resolve_right nofun)

/-- Only an absolute path normalises to one. -/
theorem absolute_of_rootDir {p : OsStr} (h : .rootDir ∈ normalizeLexical p) :
    Path.isAbsolute p = true := by
  have hmem : ∀ (cs out : List Component), .rootDir ∈ cs.foldl normalizeStep out →
      .rootDir ∈ out ∨ .rootDir ∈ cs := by
    intro cs
    induction cs with
    | nil => exact fun out h => .inl h
    | cons c cs ih =>
        intro out h
        rcases ih _ h with h | h
        · rcases rootDir_mem_normalizeStep h with h | rfl
          · exact .inl h
          · exact .inr (List.mem_cons_self ..)
        · exact .inr (List.mem_cons_of_mem _ h)
  have hcomponents : .rootDir ∈ Path.components p := (hmem _ _ h).resolve_left List.not_mem_nil
  exact Path.isAbsolute_of_rootDir hcomponents

theorem absolute_of_within {p : OsStr} {r : OsStr} (hr : Path.isAbsolute r = true)
    (h : normalizeLexical r <+: normalizeLexical p) : Path.isAbsolute p = true := by
  refine absolute_of_rootDir (h.subset ?_)
  rw [normalizeLexical_absolute hr]
  exact List.mem_cons_self ..

/-- Without a link on the way, the place of a path is its spelling. -/
theorem locate_asSpelled {h : HostFiles} {p : OsStr} (hp : Path.isAbsolute p = true)
    (hs : AsSpelled h p) : ∃ loc ∈ h.locate p, normalizeLexical p = canonical loc := by
  obtain ⟨loc, hwalk⟩ := hs
  have hstart : h.start p = [] := by
    rw [HostFiles.start, if_pos hp]
  have hne : p ≠ [] := by
    rintro rfl
    cases hp
  have hloc := Fs.walk_plain hwalk
  rw [hstart] at hloc
  refine ⟨loc, ?_, by rw [normalizeLexical_absolute hp, hloc]⟩
  rw [HostFiles.locate, if_neg hne, Fs.locate, Fs.maxSymlinks, Fs.follow, hwalk]
  rfl

/-! ## `within_roots` -/

theorem lexicallyWithin_iff {p : OsStr} {roots : List OsStr} :
    lexicallyWithin p roots = true ↔
      ∃ r ∈ roots, normalizeLexical r <+: normalizeLexical p := by
  simp [lexicallyWithin, List.any_eq_true]

theorem withinRoots_iff {h : HostFiles} {p : OsStr} {roots : List OsStr} :
    withinRoots h p roots = true ↔ lexicallyWithin p roots = true ∧
      ∀ loc ∈ h.canonicalize p, ∃ r ∈ roots, canonicalRoot h r <+: canonical loc := by
  unfold withinRoots
  cases hlex : lexicallyWithin p roots with
  | false => simp
  | true =>
      cases hcanon : h.canonicalize p with
      | none => simp
      | some loc => simp [List.any_eq_true]

/-- Each root is there, or is reached without a link. -/
def RootsFound (h : HostFiles) (roots : List OsStr) : Prop :=
  ∀ r ∈ roots, h.pathExists r = true ∨ AsSpelled h r

/-- The deepest ancestor of `p` that is there, which may be `p` itself, has been held
against the roots: the comparison that the check makes of a path that resolves. -/
def Anchored (h : HostFiles) (p : OsStr) (roots : List OsStr) : Prop :=
  RootsFound h roots ∧ (h.pathExists p = true ∨
    ∃ dir, h.NewBelow p dir ∧ ∃ r ∈ roots, canonicalRoot h r <+: canonical dir)

/-- `p` is refused as it is spelled, or leads nowhere, or is anchored, or its spelling
and that of a root can be trusted. -/
def Contained (h : HostFiles) (p : OsStr) (roots : List OsStr) : Prop :=
  lexicallyWithin p roots = false ∨ h.locate p = none ∨ Anchored h p roots ∨
    AsSpelled h p ∧ ∃ r ∈ roots, AsSpelled h r ∧ normalizeLexical r <+: normalizeLexical p

/-- The roots are there, `p` leads somewhere, and it is there as well or only names of
it are missing. -/
structure Settled (h : HostFiles) (p : OsStr) (roots : List OsStr) : Prop where
  roots : ∀ r ∈ roots, h.pathExists r = true
  leads : (h.locate p).isSome
  path : h.pathExists p = true ∨ ∃ dir, h.NewBelow p dir

theorem RootsFound.place {h : HostFiles} {roots : List OsStr} (hf : RootsFound h roots)
    {r : OsStr} (hr : r ∈ roots) (habs : Path.isAbsolute r = true) :
    ∃ root ∈ h.locate r, canonicalRoot h r = canonical root := by
  cases hroot : h.canonicalize r with
  | some root =>
      refine ⟨root, HostFiles.locate_of_canonicalize hroot, ?_⟩
      rw [canonicalRoot, hroot]
  | none =>
      have hspelled : AsSpelled h r :=
        (hf r hr).resolve_left (by simp [HostFiles.pathExists, hroot])
      obtain ⟨root, hloc, hlex⟩ := locate_asSpelled habs hspelled
      refine ⟨root, hloc, ?_⟩
      rw [canonicalRoot, hroot]
      exact hlex

/-- What begins at a place that was compared is in the roots. -/
theorem RootsFound.inside {h : HostFiles} {p : OsStr} {roots : List OsStr} {dir : List OsStr}
    (habs : ∀ r ∈ roots, Path.isAbsolute r = true) (hf : RootsFound h roots)
    (hdir : ∃ r ∈ roots, canonicalRoot h r <+: canonical dir)
    (hp : ∀ loc ∈ h.locate p, dir <+: loc) : Inside h p roots := by
  obtain ⟨r, hr, hpre⟩ := hdir
  obtain ⟨root, hroot, hcanonical⟩ := hf.place hr (habs r hr)
  rw [hcanonical, isPrefix_canonical] at hpre
  exact fun loc hloc => ⟨r, hr, root, hroot, hpre.trans (hp loc hloc)⟩

/-- The check is right about a path that is there. -/
theorem RootsFound.inside_found {h : HostFiles} {p : OsStr} {roots : List OsStr}
    (habs : ∀ r ∈ roots, Path.isAbsolute r = true) (hf : RootsFound h roots)
    (hexists : h.pathExists p = true) (hp : withinRoots h p roots = true) : Inside h p roots := by
  obtain ⟨loc, hloc⟩ := Option.isSome_iff_exists.mp hexists
  refine hf.inside habs ((withinRoots_iff.mp hp).2 loc hloc) fun loc' hloc' => ?_
  obtain rfl : loc = loc' :=
    Option.some.inj ((HostFiles.locate_of_canonicalize hloc).symm.trans hloc')
  exact List.prefix_refl loc

theorem absolute_of_lexicallyWithin {p : OsStr} {roots : List OsStr}
    (habs : ∀ r ∈ roots, Path.isAbsolute r = true) (hp : lexicallyWithin p roots = true) :
    Path.isAbsolute p = true := by
  obtain ⟨r, hr, hpre⟩ := lexicallyWithin_iff.mp hp
  exact absolute_of_within (habs r hr) hpre

/-- A path that is new below a place that was compared is in the roots, and so is every
ancestor of it that is missing. -/
theorem RootsFound.inside_new {h : HostFiles} {p q : OsStr} {roots : List OsStr}
    {dir : List OsStr} (habs : ∀ r ∈ roots, Path.isAbsolute r = true) (hf : RootsFound h roots)
    (hp : Path.isAbsolute p = true) (hnew : h.NewBelow p dir)
    (hdir : ∃ r ∈ roots, canonicalRoot h r <+: canonical dir) (hq : q ∈ Path.ancestors p)
    (hmissing : h.canonicalize q = none) : Inside h q roots := by
  refine hf.inside habs hdir fun loc hloc => ?_
  obtain ⟨n, names, rfl, _⟩ := hnew.ancestor hp hq hmissing hloc
  exact List.prefix_append ..

theorem missing_of_not_exists {h : HostFiles} {p : OsStr} (hp : ¬h.pathExists p = true) :
    h.canonicalize p = none := by
  simpa [HostFiles.pathExists] using hp

theorem Anchored.inside {h : HostFiles} {p : OsStr} {roots : List OsStr}
    (habs : ∀ r ∈ roots, Path.isAbsolute r = true) (ha : Anchored h p roots)
    (hp : withinRoots h p roots = true) : Inside h p roots := by
  obtain ⟨hf, hplace⟩ := ha
  by_cases hexists : h.pathExists p = true
  · exact hf.inside_found habs hexists hp
  · obtain ⟨dir, hnew, hdir⟩ := hplace.resolve_left hexists
    exact hf.inside_new habs (absolute_of_lexicallyWithin habs (withinRoots_iff.mp hp).1) hnew
      hdir (Path.self_mem_ancestors p) (missing_of_not_exists hexists)

theorem Contained.inside {h : HostFiles} {p : OsStr} {roots : List OsStr}
    (habs : ∀ r ∈ roots, Path.isAbsolute r = true) (hc : Contained h p roots)
    (hp : withinRoots h p roots = true) : Inside h p roots := by
  rcases hc with hrefused | hnowhere | ha | ⟨hps, r, hr, hrs, hpre⟩
  · rw [(withinRoots_iff.mp hp).1] at hrefused
    cases hrefused
  · intro loc hloc
    rw [hnowhere] at hloc
    cases hloc
  · exact ha.inside habs hp
  · obtain ⟨loc, hloc, hplex⟩ := locate_asSpelled (absolute_of_within (habs r hr) hpre) hps
    obtain ⟨root, hroot, hrlex⟩ := locate_asSpelled (habs r hr) hrs
    rw [hplex, hrlex, isPrefix_canonical] at hpre
    intro loc' hloc'
    obtain rfl : loc = loc' := Option.some.inj (hloc.symm.trans hloc')
    exact ⟨r, hr, root, hroot, hpre⟩

section Create

variable {host : BackupHost} {dir : OsStr}

theorem makeAll_spec (h : HostFiles) (paths : List OsStr) :
    (∀ w ∈ (makeAll host.mkdir h paths).1,
      h.Extends w.files ∧ w.path ∈ paths ∧ ∃ h', w.files.Makes w.path h') ∧
    ∀ after, (makeAll host.mkdir h paths).2 = .ok after → h.Extends after := by
  induction paths with
  | nil => exact ⟨nofun, nofun⟩
  | cons p up ih =>
      have hfine : ∀ (e : Str) (h' : HostFiles), h.Extends h' → ∀ after,
          (if h'.isDir p then .ok h' else .error e : Except Str HostFiles) = .ok after →
          h.Extends after := by
        intro e h' hextends after hafter
        split at hafter
        · cases hafter
          exact hextends
        · cases hafter
      unfold makeAll
      split
      · refine ⟨nofun, fun after hafter => ?_⟩
        cases hafter
        exact .refl h
      split
      · next h' hmkdir =>
          have hmakes := host.made _ _ _ hmkdir
          refine ⟨fun w hw => ?_, fun after hafter => ?_⟩
          · obtain rfl := List.mem_singleton.mp hw
            exact ⟨.refl h, List.mem_cons_self .., h', hmakes⟩
          · cases hafter
            exact hmakes.extends
      split
      · exact ⟨nofun, hfine _ h (.refl h)⟩
      have hup : ∀ w ∈ (makeAll host.mkdir h up).1,
          h.Extends w.files ∧ w.path ∈ p :: up ∧ ∃ h', w.files.Makes w.path h' := by
        intro w hw
        obtain ⟨hextends, hmem, hmakes⟩ := ih.1 w hw
        exact ⟨hextends, List.mem_cons_of_mem _ hmem, hmakes⟩
      split
      · next made e hmade =>
          rw [hmade] at hup
          exact ⟨hup, nofun⟩
      · next made h' hmade =>
          rw [hmade] at hup
          have hextends := ih.2 h' (by rw [hmade])
          split
          · next h'' hmkdir =>
              have hmakes := host.made _ _ _ hmkdir
              refine ⟨fun w hw => ?_, fun after hafter => ?_⟩
              · rcases List.mem_append.mp hw with hw | hw
                · exact hup w hw
                · obtain rfl := List.mem_singleton.mp hw
                  exact ⟨hextends, List.mem_cons_self .., h'', hmakes⟩
              · cases hafter
                exact hextends.trans hmakes.extends
          · exact ⟨hup, hfine _ h' hextends⟩

/-- All that `create_dir_all` does to the files is to add directories. -/
theorem created {after : HostFiles} (h : host.createDirAll dir = .ok after) :
    host.files.Extends after :=
  (makeAll_spec host.files (Path.ancestors dir)).2 after h

/-- Where `create_dir_all` has changed anything one of its paths leads. -/
theorem makeAll_changed (h : HostFiles) (paths : List OsStr) {after : HostFiles}
    (hafter : (makeAll host.mkdir h paths).2 = .ok after) (loc : List OsStr) :
    after.fs.node loc = h.fs.node loc ∨ ∃ p ∈ paths, h.locate p = some loc := by
  induction paths generalizing after with
  | nil => cases hafter
  | cons p up ih =>
      have hmakes : ∀ h' h'' : HostFiles, h.Extends h' → h'.Makes p h'' →
          h''.fs.node loc = h'.fs.node loc ∨ ∃ p' ∈ p :: up, h.locate p' = some loc := by
        intro h' h'' hextends hm
        obtain ⟨made, hmade, _, _, hrest⟩ := hm.place
        rw [hextends.locate] at hmade
        by_cases hloc : loc = made
        · exact .inr ⟨p, List.mem_cons_self .., by rw [hmade, hloc]⟩
        · exact .inl (hrest loc hloc)
      unfold makeAll at hafter
      split at hafter
      · cases hafter
        exact .inl rfl
      split at hafter
      · next h' hmkdir =>
          cases hafter
          exact hmakes h after (.refl h) (host.made _ _ _ hmkdir)
      split at hafter
      · split at hafter
        · cases hafter
          exact .inl rfl
        · cases hafter
      split at hafter
      · cases hafter
      · next made h' hmade =>
          have hup : h'.fs.node loc = h.fs.node loc ∨ ∃ p' ∈ p :: up, h.locate p' = some loc := by
            rcases ih (by rw [hmade]) with hsame | ⟨p', hp', hlocate⟩
            · exact .inl hsame
            · exact .inr ⟨p', List.mem_cons_of_mem _ hp', hlocate⟩
          split at hafter
          · next h'' hmkdir =>
              cases hafter
              have hextends := (makeAll_spec h up).2 h' (by rw [hmade])
              rcases hmakes h' after hextends (host.made _ _ _ hmkdir) with hsame | hpath
              · rw [hsame]
                exact hup
              · exact .inr hpath
          · split at hafter
            · cases hafter
              exact hup
            · cases hafter

/-- Where there is something `mkdir` fails, and is not asked for anything above it. -/
theorem makeAll_found (hexists : host.files.pathExists dir = true) : ∃ e,
    makeAll host.mkdir host.files (Path.ancestors dir) =
      ([], if host.files.isDir dir then .ok host.files else .error e) := by
  obtain ⟨up, hup⟩ : ∃ up, Path.ancestors dir = dir :: up := by
    unfold Path.ancestors
    split
    · exact ⟨_, rfl⟩
    · exact ⟨_, rfl⟩
  obtain ⟨loc, hloc⟩ := Option.isSome_iff_exists.mp hexists
  have hne : dir ≠ [] := by
    rintro rfl
    cases hloc
  rw [hup, makeAll, if_neg hne]
  cases hmkdir : host.mkdir host.files dir with
  | ok h' =>
      have hmissing := (host.made _ _ _ hmkdir).missing
      rw [hloc] at hmissing
      cases hmissing
  | error e =>
      have hfound : e.notFound = false := by
        refine Bool.eq_false_iff.mpr fun hnotFound => ?_
        have hmissing := host.missing _ _ _ hmkdir hnotFound
        rw [hloc] at hmissing
        cases hmissing
      dsimp only
      rw [hfound]
      exact ⟨e.text, rfl⟩

theorem createDirAll_found (hexists : host.files.pathExists dir = true) {after : HostFiles}
    (h : host.createDirAll dir = .ok after) : after = host.files := by
  obtain ⟨e, hmade⟩ := makeAll_found hexists
  rw [BackupHost.createDirAll, hmade] at h
  split at h
  · cases h
    rfl
  · cases h

theorem createDirAll_isDir (hdir : host.files.isDir dir = true) :
    host.createDirAll dir = .ok host.files := by
  have hexists : host.files.pathExists dir = true := by
    obtain ⟨loc, hloc, _⟩ := HostFiles.isDir_iff.mp hdir
    rw [HostFiles.pathExists, hloc]
    rfl
  obtain ⟨e, hmade⟩ := makeAll_found hexists
  rw [BackupHost.createDirAll, hmade, hdir, if_pos rfl]

end Create

/-! ## `restore` -/

theorem Inside.extends {h h' : HostFiles} (he : h.Extends h') {p : OsStr} {roots : List OsStr} :
    Inside h' p roots ↔ Inside h p roots := by
  simp only [Inside, he.locate]

/-- A host where `/srv/backups/link` leads to `/etc`. -/
def linkedEntries : List (List OsStr × Node OsStr) :=
  [([os "etc"], .dir), ([os "etc", os "cron.d"], .dir), ([os "srv"], .dir),
    ([os "srv", os "backups"], .dir), ([os "srv", os "backups", os "data.tar.gz"], .file),
    ([os "srv", os "backups", os "link"], .link ⟨true, [.name (os "etc")]⟩)]

def linkedBackups : HostFiles := ⟨Fs.ofEntries linkedEntries (by decide), []⟩

/-- That host, allowed to keep its backups in `/srv/backups`. -/
def backupHost : BackupHost where
  vars := ⟨some "/srv/backups".toList, none, none⟩
  files := linkedBackups
  timestamp := 0
  mkdir := HostFiles.mkdir
  made _ _ _ := HostFiles.mkdir_ok
  missing _ _ _ := HostFiles.mkdir_error
  tar _ := .ok ⟨some 0, [], []⟩
  tarPiped _ := .error []
  metadataLen _ := some 45
  tempfile := .error []
  s3PutObject _ _ _ := .error []
  s3MultipartUpload _ _ _ := .error []
  s3GetObject _ _ := .error []

instance {h : HostFiles} {p : OsStr} {roots : List OsStr} : Decidable (Inside h p roots) :=
  inferInstanceAs (Decidable
    (∀ loc ∈ h.locate p, ∃ r ∈ roots, ∃ root ∈ h.locate r, root <+: loc))

/-- What a local backup hands out to be written. -/
def localWrites (host : BackupHost) (dir : OsStr) (archive : Str) : List Write :=
  ⟨host.files, dir⟩ ::
    match host.createDirAll dir with
    | .error _ => []
    | .ok after => [⟨after, Path.join dir (OsStr.ofChars archive)⟩]

/-- The request gets past every refusal, to a local destination. -/
structure Accepted (host : BackupHost) (paths : List Str) (dest : Str) (mode : BackupMode)
    (dir : OsStr) : Prop where
  mode : mode ≠ .restic
  dest : parseDest dest = .ok (.localDir dir)
  existing : (paths.filter fun p => host.files.pathExists (OsStr.ofChars p)) ≠ []
  inside : outsideSources host
    (paths.filter fun p => host.files.pathExists (OsStr.ofChars p)) = []

theorem backupLocal_writes {host : BackupHost} {dir : OsStr} {archive : Str}
    {existing : List Str} {log : Str} :
    (backupLocal host dir archive existing log).writes = localWrites host dir archive := by
  unfold backupLocal localWrites
  cases host.createDirAll dir with
  | error e => rfl
  | ok after => rfl

theorem backupS3_writes {host : BackupHost} {bucket keyPrefix archive : Str}
    {existing : List Str} {log : Str} :
    (backupS3 host bucket keyPrefix archive existing log).writes = [] := by
  unfold backupS3
  dsimp only
  split <;> rfl

/-- A backup writes nothing, or what a local backup writes. -/
theorem runBackup_writes (host : BackupHost) (name : Str) (paths : List Str) (dest : Str)
    (mode : BackupMode) :
    ((runBackup host name paths dest mode).writes = [] ∧
        ∀ dir, ¬Accepted host paths dest mode dir) ∨
      ∃ dir, Accepted host paths dest mode dir ∧
        (runBackup host name paths dest mode).writes =
          localWrites host dir (archiveName host name) := by
  unfold runBackup
  split
  · next hrestic => exact .inl ⟨rfl, fun dir h => h.mode hrestic⟩
  next hmode =>
  split
  · next e hparse =>
      refine .inl ⟨rfl, fun dir h => ?_⟩
      cases hparse.symm.trans h.dest
  next parsed hparse =>
  split
  · next hpaths =>
      refine .inl ⟨rfl, fun dir h => h.existing ?_⟩
      rw [hpaths]
      rfl
  dsimp only
  split
  · next hnone => exact .inl ⟨rfl, fun dir h => h.existing hnone⟩
  next hsome =>
  split
  · next hbad => exact .inl ⟨rfl, fun dir h => hbad h.inside⟩
  next hgood =>
  split
  · next dir =>
      refine .inr ⟨dir, ⟨hmode, hparse, hsome, not_not.mp hgood⟩, backupLocal_writes⟩
  · next bucket keyPrefix =>
      refine .inl ⟨backupS3_writes, fun dir h => ?_⟩
      cases hparse.symm.trans h.dest

theorem slash_notMem_archiveName {host : BackupHost} {name : Str} (h : '/' ∉ name) :
    slash ∉ OsStr.ofChars (archiveName host name) := by
  have hdigits : '/' ∉ Text.decimal host.timestamp := by
    intro hmem
    rw [Text.decimal, show toString host.timestamp = host.timestamp.repr from rfl,
      Nat.toList_repr] at hmem
    exact absurd (Nat.isDigit_of_mem_toDigits (by decide) (by decide) hmem) (by decide)
  intro hmem
  obtain ⟨c, hc, hslash⟩ := List.mem_map.mp hmem
  obtain rfl : c = '/' := OsChar.chr.inj hslash
  simp only [archiveName, List.mem_append] at hc
  rcases hc with ((hc | hc) | hc) | hc
  · exact h hc
  · exact absurd hc (by decide)
  · exact hdigits hc
  · exact absurd hc (by decide)

theorem isName_archiveName {host : BackupHost} {name : Str} (hname : '/' ∉ name) :
    Path.IsName (OsStr.ofChars (archiveName host name)) := by
  have hlength : 7 ≤ (OsStr.ofChars (archiveName host name)).length := by
    simp [OsStr.ofChars, archiveName]
    omega
  have hshort : ∀ s : OsStr, s.length < 7 → OsStr.ofChars (archiveName host name) ≠ s := by
    rintro s hs rfl
    omega
  exact ⟨hshort _ (by decide), hshort _ (by decide), hshort _ (by decide),
    slash_notMem_archiveName hname⟩

/-- A name without a slash keeps the archive where the destination is spelled. -/
theorem lexicallyWithin_archive {host : BackupHost} {name : Str} {dir : OsStr}
    {roots : List OsStr} (hname : '/' ∉ name) (hdir : lexicallyWithin dir roots = true) :
    lexicallyWithin (Path.join dir (OsStr.ofChars (archiveName host name))) roots = true := by
  obtain ⟨r, hr, hpre⟩ := lexicallyWithin_iff.mp hdir
  refine lexicallyWithin_iff.mpr ⟨r, hr, hpre.trans ?_⟩
  rw [normalizeLexical, normalizeLexical, Path.components_join (isName_archiveName hname),
    List.foldl_append]
  exact List.prefix_append _ _

/-- Nothing stands where the archive is to be that leads elsewhere: no link in a directory
that is there; nothing at all in one that is not, and no directory that is made on the way.
An empty path is no directory. -/
def Free (host : BackupHost) (dir : OsStr) (archive : Str) : Prop :=
  match host.files.canonicalize dir with
  | some loc => ∀ target,
    host.files.fs.node (loc ++ [OsStr.ofChars archive]) ≠ some (.link target)
  | none => dir ≠ [] ∧ ∀ loc, host.files.locate dir = some loc →
    host.files.fs.node (loc ++ [OsStr.ofChars archive]) = none ∧
      ∀ p ∈ Path.ancestors dir, host.files.locate p ≠ some (loc ++ [OsStr.ofChars archive])

/-- The archive is a plain entry of the destination. -/
def PlainEntry (host : BackupHost) (name : Str) (dir : OsStr) : Prop :=
  '/' ∉ name ∧ Free host dir (archiveName host name)

/-- A plain entry is where its directory is. -/
theorem withinRoots_archive {host : BackupHost} {roots : List OsStr} {name : Str}
    {dir : OsStr} {after : HostFiles} (hdir : withinRoots host.files dir roots = true)
    (hentry : PlainEntry host name dir) (hafter : host.createDirAll dir = .ok after) :
    withinRoots after (Path.join dir (OsStr.ofChars (archiveName host name))) roots = true := by
  obtain ⟨hname, hfree⟩ := hentry
  obtain ⟨hlex, hcanon⟩ := withinRoots_iff.mp hdir
  refine withinRoots_iff.mpr ⟨lexicallyWithin_archive hname hlex, fun loc hloc => ?_⟩
  have hne : dir ≠ [] := by
    rintro rfl
    exact hfree.1 rfl
  obtain ⟨dirLoc', links, hdirLoc', hfollow⟩ :=
    HostFiles.follow_join hne (isName_archiveName hname) hloc
  unfold Free at hfree
  cases hfound : host.files.canonicalize dir with
  | none =>
      -- the archive's place is as it was before the directory was made
      rw [hfound] at hfree
      have hlocate := HostFiles.locate_of_canonicalize hdirLoc'
      rw [(created hafter).locate] at hlocate
      obtain ⟨hnone, hancestors⟩ := hfree.2 dirLoc' hlocate
      have hthere := (Fs.node_of_follow_name hfollow).2
      rcases makeAll_changed host.files _ hafter (dirLoc' ++ _) with hsame | ⟨p, hp, hmade⟩
      · rw [hsame, hnone] at hthere
        cases hthere
      · exact absurd hmade (hancestors p hp)
  | some dirLoc =>
      rw [hfound] at hfree
      have hexists : host.files.pathExists dir = true := by
        rw [HostFiles.pathExists, hfound]
        rfl
      obtain rfl := createDirAll_found hexists hafter
      obtain rfl : dirLoc = dirLoc' := Option.some.inj (hfound.symm.trans hdirLoc')
      obtain rfl := Fs.eq_of_follow_name hfree hfollow
      obtain ⟨r, hr, hpre⟩ := hcanon dirLoc hfound
      refine ⟨r, hr, hpre.trans ?_⟩
      rw [isPrefix_canonical]
      exact List.prefix_append ..

theorem localWrites_within {host : BackupHost} {roots : List OsStr} {name : Str} {dir : OsStr}
    (hdir : withinRoots host.files dir roots = true) (hentry : PlainEntry host name dir) :
    ∀ w ∈ localWrites host dir (archiveName host name),
      withinRoots w.files w.path roots = true := by
  rw [localWrites, List.forall_mem_cons]
  refine ⟨hdir, ?_⟩
  cases hcreate : host.createDirAll dir with
  | error e => exact nofun
  | ok after =>
      rw [List.forall_mem_singleton]
      exact withinRoots_archive hdir hentry hcreate

/-- What a backup writes is within a list of roots, the allow-list or any other, if the
request is refused or goes to a bucket, or if the destination is within the roots and the
archive a plain entry of it. The check on the destination is what a backup never gets by
without. -/
theorem backup_writes_within (host : BackupHost) (roots : List OsStr) (name : Str)
    (paths : List Str) (dest : Str) (mode : BackupMode) :
    ((∀ dir, Accepted host paths dest mode dir →
        withinRoots host.files dir roots = true ∧ PlainEntry host name dir) →
      ∀ w ∈ (runBackup host name paths dest mode).writes,
        withinRoots w.files w.path roots = true) ∧
    ((∀ dir, Accepted host paths dest mode dir → PlainEntry host name dir) →
      ((∀ w ∈ (runBackup host name paths dest mode).writes,
          withinRoots w.files w.path roots = true) ↔
        ∀ dir, Accepted host paths dest mode dir → withinRoots host.files dir roots = true)) := by
  have hwithin : (∀ dir, Accepted host paths dest mode dir →
        withinRoots host.files dir roots = true ∧ PlainEntry host name dir) →
      ∀ w ∈ (runBackup host name paths dest mode).writes,
        withinRoots w.files w.path roots = true := by
    intro hconfined
    rcases runBackup_writes host name paths dest mode with ⟨hnone, _⟩ | ⟨dir, hdir, hwrites⟩
    · rw [hnone]
      exact nofun
    · rw [hwrites]
      exact localWrites_within (hconfined dir hdir).1 (hconfined dir hdir).2
  refine ⟨hwithin, fun hentry => ⟨fun hwrites dir hdir => ?_, fun hdest => ?_⟩⟩
  · rcases runBackup_writes host name paths dest mode with ⟨_, hrefused⟩ | ⟨dir', hdir', heq⟩
    · exact absurd hdir (hrefused dir)
    · cases hdir.dest.symm.trans hdir'.dest
      rw [heq] at hwrites
      exact hwrites ⟨host.files, dir⟩ (List.mem_cons_self ..)
  · exact hwithin fun dir hdir => ⟨hdest dir hdir, hentry dir hdir⟩

/-- A destination outside the roots, and a job that climbs out of them. -/
theorem backup_writes_outside :
    backupRoots backupHost.vars = some [os "/srv/backups"] ∧
    (runBackup backupHost "job".toList ["/srv/backups/data.tar.gz".toList]
        "/etc/cron.d".toList .tar).writes.map (fun w => (w.path, withinRoots w.files w.path
          [os "/srv/backups"])) =
      [(os "/etc/cron.d", false), (os "/etc/cron.d/job-0.tar.gz", false)] ∧
    (runBackup backupHost "../../etc/cron.d/job".toList ["/srv/backups/data.tar.gz".toList]
        "/srv/backups".toList .tar).writes.map (fun w => (w.path, withinRoots w.files w.path
          [os "/srv/backups"])) =
      [(os "/srv/backups", true), (os "/srv/backups/../../etc/cron.d/job-0.tar.gz", false)] ∧
    (runBackup backupHost "/etc/cron.d/job".toList ["/srv/backups/data.tar.gz".toList]
        "/srv/backups".toList .tar).writes.map (fun w => (w.path, withinRoots w.files w.path
          [os "/srv/backups"])) =
      [(os "/srv/backups", true), (os "/etc/cron.d/job-0.tar.gz", false)] := by
  decide +kernel

end ShellfleetAgent.Agent.Backup
