import ShellfleetAgent.Lib.Options
import ShellfleetAgent.Agent.Archives
import ShellfleetAgent.Proofs.Backup

/-!
# A backup is listed and restored

`run_backup` names an archive by a URI that `list_archives` puts together once more
and `restore` takes apart. In a bucket the three agree on every prefix and every name.
In a directory they agree if the archive is an entry of the directory itself, which a
slash in the job's name prevents, and if its path does not read as a URI: the scheme
that `parse_dest` has taken off a destination is taken off the path once more. (A `tar`
that takes such a path for an archive on another host fails, and nothing is written.)
-/

namespace ShellfleetAgent.Agent.Backup

open ShellfleetAgent.Lib

variable {host : BackupHost} {later : ArchiveHost} {name dest : Str} {paths : List Str}
  {mode : BackupMode}

/-! ## What a backup writes -/

def Source.uri : Source → Str
  | .file path => OsStr.display path
  | .object bucket key => s3Uri bucket key

/-- `tar`, or the upload, has succeeded. -/
def Written (host : BackupHost) : Source → Prop
  | .file path => ∃ existing out, host.tar (tarCreateArgs path existing) = .ok out ∧
      out.success = true
  | .object bucket key => ∃ tmp bytes, host.s3PutObject bucket key tmp = .ok bytes ∨
      host.s3MultipartUpload bucket key tmp = .ok bytes

theorem not_success_failed {log : Str} {e : BackupError} {report : BackupReport}
    (h : failed log e = some report) : report.success = false := by
  cases h
  rfl

theorem reportLocal_success {archive : OsStr} {log : Str} {out : Output}
    {report : BackupReport} (h : reportLocal host archive log out = some report)
    (hsuccess : report.success = true) :
    out.success = true ∧ report.archiveUri = OsStr.display archive := by
  unfold reportLocal at h
  split at h
  · cases h
  split at h
  · rw [not_success_failed h] at hsuccess
    cases hsuccess
  · next hout =>
      obtain ⟨log, _, rfl⟩ := Option.map_eq_some_iff.mp h
      exact ⟨by simpa using hout, rfl⟩

theorem reportS3_success {bucket key : Str} {tmp : OsStr} {log : Str} {out : Output}
    {report : BackupReport} (h : reportS3 host bucket key tmp log out = some report)
    (hsuccess : report.success = true) :
    Written host (.object bucket key) ∧ report.archiveUri = s3Uri bucket key := by
  unfold reportS3 at h
  dsimp only at h
  split at h
  · cases h
  split at h
  · rw [not_success_failed h] at hsuccess
    cases hsuccess
  split at h
  · next uploaded hupload =>
      obtain ⟨log, _, rfl⟩ := Option.map_eq_some_iff.mp h
      refine ⟨⟨tmp, uploaded, ?_⟩, rfl⟩
      split at hupload
      · exact .inr hupload
      · exact .inl hupload
  · next e _ =>
      obtain ⟨log, _, h⟩ := Option.bind_eq_some_iff.mp h
      rw [not_success_failed h] at hsuccess
      cases hsuccess

/-- A backup that succeeds has filled its target, and says so. -/
theorem runBackup_target {report : BackupReport}
    (h : (runBackup host name paths dest mode).report = some report)
    (hsuccess : report.success = true) :
    ∃ parsed, parseDest dest = .ok parsed ∧ Written host (target host name parsed) ∧
      report.archiveUri = (target host name parsed).uri := by
  have hrefused : ∀ e, (refused e).report ≠ some report := by
    intro e h
    rw [not_success_failed h] at hsuccess
    cases hsuccess
  have hfailed : ∀ log e, failed log e ≠ some report := by
    intro log e h
    rw [not_success_failed h] at hsuccess
    cases hsuccess
  unfold runBackup at h
  split at h
  · exact absurd h (hrefused _)
  split at h
  · exact absurd h (hrefused _)
  next parsed hparse =>
  refine ⟨parsed, hparse, ?_⟩
  split at h
  · exact absurd h (hrefused _)
  dsimp only at h
  split at h
  · exact absurd h (hrefused _)
  split at h
  · exact absurd h (hrefused _)
  split at h
  · next dir =>
      unfold backupLocal at h
      split at h
      · exact absurd h (hfailed _ _)
      dsimp only at h
      split at h
      · exact absurd h (hfailed _ _)
      · next out htar =>
          obtain ⟨hout, huri⟩ := reportLocal_success h hsuccess
          exact ⟨⟨_, out, htar, hout⟩, huri⟩
  · next bucket keyPrefix =>
      unfold backupS3 at h
      dsimp only at h
      split at h
      · exact absurd h (hfailed _ _)
      dsimp only at h
      split at h
      · exact absurd h (hfailed _ _)
      · exact reportS3_success h hsuccess

/-! ## Buckets -/

theorem endsWith_archiveName (host : BackupHost) (name : Str) :
    tarGz <:+ archiveName host name :=
  List.suffix_append _ _

theorem archiveName_ne_nil (host : BackupHost) (name : Str) : archiveName host name ≠ [] := by
  intro h
  have hlength := (endsWith_archiveName host name).length_le
  rw [h] at hlength
  exact absurd hlength (by decide)

theorem mem_newestFirst {archives : List BackupArchive} {a : BackupArchive} :
    a ∈ newestFirst archives ↔ a ∈ archives :=
  List.mem_insertionSort _

/-- A listing that ends has what it was given, and what is on its pages. -/
theorem listPages_served {bucket : Str} {asked token : Option Str} {pages : List Page}
    (h : Serves (later.listObjectsV2 bucket asked) token pages) {fuel : Nat}
    (hfuel : pages.length ≤ fuel) (out : List BackupArchive) :
    ∃ found, listPages later bucket asked fuel token out = some (.ok (out ++ found)) ∧
      ∀ page ∈ pages, ∀ o ∈ page.contents, ∀ a, s3Archive bucket o = some a → a ∈ found := by
  induction h generalizing fuel out with
  | last hpage hnext =>
      cases fuel with
      | zero => cases hfuel
      | succ fuel =>
          refine ⟨_, by rw [listPages, hpage]; dsimp only; rw [hnext], ?_⟩
          intro page hmem o ho a ha
          obtain rfl := List.mem_singleton.mp hmem
          exact List.mem_filterMap.mpr ⟨o, ho, ha⟩
  | @more token page next pages hpage hnext hrest ih =>
      cases fuel with
      | zero => cases hfuel
      | succ fuel =>
          let here := page.contents.filterMap (s3Archive bucket)
          obtain ⟨found, hrun, hfound⟩ := ih (Nat.le_of_succ_le_succ hfuel) (out ++ here)
          refine ⟨here ++ found, ?_, ?_⟩
          · rw [listPages, hpage]
            dsimp only
            rw [hnext]
            dsimp only
            rw [hrun, List.append_assoc]
          · intro page' hmem o ho a ha
            rcases List.mem_cons.mp hmem with rfl | hmem
            · exact List.mem_append_left _ (List.mem_filterMap.mpr ⟨o, ho, ha⟩)
            · exact List.mem_append_right _ (hfound page' hmem o ho a ha)

/-- `uri` is among the archives that a listing of `dest` returns. -/
def Listed (later : ArchiveHost) (dest uri : Str) : Prop :=
  ∃ pages, ∀ fuel ≥ pages, ∃ archives,
    listArchives later fuel dest = some ⟨true, archives, none⟩ ∧ ∃ a ∈ archives, a.uri = uri

theorem listed_s3 {bucket keyPrefix : Str} (hparse : parseDest dest = .ok (.s3 bucket keyPrefix))
    {key : Str} (hmem : key ∈ later.objects bucket) (htarGz : tarGz <:+ key)
    (hkey : keyPrefix = [] ∨ keyPrefix ++ ['/'] <+: key) :
    Listed later dest (s3Uri bucket key) := by
  let asked := if keyPrefix = [] then none else some (keyPrefix ++ ['/'])
  have hasked : asked.getD [] <+: key := by
    by_cases hprefix : keyPrefix = []
    · simp [asked, hprefix]
    · simpa [asked, hprefix] using hkey
  obtain ⟨pages, hserves, hall⟩ :=
    later.listed bucket asked (List.ne_nil_of_mem hmem)
  refine ⟨pages.length, fun fuel hfuel => ?_⟩
  obtain ⟨found, hrun, hfound⟩ := listPages_served hserves hfuel []
  refine ⟨newestFirst found, ?_, ?_⟩
  · rw [listArchives, hparse]
    dsimp only
    rw [hrun]
    rfl
  · obtain ⟨page, hpage, o, ho, hokey⟩ := hall key hmem hasked
    have harchive : ∃ a, s3Archive bucket o = some a ∧ a.uri = s3Uri bucket key := by
      have hends : Text.endsWith key tarGz = true := List.isSuffixOf_iff_suffix.mpr htarGz
      rw [s3Archive, hokey]
      dsimp only
      rw [hends]
      exact ⟨_, rfl, rfl⟩
    obtain ⟨a, ha, huri⟩ := harchive
    exact ⟨a, mem_newestFirst.mpr (hfound page hpage o ho a ha), huri⟩

/-! ## Directories -/

theorem parseDest_localDir {dir : OsStr} (h : parseDest dest = .ok (.localDir dir)) :
    ∃ s, dir = OsStr.ofChars s := by
  unfold parseDest at h
  dsimp only at h
  split at h
  · cases h
  split at h
  · split at h <;> cases h
  split at h
  · cases h
    exact ⟨_, rfl⟩
  · split at h
    · cases h
    · cases h
      exact ⟨_, rfl⟩

theorem parseDest_s3 {bucket keyPrefix : Str} (h : parseDest dest = .ok (.s3 bucket keyPrefix)) :
    bucket ≠ [] ∧ '/' ∉ bucket := by
  unfold parseDest at h
  dsimp only at h
  split at h
  · cases h
  split at h
  · next rest _ =>
      split at h
      · cases h
      · next hne =>
          cases h
          exact ⟨hne, Text.not_mem_splitTwo '/' rest⟩
  split at h
  · cases h
  · split at h <;> cases h

theorem join_ofChars (s t : Str) :
    ∃ u, Path.join (OsStr.ofChars s) (OsStr.ofChars t) = OsStr.ofChars u := by
  unfold Path.join
  split
  · exact ⟨t, rfl⟩
  split
  · exact ⟨s ++ t, List.map_append.symm⟩
  · refine ⟨s ++ ['/'] ++ t, ?_⟩
    simp only [OsStr.ofChars, List.map_append]
    rfl

theorem suffix_join (p q : OsStr) : q <:+ Path.join p q := by
  rw [Path.join]
  split
  · exact List.suffix_refl q
  split
  · exact List.suffix_append p q
  · exact List.suffix_append _ q

theorem slash_suffix_join {dir n : OsStr} (hdir : dir ≠ []) (hn : slash ∉ n) :
    slash :: n <:+ Path.join dir n := by
  rw [Path.join, Path.isAbsolute_eq_false hn, if_neg Bool.false_ne_true]
  split
  · next hlast =>
      obtain ⟨x, rfl⟩ : ∃ x, dir = x ++ [slash] :=
        ⟨_, (List.dropLast_append_getLast? _ (hlast.resolve_left hdir)).symm⟩
      exact ⟨x, by rw [List.append_assoc, List.singleton_append]⟩
  · exact ⟨dir, by rw [List.append_assoc, List.singleton_append]⟩

theorem join_cancel {dir p q : OsStr} (hp : Path.isAbsolute p = false)
    (hq : Path.isAbsolute q = false) (h : Path.join dir p = Path.join dir q) : p = q := by
  rw [Path.join, Path.join, hp, hq, if_neg Bool.false_ne_true, if_neg Bool.false_ne_true] at h
  split at h
  · exact List.append_cancel_left h
  · exact List.append_cancel_left h

/-- An archive that is an entry of a directory has a name there, which ends as the
archive does. -/
theorem isName_of_archive {dir n : OsStr} (hdir : dir ≠ []) (hn : slash ∉ n)
    (h : OsStr.ofChars tarGz <:+ Path.join dir n) :
    Path.IsName n ∧ OsStr.ofChars tarGz <:+ n := by
  have hslash : slash ∉ OsStr.ofChars tarGz := by decide
  have hsuffix : OsStr.ofChars tarGz <:+ n := by
    rcases List.suffix_or_suffix_of_suffix h (slash_suffix_join hdir hn) with hshort | hlong
    · rcases List.suffix_cons_iff.mp hshort with heq | hshort
      · rw [heq] at hslash
        exact absurd (List.mem_cons_self ..) hslash
      · exact hshort
    · exact absurd (hlong.subset (List.mem_cons_self ..)) hslash
  have hlength : 7 ≤ n.length := hsuffix.length_le
  have hshort : ∀ s : OsStr, s.length < 7 → n ≠ s := by
    rintro s hs rfl
    omega
  exact ⟨⟨hshort _ (by decide), hshort _ (by decide), hshort _ (by decide), hn⟩, hsuffix⟩

theorem localArchive_some {dir n : OsStr} {a : BackupArchive} (hn : Path.IsName n)
    (h : localArchive later dir n = some a) :
    (∃ m, n = OsStr.ofChars m) ∧ a.uri = OsStr.display (Path.join dir n) := by
  rw [localArchive, Path.fileName_join hn] at h
  split at h
  · next hends =>
      obtain ⟨m, hm⟩ : ∃ m, OsStr.toChars n = some m := by
        rw [Option.bind_some] at hends
        cases hm : OsStr.toChars n with
        | none =>
            rw [hm] at hends
            cases hends
        | some m => exact ⟨m, rfl⟩
      obtain ⟨_, _, rfl⟩ := Option.map_eq_some_iff.mp h
      exact ⟨⟨m, OsStr.eq_ofChars hm⟩, rfl⟩
  · cases h

theorem localArchive_archive {dir : OsStr} {m : Str} (hn : Path.IsName (OsStr.ofChars m))
    (hends : tarGz <:+ m) (hexists : later.files.pathExists (Path.join dir (OsStr.ofChars m))) :
    ∃ a, localArchive later dir (OsStr.ofChars m) = some a ∧
      a.uri = OsStr.display (Path.join dir (OsStr.ofChars m)) := by
  obtain ⟨data, hdata⟩ := Option.isSome_iff_exists.mp ((later.found _).trans hexists)
  have hany : ((some (OsStr.ofChars m)).bind OsStr.toChars).any (Text.endsWith · tarGz) =
      true := by
    rw [Option.bind_some, OsStr.toChars_ofChars]
    exact List.isSuffixOf_iff_suffix.mpr hends
  rw [localArchive, Path.fileName_join hn, if_pos hany, hdata]
  exact ⟨_, rfl, rfl⟩

theorem display_ofChars (s : Str) : OsStr.display (OsStr.ofChars s) = s := by
  rw [OsStr.display, OsStr.ofChars, List.map_map]
  exact List.map_id s

/-- A directory that is there is listed, entry by entry. -/
theorem listLocal_dir {dir : OsStr} {loc : List OsStr}
    (hloc : later.files.canonicalize dir = some loc)
    (hnode : later.files.fs.node loc = some .dir) :
    ∃ archives, listLocal later dir = ⟨true, archives, none⟩ ∧
      ∀ a, a ∈ archives ↔ ∃ n, Path.IsName n ∧ (later.files.fs.node (loc ++ [n])).isSome ∧
        localArchive later dir n = some a := by
  have hisdir : later.files.isDir dir = true := HostFiles.isDir_iff.mpr ⟨loc, hloc, hnode⟩
  obtain ⟨names, hread, hnames⟩ := later.entries dir loc hloc hnode
  refine ⟨_, by rw [listLocal, hisdir, hread]; rfl, ?_⟩
  intro a
  rw [mem_newestFirst, List.mem_filterMap]
  constructor
  · intro ⟨n, hn, ha⟩
    obtain ⟨entry, hentry, rfl⟩ := List.mem_filterMap.mp hn
    obtain ⟨hname, hthere⟩ := (hnames n).mp hentry
    exact ⟨n, hname, hthere, ha⟩
  · intro ⟨n, hname, hthere, ha⟩
    exact ⟨n, List.mem_filterMap.mpr ⟨some n, (hnames n).mpr ⟨hname, hthere⟩, rfl⟩, ha⟩

/-- What is listed for a directory is named after one of its entries. -/
theorem entry_of_listed {s : Str} (archive : Str)
    (hparse : parseDest dest = .ok (.localDir (OsStr.ofChars s)))
    (hlisted : Listed later dest
      (OsStr.display (Path.join (OsStr.ofChars s) (OsStr.ofChars archive)))) :
    OsStr.ofChars s ≠ [] ∧ ∃ n, slash ∉ n ∧
      Path.join (OsStr.ofChars s) (OsStr.ofChars archive) = Path.join (OsStr.ofChars s) n := by
  obtain ⟨pages, hlisted⟩ := hlisted
  obtain ⟨archives, hrun, a, ha, huri⟩ := hlisted pages (Nat.le_refl _)
  rw [listArchives, hparse] at hrun
  dsimp only at hrun
  rw [Option.some_inj] at hrun
  by_cases hdir : later.files.isDir (OsStr.ofChars s) = true
  · obtain ⟨loc, hloc, hnode⟩ := HostFiles.isDir_iff.mp hdir
    obtain ⟨archives', hrun', hall⟩ := listLocal_dir hloc hnode
    rw [hrun'] at hrun
    cases hrun
    obtain ⟨n, hname, _, hlocal⟩ := (hall a).mp ha
    obtain ⟨⟨m, rfl⟩, huri'⟩ := localArchive_some hname hlocal
    obtain ⟨text, htext⟩ := join_ofChars s archive
    obtain ⟨text', htext'⟩ := join_ofChars s m
    refine ⟨?_, OsStr.ofChars m, hname.2.2.2, ?_⟩
    · intro hnil
      rw [hnil] at hloc
      cases hloc
    · rw [htext, display_ofChars] at huri
      rw [htext', display_ofChars] at huri'
      rw [htext, htext', ← huri, huri']
  · rw [listLocal, if_pos (by simpa using hdir)] at hrun
    cases hrun
    cases ha

/-- An entry whose name ends as those of archives do is listed, if there is something. -/
theorem listed_of_entry {s m : Str} {file : List OsStr}
    (hparse : parseDest dest = .ok (.localDir (OsStr.ofChars s))) (hne : OsStr.ofChars s ≠ [])
    (hname : Path.IsName (OsStr.ofChars m)) (hm : tarGz <:+ m)
    (hfound : later.files.canonicalize (Path.join (OsStr.ofChars s) (OsStr.ofChars m)) =
      some file) :
    Listed later dest (OsStr.display (Path.join (OsStr.ofChars s) (OsStr.ofChars m))) := by
  obtain ⟨loc, hloc, hnode, hentry⟩ := HostFiles.canonicalize_join hne hname hfound
  have hexists : later.files.pathExists (Path.join (OsStr.ofChars s) (OsStr.ofChars m)) := by
    rw [HostFiles.pathExists, hfound]
    rfl
  obtain ⟨archives, hrun, hall⟩ := listLocal_dir hloc hnode
  obtain ⟨a, ha, huri⟩ := localArchive_archive hname hm hexists
  refine ⟨0, fun fuel _ => ⟨archives, ?_, a, (hall a).mpr ⟨_, hname, hentry, ha⟩, huri⟩⟩
  rw [listArchives, hparse]
  dsimp only
  rw [hrun]

/-- An archive in a directory is listed exactly if it is an entry of it. -/
theorem listed_local {s : Str} (archive : Str)
    (hparse : parseDest dest = .ok (.localDir (OsStr.ofChars s)))
    (hends : tarGz <:+ archive)
    (hfile : later.files.isFile (Path.join (OsStr.ofChars s) (OsStr.ofChars archive)) = true) :
    Listed later dest (OsStr.display (Path.join (OsStr.ofChars s) (OsStr.ofChars archive))) ↔
      OsStr.ofChars s ≠ [] ∧ ∃ n, slash ∉ n ∧
        Path.join (OsStr.ofChars s) (OsStr.ofChars archive) = Path.join (OsStr.ofChars s) n := by
  obtain ⟨text, htext⟩ := join_ofChars s archive
  obtain ⟨file, hfound, _⟩ := HostFiles.isFile_iff.mp hfile
  constructor
  · exact entry_of_listed archive hparse
  · rintro ⟨hne, n, hslash, hjoin⟩
    have hsuffix : OsStr.ofChars tarGz <:+ Path.join (OsStr.ofChars s) n := by
      rw [← hjoin]
      exact (hends.map OsChar.chr).trans (suffix_join _ _)
    obtain ⟨hname, hn⟩ := isName_of_archive hne hslash hsuffix
    obtain ⟨m, rfl⟩ : ∃ m, n = OsStr.ofChars m := by
      obtain ⟨start, hstart⟩ := suffix_join (OsStr.ofChars s) n
      rw [← hjoin, htext] at hstart
      obtain ⟨_, m, _, _, hm⟩ := List.map_eq_append_iff.mp hstart.symm
      exact ⟨m, hm.symm⟩
    have hm : tarGz <:+ m :=
      (List.suffix_map_iff_of_injective fun _ _ h => OsChar.chr.inj h).mp hn
    rw [hjoin] at hfound ⊢
    exact listed_of_entry hparse hne hname hm hfound

/-! ## What a restore reads -/

/-- The two hosts differ in nothing but what is in other archives than these. -/
structure SameSources (sources : List Source) (host host' : BackupHost) : Prop where
  vars : host'.vars = host.vars
  files : host'.files = host.files
  mkdir : host'.mkdir = host.mkdir
  tarPiped : host'.tarPiped = host.tarPiped
  tar : ∀ path, .file path ∈ sources → ∀ dest,
    host'.tar (tarExtractArgs path dest) = host.tar (tarExtractArgs path dest)
  s3GetObject : ∀ bucket key, .object bucket key ∈ sources →
    host'.s3GetObject bucket key = host.s3GetObject bucket key

/-- A restore depends on no archive but the one it is said to read. -/
theorem restore_reads_only {host' : BackupHost} {archiveUri destRoot : Str}
    (h : SameSources (restoreReads host archiveUri destRoot) host host') :
    restore host' archiveUri destRoot = restore host archiveUri destRoot := by
  have hallowed : ∀ d, destAllowed host' d = destAllowed host d := by
    intro d
    rw [destAllowed, destAllowed, h.vars, h.files]
  have hcreateDirAll : ∀ d, host'.createDirAll d = host.createDirAll d := by
    intro d
    rw [BackupHost.createDirAll, BackupHost.createDirAll, h.mkdir, h.files]
  have hdirsMade : ∀ d, host'.dirsMade d = host.dirsMade d := by
    intro d
    rw [BackupHost.dirsMade, BackupHost.dirsMade, h.mkdir, h.files]
  have htar := h.tar
  have hget := h.s3GetObject
  unfold restoreReads at htar hget
  unfold restore
  dsimp only at htar hget ⊢
  rw [hallowed, hcreateDirAll, hdirsMade]
  split
  · rfl
  next hne =>
  rw [if_neg hne] at htar hget
  split
  · rfl
  next hdest =>
  rw [if_neg hdest] at htar hget
  cases hcreate : host.createDirAll (OsStr.ofChars (Text.trim destRoot)) with
  | error e => rfl
  | ok after =>
      rw [hcreate] at htar hget
      dsimp only at htar hget ⊢
      cases hs3 : Text.stripStart "s3://".toList archiveUri with
      | some rest =>
          rw [hs3] at hget
          dsimp only at hget ⊢
          unfold restoreS3
          dsimp only
          rw [hdirsMade]
          split
          · rfl
          · next hwell =>
              rw [if_neg hwell] at hget
              rw [hget _ _ (List.mem_singleton_self _), h.vars, h.tarPiped]
      | none =>
          rw [hs3] at htar
          dsimp only at htar ⊢
          unfold restoreLocal
          dsimp only
          rw [hdirsMade]
          split
          · rfl
          · next hfile =>
              rw [if_neg hfile] at htar
              rw [htar _ (List.mem_singleton_self _)]

/-- A restore that gets as far as its archive. -/
structure Admits (host : BackupHost) (destRoot : Str) (after : HostFiles) : Prop where
  dest : Text.trim destRoot ≠ []
  allowed : destAllowed host (Text.trim destRoot) = true
  created : host.createDirAll (OsStr.ofChars (Text.trim destRoot)) = .ok after

theorem Admits.reads {destRoot : Str} {after : HostFiles} (h : Admits host destRoot after)
    (archiveUri : Str) : restoreReads host archiveUri destRoot =
      match Text.stripStart "s3://".toList archiveUri with
      | some rest =>
        let (bucket, key) := Text.splitTwo '/' rest
        if bucket = [] ∨ key = [] then [] else [.object bucket key]
      | none =>
        let archive := (Text.stripStart "file://".toList archiveUri).getD archiveUri
        if !after.isFile (OsStr.ofChars archive) then [] else [.file (OsStr.ofChars archive)] := by
  rw [restoreReads]
  dsimp only
  rw [if_neg h.dest, h.allowed, h.created]
  rfl

/-- Both name the same object, or both paths lead to the same file. -/
def Same (files : HostFiles) : Source → Source → Prop
  | .file p, .file q => ∃ loc, files.canonicalize p = some loc ∧ files.canonicalize q = some loc
  | .object bucket key, .object bucket' key' => bucket = bucket' ∧ key = key'
  | _, _ => False

/-- A restore of `uri`, to wherever it is let, reads the archive that `src` is. -/
def Restored (later : ArchiveHost) (uri : Str) (src : Source) : Prop :=
  ∀ host destRoot after, host.files = later.files → Admits host destRoot after →
    ∃ read, restoreReads host uri destRoot = [read] ∧ Same after read src

theorem restored_s3 {bucket key : Str} (hbucket : bucket ≠ [] ∧ '/' ∉ bucket) (hkey : key ≠ []) :
    Restored later (s3Uri bucket key) (.object bucket key) := by
  intro host destRoot after _ hadmits
  have huri : s3Uri bucket key = "s3://".toList ++ (bucket ++ '/' :: key) := by
    unfold s3Uri
    generalize "s3://".toList = scheme
    simp
  refine ⟨.object bucket key, ?_, rfl, rfl⟩
  rw [hadmits.reads, Text.stripStart_eq_some.mpr huri]
  dsimp only
  rw [Text.splitTwo_append hbucket.2, if_neg (by simp [hbucket.1, hkey])]

/-- The path does not read as a URI, or reads as one of the same file. -/
def ReadsAsPath (files : HostFiles) (path : OsStr) : Prop :=
  ¬"s3://".toList <+: OsStr.display path ∧
    ∀ rest, OsStr.display path = "file://".toList ++ rest →
      files.canonicalize (OsStr.ofChars rest) = files.canonicalize path

/-- A restore that is let everywhere. -/
def openHost (files : HostFiles) : BackupHost where
  vars := ⟨none, some ['1'], none⟩
  files := files
  timestamp := 0
  mkdir := HostFiles.mkdir
  made _ _ _ := HostFiles.mkdir_ok
  missing _ _ _ := HostFiles.mkdir_error
  tar _ := .error []
  tarPiped _ := .error []
  metadataLen _ := none
  tempfile := .error []
  s3PutObject _ _ _ := .error []
  s3MultipartUpload _ _ _ := .error []
  s3GetObject _ _ := .error []

theorem openHost_admits (files : HostFiles) : Admits (openHost files) ['/'] files := by
  refine ⟨by decide, rfl, ?_⟩
  have hisdir : (openHost files).files.isDir [slash] = true := HostFiles.isDir_root files
  exact createDirAll_isDir hisdir

theorem restored_local (later : ArchiveHost) (text : Str)
    (hfile : later.files.isFile (OsStr.ofChars text) = true) :
    Restored later text (.file (OsStr.ofChars text)) ↔
      ReadsAsPath later.files (OsStr.ofChars text) := by
  rw [ReadsAsPath, display_ofChars]
  constructor
  · intro h
    obtain ⟨read, hread, hsame⟩ := h (openHost later.files) ['/'] later.files rfl
      (openHost_admits later.files)
    rw [(openHost_admits later.files).reads] at hread
    constructor
    · intro ⟨rest, hrest⟩
      rw [Text.stripStart_eq_some.mpr hrest.symm] at hread
      dsimp only at hread
      split at hread
      · cases hread
      · cases hread
        exact hsame
    · intro rest hrest
      have hs3 : Text.stripStart "s3://".toList text = none := by
        rw [hrest]
        rfl
      rw [hs3, Text.stripStart_eq_some.mpr hrest] at hread
      dsimp only at hread
      split at hread
      · cases hread
      · cases hread
        obtain ⟨loc, hp, hq⟩ := hsame
        rw [Option.getD_some] at hp
        rw [hp, hq]
  · intro ⟨hs3, hfileUri⟩ host destRoot after hfiles hadmits
    have hextends : later.files.Extends after := hfiles ▸ created hadmits.created
    obtain ⟨loc, hloc, hnode⟩ := HostFiles.isFile_iff.mp hfile
    have hnone : Text.stripStart "s3://".toList text = none := by
      rw [← Option.not_isSome_iff_eq_none, Option.isSome_iff_exists]
      intro ⟨rest, hrest⟩
      exact hs3 ⟨rest, (Text.stripStart_eq_some.mp hrest).symm⟩
    rw [hadmits.reads, hnone]
    dsimp only
    have hreads : ∀ archive, later.files.canonicalize (OsStr.ofChars archive) = some loc →
        ∃ read, (if !after.isFile (OsStr.ofChars archive) then [] else
          [.file (OsStr.ofChars archive)]) = [read] ∧
          Same after read (.file (OsStr.ofChars text)) := by
      intro archive harchive
      have hisfile := hextends.isFile (HostFiles.isFile_iff.mpr ⟨loc, harchive, hnode⟩)
      rw [hisfile]
      exact ⟨_, rfl, loc, hextends.canonicalize harchive, hextends.canonicalize hloc⟩
    cases huri : Text.stripStart "file://".toList text with
    | none => exact hreads text hloc
    | some rest =>
        refine hreads rest ?_
        rw [hfileUri rest (Text.stripStart_eq_some.mp huri), hloc]

/-! ## The three functions together -/

/-- At the time of the listing and the restore the archive is where it was written. -/
def Holds (later : ArchiveHost) : Source → Prop
  | .file path => later.files.isFile path = true
  | .object bucket key => key ∈ later.objects bucket

/-- In a bucket an archive can always be found again. In a directory it has to be an
entry of the directory, and its path must not read as a URI of something else. -/
def Recoverable (host : BackupHost) (later : ArchiveHost) (name : Str) : Dest → Prop
  | .s3 _ _ => True
  | .localDir dir =>
    let path := Path.join dir (OsStr.ofChars (archiveName host name))
    dir ≠ [] ∧ (∃ n, slash ∉ n ∧ path = Path.join dir n) ∧ ReadsAsPath later.files path

/-- What a backup has written is listed under the URI it reports, and a restore of that
URI reads it, if and only if it is recoverable. -/
theorem archive_recovered_iff (host : BackupHost) (name : Str) (paths : List Str) (dest : Str)
    (mode : BackupMode) (report : BackupReport)
    (hreport : (runBackup host name paths dest mode).report = some report)
    (hsuccess : report.success = true) :
    ∃ parsed, parseDest dest = .ok parsed ∧ Written host (target host name parsed) ∧
      ∀ later, Holds later (target host name parsed) →
        (Listed later dest report.archiveUri ∧
            Restored later report.archiveUri (target host name parsed) ↔
          Recoverable host later name parsed) := by
  obtain ⟨parsed, hparse, hwritten, huri⟩ := runBackup_target hreport hsuccess
  refine ⟨parsed, hparse, hwritten, fun later hholds => ?_⟩
  rw [huri]
  have hends := endsWith_archiveName host name
  cases parsed with
  | localDir dir =>
      obtain ⟨s, rfl⟩ := parseDest_localDir hparse
      obtain ⟨text, htext⟩ := join_ofChars s (archiveName host name)
      have hlisted := listed_local _ hparse hends hholds
      have hrestored := restored_local later text (htext ▸ hholds)
      rw [htext, display_ofChars] at hlisted
      rw [target, Recoverable, Source.uri]
      rw [htext, display_ofChars, hlisted, hrestored, and_assoc]
  | s3 bucket keyPrefix =>
      have hname := archiveName_ne_nil host name
      refine iff_of_true ⟨listed_s3 hparse hholds ?_ ?_,
        restored_s3 (parseDest_s3 hparse) ?_⟩ trivial
      · split
        · exact hends
        · exact hends.trans (List.suffix_append _ _)
      · split
        · next hnil => exact .inl hnil
        · exact .inr (List.prefix_append _ _)
      · split
        · exact hname
        · simp

/-! ## A host with two archives -/

/-- The name of `path` in the directory `loc`, if it is an entry of it. -/
def entryOf (loc path : List OsStr) : Option OsStr :=
  path.getLast?.bind fun n => if path = loc ++ [n] ∧ Path.IsName n then some n else none

theorem entryOf_eq_some {loc path : List OsStr} {n : OsStr} :
    entryOf loc path = some n ↔ path = loc ++ [n] ∧ Path.IsName n := by
  unfold entryOf
  constructor
  · intro h
    obtain ⟨m, _, hm⟩ := Option.bind_eq_some_iff.mp h
    split at hm
    · next hentry =>
        cases hm
        exact hentry
    · cases hm
  · rintro ⟨rfl, hname⟩
    rw [List.getLast?_concat, Option.bind_some, if_pos ⟨rfl, hname⟩]

/-- A host with these files, which are at `paths`, and no bucket. -/
def hostOf (files : HostFiles) (paths : List (List OsStr))
    (h : ∀ p, p ≠ [] → ((files.fs.node p).isSome ↔ p ∈ paths)) : ArchiveHost where
  files := files
  readDir dir :=
    match files.canonicalize dir with
    | none => .error "No such file or directory (os error 2)".toList
    | some loc => .ok ((paths.filterMap (entryOf loc)).map some)
  metadata p := if files.pathExists p then some ⟨45, some 0⟩ else none
  objects _ := []
  listObjectsV2 _ _ _ := .error "NoSuchBucket".toList
  entries dir loc hloc _ := by
    refine ⟨_, by rw [hloc], fun n => ?_⟩
    rw [h _ (by simp)]
    simp only [List.mem_map, Option.some_inj, exists_eq_right, List.mem_filterMap,
      entryOf_eq_some]
    constructor
    · rintro ⟨_, hmem, rfl, hname⟩
      exact ⟨hname, hmem⟩
    · intro ⟨hname, hmem⟩
      exact ⟨_, hmem, rfl, hname⟩
  found p := by
    split
    · next h => rw [h]; rfl
    · next h => simpa using h
  listed _ _ hne := absurd rfl hne

def archiveEntries : List (List OsStr × Node OsStr) :=
  [([os "srv"], .dir), ([os "srv", os "data"], .file), ([os "srv", os "backups"], .dir),
    ([os "srv", os "backups", os "nightly-0.tar.gz"], .file),
    ([os "srv", os "backups", os "db"], .dir),
    ([os "srv", os "backups", os "db", os "nightly-0.tar.gz"], .file)]

def archivesHost : ArchiveHost :=
  hostOf ⟨Fs.ofEntries archiveEntries (by decide), []⟩ (archiveEntries.map Prod.fst)
    fun _ => Fs.ofEntries_isSome (by decide)

/-- GNU `tar`, which takes an archive with a colon before any slash for one on another
host, and finds none. -/
def gnuTar (args : List OsStr) : Except Str Output :=
  let archive := (args.dropWhile fun a => a ≠ os "-czf" ∧ a ≠ os "-xzf").getD 1 []
  if (archive.takeWhile (· ≠ slash)).contains (.chr ':') then .ok ⟨some 2, [], []⟩
  else .ok ⟨some 0, [], []⟩

/-- A backup there. -/
def archivingHost : BackupHost :=
  { openHost archivesHost.files with
    tar := gnuTar
    metadataLen := fun _ => some 45 }

def archivingReport (uri : String) : BackupReport :=
  ⟨true, uri.toList, 45, ("wrote " ++ uri ++ " (45 bytes)\n").toList, none⟩

theorem archive_recovered_nightly :
    ∃ parsed, parseDest "/srv/backups".toList = .ok parsed ∧
      Written archivingHost (target archivingHost "nightly".toList parsed) ∧
      ∀ later, Holds later (target archivingHost "nightly".toList parsed) →
        (Listed later "/srv/backups".toList "/srv/backups/nightly-0.tar.gz".toList ∧
            Restored later "/srv/backups/nightly-0.tar.gz".toList
              (target archivingHost "nightly".toList parsed) ↔
          Recoverable archivingHost later "nightly".toList parsed) :=
  archive_recovered_iff archivingHost "nightly".toList ["/srv/data".toList]
    "/srv/backups".toList .tar (archivingReport "/srv/backups/nightly-0.tar.gz") rfl rfl

/-- A job whose name has a slash is not listed. -/
theorem archive_not_recovered :
    (runBackup archivingHost "db/nightly".toList ["/srv/data".toList] "/srv/backups".toList
        .tar).report = some (archivingReport "/srv/backups/db/nightly-0.tar.gz") ∧
      Holds archivesHost (.file (os "/srv/backups/db/nightly-0.tar.gz")) ∧
      ¬Listed archivesHost "/srv/backups".toList "/srv/backups/db/nightly-0.tar.gz".toList := by
  have hdb : archivesHost.files.isFile (os "/srv/backups/db/nightly-0.tar.gz") = true := by
    decide
  refine ⟨rfl, hdb, fun hlisted => ?_⟩
  have hparse : parseDest "/srv/backups".toList =
      .ok (.localDir (OsStr.ofChars "/srv/backups".toList)) := rfl
  obtain ⟨_, n, hn, hjoin⟩ := (listed_local "db/nightly-0.tar.gz".toList hparse
    (by decide) (by decide)).mp hlisted
  have hentry := join_cancel (by decide) (Path.isAbsolute_eq_false hn) hjoin
  rw [← hentry] at hn
  exact hn (by decide)

end ShellfleetAgent.Agent.Backup
