import ShellfleetAgent.Agent.ConfigStore
import ShellfleetAgent.Lib.Utf8
import ShellfleetAgent.Proofs.ConfigResolution

/-!
# Config files as a map

Writing leaves directories and links as they are, so where a path is written is settled
before the first request: it is the same place whatever has been written since. On these
places the agent is a map, and a read gives back what the map has, as far as the read policy,
the limit and the encoding let it through.
-/

namespace ShellfleetAgent.Agent.Config

open ShellfleetAgent.Lib Responses

/-- Every entry of a directory has a name that can be one. -/
def WellNamed (d : Disk) : Prop :=
  ∀ loc, (d.fs.node loc).isSome → ∀ name ∈ loc, Path.IsName name

variable {d d' d₀ : Disk} {path lex content : Str} {loc dir : List OsStr} {bytes : Bytes}
  {parent name : OsStr} {osError : Str} {utf8Error : Bytes → Str}

theorem isName_of_fileName {p : OsStr} (h : Path.fileName p = some name) : Path.IsName name := by
  have hmem := Path.fileName_mem h
  unfold Path.fileName at h
  split at h
  · next n hlast =>
      cases h
      have hcomponent := List.mem_of_getLast? hlast
      simp only [Path.components, List.mem_append, List.mem_filterMap] at hcomponent
      rcases hcomponent with (hroot | hcur) | ⟨segment, _, hname⟩
      · split at hroot <;> simp at hroot
      · split at hcur <;> simp at hcur
      · unfold Path.component at hname
        split at hname
        · cases hname
        next hnot =>
        split at hname
        · cases hname
        next hup =>
        cases hname
        rw [not_or] at hnot
        exact ⟨hnot.1, hnot.2, hup, not_mem_of_mem_splitOn hmem⟩
  · cases h

/-! ## Where a path is written -/

/-- The policy's answer depends on the host for nothing but where the parent leads. -/
theorem checkWrite_congr {h h' : HostFiles}
    (hparent : ∀ lex p, check path = .ok lex → Path.parent (OsStr.ofChars lex) = some p →
      h'.canonicalize p = h.canonicalize p) : checkWrite h' path = checkWrite h path := by
  unfold checkWrite
  cases hlex : check path with
  | error e => rfl
  | ok lex =>
      dsimp only
      cases hp : Path.parent (OsStr.ofChars lex) with
      | none => rfl
      | some p =>
          cases Path.fileName (OsStr.ofChars lex) with
          | none => rfl
          | some n =>
              dsimp only
              rw [hparent lex p hlex hp]

theorem isAbsolute_parent_check {p : OsStr} (hlex : check path = .ok lex)
    (hp : Path.parent (OsStr.ofChars lex) = some p) : Path.isAbsolute p = true :=
  Path.isAbsolute_parent (isAbsolute_check hlex) hp

theorem canonicalize_absolute {h : HostFiles} {p : OsStr} (hp : Path.isAbsolute p = true) :
    h.canonicalize p = h.fs.resolve [] (Path.steps p) := by
  have hne : p ≠ [] := by
    rintro rfl
    cases hp
  rw [HostFiles.canonicalize, if_neg hne, HostFiles.start, hp, if_pos rfl]

/-- What a canonical path stands for is there, and is no link. -/
theorem canonicalize_found {h : HostFiles} {p : OsStr} (hp : Path.isAbsolute p = true)
    (hloc : h.canonicalize p = some loc) : (h.fs.node loc).isSome ∧ h.fs.NotLink loc := by
  rw [canonicalize_absolute hp] at hloc
  refine ⟨Fs.isSome_of_follow ?_ hloc, Fs.notLink_of_follow ?_ hloc⟩
  · rw [h.fs.root_dir]
    rfl
  · exact Fs.notLink_of_node h.fs.root_dir (by simp)

/-- The directory and the name that an accepted write opens. -/
theorem entry_checkWrite (hnames : WellNamed d)
    (hok : checkWrite d.toHostFiles path = .ok (parent, name)) :
    ∃ lex p loc, check path = .ok lex ∧ Path.parent (OsStr.ofChars lex) = some p ∧
      Path.fileName (OsStr.ofChars lex) = some name ∧ d.canonicalize p = some loc ∧
      parent = Path.ofLocation loc ∧ d.entry (writeTarget parent name) =
        if d.fs.node loc = some .dir then some (loc, name) else none := by
  obtain ⟨lex, p, loc, dir, hlex, hp, hname, hloc, rfl, _⟩ := checkWrite_ok hok
  obtain ⟨hsome, hlink⟩ := canonicalize_found (isAbsolute_parent_check hlex hp) hloc
  exact ⟨lex, p, loc, hlex, hp, hname, hloc, rfl,
    Disk.entry_join (hnames loc hsome) (isName_of_fileName hname) hsome hlink⟩

/-- Files do not decide where a path is written. -/
theorem place_same (h : Disk.SameTree d d') (hnames' : WellNamed d') :
    place d' path = place d path := by
  have hforward : ∀ lex p loc, check path = .ok lex →
      Path.parent (OsStr.ofChars lex) = some p → d.canonicalize p = some loc →
      d'.canonicalize p = some loc := by
    intro lex p loc hlex hp hloc
    have habs := isAbsolute_parent_check hlex hp
    rw [canonicalize_absolute habs] at hloc ⊢
    exact h.keeps.follow_found hloc
  cases hcheck : checkWrite d.toHostFiles path with
  | ok target =>
      obtain ⟨parent, name⟩ := target
      obtain ⟨lex, p, loc, _, hlex, hp, _, hloc, _⟩ := checkWrite_ok hcheck
      have hsame : checkWrite d'.toHostFiles path = checkWrite d.toHostFiles path := by
        refine checkWrite_congr fun lex' p' hlex' hp' => ?_
        obtain rfl : lex = lex' := Except.ok.inj (hlex.symm.trans hlex')
        obtain rfl : p = p' := Option.some.inj (hp.symm.trans hp')
        exact (hforward lex p loc hlex hp hloc).trans hloc.symm
      rw [place, place, hsame, hcheck]
      dsimp only
      rw [h.entry]
  | error e =>
      cases hcheck' : checkWrite d'.toHostFiles path with
      | error e' => rw [place, place, hcheck, hcheck']
      | ok target =>
          obtain ⟨parent, name⟩ := target
          obtain ⟨lex, p, loc, hlex, hp, _, hloc, rfl, hentry⟩ := entry_checkWrite hnames' hcheck'
          rw [place, place, hcheck, hcheck']
          dsimp only
          rw [hentry]
          by_cases hdir : d'.fs.node loc = some .dir
          · have habs := isAbsolute_parent_check hlex hp
            rw [canonicalize_absolute habs] at hloc
            have hback : d.canonicalize p = some loc := by
              rw [canonicalize_absolute habs]
              exact h.follow hloc hdir
            have hsame : checkWrite d'.toHostFiles path = checkWrite d.toHostFiles path := by
              refine checkWrite_congr fun lex' p' hlex' hp' => ?_
              obtain rfl : lex = lex' := Except.ok.inj (hlex.symm.trans hlex')
              obtain rfl : p = p' := Option.some.inj (hp.symm.trans hp')
              exact (hforward lex p loc hlex hp hback).trans hback.symm
            rw [hcheck, hcheck'] at hsame
            cases hsame
          · rw [if_neg hdir]
            rfl

theorem writable_same (h : Disk.SameTree d d') : writable d' loc = writable d loc := by
  have hiff : (d'.fs.node loc = none ∨ d'.fs.node loc = some .file) ↔
      (d.fs.node loc = none ∨ d.fs.node loc = some .file) := by
    constructor
    · rintro (hnone | hfile)
      · cases hnode : d.fs.node loc with
        | none => exact .inl rfl
        | some node =>
            rw [h.keeps _ _ hnode] at hnone
            cases hnone
      · cases hnode : d.fs.node loc with
        | none => exact .inl rfl
        | some node =>
            rw [h.keeps _ _ hnode] at hfile
            exact .inr hfile
    · rintro (hnone | hfile)
      · cases hnode : d'.fs.node loc with
        | none => exact .inl rfl
        | some node =>
            by_cases hfile : node = .file
            · exact .inr (hfile ▸ rfl)
            · rw [h.only _ _ hnode hfile] at hnone
              cases hnone
      · exact .inr (h.keeps _ _ hfile)
  rw [writable, writable, Bool.eq_iff_iff]
  simpa using hiff

/-! ## One request -/

/-- What a write does: nothing, or it fills the file at its place. -/
theorem writeNoFollow_cases (ch : WriteChoice) (content : Bytes) :
    let d' := (writeNoFollow osError d ch parent name content).1
    d' = d ∧ (∀ left result dir n, ch.left content = .ok (left, result) →
        d.entry (writeTarget parent name) = some (dir, n) → d.writeAt dir n left = none) ∨
      ∃ left result dir n, ch.left content = .ok (left, result) ∧
        d.entry (writeTarget parent name) = some (dir, n) ∧ d.writeAt dir n left = some d' := by
  dsimp only
  unfold writeNoFollow
  split
  · next error hleft =>
      refine .inl ⟨rfl, fun left result dir n h => ?_⟩
      rw [hleft] at h
      cases h
  · next left result hleft =>
      split
      · next hentry =>
          refine .inl ⟨rfl, fun left result dir n _ h => ?_⟩
          rw [hentry] at h
          cases h
      · next dir n hentry =>
          split
          · next hwrite =>
              refine .inl ⟨rfl, fun left' result' dir' n' h h' => ?_⟩
              rw [hleft] at h
              cases h
              rw [hentry] at h'
              cases h'
              exact hwrite
          · next d' hwrite => exact .inr ⟨left, result, dir, n, hleft, hentry, hwrite⟩

theorem entry_dir {p : OsStr} (h : d.entry p = some (dir, name)) : d.fs.node dir = some .dir := by
  unfold Disk.entry at h
  split at h
  · cases h
  · split at h
    · cases h
    · split at h
      · next hdir =>
          cases h
          exact hdir
      · cases h

theorem writable_iff :
    writable d loc = true ↔ d.fs.node loc = none ∨ d.fs.node loc = some .file := by
  simp [writable]

/-- A write request, as the map sees it. -/
theorem handleConfig_write (hnames : WellNamed d) (ch : WriteChoice) :
    let d' := handleConfig osError d (.write path content ch)
    Disk.SameTree d d' ∧ WellNamed d' ∧ d'.file = put d d.file (.write path content ch) := by
  dsimp only [handleConfig]
  cases hcheck : checkWrite d.toHostFiles path with
  | error e =>
      have hsame : (handleWriteConfig osError d ch path content).1 = d := by
        rw [handleWriteConfig, hcheck]
      rw [hsame, put, place, hcheck]
      exact ⟨.refl d, hnames, rfl⟩
  | ok target =>
      obtain ⟨parent, name⟩ := target
      have hfst : (handleWriteConfig osError d ch path content).1 =
          (writeNoFollow osError d ch parent name (Text.toUtf8 content)).1 := by
        rw [handleWriteConfig, hcheck]
        dsimp only
        split
        · next hw => rw [hw]
        · next hw => rw [hw]
      obtain ⟨lex, p, loc, hlex, hp, hname, hloc, rfl, hentry⟩ := entry_checkWrite hnames hcheck
      rw [hfst, put, place, hcheck]
      dsimp only
      rcases writeNoFollow_cases ch (Text.toUtf8 content) with ⟨hsame, hnone⟩ |
        ⟨left, result, dir, n, hleft, hopen, hwrite⟩
      · rw [hsame]
        refine ⟨.refl d, hnames, ?_⟩
        cases hopen : d.entry (writeTarget (Path.ofLocation loc) name) with
        | none => rfl
        | some e =>
            obtain ⟨dir, n⟩ := e
            cases hleft : ch.left (Text.toUtf8 content) with
            | error e => rfl
            | ok r =>
                obtain ⟨left, result⟩ := r
                have hrefused := (Disk.writeAt_none (entry_dir hopen)).mp
                  (hnone left result dir n hleft hopen)
                dsimp only [Option.map_some]
                rw [if_neg]
                rw [writable_iff]
                exact fun hfree => hfree.elim hrefused.1 hrefused.2
      · have hwrote := Disk.writeAt_some hwrite
        have hn : Path.IsName n := by
          rw [hentry] at hopen
          split at hopen
          · cases hopen
            exact isName_of_fileName hname
          · cases hopen
        rw [hopen, hleft]
        dsimp only [Option.map_some]
        rw [if_pos (writable_iff.mpr hwrote.free)]
        refine ⟨hwrote.sameTree, fun q hq m hm => ?_, hwrote.file⟩
        by_cases heq : q = dir ++ [n]
        · subst heq
          rcases List.mem_append.mp hm with hm | hm
          · refine hnames dir ?_ m hm
            rw [entry_dir hopen]
            rfl
          · exact List.mem_singleton.mp hm ▸ hn
        · rw [hwrote.others q heq] at hq
          exact hnames q hq m hm

/-- A request on a host that has the directories and links of `d₀`. -/
theorem handleConfig_same (h : Disk.SameTree d₀ d) (hnames : WellNamed d) (r : ConfigRequest) :
    Disk.SameTree d₀ (handleConfig osError d r) ∧ WellNamed (handleConfig osError d r) ∧
      (handleConfig osError d r).file = put d₀ d.file r := by
  cases r with
  | read path => exact ⟨h, hnames, rfl⟩
  | write path content ch =>
      obtain ⟨hsame, hnames', hfile⟩ := handleConfig_write hnames ch
      refine ⟨h.trans hsame, hnames', hfile.trans ?_⟩
      rw [put, put, place_same h hnames]
      split
      · rw [writable_same h, h.replace]
      · rfl

variable (osError) in
/-- Any number of them. -/
theorem afterRequests_same (hnames : WellNamed d) (rs : List ConfigRequest) :
    Disk.SameTree d (afterRequests osError d rs) ∧ WellNamed (afterRequests osError d rs) ∧
      (afterRequests osError d rs).file = rs.foldl (put d) d.file := by
  induction rs using List.reverseRecOn with
  | nil => exact ⟨.refl d, hnames, rfl⟩
  | append_singleton rs r ih =>
      obtain ⟨hsame, hnames', hfile⟩ := ih
      rw [afterRequests, List.foldl_append, List.foldl_append, ← hfile]
      exact handleConfig_same hsame hnames' r

/-! ## A read -/

/-- What an accepted path is made of, if no slash is at its end. -/
theorem check_parts (hlex : check path = .ok lex) (hslash : path.getLast? ≠ some '/') :
    ∃ front leaf, Path.steps (OsStr.ofChars lex) =
        .here :: (front ++ [leaf]).map (fun s => .name (OsStr.ofChars s)) ∧
      Path.parent (OsStr.ofChars lex) = some (Path.ofLocation (front.map OsStr.ofChars)) ∧
      Path.fileName (OsStr.ofChars lex) = some (OsStr.ofChars leaf) ∧
      ∀ s ∈ front, Path.IsName (OsStr.ofChars s) := by
  have hsome := check_some hlex
  obtain ⟨rfl, _, _⟩ := check_ok hlex
  have habs := isAbsolute_check hlex
  obtain ⟨front, leaf, hparts⟩ : ∃ front leaf, normalSegments path = front ++ [leaf] :=
    ⟨_, _, (List.dropLast_append_getLast hsome).symm⟩
  have hname : ∀ s ∈ normalSegments path, Path.IsName (OsStr.ofChars s) := by
    intro s hs
    obtain ⟨hmem, hne, hdot, hup⟩ := normalSegments_names hs
    refine ⟨fun h => hne (ofChars_injective h), fun h => hdot (ofChars_injective h),
      fun h => hup (ofChars_injective h), fun hmem' => ?_⟩
    obtain ⟨c, hc, hceq⟩ := List.mem_map.mp hmem'
    cases hceq
    exact not_mem_of_mem_splitOn hmem hc
  have hsplit : (OsStr.ofChars (normalPath path)).splitOn slash =
      [] :: (normalSegments path).map OsStr.ofChars := by
    rw [Path.splitOn_ofChars, splitOn_normalPath hsome, if_neg hslash, List.append_nil,
      List.map_cons]
    rfl
  have hcomponents : Path.components (OsStr.ofChars (normalPath path)) =
      .rootDir :: (normalSegments path).map fun s => .normal (OsStr.ofChars s) := by
    have hnormal : ∀ segments : List Str, (∀ s ∈ segments, Path.IsName (OsStr.ofChars s)) →
        (segments.map OsStr.ofChars).filterMap Path.component =
          segments.map fun s => .normal (OsStr.ofChars s) := by
      intro segments
      induction segments with
      | nil => exact fun _ => rfl
      | cons s segments ih =>
          intro hall
          obtain ⟨hne, hdot, hup, _⟩ := hall s (List.mem_cons_self ..)
          have hone : Path.component (OsStr.ofChars s) = some (.normal (OsStr.ofChars s)) := by
            rw [Path.component, if_neg (not_or.mpr ⟨hne, hdot⟩), if_neg hup]
          rw [List.map_cons, List.filterMap_cons_some hone,
            ih fun s' hs' => hall s' (List.mem_cons_of_mem _ hs'), List.map_cons]
    rw [Path.components, habs, hsplit, List.filterMap_cons_none rfl, hnormal _ hname]
    rfl
  refine ⟨front, leaf, ?_, ?_, ?_, fun s hs => hname s (hparts ▸ List.mem_append_left _ hs)⟩
  · rw [Path.steps, hsplit, hparts, List.map_cons, List.map_map]
    refine congrArg (_ :: ·) (List.map_congr_left fun s hs => ?_)
    exact Path.step_name (hname s (hparts ▸ hs))
  · rw [Path.parent, hcomponents, hparts, List.map_append, List.map_singleton,
      ← List.cons_append, List.getLast?_concat, List.dropLast_concat]
    dsimp only
    rw [← Path.render_normal, List.map_map]
    rfl
  · rw [Path.fileName, hcomponents, hparts, List.map_append, List.map_singleton,
      ← List.cons_append, List.getLast?_concat]

/-- A path leads to the entry of the directory that its parent leads to. -/
theorem canonicalize_entry (hlex : check path = .ok lex) (hslash : path.getLast? ≠ some '/')
    {p : OsStr} (hp : Path.parent (OsStr.ofChars lex) = some p)
    (hname : Path.fileName (OsStr.ofChars lex) = some name) (hdir : d.canonicalize p = some dir)
    (hsome : (d.fs.node (dir ++ [name])).isSome) (hlink : d.fs.NotLink (dir ++ [name])) :
    d.canonicalize (OsStr.ofChars lex) = some (dir ++ [name]) := by
  obtain ⟨front, leaf, hsteps, hp', hname', hfront⟩ := check_parts hlex hslash
  rw [hp', Option.some.injEq] at hp
  rw [hname', Option.some.injEq] at hname
  subst hp hname
  have hroot : d.fs.enterable false [] = true := by
    rw [Fs.enterable, d.fs.root_dir]
  have hfound : d.fs.resolve [] (.here :: front.map fun s => .name (OsStr.ofChars s)) =
      some dir := by
    rw [canonicalize_absolute rfl] at hdir
    by_cases hnil : front = []
    · subst hnil
      have htwo : d.fs.walk false [] (Path.steps (Path.ofLocation [])) = .arrived [] := by
        show d.fs.walk false [] [.here, .here] = _
        rw [Fs.walk, if_pos hroot, Fs.walk, if_pos hroot, Fs.walk]
      have hone : d.fs.walk false [] [.here] = .arrived [] := by
        rw [Fs.walk, if_pos hroot, Fs.walk]
      rw [List.map_nil, Fs.resolve, Fs.follow_arrived htwo] at hdir
      rw [List.map_nil, Fs.resolve, Fs.follow_arrived hone, hdir]
    · have hne : front.map OsStr.ofChars ≠ [] := by simpa using hnil
      have hall : ∀ n ∈ front.map OsStr.ofChars, Path.IsName n := by
        intro n hn
        obtain ⟨s, hs, rfl⟩ := List.mem_map.mp hn
        exact hfront s hs
      rw [Path.steps_ofLocation hne hall, List.map_map] at hdir
      exact hdir
  rw [canonicalize_absolute (isAbsolute_check hlex), hsteps, List.map_append, List.map_singleton,
    ← List.cons_append]
  exact Fs.follow_name hfound hsome hlink

/-- The policy on the place of a path where there is a file. -/
theorem checkRead_place (hnames : WellNamed d) (hslash : path.getLast? ≠ some '/')
    (hplace : place d path = some loc) (hfile : d.file loc = some bytes) :
    (¬LeadsToDenied d.toHostFiles path →
      checkRead d.toHostFiles path = .ok (Path.ofLocation loc)) ∧
    (LeadsToDenied d.toHostFiles path → ∃ reason,
      checkRead d.toHostFiles path = .error (.blockedByDenyList reason)) := by
  unfold place at hplace
  split at hplace
  · cases hplace
  next parent name hcheck =>
  obtain ⟨lex, p, loc', dir, hlex, hp, hname, hloc', rfl, hdir, hdenied, hallowed⟩ :=
    checkWrite_ok hcheck
  obtain ⟨_, _, loc'', hlex'', hp'', _, hloc'', heq, hentry⟩ := entry_checkWrite hnames hcheck
  obtain rfl : lex = _ := Except.ok.inj (hlex.symm.trans hlex'')
  obtain rfl : p = _ := Option.some.inj (hp.symm.trans hp'')
  obtain rfl : loc' = loc'' := Option.some.inj (hloc'.symm.trans hloc'')
  rw [hentry] at hplace
  split at hplace
  swap
  · cases hplace
  next hisdir =>
  cases hplace
  obtain ⟨leaf, rfl, hleaf, hleafOk⟩ := leaf_ok hlex hname
  have hnode : d.fs.node (loc' ++ [OsStr.ofChars leaf]) = some .file :=
    (Option.ite_none_right_eq_some.mp hfile).1
  have hfound : d.canonicalize (OsStr.ofChars lex) = some (loc' ++ [OsStr.ofChars leaf]) := by
    refine canonicalize_entry hlex hslash hp hname hloc' ?_
      (Fs.notLink_of_node hnode (by simp))
    rw [hnode]
    rfl
  have hresolved : Resolved d.toHostFiles path dir leaf :=
    ⟨lex, p, loc', hlex, hp, hname, hloc', hdir⟩
  have hjoin : Path.ofLocation (loc' ++ [OsStr.ofChars leaf]) =
      writeTarget (Path.ofLocation loc') (OsStr.ofChars leaf) := by
    refine (Path.join_ofLocation (hnames loc' ?_) (isName_of_fileName hname)).symm
    rw [hisdir]
    rfl
  have htext : OsStr.toChars (Path.ofLocation (loc' ++ [OsStr.ofChars leaf])) =
      some (inDirectory dir leaf) := by
    rw [hjoin]
    exact writeTarget_chars hdir (List.cons_ne_nil _ _) rfl hleaf
  have hpolicy : deniedPath (lowercase (inDirectory dir leaf)) = none ↔
      ¬LeafDenied (parentString dir) (lowercase leaf) := by
    obtain ⟨x, hx⟩ := parentString_slash dir
    rw [lowercase_inDirectory, hx]
    exact deniedPath_leaf (slash_notMem_lowercase hleaf) hleafOk (hx ▸ hdenied)
  have hleads : LeadsToDenied d.toHostFiles path ↔
      LeafDenied (parentString dir) (lowercase leaf) := by
    constructor
    · rintro ⟨dir', leaf', hresolved', hl⟩
      obtain ⟨rfl, rfl⟩ := hresolved.unique hresolved'
      exact hl
    · intro hl
      exact ⟨dir, leaf, hresolved, hl⟩
  rw [hleads, checkRead, hlex]
  dsimp only
  rw [hfound]
  dsimp only
  rw [htext]
  dsimp only
  constructor
  · intro hno
    have hrecheck : ∀ note, recheck (lowercase (inDirectory dir leaf)) note = .ok () := by
      intro note
      rw [recheck, hpolicy.mpr hno]
      dsimp only
      rw [if_pos]
      rw [lowercase_inDirectory]
      exact allowed_append hallowed
    rw [hrecheck]
  · intro hl
    cases hreason : deniedPath (lowercase (inDirectory dir leaf)) with
    | none => exact absurd hl (hpolicy.mp hreason)
    | some reason =>
        rw [recheck, hreason]
        exact ⟨_, rfl⟩

/-- The requests decide nothing about which paths lead to what is denied. -/
theorem leadsToDenied_same (h : Disk.SameTree d d') (hplace : place d path = some loc) :
    LeadsToDenied d'.toHostFiles path ↔ LeadsToDenied d.toHostFiles path := by
  unfold place at hplace
  split at hplace
  · cases hplace
  next parent name hcheck =>
  obtain ⟨lex, p, loc', dir, hlex, hp, hname, hloc, rfl, hdir, _⟩ := checkWrite_ok hcheck
  obtain ⟨leaf, rfl, _⟩ := leaf_ok hlex hname
  have hloc' : d'.canonicalize p = some loc' := by
    have habs := isAbsolute_parent_check hlex hp
    rw [canonicalize_absolute habs] at hloc ⊢
    exact h.keeps.follow_found hloc
  have hresolved : Resolved d.toHostFiles path dir leaf :=
    ⟨lex, p, loc', hlex, hp, hname, hloc, hdir⟩
  have hresolved' : Resolved d'.toHostFiles path dir leaf :=
    ⟨lex, p, loc', hlex, hp, hname, hloc', hdir⟩
  constructor
  · intro ⟨dir', leaf', hr, hl⟩
    obtain ⟨rfl, rfl⟩ := hresolved'.unique hr
    exact ⟨_, _, hresolved, hl⟩
  · intro ⟨dir', leaf', hr, hl⟩
    obtain ⟨rfl, rfl⟩ := hresolved.unique hr
    exact ⟨_, _, hresolved', hl⟩

def linkedEntries : List (List OsStr × Node OsStr) :=
  [([os "etc"], .dir), ([os "etc", os "app"], .dir), ([os "etc", os "app", os "conf"], .file),
    ([os "etc", os "app", os "same"], .file), ([os "srv"], .dir),
    ([os "srv", os "app"], .link ⟨true, [.name (os "etc"), .name (os "app")]⟩)]

def linkedDisk : Disk where
  fs := Fs.ofEntries linkedEntries (by decide)
  cwd := []
  inode _ := 0
  nextInode := 1
  bytes _ := [1]
  inode_lt _ _ := Nat.one_pos

theorem linkedDisk_wellNamed : WellNamed linkedDisk := by
  intro loc hloc
  by_cases hnil : loc = []
  · subst hnil
    intro name hmem
    cases hmem
  · have hall : ∀ loc ∈ linkedEntries.map Prod.fst, ∀ name ∈ loc, Path.IsName name := by
      decide
    exact hall loc ((Fs.ofEntries_isSome (by decide) hnil).mp hloc)

/-- Two writes by way of the link, of which the second fails, and one that is refused. -/
def linkedRequests : List ConfigRequest :=
  [.write "/srv/app/new".toList "on".toList .good,
    .write "/srv/app/conf".toList "ab".toList (.writeFails 1 "full".toList),
    .write "/srv/app".toList "c".toList .good]

theorem linkedDisk_app (leaf : Str)
    (hcheck : check ("/etc/app/".toList ++ leaf) = .ok ("/etc/app/".toList ++ leaf))
    (hparent : Path.parent (OsStr.ofChars ("/etc/app/".toList ++ leaf)) = some (os "/etc/app"))
    (hname : Path.fileName (OsStr.ofChars ("/etc/app/".toList ++ leaf)) =
      some (OsStr.ofChars leaf)) :
    ¬LeadsToDenied linkedDisk.toHostFiles ("/etc/app/".toList ++ leaf) := by
  intro ⟨dir, leaf', hresolved, hdenied⟩
  have happ : Resolved linkedDisk.toHostFiles ("/etc/app/".toList ++ leaf) "/etc/app".toList leaf :=
    ⟨_, _, [os "etc", os "app"], hcheck, hparent, hname, by decide, by decide⟩
  obtain ⟨rfl, rfl⟩ := hresolved.unique happ
  rcases hdenied with ⟨hdir, _⟩ | ⟨hdir, _⟩ | ⟨hdir, _⟩
  · exact absurd hdir (by decide)
  · exact absurd hdir (by decide)
  · exact absurd hdir (by decide)

/-- The write goes to the entry of the directory that was checked, and nowhere else. -/
theorem writeNoFollow_at (hloc : ∀ n ∈ loc, Path.IsName n) (hname : Path.IsName name)
    (hdir : d'.fs.node loc = some .dir) (ch : WriteChoice) (content : Bytes) :
    ((writeNoFollow osError d' ch (Path.ofLocation loc) name content).1 = d' ∨
      ∃ left, Disk.Wrote d' (writeNoFollow osError d' ch (Path.ofLocation loc) name content).1
        (loc ++ [name]) left) ∧
    ((writeNoFollow osError d' ch (Path.ofLocation loc) name content).2 = .ok () →
      Disk.Wrote d' (writeNoFollow osError d' ch (Path.ofLocation loc) name content).1
        (loc ++ [name]) content) := by
  have hentry : d'.entry (writeTarget (Path.ofLocation loc) name) = some (loc, name) := by
    refine (Disk.entry_join hloc hname ?_ ?_).trans (if_pos hdir)
    · rw [hdir]
      rfl
    · exact Fs.notLink_of_node hdir (by simp)
  unfold writeNoFollow
  split
  · refine ⟨.inl rfl, fun hok => ?_⟩
    cases hok
  next left result hleft =>
  rw [hentry]
  dsimp only
  split
  · refine ⟨.inl rfl, fun hok => ?_⟩
    cases hok
  next d'' hwrite =>
  have hwrote := Disk.writeAt_some hwrite
  refine ⟨.inr ⟨left, hwrote⟩, fun hok => ?_⟩
  cases ch with
  | good =>
      cases hleft
      exact hwrote
  | openFails error => cases hleft
  | writeFails kept error =>
      cases hleft
      cases hok

/-- What a read opens is the entry of the directory that was checked, and no link. -/
theorem opened_at (hloc : ∀ n ∈ loc, Path.IsName n) (hname : Path.IsName name)
    (hdir : d'.fs.node loc = some .dir) {file : ConfigFile}
    (hopened : opened osError d' (Path.ofLocation (loc ++ [name])) = .ok file) :
    (d'.fs.node (loc ++ [name]) = some .file ∧
      file = ⟨.ok true, .ok (d'.content (loc ++ [name]))⟩) ∨
    (d'.fs.node (loc ++ [name]) = some .dir ∧ file.isFile = .ok false) := by
  have hentry : d'.entry (Path.ofLocation (loc ++ [name])) = some (loc, name) := by
    rw [← Path.join_ofLocation hloc hname]
    refine (Disk.entry_join hloc hname ?_ ?_).trans (if_pos hdir)
    · rw [hdir]
      rfl
    · exact Fs.notLink_of_node hdir (by simp)
  rw [opened, hentry] at hopened
  dsimp only at hopened
  split at hopened
  · next hfile =>
      cases hopened
      exact .inl ⟨hfile, rfl⟩
  · next hisdir =>
      cases hopened
      exact .inr ⟨hisdir, rfl⟩
  · cases hopened

/-- What is read is a regular file, and the text's bytes are what it holds. -/
theorem readNoFollow_returned {file : ConfigFile} {maxBytes : Nat} {text : Str}
    (hread : readNoFollow utf8Error (.ok file) maxBytes = .ok text) :
    file.isFile = .ok true ∧ file.content = .ok (Text.toUtf8 text) := by
  unfold readNoFollow at hread
  cases hfile : file.isFile with
  | error e =>
      simp only [hfile, bind, Except.bind] at hread
      cases hread
  | ok isFile =>
      cases hcontent : file.content with
      | error e =>
          cases isFile with
          | false =>
              simp only [hfile, bind, Except.bind] at hread
              cases hread
          | true =>
              simp only [hfile, hcontent, bind, Except.bind] at hread
              cases hread
      | ok bytes =>
          simp only [hfile, hcontent, bind, Except.bind, throw, throwThe, MonadExceptOf.throw,
            List.length_take] at hread
          split at hread
          · cases hread
          next hregular =>
          split at hread
          · cases hread
          next hle =>
          rw [List.take_of_length_le (by omega)] at hread
          split at hread
          · next value hvalue =>
              cases hread
              refine ⟨?_, congrArg _ (Text.toUtf8_of_fromUtf8 hvalue).symm⟩
              cases isFile with
              | true => rfl
              | false => exact absurd rfl hregular
          · cases hread

variable (osError utf8Error) in
/-- Whatever else happens to the host between the check and the call, as long as the parent
that was checked is still a directory, the call goes to the entry that was checked: a write
changes that file or nothing, and a read finds what that file holds. -/
theorem opened_where_checked (hnames : WellNamed d) (path : Str) :
    (∀ parent name, checkWrite d.toHostFiles path = .ok (parent, name) →
      ∃ loc, (d.fs.node loc).isSome ∧ parent = Path.ofLocation loc ∧
        ∀ (d' : Disk) ch content, d'.fs.node loc = some .dir →
          ((writeNoFollow osError d' ch parent name content).1 = d' ∨
            ∃ left, Disk.Wrote d' (writeNoFollow osError d' ch parent name content).1
              (loc ++ [name]) left) ∧
          ((writeNoFollow osError d' ch parent name content).2 = .ok () →
            Disk.Wrote d' (writeNoFollow osError d' ch parent name content).1
              (loc ++ [name]) content)) ∧
    (∀ q, checkRead d.toHostFiles path = .ok q →
      ∃ loc name, (d.fs.node (loc ++ [name])).isSome ∧ q = Path.ofLocation (loc ++ [name]) ∧
        ∀ (d' : Disk) maxBytes text, d'.fs.node loc = some .dir →
          readNoFollow utf8Error (opened osError d' q) maxBytes = .ok text →
            d'.file (loc ++ [name]) = some (Text.toUtf8 text)) := by
  constructor
  · intro parent name hok
    obtain ⟨lex, p, loc, hlex, hp, hname, hloc, rfl, _⟩ := entry_checkWrite hnames hok
    obtain ⟨hsome, _⟩ := canonicalize_found (isAbsolute_parent_check hlex hp) hloc
    exact ⟨loc, hsome, rfl, fun d' ch content hdir =>
      writeNoFollow_at (hnames loc hsome) (isName_of_fileName hname) hdir ch content⟩
  · intro q hok
    obtain ⟨lex, loc, s, hlex, hloc, rfl, hs, hallowed⟩ := checkRead_ok hok
    obtain ⟨hsome, _⟩ := canonicalize_found (isAbsolute_check hlex) hloc
    have hne : loc ≠ [] := by
      rintro rfl
      cases hs
      exact absurd hallowed (by decide)
    obtain ⟨front, name, rfl⟩ : ∃ front name, loc = front ++ [name] :=
      ⟨_, _, (List.dropLast_append_getLast hne).symm⟩
    have hfront : ∀ n ∈ front, Path.IsName n :=
      fun n hn => hnames _ hsome n (List.mem_append_left _ hn)
    have hname : Path.IsName name :=
      hnames _ hsome name (List.mem_append_right _ (List.mem_singleton_self _))
    refine ⟨front, name, hsome, rfl, fun d' maxBytes text hdir hread => ?_⟩
    cases hopened : opened osError d' (Path.ofLocation (front ++ [name])) with
    | error e =>
        rw [hopened] at hread
        cases hread
    | ok file =>
        rw [hopened] at hread
        rcases opened_at hfront hname hdir hopened with ⟨hfile, rfl⟩ | ⟨_, hisFile⟩
        · obtain ⟨_, hcontent⟩ := readNoFollow_returned hread
          rw [Disk.file, if_pos hfile, Except.ok.inj hcontent]
        · obtain ⟨htrue, _⟩ := readNoFollow_returned hread
          rw [hisFile] at htrue
          cases htrue

/-- The host when someone has put a link to `/etc/shadow` where the file was to be. -/
def swappedDisk : Disk where
  fs := Fs.ofEntries
    (([os "etc", os "shadow"], .file) :: ([os "etc", os "app", os "new"],
      .link ⟨true, [.name (os "etc"), .name (os "shadow")]⟩) :: linkedEntries) (by decide)
  cwd := []
  inode p := if p = [os "etc", os "shadow"] then 1 else 0
  nextInode := 2
  bytes _ := [1]
  inode_lt p _ := by
    split
    · exact Nat.one_lt_two
    · exact Nat.two_pos

/-- The link is not written through: no place is filled but its own, and it stays a link. -/
theorem opened_where_checked_swapped :
    checkWrite linkedDisk.toHostFiles "/srv/app/new".toList = .ok (os "/etc/app", os "new") ∧
      ((writeNoFollow [] swappedDisk .good (os "/etc/app") (os "new") [2]).1 = swappedDisk ∨
        ∃ left, Disk.Wrote swappedDisk
          (writeNoFollow [] swappedDisk .good (os "/etc/app") (os "new") [2]).1
          [os "etc", os "app", os "new"] left) := by
  have hok : checkWrite linkedDisk.toHostFiles "/srv/app/new".toList =
      .ok (os "/etc/app", os "new") := by
    decide +kernel
  obtain ⟨loc, hsome, hparent, hcall⟩ :=
    (opened_where_checked [] (fun _ => []) linkedDisk_wellNamed "/srv/app/new".toList).1 _ _ hok
  have happ : loc = [os "etc", os "app"] :=
    Path.ofLocation_inj (linkedDisk_wellNamed loc hsome) (by decide) (hparent.symm.trans rfl)
  subst happ
  exact ⟨hok, (hcall swappedDisk .good [2] (by decide)).1⟩

end ShellfleetAgent.Agent.Config
