import ShellfleetAgent.Lib.Bytes
import ShellfleetAgent.Lib.Path

/-!
# Hosts

What a program finds on its host: a file tree with the directory that relative
paths start from, and what finished child processes leave behind.
-/

namespace ShellfleetAgent.Lib

structure HostFiles where
  fs : Fs OsStr
  cwd : List OsStr

namespace HostFiles

variable (h : HostFiles)

def start (p : OsStr) : List OsStr := if Path.isAbsolute p then [] else h.cwd

/-- `std::fs::canonicalize`, as a location. -/
def canonicalize (p : OsStr) : Option (List OsStr) :=
  if p = [] then none else h.fs.resolve (h.start p) (Path.steps p)

/-- Where the kernel would read or create `p`. -/
def locate (p : OsStr) : Option (List OsStr) :=
  if p = [] then none else h.fs.locate (h.start p) (Path.steps p)

/-- `Path::exists`. -/
def pathExists (p : OsStr) : Bool := (h.canonicalize p).isSome

/-- `Path::is_file`. -/
def isFile (p : OsStr) : Bool :=
  match h.canonicalize p with
  | some loc => h.fs.node loc = some .file
  | none => false

/-- `Path::is_dir`. -/
def isDir (p : OsStr) : Bool :=
  match h.canonicalize p with
  | some loc => h.fs.node loc = some .dir
  | none => false

/-- `h'` is `h` with some directories created. -/
structure Extends (h' : HostFiles) : Prop where
  fs : h.fs.Extends h'.fs
  cwd : h'.cwd = h.cwd

/-- `mkdir(2)` has made the directory that `p` leads to, and nothing else. -/
structure Makes (p : OsStr) (h' : HostFiles) : Prop where
  missing : h.canonicalize p = none
  place : ∃ loc, h.locate p = some loc ∧ h.fs.node loc = none ∧ h'.fs.node loc = some .dir ∧
    ∀ q, q ≠ loc → h'.fs.node q = h.fs.node q
  cwd : h'.cwd = h.cwd

/-- `std::io::Error`, as far as a `mkdir` is told apart by it. -/
structure MkdirError where
  notFound : Bool
  text : List Char

/-- `mkdir(2)` where nothing but the tree is in its way. -/
def mkdir (p : OsStr) : Except MkdirError HostFiles :=
  if h.pathExists p then .error ⟨false, "File exists (os error 17)".toList⟩
  else
    match h.locate p with
    | none => .error ⟨false, "Not a directory (os error 20)".toList⟩
    | some loc =>
      if hnew : loc ≠ [] ∧ h.fs.node loc.dropLast = some .dir ∧ h.fs.node loc = none ∧
          (Path.parent p).bind h.canonicalize = some loc.dropLast then
        .ok { h with fs := h.fs.makeDir loc hnew.1 hnew.2.1 }
      else .error ⟨true, "No such file or directory (os error 2)".toList⟩

/-- Behind a part that leads to `dir`, `p` has names only, and the first of them is not
there. -/
def NewBelow (p : OsStr) (dir : List OsStr) : Prop :=
  ∃ a n names, Path.components p = Path.components a ++ (n :: names).map .normal ∧
    h.canonicalize a = some dir ∧ h.fs.node (dir ++ [n]) = none

variable {h}

theorem locate_of_canonicalize {p : OsStr} {loc : List OsStr} (hp : h.canonicalize p = some loc) :
    h.locate p = some loc := by
  unfold canonicalize at hp
  unfold locate
  split at hp
  · cases hp
  · next hne => rw [if_neg hne, Fs.locate_of_resolve hp]

theorem Extends.canonicalize {h' : HostFiles} (he : h.Extends h') {p : OsStr}
    {loc : List OsStr} (hp : h.canonicalize p = some loc) : h'.canonicalize p = some loc := by
  unfold HostFiles.canonicalize at hp ⊢
  split at hp
  · cases hp
  · next hne =>
      have hstart : h'.start p = h.start p := by
        rw [start, start, he.cwd]
      rw [if_neg hne, hstart]
      exact he.fs.follow_found hp

/-- What an absolute path leads to is there. -/
theorem isSome_of_canonicalize {p : OsStr} {loc : List OsStr} (habs : Path.isAbsolute p = true)
    (hp : h.canonicalize p = some loc) : (h.fs.node loc).isSome := by
  unfold HostFiles.canonicalize at hp
  split at hp
  · cases hp
  · rw [start, habs, if_pos rfl] at hp
    refine Fs.isSome_of_follow ?_ hp
    rw [h.fs.root_dir]
    rfl

/-- No name in the tree has a slash in it. -/
def Named (h : HostFiles) : Prop :=
  ∀ loc, (h.fs.node loc).isSome → ∀ name ∈ loc, slash ∉ name

/-- Nor is there one in what an absolute path leads to. -/
theorem Named.canonicalize (hnames : h.Named) {p : OsStr} {loc : List OsStr}
    (habs : Path.isAbsolute p = true) (hp : h.canonicalize p = some loc) :
    ∀ name ∈ loc, slash ∉ name :=
  hnames loc (isSome_of_canonicalize habs hp)

theorem isFile_iff {p : OsStr} :
    h.isFile p = true ↔ ∃ loc, h.canonicalize p = some loc ∧ h.fs.node loc = some .file := by
  unfold isFile
  cases h.canonicalize p with
  | none => simp
  | some loc => simp

theorem isDir_iff {p : OsStr} :
    h.isDir p = true ↔ ∃ loc, h.canonicalize p = some loc ∧ h.fs.node loc = some .dir := by
  unfold isDir
  cases h.canonicalize p with
  | none => simp
  | some loc => simp

theorem isDir_root (h : HostFiles) : h.isDir [slash] = true := by
  have henter : h.fs.enterable false [] = true := by
    rw [Fs.enterable, h.fs.root_dir]
  refine isDir_iff.mpr ⟨[], ?_, h.fs.root_dir⟩
  show h.fs.resolve [] [.here, .here] = some []
  rw [Fs.resolve, Fs.maxSymlinks, Fs.follow, Fs.walk, if_pos henter, Fs.walk, if_pos henter,
    Fs.walk]

theorem Extends.isFile {h' : HostFiles} (he : h.Extends h') {p : OsStr}
    (hp : h.isFile p = true) : h'.isFile p = true := by
  obtain ⟨loc, hloc, hfile⟩ := isFile_iff.mp hp
  refine isFile_iff.mpr ⟨loc, he.canonicalize hloc, ?_⟩
  rcases he.fs loc with hsame | ⟨hnone, _⟩
  · rw [hsame, hfile]
  · rw [hfile] at hnone
    cases hnone

/-- What is found under a name joined to a path is found from where the path leads. -/
theorem follow_join {p name : OsStr} {loc : List OsStr} (hp : p ≠ [])
    (hname : Path.IsName name)
    (h' : h.canonicalize (Path.join p name) = some loc) :
    ∃ dir links, h.canonicalize p = some dir ∧
      h.fs.follow false links dir [.name name] = some loc := by
  obtain ⟨hne, hdot, hdotDot, hslash⟩ := hname
  have hstep : Path.step name = .name name := by
    rw [Path.step, if_neg (by simp [hne, hdot]), if_neg hdotDot]
  have hrelative := Path.isAbsolute_eq_false hslash
  have hsteps : ∀ x, Path.steps (x ++ slash :: name) = Path.steps x ++ [Step.name name] := by
    intro x
    rw [Path.steps, List.splitOn_append_cons_self, List.splitOn_eq_singleton hslash,
      List.map_append, List.map_singleton, hstep]
    rfl
  have hstart : ∀ rest, h.start (p ++ rest) = h.start p := by
    intro rest
    rw [start, start, Path.isAbsolute, Path.isAbsolute, List.head?_append_of_ne_nil _ hp]
  rw [Path.join, hrelative, if_neg Bool.false_ne_true] at h'
  by_cases hlast : p.getLast? = some slash
  · rw [if_pos (.inr hlast), canonicalize, if_neg (by simp [hp]), hstart] at h'
    obtain ⟨x, rfl⟩ : ∃ x, p = x ++ [slash] :=
      ⟨_, (List.dropLast_append_getLast? _ hlast).symm⟩
    rw [List.append_assoc, List.singleton_append, hsteps] at h'
    obtain ⟨dir, links, hdir, hfound⟩ := Fs.follow_append h'
    have hisdir := (Fs.node_of_follow_name hfound).1
    refine ⟨dir, links, ?_, hfound⟩
    have hhere : Path.steps (x ++ [slash]) = Path.steps x ++ [Step.here] := by
      rw [Path.steps, List.splitOn_append_cons_self, List.splitOn_nil, List.map_append]
      rfl
    rw [canonicalize, if_neg hp, hhere]
    exact Fs.follow_here hdir hisdir
  · rw [if_neg (by simp [hp, hlast]), List.append_assoc, List.singleton_append, canonicalize,
      if_neg (by simp), hstart, hsteps] at h'
    obtain ⟨dir, links, hdir, hfound⟩ := Fs.follow_append h'
    refine ⟨dir, links, ?_, hfound⟩
    rw [canonicalize, if_neg hp]
    exact hdir

/-- That is an entry of the directory that the path leads to. -/
theorem canonicalize_join {p name : OsStr} {loc : List OsStr} (hp : p ≠ [])
    (hname : Path.IsName name)
    (h' : h.canonicalize (Path.join p name) = some loc) :
    ∃ dir, h.canonicalize p = some dir ∧ h.fs.node dir = some .dir ∧
      (h.fs.node (dir ++ [name])).isSome := by
  obtain ⟨dir, links, hdir, hfound⟩ := follow_join hp hname h'
  exact ⟨dir, hdir, Fs.node_of_follow_name hfound⟩

/-- No file is behind a dot. -/
theorem not_isFile_dot {p : OsStr} (hp : p ≠ []) (hlast : p.getLast? ≠ some slash) :
    h.isFile (Path.join p Path.dot) = false := by
  refine Bool.eq_false_iff.mpr fun hfile => ?_
  obtain ⟨loc, hloc, hnode⟩ := isFile_iff.mp hfile
  have hjoin : Path.join p Path.dot = p ++ slash :: Path.dot := by
    rw [Path.join, if_neg (by decide), if_neg (by simp [hp, hlast]), List.append_assoc]
    rfl
  have hdot : Path.dot.splitOn slash = [Path.dot] := List.splitOn_eq_singleton (by decide)
  have hsteps : Path.steps (p ++ slash :: Path.dot) = Path.steps p ++ [Step.here] := by
    rw [Path.steps, List.splitOn_append_cons_self, hdot, List.map_append]
    rfl
  rw [hjoin, canonicalize, if_neg (by simp), hsteps] at hloc
  obtain ⟨dir, links, _, hhere⟩ := Fs.follow_append hloc
  have hdir := Fs.node_of_follow_here hhere
  rw [hnode] at hdir
  cases hdir

theorem Extends.locate {h' : HostFiles} (he : h.Extends h') (p : OsStr) :
    h'.locate p = h.locate p := by
  simp only [HostFiles.locate, HostFiles.start, he.cwd, he.fs.locate]

theorem Extends.refl (h : HostFiles) : h.Extends h := ⟨.refl h.fs, rfl⟩

theorem Extends.trans {h' h'' : HostFiles} (he : h.Extends h') (he' : h'.Extends h'') :
    h.Extends h'' := ⟨he.fs.trans he'.fs, he'.cwd.trans he.cwd⟩

theorem Makes.extends {h' : HostFiles} {p : OsStr} (hm : h.Makes p h') : h.Extends h' := by
  obtain ⟨loc, _, hnone, hdir, hrest⟩ := hm.place
  refine ⟨fun q => ?_, hm.cwd⟩
  by_cases hq : q = loc
  · rw [hq]
    exact .inr ⟨hnone, hdir⟩
  · exact .inl (hrest q hq)

theorem mkdir_ok {h' : HostFiles} {p : OsStr} (hm : h.mkdir p = .ok h') : h.Makes p h' := by
  unfold mkdir at hm
  split at hm
  · cases hm
  next hmissing =>
  split at hm
  · cases hm
  next loc hloc =>
  split at hm
  · next hnew =>
      cases hm
      refine ⟨by simpa [pathExists] using hmissing, ⟨loc, hloc, hnew.2.2.1, if_pos rfl, ?_⟩, rfl⟩
      exact fun q hq => if_neg hq
  · cases hm

theorem mkdir_error {e : MkdirError} {p : OsStr} (hm : h.mkdir p = .error e)
    (hnotFound : e.notFound = true) : h.canonicalize p = none := by
  unfold mkdir at hm
  split at hm
  · cases hm
    cases hnotFound
  · next hmissing => simpa [pathExists] using hmissing

/-! ## What is new -/

theorem canonicalize_plain {p : OsStr} {loc : List OsStr} (habs : Path.isAbsolute p = true)
    (hp : h.canonicalize p = some loc) :
    h.fs.resolve [] ((Path.components p).filterMap Path.stepOf) = some loc := by
  unfold canonicalize at hp
  split at hp
  · cases hp
  · rw [start, if_pos habs] at hp
    rw [← Path.steps_filter]
    exact (Fs.Skips.filter _).follow hp

theorem locate_plain {p : OsStr} {loc : List OsStr} (habs : Path.isAbsolute p = true)
    (hp : h.locate p = some loc) :
    h.fs.locate [] ((Path.components p).filterMap Path.stepOf) = some loc := by
  unfold locate at hp
  split at hp
  · cases hp
  · rw [start, if_pos habs] at hp
    rw [← Path.steps_filter]
    exact (Fs.Skips.filter _).follow hp

/-- What is written for the first components of a path is walked as they say. -/
theorem locate_render {p : OsStr} {cs : List Component} {loc : List OsStr}
    (habs : Path.isAbsolute p = true) (hcs : .rootDir :: cs <+: Path.components p)
    (hloc : h.locate (Path.render (.rootDir :: cs)) = some loc) :
    h.fs.locate [] ((.rootDir :: cs).filterMap Path.stepOf) = some loc := by
  have hskips : Fs.Skips (Path.steps (Path.render (.rootDir :: cs)))
      ((.rootDir :: cs).filterMap Path.stepOf) := by
    by_cases hnil : cs = []
    · subst hnil
      exact .here (.here .nil)
    · rw [Path.components_absolute habs, List.cons_prefix_cons] at hcs
      rw [Path.steps_render (fun s hs => not_mem_of_mem_splitOn hs) hcs.2 hnil]
      exact .here (.refl _)
  unfold locate at hloc
  split at hloc
  · cases hloc
  · rw [start, if_pos (Path.isAbsolute_render cs)] at hloc
    exact hskips.follow hloc

theorem stepOf_normal (names : List OsStr) :
    (names.map Component.normal).filterMap Path.stepOf = names.map .name := by
  induction names with
  | nil => rfl
  | cons n names ih =>
      have hstep : Path.stepOf (.normal n) = some (.name n) := rfl
      rw [List.map_cons, List.filterMap_cons_some hstep, ih, List.map_cons]

/-- What is written for some of the components of a path that is there is there as well. -/
theorem canonicalize_render {a : OsStr} {dir : List OsStr} {cs : List Component}
    (ha : h.canonicalize a = some dir) (hcs : .rootDir :: cs <+: Path.components a) :
    (h.canonicalize (Path.render (.rootDir :: cs))).isSome := by
  have habs : Path.isAbsolute a = true :=
    Path.isAbsolute_of_rootDir (hcs.subset (List.mem_cons_self ..))
  have hresolve := canonicalize_plain habs ha
  obtain ⟨rest, hrest⟩ := hcs
  rw [← hrest, List.filterMap_append] at hresolve
  obtain ⟨mid, _, hmid, _⟩ := Fs.follow_append hresolve
  have henter : h.fs.enterable false [] = true := by
    rw [Fs.enterable, h.fs.root_dir]
  have hhere : ∀ steps, h.fs.resolve [] (.here :: steps) = h.fs.resolve [] steps := by
    intro steps
    rw [Fs.resolve, Fs.resolve, Fs.maxSymlinks, Fs.follow, Fs.follow, Fs.walk, if_pos henter]
  have hne : Path.render (.rootDir :: cs) ≠ [] := by
    intro hnil
    have hroot := Path.isAbsolute_render cs
    rw [hnil] at hroot
    cases hroot
  rw [canonicalize, if_neg hne, start, if_pos (Path.isAbsolute_render cs)]
  by_cases hnil : cs = []
  · subst hnil
    show (h.fs.resolve [] [.here, .here]).isSome
    rw [hhere, hhere]
    rfl
  · rw [Path.components_absolute habs, List.cons_append, List.cons.injEq] at hrest
    rw [Path.steps_render (fun s hs => not_mem_of_mem_splitOn hs) ⟨rest, hrest.2⟩ hnil, hhere]
    exact Option.isSome_iff_exists.mpr ⟨mid, hmid⟩

/-- An ancestor of a path that is new below `dir` is there, or is to be made below it. -/
theorem NewBelow.ancestor {p q : OsStr} {dir loc : List OsStr}
    (habs : Path.isAbsolute p = true) (hp : h.NewBelow p dir) (hq : q ∈ Path.ancestors p)
    (hmissing : h.canonicalize q = none) (hloc : h.locate q = some loc) :
    ∃ n names, loc = dir ++ n :: names ∧ h.fs.node (dir ++ [n]) = none := by
  obtain ⟨a, n, names, hcomponents, ha, hnew⟩ := hp
  have hne : Path.components a ≠ [] := by
    intro hnil
    rw [Path.components_absolute habs, hnil] at hcomponents
    cases hcomponents
  have hroot : .rootDir ∈ Path.components a := by
    obtain ⟨c, cs, hcs⟩ := List.exists_cons_of_ne_nil hne
    rw [hcs, Path.components_absolute habs, List.cons_append, List.cons.injEq] at hcomponents
    rw [hcs, hcomponents.1]
    exact List.mem_cons_self ..
  have haplain := canonicalize_plain (Path.isAbsolute_of_rootDir hroot) ha
  have hnames : ∀ front names, front = (Path.components a ++ (n :: names).map .normal) →
      h.fs.locate [] (front.filterMap Path.stepOf) = some loc →
      ∃ n names, loc = dir ++ n :: names ∧ h.fs.node (dir ++ [n]) = none := by
    rintro front names rfl hplain
    rw [List.filterMap_append, stepOf_normal] at hplain
    exact ⟨n, names, Fs.follow_new haplain hnew hplain, hnew⟩
  rcases Path.mem_ancestors habs hq with rfl | ⟨cs, hcs, rfl⟩
  · exact hnames _ names hcomponents (locate_plain habs hloc)
  -- either `q` is on the way to `dir`, or it has at least one of the names behind
  have hpre := hcs
  rw [hcomponents] at hcs
  have honWay : ¬.rootDir :: cs <+: Path.components a := by
    intro hbefore
    obtain ⟨mid, hmid⟩ := Option.isSome_iff_exists.mp (canonicalize_render ha hbefore)
    rw [hmid] at hmissing
    cases hmissing
  have hlonger := (List.prefix_or_prefix_of_prefix hcs (List.prefix_append _ _)).resolve_left honWay
  obtain ⟨behind, hbehind⟩ := hlonger
  rw [← hbehind, List.prefix_append_right_inj] at hcs
  cases behind with
  | nil =>
      rw [List.append_nil] at hbehind
      exact absurd ⟨[], by rw [List.append_nil, hbehind]⟩ honWay
  | cons c behind =>
      obtain ⟨rfl, hbehind'⟩ := List.cons_prefix_cons.mp hcs
      obtain ⟨names', _, rfl⟩ := List.prefix_map_iff.mp hbehind'
      exact hnames _ names' hbehind.symm (locate_render habs hpre hloc)

end HostFiles

/-- `std::process::Output`; there is no code if a signal ended the process. -/
structure Output where
  code : Option Int
  stdout : Bytes
  stderr : Bytes

/-- `ExitStatus::success`. -/
def Output.success (out : Output) : Bool := out.code = some 0

end ShellfleetAgent.Lib
