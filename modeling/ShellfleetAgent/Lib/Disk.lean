import Mathlib.Data.List.Induction
import Mathlib.Logic.Function.Basic
import ShellfleetAgent.Lib.Host

/-!
# Files with contents, opened without following a link

A host's file tree together with what its files hold. A file has an inode, and every place
with that inode is a name of it (a hard link), so what is written under one name is read
under all. A path is opened with `O_NOFOLLOW`: all of it is followed but its last name, and
what stands under that name is opened as it is. A write creates the file or replaces what it
holds; so directories and links stay what they are, whatever is written.
-/

namespace ShellfleetAgent.Lib

namespace Fs

variable {ν : Type} [DecidableEq ν] {fs : Fs ν} {dir loc : List ν} {n : ν}

/-- The tree with a new file in a directory. -/
def withFile (fs : Fs ν) (dir : List ν) (n : ν) (hdir : fs.node dir = some .dir)
    (hnew : fs.node (dir ++ [n]) = none) : Fs ν where
  node p := if p = dir ++ [n] then some .file else fs.node p
  root_dir := by
    rw [if_neg (by simp)]
    exact fs.root_dir
  parent_dir p m hm := by
    have hp : fs.node p = some .dir := by
      split at hm
      · next heq =>
          obtain ⟨rfl, _⟩ := List.append_inj' heq rfl
          exact hdir
      · exact fs.parent_dir p m hm
    have hne : p ≠ dir ++ [n] := by
      rintro rfl
      rw [hnew] at hp
      cases hp
    rw [if_neg hne, hp]

omit [DecidableEq ν] in
/-- A walk that has failed is at no place and at no link. -/
theorem failed_elim {P : List ν → Prop}
    {Q : List ν → LinkTarget ν → List (Step ν) → Prop} :
    (∀ loc, (Walk.failed : Walk ν) = .arrived loc → P loc) ∧
      ∀ dir target rest, (Walk.failed : Walk ν) = .link dir target rest →
        Q dir target rest := by
  constructor
  · intro _ h
    cases h
  · intro _ _ _ h
    cases h

end Fs

/-- A path without its last component, and the name that is. -/
def Path.lastName (steps : List (Step OsStr)) : Option (List (Step OsStr) × OsStr) :=
  match steps.getLast? with
  | some (.name n) => some (steps.dropLast, n)
  | _ => none

structure Disk extends HostFiles where
  inode : List OsStr → Nat
  nextInode : Nat
  bytes : Nat → Bytes
  inode_lt : ∀ p, fs.node p = some .file → inode p < nextInode

namespace Disk

def content (d : Disk) (loc : List OsStr) : Bytes := d.bytes (d.inode loc)

/-- Two names of one file. -/
def SameFile (d : Disk) (p q : List OsStr) : Prop :=
  p = q ∨ d.fs.node p = some .file ∧ d.fs.node q = some .file ∧ d.inode p = d.inode q

instance (d : Disk) (p q : List OsStr) : Decidable (d.SameFile p q) :=
  inferInstanceAs (Decidable (_ ∨ _))

/-- The directory and the name that a path ends in. -/
def entry (d : Disk) (p : OsStr) : Option (List OsStr × OsStr) :=
  match Path.lastName (Path.steps p) with
  | none => none
  | some (front, n) =>
    match d.fs.resolve (d.start p) front with
    | none => none
    | some dir => if d.fs.node dir = some .dir then some (dir, n) else none

/-- What a file holds, if it is a regular one. -/
def file (d : Disk) (loc : List OsStr) : Option Bytes :=
  if d.fs.node loc = some .file then some (d.content loc) else none

/-- The map of the files when that at `loc` is replaced, under all its names. -/
def replace (d : Disk) (loc : List OsStr) (bytes : Bytes) (files : List OsStr → Option Bytes) :
    List OsStr → Option Bytes :=
  fun p => if d.SameFile loc p then some bytes else files p

/-- The file holds `bytes` now. -/
def fill (d : Disk) (loc : List OsStr) (bytes : Bytes) : Disk :=
  { d with bytes := Function.update d.bytes (d.inode loc) bytes }

/-- A new file, which has no other name. -/
def create (d : Disk) (dir : List OsStr) (n : OsStr) (hdir : d.fs.node dir = some .dir)
    (hnew : d.fs.node (dir ++ [n]) = none) (bytes : Bytes) : Disk where
  fs := d.fs.withFile dir n hdir hnew
  cwd := d.cwd
  inode := Function.update d.inode (dir ++ [n]) d.nextInode
  nextInode := d.nextInode + 1
  bytes := Function.update d.bytes d.nextInode bytes
  inode_lt p hp := by
    by_cases heq : p = dir ++ [n]
    · rw [heq, Function.update_self]
      exact Nat.lt_succ_self _
    · have hp : d.fs.node p = some .file := (if_neg heq).symm.trans hp
      rw [Function.update_of_ne heq]
      exact Nat.lt_succ_of_lt (d.inode_lt p hp)

/-- `O_WRONLY | O_CREAT | O_TRUNC | O_NOFOLLOW`, and what is written then. Nothing if the
name is taken by a directory or a link. -/
def writeAt (d : Disk) (dir : List OsStr) (n : OsStr) (bytes : Bytes) : Option Disk :=
  match hnode : d.fs.node (dir ++ [n]) with
  | some .file => some (d.fill (dir ++ [n]) bytes)
  | some _ => none
  | none =>
    if hdir : d.fs.node dir = some .dir then some (d.create dir n hdir hnode bytes) else none

variable {d d' : Disk} {dir loc : List OsStr} {n : OsStr} {bytes : Bytes}

/-- A write changes one file, which need not have been there; what is a name of which file
stays so. -/
structure Wrote (d d' : Disk) (loc : List OsStr) (bytes : Bytes) : Prop where
  cwd : d'.cwd = d.cwd
  free : d.fs.node loc = none ∨ d.fs.node loc = some .file
  node : d'.fs.node loc = some .file
  others : ∀ p, p ≠ loc → d'.fs.node p = d.fs.node p
  names : ∀ p q, d'.SameFile p q ↔ d.SameFile p q
  file : d'.file = d.replace loc bytes d.file

theorem sameFile_files {p q : List OsStr} (hp : d.fs.node p = some .file)
    (hq : d.fs.node q = some .file) : d.SameFile p q ↔ d.inode q = d.inode p := by
  constructor
  · rintro (rfl | ⟨_, _, heq⟩)
    · rfl
    · exact heq.symm
  · exact fun heq => .inr ⟨hp, hq, heq.symm⟩

theorem not_file (h : d.fs.node loc = none) : d.fs.node loc ≠ some .file := by
  rw [h]
  exact nofun

/-- What is no file is no other name of one. -/
theorem not_sameFile {p q : List OsStr} (hne : p ≠ q)
    (h : d.fs.node p ≠ some .file ∨ d.fs.node q ≠ some .file) : ¬d.SameFile p q := by
  rintro (heq | ⟨hp, hq, _⟩)
  · exact hne heq
  · exact h.elim (absurd hp) (absurd hq)

theorem content_fill (p : List OsStr) :
    (d.fill loc bytes).content p = if d.inode p = d.inode loc then bytes else d.content p :=
  Function.update_apply ..

theorem fill_wrote (hnode : d.fs.node loc = some .file) : Wrote d (d.fill loc bytes) loc bytes := by
  refine ⟨rfl, .inr hnode, hnode, fun _ _ => rfl, fun _ _ => .rfl, ?_⟩
  funext p
  rw [replace]
  by_cases hp : d.fs.node p = some .file
  · have hfill : (d.fill loc bytes).file p = some ((d.fill loc bytes).content p) := if_pos hp
    have hfile : d.file p = some (d.content p) := if_pos hp
    rw [hfill, hfile, content_fill]
    by_cases heq : d.inode p = d.inode loc
    · rw [if_pos heq, if_pos ((sameFile_files hnode hp).mpr heq)]
    · rw [if_neg heq, if_neg fun h => heq ((sameFile_files hnode hp).mp h)]
  · have hne : loc ≠ p := by
      rintro rfl
      exact hp hnode
    rw [if_neg (not_sameFile hne (.inr hp))]
    exact (if_neg hp).trans (if_neg hp).symm

section Create

variable {hdir : d.fs.node dir = some .dir} {hnew : d.fs.node (dir ++ [n]) = none}

theorem node_create {p : List OsStr} (hp : p ≠ dir ++ [n]) :
    (d.create dir n hdir hnew bytes).fs.node p = d.fs.node p := if_neg hp

theorem inode_create {p : List OsStr} (hp : p ≠ dir ++ [n]) :
    (d.create dir n hdir hnew bytes).inode p = d.inode p := Function.update_of_ne hp ..

/-- The new file has an inode of its own. -/
theorem inode_new {p : List OsStr} (hp : p ≠ dir ++ [n]) (hfile : d.fs.node p = some .file) :
    (d.create dir n hdir hnew bytes).inode p ≠
      (d.create dir n hdir hnew bytes).inode (dir ++ [n]) := by
  have hfresh : (d.create dir n hdir hnew bytes).inode (dir ++ [n]) = d.nextInode :=
    Function.update_self ..
  rw [inode_create hp, hfresh]
  exact Nat.ne_of_lt (d.inode_lt p hfile)

theorem sameFile_create (p q : List OsStr) :
    (d.create dir n hdir hnew bytes).SameFile p q ↔ d.SameFile p q := by
  by_cases heq : p = q
  · exact iff_of_true (.inl heq) (.inl heq)
  by_cases hp : p = dir ++ [n]
  · subst hp
    have hq : q ≠ dir ++ [n] := Ne.symm heq
    refine iff_of_false ?_ (not_sameFile heq (.inl (not_file hnew)))
    rintro (h | ⟨_, hfile, hsame⟩)
    · exact heq h
    · exact inode_new hq (node_create hq ▸ hfile) hsame.symm
  by_cases hq : q = dir ++ [n]
  · subst hq
    refine iff_of_false ?_ (not_sameFile heq (.inr (not_file hnew)))
    rintro (h | ⟨hfile, _, hsame⟩)
    · exact heq h
    · exact inode_new hp (node_create hp ▸ hfile) hsame
  · rw [SameFile, SameFile, node_create hp, node_create hq, inode_create hp, inode_create hq]

theorem create_wrote : Wrote d (d.create dir n hdir hnew bytes) (dir ++ [n]) bytes := by
  have hfile : (d.create dir n hdir hnew bytes).fs.node (dir ++ [n]) = some .file := if_pos rfl
  refine ⟨rfl, .inl hnew, hfile, fun p hp => node_create hp, sameFile_create, ?_⟩
  funext p
  rw [replace]
  by_cases hp : p = dir ++ [n]
  · rw [hp, if_pos (.inl rfl), file, if_pos hfile, content]
    have hinode : (d.create dir n hdir hnew bytes).inode (dir ++ [n]) = d.nextInode :=
      Function.update_self ..
    rw [hinode]
    exact congrArg some (Function.update_self ..)
  · rw [if_neg (not_sameFile (Ne.symm hp) (.inl (not_file hnew))), file, file,
      node_create hp]
    split
    · next hnode =>
        rw [content, content, inode_create hp]
        exact congrArg some (Function.update_of_ne (Nat.ne_of_lt (d.inode_lt p hnode)) ..)
    · rfl

end Create

theorem writeAt_some (h : d.writeAt dir n bytes = some d') : Wrote d d' (dir ++ [n]) bytes := by
  unfold writeAt at h
  split at h
  · next hnode =>
      cases h
      exact fill_wrote hnode
  · cases h
  · split at h
    · cases h
      exact create_wrote
    · cases h

/-- A directory takes a file under every name but those of directories and links. -/
theorem writeAt_none (hdir : d.fs.node dir = some .dir) :
    d.writeAt dir n bytes = none ↔
      d.fs.node (dir ++ [n]) ≠ none ∧ d.fs.node (dir ++ [n]) ≠ some .file := by
  unfold writeAt
  split
  · next hnode => simp [hnode]
  · next node hne hnode =>
      rw [hnode]
      exact iff_of_true rfl ⟨by simp, fun hfile => hne (Option.some.inj hfile)⟩
  · next hnode => simp [hdir, hnode]

theorem Wrote.keeps (h : Wrote d d' loc bytes) : d.fs.Keeps d'.fs := by
  intro p node hnode
  by_cases hp : p = loc
  · subst hp
    rcases h.free with hfree | hfree
    · rw [hfree] at hnode
      cases hnode
    · rw [hfree] at hnode
      rw [h.node, hnode]
  · rw [h.others p hp, hnode]

/-! ## What stays -/

/-- `d'` has the directories, the links and the hard links of `d`, and no others. -/
structure SameTree (d d' : Disk) : Prop where
  cwd : d'.cwd = d.cwd
  keeps : d.fs.Keeps d'.fs
  only : ∀ p node, d'.fs.node p = some node → node ≠ .file → d.fs.node p = some node
  names : ∀ p q, d'.SameFile p q ↔ d.SameFile p q

theorem SameTree.refl (d : Disk) : SameTree d d := ⟨rfl, .refl _, fun _ _ h _ => h, fun _ _ => .rfl⟩

theorem SameTree.trans {d'' : Disk} (h : SameTree d d') (h' : SameTree d' d'') :
    SameTree d d'' :=
  ⟨h'.cwd.trans h.cwd, h.keeps.trans h'.keeps,
    fun p node hnode hne => h.only p node (h'.only p node hnode hne) hne,
    fun p q => (h'.names p q).trans (h.names p q)⟩

theorem SameTree.replace (h : SameTree d d') : d'.replace loc bytes = d.replace loc bytes := by
  funext files p
  rw [Disk.replace, Disk.replace, if_congr (h.names loc p) rfl rfl]

theorem Wrote.sameTree (h : Wrote d d' loc bytes) : SameTree d d' := by
  refine ⟨h.cwd, h.keeps, fun p node hnode hne => ?_, h.names⟩
  by_cases hp : p = loc
  · subst hp
    rw [h.node, Option.some.injEq] at hnode
    exact absurd hnode.symm hne
  · rw [← h.others p hp, hnode]

/-- Nothing is found behind a file. -/
theorem walk_file {fs : Fs OsStr} {cur : List OsStr} {steps : List (Step OsStr)}
    (hfile : fs.node cur = some .file) :
    (∀ loc, fs.walk false cur steps = .arrived loc → loc = cur) ∧
      ∀ dir target rest, fs.walk false cur steps ≠ .link dir target rest := by
  cases steps with
  | nil =>
      refine ⟨fun loc h => ?_, fun _ _ _ h => ?_⟩
      · cases h
        rfl
      · cases h
  | cons step rest =>
      have henter : fs.enterable false cur = false := by
        rw [Fs.enterable, hfile]
      simp only [Fs.walk, henter]
      exact Fs.failed_elim

theorem SameTree.walk (h : SameTree d d') {cur : List OsStr} {steps : List (Step OsStr)} :
    (∀ loc, d'.fs.walk false cur steps = .arrived loc → d'.fs.node loc = some .dir →
      d.fs.walk false cur steps = .arrived loc) ∧
    ∀ dir target rest, d'.fs.walk false cur steps = .link dir target rest →
      d.fs.walk false cur steps = .link dir target rest := by
  induction steps generalizing cur with
  | nil => exact ⟨fun _ hwalk _ => hwalk, fun _ _ _ hlink => hlink⟩
  | cons step rest ih =>
      by_cases henter : d'.fs.enterable false cur = true
      · have hdir : d'.fs.node cur = some .dir := by
          unfold Fs.enterable at henter
          split at henter
          · assumption
          · cases henter
          · cases henter
        have henter' : d.fs.enterable false cur = true := by
          rw [Fs.enterable, h.only cur .dir hdir (by simp)]
        simp only [Fs.walk, henter, henter', if_true]
        cases step with
        | here => exact ih
        | up => exact ih
        | name n =>
            dsimp only
            cases hnode : d'.fs.node (cur ++ [n]) with
            | none => exact Fs.failed_elim
            | some node =>
                cases node with
                | dir =>
                    rw [h.only _ .dir hnode (by simp)]
                    exact ih
                | link target =>
                    rw [h.only _ (.link target) hnode (by simp)]
                    exact ⟨fun _ hwalk _ => hwalk, fun _ _ _ hlink => hlink⟩
                | file =>
                    refine ⟨fun loc hwalk hloc => ?_, fun dir target rest' hwalk => ?_⟩
                    · rw [(walk_file hnode).1 loc hwalk, hnode] at hloc
                      cases hloc
                    · exact absurd hwalk ((walk_file hnode).2 dir target rest')
      · simp only [Fs.walk, henter]
        exact Fs.failed_elim

theorem SameTree.follow (h : SameTree d d') {links : Nat} {cur : List OsStr}
    {steps : List (Step OsStr)} (hfound : d'.fs.follow false links cur steps = some loc)
    (hloc : d'.fs.node loc = some .dir) : d.fs.follow false links cur steps = some loc := by
  induction links generalizing cur steps with
  | zero =>
      rw [Fs.follow] at hfound ⊢
      split at hfound
      · next mid hwalk =>
          cases hfound
          rw [h.walk.1 _ hwalk hloc]
      · cases hfound
  | succ links ih =>
      rw [Fs.follow] at hfound ⊢
      split at hfound
      · next mid hwalk =>
          cases hfound
          rw [h.walk.1 _ hwalk hloc]
      · next dir target rest hwalk =>
          rw [h.walk.2 dir target rest hwalk]
          exact ih hfound
      · cases hfound

/-- The directory and the name are the same before and after. -/
theorem SameTree.entry (h : SameTree d d') (p : OsStr) : d'.entry p = d.entry p := by
  have hstart : d'.start p = d.start p := by
    rw [HostFiles.start, HostFiles.start, h.cwd]
  unfold Disk.entry
  split
  · rfl
  · next front n _ =>
      rw [hstart]
      cases hfound : d.fs.resolve (d.start p) front with
      | some dir =>
          have hfound' : d'.fs.resolve (d.start p) front = some dir := h.keeps.follow_found hfound
          rw [hfound']
          dsimp only
          by_cases hdir : d.fs.node dir = some .dir
          · rw [if_pos hdir, if_pos (h.keeps _ _ hdir)]
          · rw [if_neg hdir, if_neg fun hdir' => hdir (h.only _ _ hdir' (by simp))]
      | none =>
          cases hfound' : d'.fs.resolve (d.start p) front with
          | none => rfl
          | some dir =>
              dsimp only
              refine if_neg fun hdir => ?_
              have hback : d.fs.resolve (d.start p) front = some dir := h.follow hfound' hdir
              rw [hfound] at hback
              cases hback

end Disk

/-! ## Canonical paths -/

namespace Path

variable {loc : List OsStr} {n : OsStr}

theorem step_name (hn : IsName n) : step n = .name n := by
  obtain ⟨hne, hdot, hdotDot, _⟩ := hn
  rw [step, if_neg (not_or.mpr ⟨hne, hdot⟩), if_neg hdotDot]

/-- An entry of a directory, as the path of the directory spells it. -/
theorem join_ofLocation (hloc : ∀ name ∈ loc, IsName name) (hn : IsName n) :
    join (ofLocation loc) n = ofLocation (loc ++ [n]) := by
  rw [join, isAbsolute_eq_false hn.2.2.2, if_neg Bool.false_ne_true]
  by_cases hnil : loc = []
  · subst hnil
    rw [List.nil_append, ofLocation, ofLocation, List.intercalate_nil, List.intercalate_singleton,
      if_pos (.inr rfl)]
    rfl
  · have hlast : (ofLocation loc).getLast? ≠ some slash := by
      obtain ⟨front, last, rfl⟩ : ∃ front last, loc = front ++ [last] :=
        ⟨_, _, (List.dropLast_append_getLast hnil).symm⟩
      have hname : IsName last := hloc last (List.mem_append_right _ (List.mem_singleton_self _))
      have hend : ofLocation (front ++ [last]) = slash :: ([slash].intercalate front ++
          (if front = [] then [] else [slash]) ++ last) := by
        by_cases hfront : front = []
        · subst hfront
          rw [List.nil_append, ofLocation, List.intercalate_nil, List.intercalate_singleton,
            if_pos rfl]
          rfl
        · rw [ofLocation, intercalate_append hfront (List.cons_ne_nil _ _), if_neg hfront,
            List.intercalate_singleton]
      rw [hend, ← List.cons_append, List.getLast?_append_of_ne_nil _ hname.1]
      intro hslash
      exact hname.2.2.2 (List.mem_of_getLast? hslash)
    have hne : ofLocation loc ≠ [] := List.cons_ne_nil _ _
    rw [if_neg (not_or.mpr ⟨hne, hlast⟩), ofLocation, ofLocation,
      intercalate_append hnil (List.cons_ne_nil _ _), List.intercalate_singleton]
    rfl

/-- The string of a root and names. -/
theorem render_normal (names : List OsStr) :
    render (.rootDir :: names.map .normal) = ofLocation names := by
  simp [render, ofLocation, List.filterMap_map]

theorem steps_ofLocation (hne : loc ≠ []) (hloc : ∀ name ∈ loc, IsName name) :
    steps (ofLocation loc) = .here :: loc.map .name := by
  rw [steps, ofLocation, splitOn_rooted (fun name hname => (hloc name hname).2.2.2) hne,
    List.map_cons]
  congr 1
  exact List.map_congr_left fun name hname => step_name (hloc name hname)

/-- A path that is spelled like this stands for one location. -/
theorem ofLocation_inj {loc' : List OsStr} (hloc : ∀ name ∈ loc, IsName name)
    (hloc' : ∀ name ∈ loc', IsName name) (h : ofLocation loc = ofLocation loc') : loc = loc' := by
  have hroot : steps (ofLocation []) = [.here, .here] := rfl
  have hnames : ∀ {a b : List OsStr}, a.map Step.name = b.map .name → a = b :=
    fun h => List.map_injective_iff.mpr (fun _ _ heq => Step.name.inj heq) h
  have hsteps := congrArg steps h
  by_cases hnil : loc = []
  · by_cases hnil' : loc' = []
    · rw [hnil, hnil']
    · subst hnil
      rw [hroot, steps_ofLocation hnil' hloc'] at hsteps
      cases loc' with
      | nil => exact absurd rfl hnil'
      | cons n rest => cases hsteps
  · by_cases hnil' : loc' = []
    · subst hnil'
      rw [hroot, steps_ofLocation hnil hloc] at hsteps
      cases loc with
      | nil => exact absurd rfl hnil
      | cons n rest => cases hsteps
    · rw [steps_ofLocation hnil hloc, steps_ofLocation hnil' hloc'] at hsteps
      exact hnames (List.cons.inj hsteps).2

end Path

namespace Fs

variable {ν : Type} {fs : Fs ν}

/-- What leads to something that is there leads through directories. -/
theorem node_prefix (front : List ν) (n : ν) (rest : List ν)
    (h : (fs.node (front ++ n :: rest)).isSome) : fs.node front = some .dir := by
  induction rest using List.reverseRecOn with
  | nil => exact fs.parent_dir front n h
  | append_singleton rest m ih =>
      refine ih ?_
      rw [← List.cons_append, ← List.append_assoc] at h
      rw [fs.parent_dir _ m h]
      rfl

/-- Names that lead to something lead there. -/
theorem walk_names (cur rest : List ν) {node : Node ν} (hnode : fs.node (cur ++ rest) = some node)
    (hlink : ∀ target, node ≠ .link target) :
    fs.walk false cur (rest.map .name) = .arrived (cur ++ rest) := by
  induction rest generalizing cur with
  | nil =>
      rw [List.append_nil]
      rfl
  | cons n rest ih =>
      have hsome : (fs.node (cur ++ n :: rest)).isSome := by
        rw [hnode]
        rfl
      have henter : fs.enterable false cur = true := by
        rw [enterable, node_prefix cur n rest hsome]
      have hnext := ih (cur ++ [n])
      rw [List.append_assoc, List.singleton_append] at hnext
      replace hnext := hnext hnode
      simp only [List.map_cons, walk, henter, if_true]
      cases hentry : fs.node (cur ++ [n]) with
      | none =>
          cases rest with
          | nil =>
              rw [hnode] at hentry
              cases hentry
          | cons m rest =>
              have hdir : fs.node (cur ++ [n]) = some .dir := by
                refine node_prefix _ m rest ?_
                rwa [List.append_assoc, List.singleton_append]
              rw [hentry] at hdir
              cases hdir
      | some entry =>
          cases entry with
          | dir => exact hnext
          | file => exact hnext
          | link target =>
              cases rest with
              | nil =>
                  rw [hnode, Option.some.injEq] at hentry
                  exact absurd hentry (hlink target)
              | cons m rest =>
                  have hdir : fs.node (cur ++ [n]) = some .dir := by
                    refine node_prefix _ m rest ?_
                    rwa [List.append_assoc, List.singleton_append]
                  rw [hentry] at hdir
                  cases hdir

theorem follow_arrived {links : Nat} {cur loc : List ν} {steps : List (Step ν)}
    (h : fs.walk false cur steps = .arrived loc) : fs.follow false links cur steps = some loc := by
  cases links with
  | zero => rw [follow, h]
  | succ links => rw [follow, h]

/-- A path does not end at a link. -/
def NotLink (fs : Fs ν) (loc : List ν) : Prop := ∀ target, fs.node loc ≠ some (.link target)

theorem notLink_of_node {loc : List ν} {node : Node ν} (h : fs.node loc = some node)
    (hne : ∀ target, node ≠ .link target) : fs.NotLink loc := by
  intro target hlink
  exact hne target (Option.some.inj (h.symm.trans hlink))

theorem notLink_dropLast {cur : List ν} (hcur : fs.NotLink cur)
    (henter : fs.enterable false cur = true) : fs.NotLink cur.dropLast := by
  intro target hlink
  rcases List.eq_nil_or_concat cur with rfl | ⟨front, n, rfl⟩
  · exact hcur target hlink
  · rw [List.concat_eq_append] at henter hlink
    rw [List.dropLast_concat] at hlink
    have hsome : (fs.node (front ++ [n])).isSome := by
      unfold enterable at henter
      split at henter
      · next hdir => rw [hdir]; rfl
      · cases henter
      · cases henter
    rw [fs.parent_dir front n hsome] at hlink
    cases hlink

theorem notLink_of_walk {cur : List ν} {steps : List (Step ν)} (hcur : fs.NotLink cur) :
    (∀ loc, fs.walk false cur steps = .arrived loc → fs.NotLink loc) ∧
      ∀ dir target rest, fs.walk false cur steps = .link dir target rest → fs.NotLink dir := by
  induction steps generalizing cur with
  | nil =>
      refine ⟨fun loc h => ?_, fun _ _ _ h => ?_⟩
      · cases h
        exact hcur
      · cases h
  | cons step rest ih =>
      by_cases henter : fs.enterable false cur = true
      · simp only [walk, henter, if_true]
        cases step with
        | here => exact ih hcur
        | up => exact ih (notLink_dropLast hcur henter)
        | name n =>
            dsimp only
            cases hentry : fs.node (cur ++ [n]) with
            | none => exact failed_elim
            | some entry =>
                cases entry with
                | link target =>
                    refine ⟨fun _ h => ?_, fun dir target rest h => ?_⟩
                    · cases h
                    · cases h
                      exact hcur
                | dir => exact ih (notLink_of_node hentry (by simp))
                | file => exact ih (notLink_of_node hentry (by simp))
      · simp only [walk, henter]
        exact failed_elim

theorem notLink_of_follow {links : Nat} {cur loc : List ν} {steps : List (Step ν)}
    (hcur : fs.NotLink cur) (h : fs.follow false links cur steps = some loc) : fs.NotLink loc := by
  induction links generalizing cur steps with
  | zero =>
      rw [follow] at h
      split at h
      · next hwalk =>
          cases h
          exact (notLink_of_walk hcur).1 _ hwalk
      · cases h
  | succ links ih =>
      rw [follow] at h
      split at h
      · next hwalk =>
          cases h
          exact (notLink_of_walk hcur).1 _ hwalk
      · next dir target rest hwalk =>
          refine ih ?_ h
          split
          · exact notLink_of_node fs.root_dir (by simp)
          · exact (notLink_of_walk hcur).2 _ _ _ hwalk
      · cases h

/-- What a directory has under a name, unless it is a link, is what the name leads to. -/
theorem follow_name {links : Nat} {cur dir : List ν} {steps : List (Step ν)} {n : ν}
    (h : fs.follow false links cur steps = some dir) (hsome : (fs.node (dir ++ [n])).isSome)
    (hlink : fs.NotLink (dir ++ [n])) :
    fs.follow false links cur (steps ++ [Step.name n]) = some (dir ++ [n]) := by
  have hname : fs.walk false dir [.name n] = .arrived (dir ++ [n]) := by
    obtain ⟨node, hnode⟩ := Option.isSome_iff_exists.mp hsome
    exact walk_names dir [n] hnode fun target heq => hlink target (heq ▸ hnode)
  induction links generalizing cur steps with
  | zero =>
      rw [follow] at h
      rw [follow, walk_append]
      cases hwalk : fs.walk false cur steps with
      | arrived mid =>
          rw [hwalk] at h
          cases h
          dsimp only
          rw [hname]
      | link mid target rest =>
          rw [hwalk] at h
          cases h
      | failed =>
          rw [hwalk] at h
          cases h
  | succ links ih =>
      rw [follow] at h
      rw [follow, walk_append]
      cases hwalk : fs.walk false cur steps with
      | arrived mid =>
          rw [hwalk] at h
          cases h
          dsimp only
          rw [hname]
      | link mid target rest =>
          rw [hwalk] at h
          dsimp only at h ⊢
          rw [← List.append_assoc]
          exact ih h
      | failed =>
          rw [hwalk] at h
          cases h

end Fs

namespace Disk

variable {d : Disk} {loc : List OsStr} {n : OsStr}

/-- Opening a name in a directory that is where its path says. -/
theorem entry_join (hloc : ∀ name ∈ loc, Path.IsName name) (hn : Path.IsName n)
    (hsome : (d.fs.node loc).isSome) (hlink : d.fs.NotLink loc) :
    d.entry (Path.join (Path.ofLocation loc) n) =
      if d.fs.node loc = some .dir then some (loc, n) else none := by
  have hnames : ∀ name ∈ loc ++ [n], Path.IsName name := by
    intro name hname
    rcases List.mem_append.mp hname with hname | hname
    · exact hloc name hname
    · exact List.mem_singleton.mp hname ▸ hn
  have hlast : Path.lastName (Path.steps (Path.join (Path.ofLocation loc) n)) =
      some (.here :: loc.map .name, n) := by
    rw [Path.join_ofLocation hloc hn, Path.steps_ofLocation (by simp) hnames, List.map_append,
      List.map_singleton, ← List.cons_append, Path.lastName, List.getLast?_concat,
      List.dropLast_concat]
  have hstart : d.start (Path.join (Path.ofLocation loc) n) = [] := by
    rw [Path.join_ofLocation hloc hn]
    rfl
  have hroot : d.fs.enterable false [] = true := by
    rw [Fs.enterable, d.fs.root_dir]
  have hresolve : d.fs.resolve [] (.here :: loc.map .name) = some loc := by
    obtain ⟨node, hnode⟩ := Option.isSome_iff_exists.mp hsome
    refine Fs.follow_arrived ?_
    rw [Fs.walk, hroot, if_pos rfl]
    exact Fs.walk_names [] loc hnode fun target heq => hlink target (heq ▸ hnode)
  rw [entry, hlast, hstart]
  dsimp only
  rw [hresolve]

end Disk

end ShellfleetAgent.Lib
