import Mathlib.Data.List.Basic

/-!
# File trees with symbolic links

A file tree over names `ν`: what is at each location, where a location is the
list of names that leads to it from the root. Looking a path up is the kernel's
walk: names are followed one by one, `..` is applied to wherever the walk has
got to, and a link restarts it at the link's target with the rest of the path
still to come. The walk either insists that everything exists (`Fs.resolve`) or
takes a missing name for one that is about to be created (`Fs.locate`).

The two agree where the first succeeds (`locate_of_resolve`), and both are the
lexical reading of the path where the walk meets no link (`walk_plain`).
-/

namespace ShellfleetAgent.Lib

variable {ν : Type}

/-- One step of a path; `here` is `.`, or the slash at the end. -/
inductive Step (ν : Type)
  | name (n : ν)
  | up
  | here
  deriving DecidableEq

structure LinkTarget (ν : Type) where
  absolute : Bool
  steps : List (Step ν)
  deriving DecidableEq

inductive Node (ν : Type)
  | dir
  | file
  | link (target : LinkTarget ν)
  deriving DecidableEq

/-- A tree: the root is a directory, and so is whatever has an entry. -/
structure Fs (ν : Type) where
  node : List ν → Option (Node ν)
  root_dir : node [] = some .dir
  parent_dir : ∀ p n, (node (p ++ [n])).isSome → node p = some .dir

namespace Fs

/-- A tree given by its entries. -/
def ofEntries [DecidableEq ν] (entries : List (List ν × Node ν))
    (h : ∀ e ∈ entries, e.1 ≠ [] ∧
      (e.1.dropLast = [] ∨ entries.lookup e.1.dropLast = some .dir)) : Fs ν where
  node p := if p = [] then some .dir else entries.lookup p
  root_dir := if_pos rfl
  parent_dir p n hn := by
    have hne : p ++ [n] ≠ [] := by simp
    rw [if_neg hne] at hn
    obtain ⟨v, hv⟩ := Option.isSome_iff_exists.mp hn
    have hmem : (p ++ [n], v) ∈ entries := by
      rw [List.lookup_eq_some_iff] at hv
      obtain ⟨l₁, l₂, rfl, _⟩ := hv
      simp
    have hdir := (h _ hmem).2
    rw [List.dropLast_concat] at hdir
    by_cases hp : p = []
    · exact if_pos hp
    · rw [if_neg hp]
      exact hdir.resolve_left hp

theorem ofEntries_isSome [DecidableEq ν] {entries : List (List ν × Node ν)}
    (h : ∀ e ∈ entries, e.1 ≠ [] ∧
      (e.1.dropLast = [] ∨ entries.lookup e.1.dropLast = some .dir)) {p : List ν} (hp : p ≠ []) :
    ((ofEntries entries h).node p).isSome ↔ p ∈ entries.map Prod.fst := by
  rw [show (ofEntries entries h).node p = entries.lookup p from if_neg hp,
    List.lookup_isSome_iff, List.mem_map]
  constructor
  · intro ⟨e, he, hpath⟩
    exact ⟨e, he, (beq_iff_eq.mp hpath).symm⟩
  · intro ⟨e, he, hpath⟩
    exact ⟨e, he, beq_iff_eq.mpr hpath.symm⟩

/-- Where a walk stands when it can go no further by itself. -/
inductive Walk (ν : Type)
  | arrived (loc : List ν)
  | link (dir : List ν) (target : LinkTarget ν) (rest : List (Step ν))
  | failed

variable (fs : Fs ν)

/-- Whether a walk may go on from here as from a directory. -/
def enterable (create : Bool) (cur : List ν) : Bool :=
  match fs.node cur with
  | some .dir => true
  | some _ => false
  | none => create

/-- Walk until the path ends or a link comes up. -/
def walk (create : Bool) (cur : List ν) : List (Step ν) → Walk ν
  | [] => .arrived cur
  | step :: rest =>
      if fs.enterable create cur then
        match step with
        | .here => walk create cur rest
        | .up => walk create cur.dropLast rest
        | .name n =>
          match fs.node (cur ++ [n]) with
          | some (.link target) => .link cur target rest
          | some _ => walk create (cur ++ [n]) rest
          | none => if create then walk create (cur ++ [n]) rest else .failed
      else .failed

/-- The whole walk, over at most `links` links. -/
def follow (create : Bool) : Nat → List ν → List (Step ν) → Option (List ν)
  | 0, cur, steps =>
      match fs.walk create cur steps with
      | .arrived loc => some loc
      | _ => none
  | links + 1, cur, steps =>
      match fs.walk create cur steps with
      | .arrived loc => some loc
      | .link dir target rest =>
          follow create links (if target.absolute then [] else dir) (target.steps ++ rest)
      | .failed => none

/-- `MAXSYMLINKS`. -/
def maxSymlinks : Nat := 40

/-- Where the path leads, if all of it exists. -/
def resolve (cur : List ν) (steps : List (Step ν)) : Option (List ν) :=
  fs.follow false maxSymlinks cur steps

/-- Where the path leads, or would once it is created. -/
def locate (cur : List ν) (steps : List (Step ν)) : Option (List ν) :=
  fs.follow true maxSymlinks cur steps

/-! ## Existing paths -/

variable {fs}

theorem enterable_create {cur : List ν} (h : fs.enterable false cur = true) :
    fs.enterable true cur = true := by
  unfold enterable at h ⊢
  split <;> simp_all

/-- A walk that finds everything there goes the same way when it may create. -/
theorem walk_create {cur : List ν} {steps : List (Step ν)}
    (h : fs.walk false cur steps ≠ .failed) :
    fs.walk true cur steps = fs.walk false cur steps := by
  induction steps generalizing cur with
  | nil => rfl
  | cons step rest ih =>
      simp only [walk] at h ⊢
      by_cases henter : fs.enterable false cur = true
      · rw [if_pos henter] at h ⊢
        rw [if_pos (enterable_create henter)]
        cases step with
        | here => exact ih h
        | up => exact ih h
        | name n =>
            dsimp only at h ⊢
            cases hnode : fs.node (cur ++ [n]) with
            | none =>
                rw [hnode] at h
                exact absurd rfl h
            | some node =>
                rw [hnode] at h
                cases node with
                | link target => rfl
                | dir => exact ih h
                | file => exact ih h
      · rw [if_neg henter] at h
        exact absurd rfl h

theorem follow_create {links : Nat} {cur : List ν} {steps : List (Step ν)} {loc : List ν}
    (h : fs.follow false links cur steps = some loc) :
    fs.follow true links cur steps = some loc := by
  induction links generalizing cur steps with
  | zero =>
      simp only [follow] at h ⊢
      split at h
      · next hwalk =>
          rw [walk_create (by rw [hwalk]; nofun), hwalk]
          exact h
      · cases h
  | succ links ih =>
      simp only [follow] at h ⊢
      split at h
      · next hwalk =>
          rw [walk_create (by rw [hwalk]; nofun), hwalk]
          exact h
      · next hwalk =>
          rw [walk_create (by rw [hwalk]; nofun), hwalk]
          exact ih h
      · cases h

theorem locate_of_resolve {cur : List ν} {steps : List (Step ν)} {loc : List ν}
    (h : fs.resolve cur steps = some loc) : fs.locate cur steps = some loc :=
  follow_create h

/-! ## What is found is there -/

theorem isSome_dropLast {cur : List ν} (h : (fs.node cur).isSome) :
    (fs.node cur.dropLast).isSome := by
  cases List.eq_nil_or_concat cur with
  | inl hnil =>
      subst hnil
      exact h
  | inr hconcat =>
      obtain ⟨p, n, rfl⟩ := hconcat
      rw [List.concat_eq_append] at h ⊢
      rw [List.dropLast_concat, fs.parent_dir p n h]
      rfl

/-- What is there has everything above it. -/
theorem isSome_of_prefix {p loc : List ν} (h : (fs.node loc).isSome) (hp : p <+: loc) :
    (fs.node p).isSome := by
  obtain ⟨rest, rfl⟩ := hp
  induction rest generalizing p with
  | nil =>
      rw [List.append_nil] at h
      exact h
  | cons n rest ih =>
      have hnext : (fs.node (p ++ [n])).isSome := by
        refine ih ?_
        rw [List.append_assoc]
        exact h
      rw [fs.parent_dir p n hnext]
      rfl

theorem isSome_of_walk {cur : List ν} {steps : List (Step ν)} (h : (fs.node cur).isSome) :
    (∀ loc, fs.walk false cur steps = .arrived loc → (fs.node loc).isSome) ∧
      ∀ dir target rest, fs.walk false cur steps = .link dir target rest →
        (fs.node dir).isSome := by
  induction steps generalizing cur with
  | nil =>
      refine ⟨?_, nofun⟩
      intro loc hloc
      cases hloc
      exact h
  | cons step rest ih =>
      simp only [walk]
      split
      · cases step with
        | here => exact ih h
        | up => exact ih (isSome_dropLast h)
        | name n =>
            dsimp only
            split
            · refine ⟨nofun, ?_⟩
              intro dir target rest hlink
              cases hlink
              exact h
            · next hnode => exact ih (by rw [hnode]; rfl)
            · exact ⟨nofun, nofun⟩
      · exact ⟨nofun, nofun⟩

theorem isSome_of_follow {links : Nat} {cur loc : List ν} {steps : List (Step ν)}
    (h : (fs.node cur).isSome) (hloc : fs.follow false links cur steps = some loc) :
    (fs.node loc).isSome := by
  induction links generalizing cur steps with
  | zero =>
      rw [follow] at hloc
      split at hloc
      · next harrived =>
          cases hloc
          exact (isSome_of_walk h).1 _ harrived
      · cases hloc
  | succ links ih =>
      rw [follow] at hloc
      split at hloc
      · next harrived =>
          cases hloc
          exact (isSome_of_walk h).1 _ harrived
      · next dir target rest hlink =>
          refine ih ?_ hloc
          split
          · rw [fs.root_dir]
            rfl
          · exact (isSome_of_walk h).2 _ _ _ hlink
      · cases hloc

/-! ## Paths without links -/

/-- The path as it is spelled. -/
def lexical (cur : List ν) : List (Step ν) → List ν
  | [] => cur
  | .here :: rest => lexical cur rest
  | .up :: rest => lexical cur.dropLast rest
  | .name n :: rest => lexical (cur ++ [n]) rest

theorem walk_plain {create : Bool} {cur : List ν} {steps : List (Step ν)} {loc : List ν}
    (h : fs.walk create cur steps = .arrived loc) : loc = lexical cur steps := by
  induction steps generalizing cur with
  | nil =>
      rw [walk] at h
      cases h
      rfl
  | cons step rest ih =>
      simp only [walk] at h
      split at h
      · cases step with
        | here => exact ih h
        | up => exact ih h
        | name n =>
            dsimp only at h
            split at h
            · cases h
            · exact ih h
            · split at h
              · exact ih h
              · cases h
      · cases h

/-! ## Dots -/

/-- The same steps, without some of those that stay where they are. -/
inductive Skips : List (Step ν) → List (Step ν) → Prop
  | nil : Skips [] []
  | here {steps steps' : List (Step ν)} (h : Skips steps steps') : Skips (.here :: steps) steps'
  | keep (step : Step ν) {steps steps' : List (Step ν)} (h : Skips steps steps') :
    Skips (step :: steps) (step :: steps')

theorem Skips.refl (steps : List (Step ν)) : Skips steps steps := by
  induction steps with
  | nil => exact .nil
  | cons step rest ih => exact .keep step ih

theorem Skips.append {front steps steps' : List (Step ν)} (h : Skips steps steps') :
    Skips (front ++ steps) (front ++ steps') := by
  induction front with
  | nil => exact h
  | cons step rest ih => exact .keep step ih

theorem Skips.filter [DecidableEq ν] (steps : List (Step ν)) :
    Skips steps (steps.filter (· ≠ .here)) := by
  induction steps with
  | nil => exact .nil
  | cons step rest ih =>
      cases step with
      | here => exact .here ih
      | up => exact .keep _ ih
      | name n => exact .keep _ ih

/-- Without its dots a walk asks for less, and ends where it did. -/
theorem Skips.walk {create : Bool} {cur : List ν} {steps steps' : List (Step ν)}
    (h : Skips steps steps') :
    (∀ loc, fs.walk create cur steps = .arrived loc → fs.walk create cur steps' = .arrived loc) ∧
      ∀ dir target rest, fs.walk create cur steps = .link dir target rest →
        ∃ rest', Skips rest rest' ∧ fs.walk create cur steps' = .link dir target rest' := by
  induction h generalizing cur with
  | nil => exact ⟨fun _ h => h, nofun⟩
  | here _ ih =>
      simp only [Fs.walk]
      split
      · exact ih
      · exact ⟨nofun, nofun⟩
  | keep step hrest ih =>
      simp only [Fs.walk]
      split
      · cases step with
        | here => exact ih
        | up => exact ih
        | name n =>
            dsimp only
            split
            · refine ⟨nofun, fun dir target rest hlink => ?_⟩
              cases hlink
              exact ⟨_, hrest, rfl⟩
            · exact ih
            · split
              · exact ih
              · exact ⟨nofun, nofun⟩
      · exact ⟨nofun, nofun⟩

theorem Skips.follow {create : Bool} {links : Nat} {cur loc : List ν}
    {steps steps' : List (Step ν)} (h : Skips steps steps')
    (hloc : fs.follow create links cur steps = some loc) :
    fs.follow create links cur steps' = some loc := by
  induction links generalizing cur steps steps' with
  | zero =>
      rw [Fs.follow] at hloc ⊢
      split at hloc
      · next harrived =>
          rw [h.walk.1 _ harrived]
          exact hloc
      · cases hloc
  | succ links ih =>
      rw [Fs.follow] at hloc ⊢
      split at hloc
      · next harrived =>
          rw [h.walk.1 _ harrived]
          exact hloc
      · next dir target rest hlink =>
          obtain ⟨rest', hrest, hlink'⟩ := h.walk.2 _ _ _ hlink
          rw [hlink']
          exact ih hrest.append hloc
      · cases hloc

/-! ## Paths in two parts -/

theorem walk_append (create : Bool) (cur : List ν) (steps rest : List (Step ν)) :
    fs.walk create cur (steps ++ rest) =
      match fs.walk create cur steps with
      | .arrived loc => fs.walk create loc rest
      | .link dir target left => .link dir target (left ++ rest)
      | .failed => .failed := by
  induction steps generalizing cur with
  | nil => rfl
  | cons step steps ih =>
      simp only [List.cons_append, walk]
      by_cases henter : fs.enterable create cur = true
      · rw [if_pos henter, if_pos henter]
        cases step with
        | here => exact ih cur
        | up => exact ih cur.dropLast
        | name n =>
            dsimp only
            cases hnode : fs.node (cur ++ [n]) with
            | none =>
                cases create with
                | true => exact ih (cur ++ [n])
                | false => rfl
            | some node =>
                cases node with
                | link target => rfl
                | dir => exact ih (cur ++ [n])
                | file => exact ih (cur ++ [n])
      · rw [if_neg henter, if_neg henter]

/-- Behind a part that is there, the walk goes on from where that part leads. -/
theorem follow_from {links : Nat} {cur dir : List ν} {front : List (Step ν)}
    (h : fs.follow false links cur front = some dir) : ∃ links', ∀ rest,
      fs.follow true links cur (front ++ rest) = fs.follow true links' dir rest := by
  induction links generalizing cur front with
  | zero =>
      rw [follow] at h
      split at h
      · next harrived =>
          cases h
          refine ⟨0, fun rest => ?_⟩
          rw [follow, follow, walk_append, walk_create (by rw [harrived]; nofun), harrived]
      · cases h
  | succ links ih =>
      rw [follow] at h
      split at h
      · next harrived =>
          cases h
          refine ⟨links + 1, fun rest => ?_⟩
          rw [follow, follow, walk_append, walk_create (by rw [harrived]; nofun), harrived]
      · next hlink =>
          obtain ⟨links', hrest⟩ := ih h
          refine ⟨links', fun rest => ?_⟩
          rw [follow, walk_append, walk_create (by rw [hlink]; nofun), hlink]
          dsimp only
          rw [← List.append_assoc]
          exact hrest rest
      · cases h

/-- Below what is not there, a walk along names goes where they say. -/
theorem walk_new {cur : List ν} {names : List ν} (h : fs.node cur = none) :
    fs.walk true cur (names.map .name) = .arrived (cur ++ names) := by
  induction names generalizing cur with
  | nil => rw [List.append_nil]; rfl
  | cons n names ih =>
      have hnext : fs.node (cur ++ [n]) = none := by
        rw [← Option.not_isSome_iff_eq_none]
        intro hsome
        rw [fs.parent_dir cur n hsome] at h
        cases h
      have henter : fs.enterable true cur = true := by
        rw [enterable, h]
      rw [List.map_cons, walk, if_pos henter, hnext]
      dsimp only
      rw [if_pos rfl, ih hnext, List.append_assoc]
      rfl

/-- So does a whole path whose names are new from some place on, if it goes anywhere. -/
theorem follow_new {links : Nat} {cur dir loc : List ν} {front : List (Step ν)} {n : ν}
    {names : List ν} (hfront : fs.follow false links cur front = some dir)
    (hnew : fs.node (dir ++ [n]) = none)
    (hloc : fs.follow true links cur (front ++ (n :: names).map .name) = some loc) :
    loc = dir ++ n :: names := by
  obtain ⟨links', hrest⟩ := follow_from hfront
  have hwalk : fs.walk true dir ((n :: names).map .name) = .arrived (dir ++ n :: names) ∨
      fs.walk true dir ((n :: names).map .name) = .failed := by
    rw [List.map_cons, walk]
    split
    · rw [hnew]
      dsimp only
      rw [if_pos rfl, walk_new hnew, List.append_assoc]
      exact .inl rfl
    · exact .inr rfl
  rw [hrest] at hloc
  rcases hwalk with harrived | hfailed
  · cases links' with
    | zero =>
        rw [follow, harrived] at hloc
        exact (Option.some.inj hloc).symm
    | succ links =>
        rw [follow, harrived] at hloc
        exact (Option.some.inj hloc).symm
  · cases links' with
    | zero =>
        rw [follow, hfailed] at hloc
        cases hloc
    | succ links =>
        rw [follow, hfailed] at hloc
        cases hloc

/-- A path that leads somewhere leads there by way of its first part. -/
theorem follow_append {links : Nat} {cur loc : List ν} {steps rest : List (Step ν)}
    (h : fs.follow false links cur (steps ++ rest) = some loc) :
    ∃ mid links', fs.follow false links cur steps = some mid ∧
      fs.follow false links' mid rest = some loc := by
  induction links generalizing cur steps with
  | zero =>
      rw [follow, walk_append] at h
      rw [follow]
      cases hwalk : fs.walk false cur steps with
      | arrived mid =>
          rw [hwalk] at h
          refine ⟨mid, 0, rfl, ?_⟩
          rw [follow]
          exact h
      | link dir target left =>
          rw [hwalk] at h
          cases h
      | failed =>
          rw [hwalk] at h
          cases h
  | succ links ih =>
      rw [follow, walk_append] at h
      rw [follow]
      cases hwalk : fs.walk false cur steps with
      | arrived mid =>
          rw [hwalk] at h
          refine ⟨mid, links + 1, rfl, ?_⟩
          rw [follow]
          exact h
      | link dir target left =>
          rw [hwalk] at h
          dsimp only at h ⊢
          rw [← List.append_assoc] at h
          exact ih h
      | failed =>
          rw [hwalk] at h
          cases h

/-- A slash at the end changes nothing about a directory. -/
theorem follow_here {links : Nat} {cur loc : List ν} {steps : List (Step ν)}
    (h : fs.follow false links cur steps = some loc) (hdir : fs.node loc = some .dir) :
    fs.follow false links cur (steps ++ [Step.here]) = some loc := by
  have hhere : fs.walk false loc [.here] = .arrived loc := by
    rw [walk, enterable, hdir]
    rfl
  induction links generalizing cur steps with
  | zero =>
      rw [follow] at h
      rw [follow, walk_append]
      cases hwalk : fs.walk false cur steps with
      | arrived mid =>
          rw [hwalk] at h
          cases h
          dsimp only
          rw [hhere]
      | link dir target left =>
          rw [hwalk] at h
          cases h
      | failed =>
          rw [hwalk] at h
          cases h
  | succ links ih =>
      rw [follow] at h
      rw [follow, walk_append]
      cases hwalk : fs.walk false cur steps with
      | arrived mid =>
          rw [hwalk] at h
          cases h
          dsimp only
          rw [hhere]
      | link dir target left =>
          rw [hwalk] at h
          dsimp only at h ⊢
          rw [← List.append_assoc]
          exact ih h
      | failed =>
          rw [hwalk] at h
          cases h

/-- A name leads somewhere from a directory that has it. -/
theorem node_of_follow_name {links : Nat} {cur loc : List ν} {n : ν}
    (h : fs.follow false links cur [.name n] = some loc) :
    fs.node cur = some .dir ∧ (fs.node (cur ++ [n])).isSome := by
  have hwalk : fs.walk false cur [.name n] ≠ .failed := by
    intro hwalk
    cases links with
    | zero =>
        rw [follow, hwalk] at h
        cases h
    | succ links =>
        rw [follow, hwalk] at h
        cases h
  rw [walk] at hwalk
  split at hwalk
  · next henter =>
      refine ⟨?_, ?_⟩
      · unfold enterable at henter
        split at henter
        · assumption
        · cases henter
        · cases henter
      · cases hnode : fs.node (cur ++ [n]) with
        | none =>
            rw [hnode] at hwalk
            exact absurd rfl hwalk
        | some node => rfl
  · exact absurd rfl hwalk

/-- A name that is no link leads to what it names. -/
theorem eq_of_follow_name {links : Nat} {cur loc : List ν} {n : ν}
    (hnode : ∀ target, fs.node (cur ++ [n]) ≠ some (.link target))
    (h : fs.follow false links cur [.name n] = some loc) : loc = cur ++ [n] := by
  have hwalk : fs.walk false cur [.name n] = .arrived (cur ++ [n]) ∨
      fs.walk false cur [.name n] = .failed := by
    rw [walk]
    split
    · cases hthere : fs.node (cur ++ [n]) with
      | none => exact .inr rfl
      | some node =>
          cases node with
          | link target => exact absurd hthere (hnode target)
          | dir => exact .inl rfl
          | file => exact .inl rfl
    · exact .inr rfl
  cases links with
  | zero =>
      rw [follow] at h
      rcases hwalk with hwalk | hwalk
      · rw [hwalk] at h
        exact (Option.some.inj h).symm
      · rw [hwalk] at h
        cases h
  | succ links =>
      rw [follow] at h
      rcases hwalk with hwalk | hwalk
      · rw [hwalk] at h
        exact (Option.some.inj h).symm
      · rw [hwalk] at h
        cases h

/-- A dot leads to the directory it is in. -/
theorem node_of_follow_here {links : Nat} {cur loc : List ν}
    (h : fs.follow false links cur [.here] = some loc) : fs.node loc = some .dir := by
  cases hdir : fs.enterable false cur with
  | true =>
      have hwalk : fs.walk false cur [.here] = .arrived cur := by
        rw [walk, hdir]
        rfl
      have hloc : cur = loc := by
        cases links with
        | zero =>
            rw [follow, hwalk] at h
            exact Option.some.inj h
        | succ links =>
            rw [follow, hwalk] at h
            exact Option.some.inj h
      subst hloc
      unfold enterable at hdir
      split at hdir
      · assumption
      · cases hdir
      · cases hdir
  | false =>
      have hwalk : fs.walk false cur [.here] = .failed := by
        rw [walk, hdir]
        rfl
      cases links with
      | zero =>
          rw [follow, hwalk] at h
          cases h
      | succ links =>
          rw [follow, hwalk] at h
          cases h

/-! ## New entries -/

/-- What there is in `fs` is there in `fs'`. -/
def Keeps (fs fs' : Fs ν) : Prop :=
  ∀ loc node, fs.node loc = some node → fs'.node loc = some node

theorem Keeps.refl (fs : Fs ν) : fs.Keeps fs := fun _ _ h => h

theorem Keeps.trans {fs fs' fs'' : Fs ν} (h : fs.Keeps fs') (h' : fs'.Keeps fs'') :
    fs.Keeps fs'' := fun loc node hnode => h' loc node (h loc node hnode)

section Keeps

variable {fs' : Fs ν}

theorem Keeps.enterable (h : fs.Keeps fs') {cur : List ν} (henter : fs.enterable false cur = true) :
    fs'.enterable false cur = true := by
  unfold Fs.enterable at henter ⊢
  split at henter
  · next hdir => rw [h _ _ hdir]
  · cases henter
  · cases henter

theorem Keeps.walk_found (h : fs.Keeps fs') {cur : List ν} {steps : List (Step ν)}
    (hfound : fs.walk false cur steps ≠ .failed) :
    fs'.walk false cur steps = fs.walk false cur steps := by
  induction steps generalizing cur with
  | nil => rfl
  | cons step rest ih =>
      simp only [Fs.walk] at hfound ⊢
      by_cases henter : fs.enterable false cur = true
      · rw [if_pos henter] at hfound ⊢
        rw [if_pos (h.enterable henter)]
        cases step with
        | here => exact ih hfound
        | up => exact ih hfound
        | name n =>
            dsimp only at hfound ⊢
            cases hnode : fs.node (cur ++ [n]) with
            | none =>
                rw [hnode] at hfound
                exact absurd rfl hfound
            | some node =>
                rw [hnode] at hfound
                rw [h _ _ hnode]
                cases node with
                | link target => rfl
                | dir => exact ih hfound
                | file => exact ih hfound
      · rw [if_neg henter] at hfound
        exact absurd rfl hfound

/-- What led somewhere leads there still. -/
theorem Keeps.follow_found (h : fs.Keeps fs') {links : Nat} {cur loc : List ν}
    {steps : List (Step ν)} (hfound : fs.follow false links cur steps = some loc) :
    fs'.follow false links cur steps = some loc := by
  induction links generalizing cur steps with
  | zero =>
      simp only [Fs.follow] at hfound ⊢
      split at hfound
      · next hwalk =>
          rw [h.walk_found (by rw [hwalk]; nofun), hwalk]
          exact hfound
      · cases hfound
  | succ links ih =>
      simp only [Fs.follow] at hfound ⊢
      split at hfound
      · next hwalk =>
          rw [h.walk_found (by rw [hwalk]; nofun), hwalk]
          exact hfound
      · next hwalk =>
          rw [h.walk_found (by rw [hwalk]; nofun), hwalk]
          exact ih hfound
      · cases hfound

end Keeps

/-! ## New directories -/

/-- `fs'` is `fs` with directories where there was nothing. -/
def Extends (fs fs' : Fs ν) : Prop :=
  ∀ loc, fs'.node loc = fs.node loc ∨ (fs.node loc = none ∧ fs'.node loc = some .dir)

variable {fs' : Fs ν}

theorem Extends.enterable (h : fs.Extends fs') (cur : List ν) :
    fs'.enterable true cur = fs.enterable true cur := by
  unfold Fs.enterable
  rcases h cur with hnode | ⟨hnone, hdir⟩
  · rw [hnode]
  · rw [hnone, hdir]

theorem Extends.walk (h : fs.Extends fs') (cur : List ν) (steps : List (Step ν)) :
    fs'.walk true cur steps = fs.walk true cur steps := by
  induction steps generalizing cur with
  | nil => rfl
  | cons step rest ih =>
      simp only [Fs.walk, h.enterable]
      split
      · cases step with
        | here => exact ih cur
        | up => exact ih cur.dropLast
        | name n =>
            dsimp only
            rcases h (cur ++ [n]) with hnode | ⟨hnone, hdir⟩
            · rw [hnode, ih]
            · rw [hnone, hdir]
              exact ih _
      · rfl

theorem Extends.follow (h : fs.Extends fs') (links : Nat) (cur : List ν)
    (steps : List (Step ν)) : fs'.follow true links cur steps = fs.follow true links cur steps := by
  induction links generalizing cur steps with
  | zero => simp only [Fs.follow, h.walk]
  | succ links ih => simp only [Fs.follow, h.walk, ih]

/-- `fs` with a directory at `loc`. -/
def makeDir [DecidableEq ν] (fs : Fs ν) (loc : List ν) (hne : loc ≠ [])
    (hparent : fs.node loc.dropLast = some .dir) : Fs ν where
  node p := if p = loc then some .dir else fs.node p
  root_dir := (if_neg hne.symm).trans fs.root_dir
  parent_dir p n hn := by
    by_cases hp : p = loc
    · exact if_pos hp
    rw [if_neg hp]
    by_cases hloc : p ++ [n] = loc
    · rw [← hloc, List.dropLast_concat] at hparent
      exact hparent
    · rw [if_neg hloc] at hn
      exact fs.parent_dir p n hn

theorem Extends.keeps (h : fs.Extends fs') : fs.Keeps fs' := by
  intro loc node hnode
  rcases h loc with hsame | ⟨hnone, _⟩
  · rw [hsame, hnode]
  · rw [hnode] at hnone
    cases hnone

/-- What led somewhere leads there still. -/
theorem Extends.follow_found (h : fs.Extends fs') {links : Nat} {cur loc : List ν}
    {steps : List (Step ν)} (hfound : fs.follow false links cur steps = some loc) :
    fs'.follow false links cur steps = some loc :=
  h.keeps.follow_found hfound

theorem Extends.refl (fs : Fs ν) : fs.Extends fs := fun _ => .inl rfl

theorem Extends.trans {fs'' : Fs ν} (h : fs.Extends fs') (h' : fs'.Extends fs'') :
    fs.Extends fs'' := by
  intro loc
  rcases h loc with hsame | ⟨hnone, hdir⟩
  · rcases h' loc with hsame' | ⟨hnone', hdir'⟩
    · exact .inl (hsame'.trans hsame)
    · exact .inr ⟨hsame.symm.trans hnone', hdir'⟩
  · rcases h' loc with hsame' | ⟨hnone', _⟩
    · exact .inr ⟨hnone, hsame'.trans hdir⟩
    · rw [hdir] at hnone'
      cases hnone'

/-- What is about to be created is where it will be. -/
theorem Extends.locate (h : fs.Extends fs') (cur : List ν) (steps : List (Step ν)) :
    fs'.locate cur steps = fs.locate cur steps :=
  h.follow maxSymlinks cur steps

end Fs

end ShellfleetAgent.Lib
