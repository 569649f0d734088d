import Mathlib.Data.List.Infix
import ShellfleetAgent.Agent.Config

/-!
# The leaf that the second look misses

`check_write` looks at the path as spelled with its leaf, and at the resolved
parent without it. What it opens is the resolved parent with the leaf. The deny
rules that can match there and at neither of the two are few, and the proof is
the search for them: a prefix rule must end in the middle of the leaf, a
component rule cannot match a leaf it did not match before, and the one suffix
rule needs its own directory.
-/

namespace ShellfleetAgent.Agent.Config

open ShellfleetAgent.Lib

/-! ## Strings and lower case -/

theorem toLower_slash {c : Char} : c.toLower = '/' ↔ c = '/' := by
  unfold Char.toLower
  split
  · next h =>
      refine ⟨fun h' => ?_, ?_⟩
      · have hval := congrArg (fun c : Char => c.val.toNat) h'
        have hlo := UInt32.le_iff_toNat_le.mp h.1
        have hhi := UInt32.le_iff_toNat_le.mp h.2
        simp only [UInt32.toNat_add, UInt32.toNat_sub] at hval hlo hhi
        simp at hval hlo hhi
        omega
      · rintro rfl
        exact absurd h (by decide)
  · rfl

theorem lowercase_append (s t : Str) : lowercase (s ++ t) = lowercase s ++ lowercase t :=
  List.map_append

theorem splitOn_lowercase (s : Str) :
    (lowercase s).splitOn '/' = (s.splitOn '/').map lowercase :=
  splitOn_map (fun _ => toLower_slash) s

theorem slash_notMem_lowercase {s : Str} (h : '/' ∉ s) : '/' ∉ lowercase s := by
  intro hmem
  obtain ⟨c, hc, hlower⟩ := List.mem_map.mp hmem
  rw [toLower_slash.mp hlower] at hc
  exact h hc

/-! ## The deny rules -/

theorem deniedPath_eq_none {p : Str} :
    deniedPath p = none ↔
      (∀ d ∈ denyPrefixes, ¬d <+: p) ∧
      (∀ c ∈ p.splitOn '/', c ∉ credentialDirs ∧ c ≠ ".netrc".toList) ∧
      ¬dockerConfig <:+ p := by
  unfold deniedPath
  cases hfind : denyPrefixes.find? (·.isPrefixOf p) with
  | some d =>
      have hmem := List.mem_of_find?_eq_some hfind
      have hpre := List.find?_some hfind
      refine iff_of_false nofun fun h => h.1 d hmem ?_
      exact List.isPrefixOf_iff_prefix.mp hpre
  | none =>
      have hpre : ∀ d ∈ denyPrefixes, ¬d <+: p := by
        intro d hd h
        exact List.find?_eq_none.mp hfind d hd (List.isPrefixOf_iff_prefix.mpr h)
      cases hcomp : (p.splitOn '/').find? (credentialDirs.contains ·) with
      | some c =>
          have hmem := List.mem_of_find?_eq_some hcomp
          have hc := List.find?_some hcomp
          refine iff_of_false nofun fun h => (h.2.1 c hmem).1 ?_
          exact List.contains_iff_mem.mp hc
      | none =>
          have hcred : ∀ c ∈ p.splitOn '/', c ∉ credentialDirs := by
            intro c hc h
            exact List.find?_eq_none.mp hcomp c hc (List.contains_iff_mem.mpr h)
          dsimp only
          split
          · next hnetrc =>
              refine iff_of_false nofun fun h => ?_
              exact (h.2.1 _ (List.contains_iff_mem.mp hnetrc)).2 rfl
          · next hnetrc =>
              have hcomps : ∀ c ∈ p.splitOn '/', c ∉ credentialDirs ∧ c ≠ ".netrc".toList := by
                intro c hc
                refine ⟨hcred c hc, ?_⟩
                rintro rfl
                exact hnetrc (List.contains_iff_mem.mpr hc)
              split
              · next hdocker =>
                  refine iff_of_false nofun fun h => h.2.2 ?_
                  exact List.isSuffixOf_iff_suffix.mp hdocker
              · next hdocker =>
                  refine iff_of_true rfl ⟨hpre, hcomps, fun h => hdocker ?_⟩
                  exact List.isSuffixOf_iff_suffix.mpr h

/-- A directory and a name in it that are denied together and not apart. -/
def LeafDenied (dir leaf : Str) : Prop :=
  (dir = "/etc/".toList ∧ ∃ d ∈ ["shadow", "gshadow", "sudoers"].map String.toList, d <+: leaf) ∨
  (dir = "/etc/shellfleet/".toList ∧ "agent-token".toList <+: leaf) ∨
  ("/.docker/".toList <:+ dir ∧ leaf = "config.json".toList)

/-- The deny entries that end inside a file name, by their directory. -/
theorem denyPrefixes_split : ∀ d ∈ denyPrefixes, ∀ dir ∈ d.inits, dir.getLast? = some '/' →
    '/' ∉ d.drop dir.length → d.drop dir.length ≠ [] →
    (dir = "/etc/".toList ∧
        d.drop dir.length ∈ ["shadow", "gshadow", "sudoers"].map String.toList) ∨
      (dir = "/etc/shellfleet/".toList ∧ d.drop dir.length = "agent-token".toList) := by
  decide

/-- A prefix rule that matches with the leaf and not without it. -/
theorem denyPrefix_leaf {x leaf d : Str} (hleaf : '/' ∉ leaf) (hd : d ∈ denyPrefixes)
    (hdir : ¬d <+: x ++ ['/']) (h : d <+: x ++ ['/'] ++ leaf) :
    LeafDenied (x ++ ['/']) leaf := by
  have hinit : x ++ ['/'] <+: d := by
    rcases List.prefix_or_prefix_of_prefix h (List.prefix_append _ leaf) with h' | h'
    · exact absurd h' hdir
    · exact h'
  obtain ⟨r, rfl⟩ := hinit
  have hr : r <+: leaf := (List.prefix_append_right_inj _).mp h
  have hne : r ≠ [] := by
    rintro rfl
    rw [List.append_nil] at hdir
    exact hdir List.prefix_rfl
  have hcases := denyPrefixes_split _ hd (x ++ ['/'])
    (List.mem_inits _ _ |>.mpr (List.prefix_append _ _)) (by simp)
  rw [List.drop_left] at hcases
  rcases hcases (fun hmem => hleaf (hr.subset hmem)) hne with ⟨hx, hmem⟩ | ⟨hx, hmem⟩
  · exact .inl ⟨hx, r, hmem, hr⟩
  · exact .inr (.inl ⟨hx, hmem ▸ hr⟩)

theorem dockerConfig_leaf {x leaf : Str} (hleaf : '/' ∉ leaf)
    (h : dockerConfig <:+ x ++ ['/'] ++ leaf) : LeafDenied (x ++ ['/']) leaf := by
  obtain ⟨z, hz⟩ := h
  have hsplit : (z ++ "/.docker".toList) ++ '/' :: "config.json".toList = x ++ '/' :: leaf := by
    rw [List.append_assoc] at hz ⊢
    exact hz
  obtain ⟨rfl, rfl⟩ := last_separator (by decide) hleaf hsplit
  exact .inr (.inr ⟨⟨z, by simp⟩, rfl⟩)

theorem LeafDenied.denied {dir leaf : Str} (h : LeafDenied dir leaf) :
    deniedPath (dir ++ leaf) ≠ none := by
  intro hnone
  obtain ⟨hpre, _, hdocker⟩ := deniedPath_eq_none.mp hnone
  have happend : ∀ d ∈ denyPrefixes, ∀ r, d = dir ++ r → ¬r <+: leaf := by
    rintro d hd r rfl hr
    exact hpre _ hd ((List.prefix_append_right_inj dir).mpr hr)
  rcases h with ⟨rfl, d, hd, hleaf⟩ | ⟨rfl, hleaf⟩ | ⟨⟨z, rfl⟩, rfl⟩
  · have hmem : ∀ d ∈ ["shadow", "gshadow", "sudoers"].map String.toList,
        "/etc/".toList ++ d ∈ denyPrefixes := by
      decide
    exact happend _ (hmem d hd) d rfl hleaf
  · exact happend _ (by decide) _ rfl hleaf
  · exact hdocker ⟨z, by rw [List.append_assoc]; rfl⟩

/-- What the leaf adds to a directory that is not denied, when the leaf by itself
is not denied either. -/
theorem deniedPath_leaf {x leaf : Str} (hleaf : '/' ∉ leaf)
    (hname : leaf ∉ credentialDirs ∧ leaf ≠ ".netrc".toList)
    (hdir : deniedPath (x ++ ['/']) = none) :
    deniedPath (x ++ ['/'] ++ leaf) = none ↔ ¬LeafDenied (x ++ ['/']) leaf := by
  refine ⟨fun h hl => hl.denied h, fun h => ?_⟩
  obtain ⟨hpre, hcomps, hdocker⟩ := deniedPath_eq_none.mp hdir
  rw [deniedPath_eq_none]
  refine ⟨fun d hd hmatch => h (denyPrefix_leaf hleaf hd (hpre d hd) hmatch), ?_,
    fun hmatch => h (dockerConfig_leaf hleaf hmatch)⟩
  intro c hc
  rw [List.append_assoc, List.singleton_append, List.splitOn_append_cons_self,
    List.splitOn_eq_singleton hleaf, List.mem_append, List.mem_singleton] at hc
  rcases hc with hc | rfl
  · refine hcomps c ?_
    rw [List.splitOn_append_cons_self]
    exact List.mem_append_left _ hc
  · exact hname

/-! ## `check_write` -/

theorem check_ok {path lex : Str} (h : check path = .ok lex) :
    lex = normalPath path ∧ deniedPath (lowercase lex) = none ∧ allowed (lowercase lex) = true := by
  unfold check at h
  split at h
  · cases h
  · split at h
    · cases h
    · split at h
      · cases h
      · dsimp only at h
        split at h
        · cases h
        · next hdenied =>
            split at h
            · next hallowed =>
                cases h
                exact ⟨rfl, hdenied, hallowed⟩
            · cases h

theorem recheck_ok {canonical note : Str} (h : recheck canonical note = .ok ()) :
    deniedPath canonical = none ∧ allowed canonical = true := by
  unfold recheck at h
  split at h
  · cases h
  · next hdenied =>
      split at h
      · next hallowed => exact ⟨hdenied, hallowed⟩
      · cases h

/-- The leaf of a path that passed `check` is an innocent name. -/
theorem leaf_ok {path lex : Str} {name : OsStr} (hcheck : check path = .ok lex)
    (hname : Path.fileName (OsStr.ofChars lex) = some name) :
    ∃ leaf, name = OsStr.ofChars leaf ∧ '/' ∉ leaf ∧
      lowercase leaf ∉ credentialDirs ∧ lowercase leaf ≠ ".netrc".toList := by
  have hmem := Path.fileName_mem hname
  rw [Path.splitOn_ofChars, List.mem_map] at hmem
  obtain ⟨leaf, hleaf, rfl⟩ := hmem
  obtain ⟨_, hdenied, _⟩ := check_ok hcheck
  obtain ⟨_, hcomps, _⟩ := deniedPath_eq_none.mp hdenied
  refine ⟨leaf, rfl, not_mem_of_mem_splitOn hleaf, hcomps _ ?_⟩
  rw [splitOn_lowercase]
  exact List.mem_map_of_mem hleaf

/-- What `write_no_follow` opens: the resolved directory, a slash, the leaf. -/
def inDirectory (dir leaf : Str) : Str :=
  if dir.getLast? = some '/' then dir ++ leaf else dir ++ ['/'] ++ leaf

theorem writeTarget_chars {parent name : OsStr} {dir leaf : Str}
    (hparent : OsStr.toChars parent = some dir) (hne : parent ≠ [])
    (hname : name = OsStr.ofChars leaf) (hleaf : '/' ∉ leaf) :
    OsStr.toChars (writeTarget parent name) = some (inDirectory dir leaf) := by
  have hrelative : Path.isAbsolute name = false := by
    rw [hname]
    cases leaf with
    | nil => rfl
    | cons c leaf =>
        have hc : c ≠ '/' := fun h => hleaf (h ▸ List.mem_cons_self ..)
        simpa [Path.isAbsolute, OsStr.ofChars, slash] using hc
  have hchars : OsStr.toChars name = some leaf := by
    rw [hname]
    exact OsStr.toChars_ofChars leaf
  have hlast : parent.getLast? = some slash ↔ dir.getLast? = some '/' := by
    rw [OsStr.eq_ofChars hparent, OsStr.ofChars, List.getLast?_map, slash]
    cases dir.getLast? <;> simp
  rw [writeTarget, Path.join, hrelative, inDirectory]
  by_cases hslash : dir.getLast? = some '/'
  · rw [if_pos hslash, if_neg (by simp), if_pos (.inr (hlast.mpr hslash))]
    exact OsStr.toChars_append hparent hchars
  · have hnot : ¬(parent = [] ∨ parent.getLast? = some slash) := by
      rintro (h | h)
      · exact hne h
      · exact hslash (hlast.mp h)
    rw [if_neg hslash, if_neg (by simp), if_neg hnot]
    exact OsStr.toChars_append (OsStr.toChars_append hparent rfl) hchars

theorem lowercase_inDirectory (dir leaf : Str) :
    lowercase (inDirectory dir leaf) = parentString dir ++ lowercase leaf := by
  have hlast : (lowercase dir).getLast? = some '/' ↔ dir.getLast? = some '/' := by
    rw [lowercase, List.getLast?_map]
    cases dir.getLast? <;> simp [toLower_slash]
  unfold inDirectory parentString
  by_cases hslash : dir.getLast? = some '/'
  · rw [if_pos hslash, if_pos (hlast.mpr hslash), lowercase_append]
  · rw [if_neg hslash, if_neg (fun h => hslash (hlast.mp h)), lowercase_append, lowercase_append]
    rfl

theorem parentString_slash (dir : Str) : ∃ x, parentString dir = x ++ ['/'] := by
  unfold parentString
  dsimp only
  split
  · next h => exact ⟨_, (List.dropLast_append_getLast? _ h).symm⟩
  · exact ⟨_, rfl⟩

theorem checkWrite_ok {h : HostFiles} {path : Str} {parent name : OsStr}
    (hok : checkWrite h path = .ok (parent, name)) :
    ∃ lex lexParent loc dir, check path = .ok lex ∧
      Path.parent (OsStr.ofChars lex) = some lexParent ∧
      Path.fileName (OsStr.ofChars lex) = some name ∧
      h.canonicalize lexParent = some loc ∧ parent = Path.ofLocation loc ∧
      OsStr.toChars parent = some dir ∧ deniedPath (parentString dir) = none ∧
      allowed (parentString dir) = true := by
  unfold checkWrite at hok
  split at hok
  · cases hok
  next lex hlex =>
  split at hok
  · next lexParent fileName hparent hname =>
      split at hok
      · cases hok
      next loc hloc =>
      dsimp only at hok
      split at hok
      · cases hok
      next dir hdir =>
      split at hok
      · cases hok
      next hrecheck =>
      cases hok
      obtain ⟨hdenied, hallowed⟩ := recheck_ok hrecheck
      exact ⟨lex, lexParent, loc, dir, hlex, hparent, hname, hloc, rfl, hdir, hdenied, hallowed⟩
  · cases hok

/-- What a path comes to on this host: its parent as the file tree resolves it,
and its leaf. -/
def Resolved (h : HostFiles) (path dir leaf : Str) : Prop :=
  ∃ lex lexParent loc, check path = .ok lex ∧
    Path.parent (OsStr.ofChars lex) = some lexParent ∧
    Path.fileName (OsStr.ofChars lex) = some (OsStr.ofChars leaf) ∧
    h.canonicalize lexParent = some loc ∧
    OsStr.toChars (Path.ofLocation loc) = some dir

theorem Resolved.unique {h : HostFiles} {path dir leaf dir' leaf' : Str}
    (hr : Resolved h path dir leaf) (hr' : Resolved h path dir' leaf') :
    dir = dir' ∧ leaf = leaf' := by
  obtain ⟨lex, lexParent, loc, hlex, hparent, hname, hloc, hdir⟩ := hr
  obtain ⟨lex', lexParent', loc', hlex', hparent', hname', hloc', hdir'⟩ := hr'
  obtain rfl : lex = lex' := Except.ok.inj (hlex.symm.trans hlex')
  obtain rfl : lexParent = lexParent' := Option.some.inj (hparent.symm.trans hparent')
  obtain rfl : loc = loc' := Option.some.inj (hloc.symm.trans hloc')
  have hleaf : OsStr.ofChars leaf = OsStr.ofChars leaf' :=
    Option.some.inj (hname.symm.trans hname')
  have hchars := congrArg OsStr.toChars hleaf
  rw [OsStr.toChars_ofChars, OsStr.toChars_ofChars] at hchars
  exact ⟨Option.some.inj (hdir.symm.trans hdir'), Option.some.inj hchars⟩

/-- The resolved parent and the leaf are denied together. -/
def LeadsToDenied (h : HostFiles) (path : Str) : Prop :=
  ∃ dir leaf, Resolved h path dir leaf ∧ LeafDenied (parentString dir) (lowercase leaf)

/-- The resolved parent is in the allow policy as it is spelled, capitals and
all. -/
def SpelledAllowed (h : HostFiles) (path : Str) : Prop :=
  ∃ dir leaf, Resolved h path dir leaf ∧ allowed (inDirectory dir []) = true

theorem allowPrefixes_slash : ∀ a ∈ allowPrefixes, ∀ r ∈ a.tails, r ≠ [] → '/' ∈ r := by
  decide +kernel

theorem allowed_append {s t : Str} (h : allowed s = true) : allowed (s ++ t) = true := by
  obtain ⟨a, ha, hpre⟩ := List.any_eq_true.mp h
  refine List.any_eq_true.mpr ⟨a, ha, ?_⟩
  have hs : a <+: s := List.isPrefixOf_iff_prefix.mp hpre
  exact List.isPrefixOf_iff_prefix.mpr (hs.trans (List.prefix_append s t))

/-- An allow prefix is a whole directory, so a name adds nothing to it. -/
theorem allowed_leaf {s leaf : Str} (hleaf : '/' ∉ leaf) (h : allowed (s ++ leaf) = true) :
    allowed s = true := by
  obtain ⟨a, ha, hpre⟩ := List.any_eq_true.mp h
  have hpre : a <+: s ++ leaf := List.isPrefixOf_iff_prefix.mp hpre
  refine List.any_eq_true.mpr ⟨a, ha, List.isPrefixOf_iff_prefix.mpr ?_⟩
  rcases List.prefix_or_prefix_of_prefix hpre (List.prefix_append s leaf) with h | ⟨r, rfl⟩
  · exact h
  · have hr : r <+: leaf := (List.prefix_append_right_inj s).mp hpre
    by_cases hne : r = []
    · rw [hne, List.append_nil]
    · have hslash := allowPrefixes_slash _ ha r (List.mem_tails _ _ |>.mpr ⟨s, rfl⟩) hne
      exact absurd (hr.subset hslash) hleaf

/-- A path `check_write` accepts is opened inside the allow policy, and outside
the deny policy exactly if its resolved parent and its leaf are not denied
together. Both policies are about lower-cased paths; the last part is the allow
policy read letter for letter. -/
theorem write_target_policy {h : HostFiles} {path : Str} {parent name : OsStr}
    (hok : checkWrite h path = .ok (parent, name)) :
    ∃ target, OsStr.toChars (writeTarget parent name) = some target ∧
      (deniedPath (lowercase target) = none ↔ ¬LeadsToDenied h path) ∧
      allowed (lowercase target) = true ∧
      (allowed target = true ↔ SpelledAllowed h path) := by
  obtain ⟨lex, lexParent, loc, dir, hlex, hparent, hname, hloc, rfl, hdir, hdenied, hallowed⟩ :=
    checkWrite_ok hok
  obtain ⟨leaf, rfl, hleaf, hleafOk⟩ := leaf_ok hlex hname
  have hresolved : Resolved h path dir leaf :=
    ⟨lex, lexParent, loc, hlex, hparent, hname, hloc, hdir⟩
  refine ⟨inDirectory dir leaf, writeTarget_chars hdir nofun rfl hleaf, ?_, ?_, ?_⟩
  · obtain ⟨x, hx⟩ := parentString_slash dir
    rw [lowercase_inDirectory, hx,
      deniedPath_leaf (slash_notMem_lowercase hleaf) hleafOk (hx ▸ hdenied), ← hx, not_iff_not]
    refine ⟨fun hl => ⟨dir, leaf, hresolved, hl⟩, ?_⟩
    intro ⟨dir', leaf', hresolved', hl⟩
    obtain ⟨rfl, rfl⟩ := hresolved.unique hresolved'
    exact hl
  · rw [lowercase_inDirectory]
    exact allowed_append hallowed
  · have hjoin : inDirectory dir leaf = inDirectory dir [] ++ leaf := by
      unfold inDirectory
      split
      · rw [List.append_nil]
      · rw [List.append_nil]
    rw [hjoin]
    refine ⟨fun h => ⟨dir, leaf, hresolved, allowed_leaf hleaf h⟩, ?_⟩
    intro ⟨dir', leaf', hresolved', hallowed'⟩
    obtain ⟨rfl, rfl⟩ := hresolved.unique hresolved'
    exact allowed_append hallowed'

/-- A host where `/home/u/link` leads to `/etc`. -/
def linkedHost : HostFiles where
  fs := Fs.ofEntries
    [([os "etc"], .dir), ([os "etc", os "shadow"], .file), ([os "etc", os "nginx"], .dir),
      ([os "home"], .dir), ([os "home", os "u"], .dir),
      ([os "home", os "u", os "link"], .link ⟨true, [.name (os "etc")]⟩),
      ([os "home", os "u", os ".docker"], .dir)]
    (by decide)
  cwd := []

theorem write_target_policy_nginx :
    ∃ target, OsStr.toChars (writeTarget (os "/etc/nginx") (os "nginx.conf")) = some target ∧
      (deniedPath (lowercase target) = none ↔
        ¬LeadsToDenied linkedHost "/home/u/link/nginx/./nginx.conf".toList) ∧
      allowed (lowercase target) = true ∧
      (allowed target = true ↔
        SpelledAllowed linkedHost "/home/u/link/nginx/./nginx.conf".toList) :=
  write_target_policy (by decide)

/-- Through a linked parent, and with a slash at the end. -/
theorem write_target_denied :
    (checkWrite linkedHost "/home/u/link/shadow".toList = .ok (os "/etc", os "shadow") ∧
      ((OsStr.toChars (writeTarget (os "/etc") (os "shadow"))).map lowercase).bind deniedPath =
        some "/etc/shadow".toList) ∧
    (checkWrite linkedHost "/home/u/.docker/config.json/".toList =
        .ok (os "/home/u/.docker", os "config.json") ∧
      ((OsStr.toChars (writeTarget (os "/home/u/.docker") (os "config.json"))).map
        lowercase).bind deniedPath = some "any .docker/config.json file".toList) := by
  decide +kernel

end ShellfleetAgent.Agent.Config
