import Mathlib.Data.List.Infix
import ShellfleetAgent.Lib.Fs

/-!
# Unix paths

`std::path` on Unix, as far as lexical path handling goes: a path is a string
of characters and stray bytes, and its components are what all comparisons and
decompositions are about.
-/

namespace ShellfleetAgent.Lib

/-- One unit of an `OsStr`: a character, or a byte that belongs to none. -/
inductive OsChar
  | chr (c : Char)
  | raw (b : UInt8)
  deriving DecidableEq

abbrev OsStr := List OsChar

/-! ## Splitting at a separator -/

section Split

variable {α β : Type} [DecidableEq α] [DecidableEq β]

theorem not_mem_of_mem_splitOn {a : α} {xs piece : List α} (h : piece ∈ xs.splitOn a) :
    a ∉ piece := by
  induction xs generalizing piece with
  | nil =>
      rw [List.splitOn_nil] at h
      rw [List.mem_singleton.mp h]
      exact List.not_mem_nil
  | cons x xs ih =>
      rw [List.splitOn_cons_eq_if_modifyHead] at h
      split at h
      · rcases List.mem_cons.mp h with rfl | h
        · exact List.not_mem_nil
        · exact ih h
      · next hx =>
          cases hs : xs.splitOn a with
          | nil => exact absurd hs (List.splitOn_ne_nil a xs)
          | cons p ps =>
              rw [hs, List.modifyHead_cons] at h
              have hp : a ∉ p := ih (by rw [hs]; exact List.mem_cons_self ..)
              rcases List.mem_cons.mp h with rfl | h
              · intro hmem
                rcases List.mem_cons.mp hmem with rfl | hmem
                · exact hx (beq_self_eq_true a)
                · exact hp hmem
              · exact ih (by rw [hs]; exact List.mem_cons_of_mem _ h)

/-- Renaming letters commutes with splitting if it keeps the separator. -/
theorem splitOn_map {f : α → β} {a : α} {b : β} (hf : ∀ x, f x = b ↔ x = a) (xs : List α) :
    (xs.map f).splitOn b = (xs.splitOn a).map (List.map f) := by
  induction xs with
  | nil => simp
  | cons x xs ih =>
      rw [List.map_cons, List.splitOn_cons_eq_if_modifyHead, List.splitOn_cons_eq_if_modifyHead, ih]
      by_cases hx : x = a
      · rw [if_pos (by simpa using (hf x).mpr hx), if_pos (by simpa using hx)]
        rfl
      · rw [if_neg (by simpa using fun h => hx ((hf x).mp h)), if_neg (by simpa using hx)]
        cases xs.splitOn a <;> rfl

/-- The last separator of a list is where it is. -/
theorem last_separator {a : α} {xs ys p q : List α} (hp : a ∉ p) (hq : a ∉ q)
    (h : xs ++ a :: p = ys ++ a :: q) : xs = ys ∧ p = q := by
  have hsplit := congrArg (·.splitOn a) h
  simp only [List.splitOn_append_cons_self, List.splitOn_eq_singleton hp,
    List.splitOn_eq_singleton hq] at hsplit
  obtain ⟨_, hpq⟩ := List.append_inj' hsplit rfl
  cases hpq
  exact ⟨List.append_cancel_right h, rfl⟩

omit [DecidableEq α] in
/-- The pieces of two lists, with a separator between them as well. -/
theorem intercalate_append {a : α} {xss yss : List (List α)} (hxss : xss ≠ []) (hyss : yss ≠ []) :
    [a].intercalate (xss ++ yss) = [a].intercalate xss ++ [a] ++ [a].intercalate yss := by
  induction xss with
  | nil => exact absurd rfl hxss
  | cons xs xss ih =>
      by_cases hnil : xss = []
      · subst hnil
        rw [List.singleton_append, List.intercalate_cons_of_ne_nil hyss,
          List.intercalate_singleton]
      · rw [List.cons_append, List.intercalate_cons_of_ne_nil (by simp [hnil]), ih hnil,
          List.intercalate_cons_of_ne_nil hnil]
        simp only [List.append_assoc]

omit [DecidableEq α] in
theorem mem_intercalate {a b : α} {xss : List (List α)} (h : b ∈ [a].intercalate xss) :
    b = a ∨ ∃ xs ∈ xss, b ∈ xs := by
  induction xss with
  | nil => exact absurd h List.not_mem_nil
  | cons xs xss ih =>
      by_cases hnil : xss = []
      · rw [hnil, List.intercalate_singleton] at h
        exact .inr ⟨xs, List.mem_cons_self .., h⟩
      · rw [List.intercalate_cons_of_ne_nil hnil, List.append_assoc] at h
        rcases List.mem_append.mp h with hxs | hmore
        · exact .inr ⟨xs, List.mem_cons_self .., hxs⟩
        · rcases List.mem_append.mp hmore with hsep | hrest
          · exact .inl (List.mem_singleton.mp hsep)
          · obtain rfl | ⟨ys, hys, hb⟩ := ih hrest
            · exact .inl rfl
            · exact .inr ⟨ys, List.mem_cons_of_mem _ hys, hb⟩

omit [DecidableEq α] in
theorem mem_intercalate_of_mem {a b : α} {xs : List α} {xss : List (List α)} (hxs : xs ∈ xss)
    (hb : b ∈ xs) : b ∈ [a].intercalate xss := by
  obtain ⟨before, behind, rfl⟩ := List.append_of_mem hxs
  have hlast : b ∈ [a].intercalate (xs :: behind) := by
    by_cases hbehind : behind = []
    · rw [hbehind, List.intercalate_singleton]
      exact hb
    · rw [List.intercalate_cons_of_ne_nil hbehind, List.append_assoc]
      exact List.mem_append_left _ hb
  by_cases hbefore : before = []
  · rw [hbefore]
    exact hlast
  · rw [intercalate_append hbefore (List.cons_ne_nil _ _)]
    exact List.mem_append_right _ hlast

/-- What a piece is made of is in the list. -/
theorem mem_of_mem_splitOn {a b : α} {xs piece : List α} (h : piece ∈ xs.splitOn a)
    (hb : b ∈ piece) : b ∈ xs := by
  have hjoin : [a].intercalate (xs.splitOn a) = xs := List.intercalate_splitOn a
  rw [← hjoin]
  exact mem_intercalate_of_mem h hb

/-- What begins with `xs` and a separator has the pieces of `xs`, and more. -/
theorem prefix_separator_iff {a : α} {xs ys : List α} :
    xs ++ [a] <+: ys ↔ ∃ rest, rest ≠ [] ∧ ys.splitOn a = xs.splitOn a ++ rest := by
  constructor
  · rintro ⟨zs, rfl⟩
    refine ⟨zs.splitOn a, List.splitOn_ne_nil a zs, ?_⟩
    rw [List.append_assoc, List.singleton_append, List.splitOn_append_cons_self]
  · rintro ⟨rest, hne, hsplit⟩
    have hys : [a].intercalate (ys.splitOn a) = ys := List.intercalate_splitOn a
    have hxs : [a].intercalate (xs.splitOn a) = xs := List.intercalate_splitOn a
    rw [hsplit, intercalate_append (List.splitOn_ne_nil a xs) hne, hxs] at hys
    rw [← hys]
    exact List.prefix_append ..

/-- Pieces under a root, with a separator before each of them. -/
theorem splitOn_rooted {a : α} {segments : List (List α)} (h : ∀ s ∈ segments, a ∉ s)
    (hne : segments ≠ []) : (a :: [a].intercalate segments).splitOn a = [] :: segments := by
  have hsplit := List.splitOn_append_cons_self (a := a) [] ([a].intercalate segments)
  rw [List.splitOn_nil, List.splitOn_intercalate a h hne] at hsplit
  exact hsplit

/-- A rooted directory, up to its last separator, is before another path if its pieces
are, and the path does not stop short of that separator. -/
theorem rooted_prefix_iff {a : α} {dir segments : List (List α)} {t : List α} (hne : dir ≠ [])
    (hdir : ∀ s ∈ dir, a ∉ s) (hsegments : ∀ s ∈ segments, a ∉ s)
    (ht : t = [] ∨ t = [a] ∧ segments ≠ []) :
    a :: [a].intercalate dir ++ [a] <+: a :: [a].intercalate segments ++ t ↔
      dir <+: segments ∧ (segments = dir → t = [a]) := by
  rw [prefix_separator_iff, splitOn_rooted hdir hne]
  rcases ht with rfl | ⟨rfl, hsome⟩
  · rw [List.append_nil]
    by_cases hnil : segments = []
    · subst hnil
      refine iff_of_false ?_ fun h => hne (List.prefix_nil.mp h.1)
      rintro ⟨rest, hrest, hsplit⟩
      have hroot := List.splitOn_append_cons_self (a := a) [] []
      rw [List.splitOn_nil, List.nil_append] at hroot
      rw [List.intercalate_nil, hroot] at hsplit
      have hlength := congrArg List.length hsplit
      have hpos := List.length_pos_iff.mpr hne
      have hpos' := List.length_pos_iff.mpr hrest
      simp at hlength
      omega
    · rw [splitOn_rooted hsegments hnil]
      constructor
      · rintro ⟨rest, hrest, hsplit⟩
        obtain ⟨_, rfl⟩ := List.cons.inj hsplit
        refine ⟨List.prefix_append .., fun heq => absurd heq ?_⟩
        simpa using hrest
      · rintro ⟨⟨rest, rfl⟩, hends⟩
        refine ⟨rest, ?_, rfl⟩
        rintro rfl
        cases hends (List.append_nil dir)
  · rw [List.splitOn_append_cons_self, splitOn_rooted hsegments hsome, List.splitOn_nil]
    constructor
    · rintro ⟨rest, hrest, hsplit⟩
      refine ⟨?_, fun _ => rfl⟩
      obtain ⟨rest', last, rfl⟩ := (List.eq_nil_or_concat rest).resolve_left hrest
      rw [List.concat_eq_append, ← List.append_assoc] at hsplit
      have htail := (List.append_inj' hsplit rfl).1
      exact ⟨rest', (List.cons.inj htail).2.symm⟩
    · rintro ⟨⟨rest, rfl⟩, _⟩
      exact ⟨rest ++ [[]], by simp, by simp⟩

end Split

namespace OsStr

def ofChars (s : List Char) : OsStr := s.map .chr

/-- `OsStr::to_str`: nothing if a stray byte is in it. -/
def toChars : OsStr → Option (List Char)
  | [] => some []
  | .chr c :: rest => (toChars rest).map (c :: ·)
  | .raw _ :: _ => none

/-- `OsStr::display`, for what is text. -/
def display (s : OsStr) : List Char := s.map fun
  | .chr c => c
  | .raw _ => Char.ofNat 0xFFFD

theorem toChars_ofChars (s : List Char) : toChars (ofChars s) = some s := by
  induction s with
  | nil => rfl
  | cons c s ih =>
      rw [ofChars] at ih
      rw [ofChars, List.map_cons, toChars, ih]
      rfl

theorem toChars_append {p q : OsStr} {s t : List Char} (hp : toChars p = some s)
    (hq : toChars q = some t) : toChars (p ++ q) = some (s ++ t) := by
  induction p generalizing s with
  | nil =>
      cases hp
      exact hq
  | cons x p ih =>
      cases x with
      | raw b => cases hp
      | chr c =>
          rw [toChars, Option.map_eq_some_iff] at hp
          obtain ⟨s', hs', rfl⟩ := hp
          rw [List.cons_append, toChars, ih hs']
          rfl

theorem eq_ofChars {p : OsStr} {s : List Char} (hp : toChars p = some s) : p = ofChars s := by
  induction p generalizing s with
  | nil =>
      cases hp
      rfl
  | cons x p ih =>
      cases x with
      | raw b => cases hp
      | chr c =>
          rw [toChars, Option.map_eq_some_iff] at hp
          obtain ⟨s', hs', rfl⟩ := hp
          rw [ih hs']
          rfl

end OsStr

def os (s : String) : OsStr := OsStr.ofChars s.toList

def slash : OsChar := .chr '/'

/-- `std::path::Component`. -/
inductive Component
  | rootDir
  | curDir
  | parentDir
  | normal (name : OsStr)
  deriving DecidableEq

namespace Path

def dot : OsStr := [.chr '.']

def dotDot : OsStr := [.chr '.', .chr '.']

def isAbsolute (p : OsStr) : Bool := p.head? == some slash

/-- A segment as a component; empty ones and `.` are not components. -/
def component (segment : OsStr) : Option Component :=
  if segment = [] ∨ segment = dot then none
  else if segment = dotDot then some .parentDir
  else some (.normal segment)

/-- `Path::components`. A leading `.` of a relative path counts. -/
def components (p : OsStr) : List Component :=
  let segments := p.splitOn slash
  let root := if isAbsolute p then [.rootDir] else []
  let cur := if !isAbsolute p && segments.head? == some dot then [.curDir] else []
  root ++ cur ++ segments.filterMap component

/-- The string of a list of components. -/
def render (cs : List Component) : OsStr :=
  let names := cs.filterMap fun
    | .rootDir => none
    | .curDir => some dot
    | .parentDir => some dotDot
    | .normal name => some name
  (if cs.head? = some .rootDir then [slash] else []) ++ [slash].intercalate names

/-- `Path::parent`. -/
def parent (p : OsStr) : Option OsStr :=
  match (components p).getLast? with
  | none | some .rootDir => none
  | some _ => some (render (components p).dropLast)

/-- `Path::file_name`. -/
def fileName (p : OsStr) : Option OsStr :=
  match (components p).getLast? with
  | some (.normal name) => some name
  | _ => none

/-- `Path::file_stem`, of a file name: the part before its last dot, if there is one. -/
def fileStem (name : OsStr) : OsStr :=
  let before := (name.reverse.dropWhile (· ≠ .chr '.')).tail.reverse
  if before = [] then name else before

/-- `Path::with_extension`. What is behind the file name is cut off; a path without one
stays as it is. -/
def withExtension (p extension : OsStr) : OsStr :=
  match (p.splitOn slash).reverse.dropWhile fun s => (component s).isNone with
  | [] => p
  | name :: front =>
    if name = dotDot then p
    else
      let extension := if extension = [] then [] else .chr '.' :: extension
      [slash].intercalate (front.reverse ++ [fileStem name ++ extension])

/-- `Path::join`: an absolute path replaces what it is joined to. -/
def join (base p : OsStr) : OsStr :=
  if isAbsolute p then p
  else if base = [] ∨ base.getLast? = some slash then base ++ p
  else base ++ [slash] ++ p

/-- `Path::ancestors`: the path, and what its components leave on the way up. -/
def ancestors (p : OsStr) : List OsStr :=
  match components p with
  | [] => [p]
  | cs => p :: ((cs.dropLast.inits.filter fun c => !isAbsolute p || !c.isEmpty).reverse.map render)

/-- What an entry of a directory may be called. -/
def IsName (name : OsStr) : Prop :=
  name ≠ [] ∧ name ≠ dot ∧ name ≠ dotDot ∧ slash ∉ name

instance {name : OsStr} : Decidable (IsName name) :=
  inferInstanceAs (Decidable (name ≠ [] ∧ name ≠ dot ∧ name ≠ dotDot ∧ slash ∉ name))

/-- What the kernel makes of a segment. A slash at the end asks for a directory,
as `.` does. -/
def step (segment : OsStr) : Step OsStr :=
  if segment = [] ∨ segment = dot then .here
  else if segment = dotDot then .up
  else .name segment

def steps (p : OsStr) : List (Step OsStr) := (p.splitOn slash).map step

/-- The kernel's step for a component, if it is one. -/
def stepOf : Component → Option (Step OsStr)
  | .rootDir | .curDir => none
  | .parentDir => some .up
  | .normal name => some (.name name)

/-- The path of a location. -/
def ofLocation (loc : List OsStr) : OsStr := slash :: [slash].intercalate loc

theorem splitOn_ofChars (s : List Char) :
    (OsStr.ofChars s).splitOn slash = (s.splitOn '/').map OsStr.ofChars :=
  splitOn_map (fun c => by simp [slash]) s

/-! ## Components and steps -/

theorem stepOf_component (segment : OsStr) :
    (component segment).bind stepOf =
      if step segment = .here then none else some (step segment) := by
  unfold component step
  split
  · rfl
  · split <;> rfl

/-- The steps of a path are its components, and dots. -/
theorem steps_filter (p : OsStr) :
    (steps p).filter (· ≠ .here) = (components p).filterMap stepOf := by
  have hsegments : ∀ segments : List OsStr, (segments.map step).filter (· ≠ .here) =
      (segments.filterMap component).filterMap stepOf := by
    intro segments
    rw [List.filterMap_filterMap]
    induction segments with
    | nil => rfl
    | cons s segments ih =>
        rw [List.map_cons, List.filter_cons, List.filterMap_cons, stepOf_component]
        by_cases hhere : step s = .here
        · rw [if_neg (by simp [hhere]), if_pos hhere, ih]
        · rw [if_pos (by simp [hhere]), if_neg hhere, ih]
  rw [components, List.filterMap_append, List.filterMap_append, steps, hsegments]
  split <;> split <;> rfl

/-- The segment that a component is written as. -/
def text : Component → Option OsStr
  | .rootDir => none
  | .curDir => some dot
  | .parentDir => some dotDot
  | .normal name => some name

theorem text_component {segment : OsStr} {c : Component} (h : component segment = some c) :
    text c = some segment ∧ stepOf c = some (step segment) := by
  unfold component at h
  unfold step
  split at h
  · cases h
  next hhere =>
  rw [if_neg hhere]
  split at h
  · next hup =>
      cases h
      exact ⟨congrArg some hup.symm, by rw [if_pos hup]; rfl⟩
  · next hup =>
      cases h
      exact ⟨rfl, by rw [if_neg hup]; rfl⟩

/-- What is written for the components behind a root is read as their steps. -/
theorem steps_render {segments : List OsStr} {cs : List Component}
    (hslash : ∀ s ∈ segments, slash ∉ s) (hcs : cs <+: segments.filterMap component)
    (hne : cs ≠ []) : steps (render (.rootDir :: cs)) = .here :: cs.filterMap stepOf := by
  have hnames : ∀ ds : List Component, (∀ c ∈ ds, ∃ s ∈ segments, component s = some c) →
      (∀ s ∈ ds.filterMap text, slash ∉ s) ∧
        (ds.filterMap text).map step = ds.filterMap stepOf ∧
        (ds ≠ [] → ds.filterMap text ≠ []) := by
    intro ds
    induction ds with
    | nil => exact fun _ => ⟨by simp, rfl, fun h => absurd rfl h⟩
    | cons c ds ih =>
        intro hall
        obtain ⟨s, hs, hc⟩ := hall c (List.mem_cons_self ..)
        obtain ⟨htext, hstep⟩ := text_component hc
        obtain ⟨hclean, hsteps, _⟩ := ih fun c h => hall c (List.mem_cons_of_mem _ h)
        rw [List.filterMap_cons_some htext, List.filterMap_cons_some hstep, List.map_cons, hsteps]
        refine ⟨?_, rfl, fun _ => List.cons_ne_nil _ _⟩
        intro t ht
        rcases List.mem_cons.mp ht with rfl | ht
        · exact hslash _ hs
        · exact hclean t ht
  obtain ⟨hclean, hsteps, hsome⟩ := hnames cs fun c h => List.mem_filterMap.mp (hcs.subset h)
  have hrender : render (.rootDir :: cs) = slash :: [slash].intercalate (cs.filterMap text) := rfl
  rw [hrender, steps, splitOn_rooted hclean (hsome hne), List.map_cons, hsteps]
  rfl

theorem isAbsolute_render (cs : List Component) :
    isAbsolute (render (.rootDir :: cs)) = true := rfl

theorem components_absolute {p : OsStr} (habs : isAbsolute p = true) :
    components p = .rootDir :: (p.splitOn slash).filterMap component := by
  rw [components, habs]
  rfl

theorem isAbsolute_of_rootDir {p : OsStr} (h : .rootDir ∈ components p) :
    isAbsolute p = true := by
  simp only [components, List.mem_append, List.mem_filterMap] at h
  rcases h with (h | h) | ⟨s, _, h⟩
  · split at h
    · assumption
    · cases h
  · split at h <;> simp at h
  · unfold component at h
    split at h
    · cases h
    · split at h <;> cases h

theorem self_mem_ancestors (p : OsStr) : p ∈ ancestors p := by
  unfold ancestors
  split
  · exact List.mem_singleton_self p
  · exact List.mem_cons_self ..

/-- The ancestors of an absolute path are itself and what is written for the components
it begins with. -/
theorem mem_ancestors {p q : OsStr} (habs : isAbsolute p = true) (h : q ∈ ancestors p) :
    q = p ∨ ∃ cs, .rootDir :: cs <+: components p ∧ q = render (.rootDir :: cs) := by
  rw [ancestors, components_absolute habs] at h
  dsimp only at h
  rcases List.mem_cons.mp h with rfl | h
  · exact .inl rfl
  · obtain ⟨cs, hcs, rfl⟩ := List.mem_map.mp h
    obtain ⟨hpre, hne⟩ := List.mem_filter.mp (List.mem_reverse.mp hcs)
    rw [List.mem_inits] at hpre
    have hpre := hpre.trans (List.dropLast_prefix _)
    rw [components_absolute habs]
    cases cs with
    | nil => simp [habs] at hne
    | cons c cs =>
        obtain ⟨rfl, _⟩ := List.cons_prefix_cons.mp hpre
        exact .inr ⟨cs, hpre, rfl⟩

/-- A file name is one of the path's segments. -/
theorem fileName_mem {p name : OsStr} (h : fileName p = some name) : name ∈ p.splitOn slash := by
  unfold fileName at h
  split at h
  · next n hlast =>
      cases h
      have hmem := List.mem_of_getLast? hlast
      simp only [components, List.mem_append, List.mem_filterMap] at hmem
      rcases hmem with (hmem | hmem) | ⟨segment, hsegment, hname⟩
      · split at hmem <;> simp at hmem
      · split at hmem <;> simp at hmem
      · unfold component at hname
        split at hname
        · cases hname
        · split at hname
          · cases hname
          · cases hname
            exact hsegment
  · cases h

theorem isAbsolute_eq_false {p : OsStr} (h : slash ∉ p) : isAbsolute p = false := by
  cases p with
  | nil => rfl
  | cons c p =>
      have hc : c ≠ slash := fun heq => h (heq ▸ List.mem_cons_self ..)
      simpa [isAbsolute] using hc

/-- The parent of an absolute path is absolute. -/
theorem isAbsolute_parent {p dir : OsStr} (habs : isAbsolute p = true) (h : parent p = some dir) :
    isAbsolute dir = true := by
  have hcomponents : components p = .rootDir :: (p.splitOn slash).filterMap component := by
    rw [components, habs]
    rfl
  rw [parent, hcomponents] at h
  cases hrest : (p.splitOn slash).filterMap component with
  | nil =>
      rw [hrest] at h
      cases h
  | cons c rest =>
      rw [hrest] at h
      split at h
      · cases h
      · cases h
      · cases h
        rfl

/-- A name joined to a path is its last component. -/
theorem components_join {p name : OsStr} (hname : IsName name) :
    components (join p name) = components p ++ [Component.normal name] := by
  obtain ⟨hne, hdot, hdotDot, hslash⟩ := hname
  have hcomponent : [name].filterMap component = [.normal name] := by
    simp [component, hne, hdot, hdotDot]
  have hnothing : [([] : OsStr)].filterMap component = [] := by
    simp [component]
  have hrelative := isAbsolute_eq_false hslash
  have hsplit : ∀ x, (x ++ slash :: name).splitOn slash = x.splitOn slash ++ [name] := by
    intro x
    rw [List.splitOn_append_cons_self, List.splitOn_eq_singleton hslash]
  have hhead : ∀ (x : OsStr) (rest : List OsStr),
      (x.splitOn slash ++ rest).head? = (x.splitOn slash).head? :=
    fun x rest => List.head?_append_of_ne_nil _ (List.splitOn_ne_nil slash x)
  rw [join, hrelative, if_neg Bool.false_ne_true]
  by_cases hempty : p = []
  · subst hempty
    rw [if_pos (.inl rfl), List.nil_append]
    have hcur : ([name].head? == some dot) = false := by
      simp [hdot]
    rw [components, hrelative, List.splitOn_eq_singleton hslash, hcur, hcomponent]
    rfl
  · have habs : ∀ rest, isAbsolute (p ++ rest) = isAbsolute p := by
      intro rest
      rw [isAbsolute, List.head?_append_of_ne_nil _ hempty, isAbsolute]
    by_cases hlast : p.getLast? = some slash
    · rw [if_pos (.inr hlast)]
      obtain ⟨x, rfl⟩ : ∃ x, p = x ++ [slash] :=
        ⟨_, (List.dropLast_append_getLast? _ hlast).symm⟩
      have hp : (x ++ [slash]).splitOn slash = x.splitOn slash ++ [[]] := by
        rw [List.splitOn_append_cons_self, List.splitOn_nil]
      have hjoin : (x ++ [slash] ++ name).splitOn slash = x.splitOn slash ++ [name] := by
        rw [List.append_assoc, List.singleton_append, hsplit]
      simp only [components, habs, hjoin, hp, hhead, List.filterMap_append, hcomponent, hnothing,
        List.append_nil]
      simp only [List.append_assoc]
    · rw [if_neg (by simp [hempty, hlast]), List.append_assoc, List.singleton_append]
      simp only [components, habs, hsplit, hhead, List.filterMap_append, hcomponent,
        List.append_assoc]

theorem fileName_join {p name : OsStr} (hname : IsName name) :
    fileName (join p name) = some name := by
  rw [fileName, components_join hname, List.getLast?_concat]

end Path

end ShellfleetAgent.Lib
