import ShellfleetAgent.Agent.Drift
import ShellfleetAgent.Proofs.AptList
import ShellfleetAgent.Proofs.ConfigStore

/-!
# What a drift snapshot shows

A row is cut at its tabs or its gaps, so what the host's tools print comes through whole, and
in order. The task of a snapshot runs beside everything else, so the host may be another at
each of its calls. A config file is looked at by the path that the policy has resolved, and
that path leads where the one in the request does; so a file that is written between two
snapshots has another fingerprint in the second, unless the digests of what it has held are
the same.
-/

namespace ShellfleetAgent.Agent.Drift

open ShellfleetAgent.Lib Text
open AptList (Blank Padding)
open Config (WellNamed LeadsToDenied afterRequests place put checkRead)

/-! ## Rows -/

/-- Two cells, and what is behind them. -/
structure TabLine where
  first : Str
  second : Str
  last : Str
  cells : ∀ cell ∈ [first, second], '\t' ∉ cell ∧ '\n' ∉ cell
  oneLine : '\n' ∉ last
  ended : last.getLast? ≠ some '\r'

def TabLine.text (l : TabLine) : Str := l.first ++ '\t' :: (l.second ++ '\t' :: l.last)

def TabLine.package (l : TabLine) : DriftPackage := ⟨l.first, l.second, l.last⟩

def TabLine.container (l : TabLine) : DriftContainer := ⟨l.first, l.second, l.last⟩

/-- A unit with its load state, its active state and its status, and its description. -/
structure UnitLine where
  before : Blank
  unit : Str
  load : Str
  active : Str
  sub : Str
  gaps : Fin 4 → Padding
  description : Str
  isWords : ∀ word ∈ [unit, load, active, sub], IsWord isWhitespace word
  oneLine : '\n' ∉ description

def UnitLine.words (l : UnitLine) : List (Str × Str) :=
  [(l.unit, (l.gaps 0).text), (l.load, (l.gaps 1).text), (l.active, (l.gaps 2).text),
    (l.sub, (l.gaps 3).text)]

def UnitLine.text (l : UnitLine) : Str := l.before.text ++ (spread l.words ++ l.description)

def UnitLine.service (l : UnitLine) : DriftService := ⟨l.unit, l.active, l.sub⟩

section Rows

theorem stripCr_text (l : TabLine) : stripCr l.text = l.text := by
  have hlast : stripCr l.last = l.last := if_neg l.ended
  have htext : l.text = (l.first ++ '\t' :: l.second) ++ '\t' :: l.last := by
    rw [TabLine.text, List.append_assoc]
    rfl
  rw [htext, stripCr_append (by decide), hlast]

theorem oneLine_text (l : TabLine) : '\n' ∉ l.text := by
  have hfirst := (l.cells l.first (by simp)).2
  have hsecond := (l.cells l.second (by simp)).2
  have hlast := l.oneLine
  rw [TabLine.text, List.mem_append, List.mem_cons, List.mem_append, List.mem_cons]
  rintro (h | h | h | h | h)
  · exact hfirst h
  · cases h
  · exact hsecond h
  · cases h
  · exact hlast h

theorem UnitLine.mem_words (l : UnitLine) : ∀ e ∈ l.words,
    IsWord isWhitespace e.1 ∧ ∃ i, e.2 = (l.gaps i).text := by
  rw [UnitLine.words, List.forall_mem_cons, List.forall_mem_cons, List.forall_mem_cons,
    List.forall_mem_singleton]
  exact ⟨⟨l.isWords _ (by simp), 0, rfl⟩, ⟨l.isWords _ (by simp), 1, rfl⟩,
    ⟨l.isWords _ (by simp), 2, rfl⟩, ⟨l.isWords _ (by simp), 3, rfl⟩⟩

theorem UnitLine.oneLine_text (l : UnitLine) : '\n' ∉ l.text := by
  have hspread : '\n' ∉ spread l.words := by
    refine not_mem_spread fun e he => ?_
    obtain ⟨hword, i, hgap⟩ := l.mem_words e he
    exact ⟨hword.not_mem rfl, hgap ▸ (l.gaps i).oneLine⟩
  rw [UnitLine.text, List.mem_append, List.mem_append]
  rintro (h | h | h)
  · exact l.before.oneLine h
  · exact hspread h
  · exact l.oneLine h

/-- The process has printed these lines, however it has ended. -/
def Printed {τ : Type} (text : τ → Str) (found : List τ) (answer : Except Str Output) : Prop :=
  ∃ status stderr, answer = .ok ⟨status, toUtf8 (unlines (found.map text)), stderr⟩

theorem rows_printed {τ ρ : Type} {text : τ → Str} {row : Str → Option ρ} {value : τ → ρ}
    {found : List τ} {answer : Except Str Output} (hline : ∀ l, '\n' ∉ text l)
    (hrow : ∀ l, row (stripCr (text l)) = some (value l)) (h : Printed text found answer) :
    rows row answer = found.map value := by
  obtain ⟨status, stderr, rfl⟩ := h
  have hrows : (row ∘ fun l => stripCr (text l)) = some ∘ value := funext hrow
  rw [rows, fromUtf8Lossy_encoded, lines_texts hline, List.filterMap_map, hrows,
    List.filterMap_eq_map]

end Rows

/-! ## Config files -/

/-- Where a path leads. -/
def leadsTo (d : Disk) (path : Str) : Option (List OsStr) :=
  match Config.check path with
  | .error _ => none
  | .ok lex => d.canonicalize (OsStr.ofChars lex)

/-- The row of a path: of the file it leads to, if the policy admits it and it can be read. -/
def DriftHost.config (digest : Bytes → Bytes) (h : DriftHost) (path : Str) :
    Option DriftConfigFile :=
  match checkRead h.disk.toHostFiles path, leadsTo h.disk path with
  | .ok _, some loc =>
      if h.readable loc then (h.disk.file loc).map fun bytes =>
        configFile digest path ⟨bytes.length, h.modified loc⟩ bytes
      else none
  | _, _ => none

/-- No file has changed. -/
structure DriftHost.SameFiles (h h' : DriftHost) : Prop where
  disk : h'.disk = h.disk
  modified : h'.modified = h.modified
  readable : h'.readable = h.readable

theorem DriftHost.SameFiles.refl (h : DriftHost) : h.SameFiles h := ⟨rfl, rfl, rfl⟩

variable {hosts : Nat → DriftHost} {n n' n'' : Nat}

/-- The row of a path whose first call is the `n`-th. There are up to three calls, and each may
find another host. -/
def rowAt (digest : Bytes → Bytes) (hosts : Nat → DriftHost) (n : Nat) (path : Str) :
    Option DriftConfigFile :=
  match checkRead (hosts n).disk.toHostFiles path with
  | .error _ => none
  | .ok p =>
    ((hosts (n + 1)).metadata p).bind fun stat =>
      ((hosts (n + 2)).read p).map fun content => configFile digest path stat content

/-- What is sent when the `n`-th call finds the `n`-th host. -/
def sentIn (hosts : Nat → DriftHost) (m : DriftM Unit) : List DriftSnapshotResponse :=
  responses (m.answeredFrom (fun n => (hosts n).answer) 0).1

/-- The run of a program from the `n`-th call to the `n'`-th, and that it has sent nothing. -/
def Runs {α : Type} (hosts : Nat → DriftHost) (n : Nat) (m : DriftM α) (n' : Nat) (a : α) :
    Prop :=
  ∃ hist, m.answeredFrom (fun n => (hosts n).answer) n = (hist, a) ∧ n + hist.length = n' ∧
    responses hist = []

section Runs

variable {α β : Type} {m : DriftM α} {k : α → DriftM β} {a : α} {b : β}

theorem Runs.le (hm : Runs hosts n m n' a) : n ≤ n' := by
  obtain ⟨hist, _, rfl, _⟩ := hm
  exact Nat.le_add_right ..

theorem Runs.pure : Runs hosts n (Pure.pure a) n a := ⟨[], rfl, rfl, rfl⟩

theorem Runs.bind (hm : Runs hosts n m n' a) (hk : Runs hosts n' (k a) n'' b) :
    Runs hosts n (m >>= k) n'' b := by
  obtain ⟨hist, hm, rfl, hq⟩ := hm
  obtain ⟨hist', hk, rfl, hq'⟩ := hk
  refine ⟨hist ++ hist', ?_, ?_, ?_⟩
  · rw [Prog.bind_eq, Prog.answeredFrom_bind _ hm, hk]
  · rw [List.length_append, Nat.add_assoc]
  · rw [responses, List.filterMap_append]
    exact List.append_eq_nil_iff.mpr ⟨hq, hq'⟩

/-- What is sent after a program that sends nothing. -/
theorem Runs.responses (hm : Runs hosts n m n' a) :
    responses ((m >>= k).answeredFrom (fun n => (hosts n).answer) n).1 =
      responses ((k a).answeredFrom (fun n => (hosts n).answer) n').1 := by
  obtain ⟨hist, hm, rfl, hq⟩ := hm
  rw [Prog.bind_eq, Prog.answeredFrom_bind _ hm, Drift.responses, List.filterMap_append]
  exact congrArg (· ++ _) hq

theorem runs_ask {c : DriftCall} (hc : ∀ response, c ≠ .send response) :
    Runs hosts n (ask c) (n + 1) ((hosts n).answer c) := by
  refine ⟨[⟨c, (hosts n).answer c⟩], rfl, rfl, ?_⟩
  cases c with
  | send response => exact absurd rfl (hc response)
  | _ => rfl

theorem runs_gathered {ρ : Type} (categories : List Str) (category : String)
    {gather : DriftM (List ρ)} {found : List ρ} (hg : Runs hosts n gather n' found) :
    ∃ n'', n ≤ n'' ∧ Runs hosts n (gathered categories category gather) n''
      (if Asked categories category then found else []) := by
  unfold gathered
  split
  · exact ⟨n', hg.le, hg⟩
  · exact ⟨n, Nat.le_refl n, .pure⟩

end Runs

section Configs

variable {digest : Bytes → Bytes} {h : DriftHost} {path : Str} {loc : List OsStr}

/-- The path that the policy has resolved leads where the path of the request does. -/
theorem canonicalize_checkRead (hnames : WellNamed h.disk) {p : OsStr}
    (hok : checkRead h.disk.toHostFiles path = .ok p) :
    ∃ loc, leadsTo h.disk path = some loc ∧ p = Path.ofLocation loc ∧
      h.disk.canonicalize p = some loc := by
  obtain ⟨lex, loc, s, hlex, hloc, rfl, hs, hallowed⟩ := Config.checkRead_ok hok
  obtain ⟨hsome, hlink⟩ := Config.canonicalize_found (Config.isAbsolute_check hlex) hloc
  have hne : loc ≠ [] := by
    rintro rfl
    cases hs
    exact absurd hallowed (by decide)
  refine ⟨loc, ?_, rfl, ?_⟩
  · rw [leadsTo, hlex]
    exact hloc
  · obtain ⟨node, hnode⟩ := Option.isSome_iff_exists.mp hsome
    have hroot : h.disk.fs.enterable false [] = true := by
      rw [Fs.enterable, h.disk.fs.root_dir]
    rw [Config.canonicalize_absolute rfl, Path.steps_ofLocation hne (hnames loc hsome)]
    refine Fs.follow_arrived ?_
    rw [Fs.walk, hroot, if_pos rfl]
    exact Fs.walk_names [] loc hnode fun target heq => hlink target (heq ▸ hnode)

variable (digest hosts)

theorem runs_fingerprint (n : Nat) (path : Str) :
    ∃ n', n < n' ∧
      Runs hosts n (driftConfigFingerprint digest path) n' (rowAt digest hosts n path) := by
  have hcheck : Runs hosts n (ask (.checkRead path)) (n + 1) _ := runs_ask fun _ h => by cases h
  rw [rowAt]
  cases hok : checkRead (hosts n).disk.toHostFiles path with
  | error e =>
      refine ⟨n + 1, by omega, hcheck.bind ?_⟩
      rw [DriftHost.answer, hok]
      exact .pure
  | ok p =>
      have hstat : Runs hosts (n + 1) (ask (.metadata p)) (n + 2) ((hosts (n + 1)).metadata p) :=
        runs_ask fun _ h => by cases h
      have hread : Runs hosts (n + 2) (ask (.read p)) (n + 3) ((hosts (n + 2)).read p) :=
        runs_ask fun _ h => by cases h
      dsimp only
      cases hmeta : (hosts (n + 1)).metadata p with
      | none =>
          rw [hmeta] at hstat
          refine ⟨n + 2, by omega, hcheck.bind ?_⟩
          rw [DriftHost.answer, hok]
          exact hstat.bind .pure
      | some stat =>
          rw [hmeta] at hstat
          refine ⟨n + 3, by omega, hcheck.bind ?_⟩
          rw [DriftHost.answer, hok]
          refine hstat.bind (hread.bind ?_)
          cases (hosts (n + 2)).read p with
          | none => exact .pure
          | some content => exact .pure

/-- The rows of the paths, one after another. -/
theorem runs_fingerprints (n : Nat) (paths : List Str) :
    ∃ (starts : List Nat) (n' : Nat), starts.length = paths.length ∧ (∀ m ∈ starts, n ≤ m) ∧
      starts.Pairwise (· < ·) ∧ Runs hosts n (fingerprints digest paths) n'
        ((starts.zip paths).filterMap fun e => rowAt digest hosts e.1 e.2) := by
  induction paths generalizing n with
  | nil => exact ⟨[], n, rfl, nofun, .nil, .pure⟩
  | cons path paths ih =>
      obtain ⟨n₁, hlt, hrow⟩ := runs_fingerprint hosts digest n path
      obtain ⟨starts, n', hlength, hle, hordered, hrows⟩ := ih n₁
      have hlater : ∀ m ∈ starts, n < m := fun m hm => Nat.lt_of_lt_of_le hlt (hle m hm)
      refine ⟨n :: starts, n', congrArg (· + 1) hlength, ?_, .cons hlater hordered, ?_⟩
      · exact List.forall_mem_cons.mpr ⟨Nat.le_refl n, fun m hm => Nat.le_of_lt (hlater m hm)⟩
      · refine hrow.bind (hrows.bind ?_)
        rw [List.zip_cons_cons, List.filterMap_cons]
        cases rowAt digest hosts n path with
        | none => exact .pure
        | some row => exact .pure

variable {digest hosts}

/-- While no file changes, the row is that of the file the path leads to. -/
theorem rowAt_same (hnames : WellNamed h.disk)
    (hsame : ∀ m, n ≤ m → m ≤ n + 2 → h.SameFiles (hosts m)) (path : Str) :
    rowAt digest hosts n path = h.config digest path := by
  rw [rowAt, DriftHost.config, (hsame n (Nat.le_refl n) (by omega)).disk]
  cases hcheck : checkRead h.disk.toHostFiles path with
  | error e => rfl
  | ok p =>
      obtain ⟨loc, hleads, rfl, hloc⟩ := canonicalize_checkRead hnames hcheck
      have hstat := hsame (n + 1) (by omega) (by omega)
      have hread := hsame (n + 2) (by omega) (by omega)
      rw [hleads]
      dsimp only
      rw [DriftHost.metadata, DriftHost.read, hstat.disk, hread.disk, hloc]
      dsimp only
      rw [hread.readable, hstat.modified]
      cases hnode : h.disk.fs.node loc with
      | none => simp [Disk.file, hnode]
      | some node =>
          cases node with
          | file => cases h.readable loc <;> simp [Disk.file, hnode]
          | dir => simp [Disk.file, hnode]
          | link target => simp [Disk.file, hnode]

end Configs

/-! ## The snapshot -/

/-- What a category tells of the answer of its tool. -/
structure Tells {τ ρ : Type} (asked : Prop) (text : τ → Str) (value : τ → ρ)
    (answer : Except Str Output) (told : List ρ) : Prop where
  printed : asked → ∀ found, Printed text found answer → told = found.map value
  failed : asked → ∀ e, answer = .error e → told = []
  unasked : ¬asked → told = []

section Snapshot

variable (digest : Bytes → Bytes)

theorem sent_snapshot (hosts : Nat → DriftHost) (snapshotId : Str)
    (categories configPaths : List Str) :
    ∃ (n₁ n₂ n₃ : Nat) (starts : List Nat), n₁ ≤ n₂ ∧ n₂ ≤ n₃ ∧ (∀ m ∈ starts, n₃ ≤ m) ∧
      starts.length = configPaths.length ∧ starts.Pairwise (· < ·) ∧
      sentIn hosts (snapshot digest snapshotId categories configPaths) =
        [{ snapshotId
           packages := if Asked categories "packages" then
             rows packageRow ((hosts 0).dpkgQuery dpkgArgs) else []
           services := if Asked categories "services" then
             rows serviceRow ((hosts n₁).systemctl systemctlArgs) else []
           containers := if Asked categories "containers" then
             rows containerRow ((hosts n₂).docker Docker.driftContainers) else []
           configs := if Asked categories "configs" then
             (starts.zip configPaths).filterMap fun e => rowAt digest hosts e.1 e.2 else []
           error := none }] := by
  have htool : ∀ {ρ : Type} (n : Nat) (c : DriftCall) (read : c.Answer → List ρ),
      (∀ response, c ≠ .send response) →
      Runs hosts n (do return read (← ask c)) (n + 1) (read ((hosts n).answer c)) :=
    fun n c read hc => (runs_ask hc).bind .pure
  obtain ⟨n₁, _, hpackages⟩ := runs_gathered categories "packages"
    (htool 0 (.dpkgQuery dpkgArgs) (rows packageRow) fun _ h => by cases h)
  obtain ⟨n₂, hle₂, hservices⟩ := runs_gathered categories "services"
    (htool n₁ (.systemctl systemctlArgs) (rows serviceRow) fun _ h => by cases h)
  obtain ⟨n₃, hle₃, hcontainers⟩ := runs_gathered categories "containers"
    (htool n₂ (.docker Docker.driftContainers) (rows containerRow) fun _ h => by cases h)
  obtain ⟨starts, n', hlength, hle, hordered, hrows⟩ :=
    runs_fingerprints hosts digest n₃ configPaths
  obtain ⟨n₄, _, hconfigs⟩ := runs_gathered categories "configs" hrows
  refine ⟨n₁, n₂, n₃, starts, hle₂, hle₃, hle, hlength, hordered, ?_⟩
  refine hpackages.responses.trans ?_
  refine hservices.responses.trans ?_
  refine hcontainers.responses.trans ?_
  exact hconfigs.responses

end Snapshot

/-! ## A host -/

def curlLine : TabLine where
  first := "curl".toList
  second := "8.5.0-2".toList
  last := "install ok installed".toList
  cells := by decide
  oneLine := by decide
  ended := by decide

def sshLine : UnitLine where
  before := AptList.noBlank
  unit := "ssh.service".toList
  load := "loaded".toList
  active := "active".toList
  sub := "running".toList
  gaps _ := AptList.space
  description := "OpenBSD Secure Shell server".toList
  isWords := forall_isWord rfl
  oneLine := by decide

/-- The files of `Config.linkedDisk`. Docker is not there. -/
def linkedHost : DriftHost where
  disk := Config.linkedDisk
  dirLen _ := 4096
  modified _ := some 5
  readable _ := true
  dpkgQuery _ := .ok ⟨some 0, toUtf8 (unlines [curlLine.text]), []⟩
  systemctl _ := .ok ⟨some 0, toUtf8 (unlines [sshLine.text]), []⟩
  docker _ := .error "No such file or directory".toList
  sent := .ok ()

/-- The host after the requests of `Config.linkedRequests`, of which one has written a part
of its content to the file. -/
def writtenHost : DriftHost :=
  { linkedHost with disk := afterRequests [] Config.linkedDisk Config.linkedRequests }

section Detected

variable {digest : Bytes → Bytes} {h h' : DriftHost} {path : Str} {loc : List OsStr}
  {bytes bytes' : Bytes} {f : DriftConfigFile} {osError : Str}

theorem hexDigit_inj : ∀ m < 16, ∀ n < 16, JsonText.hexDigit m = JsonText.hexDigit n → m = n := by
  decide

theorem hexText_inj {a b : Bytes} (h : hexText a = hexText b) : a = b := by
  induction a generalizing b with
  | nil =>
      cases b with
      | nil => rfl
      | cons y b => cases h
  | cons x a ih =>
      cases b with
      | nil => cases h
      | cons y b =>
          obtain ⟨hhigh, hrest⟩ := List.cons.inj h
          obtain ⟨hlow, hrest⟩ := List.cons.inj hrest
          have hx := x.toNat_lt
          have hy := y.toNat_lt
          have hhigh := hexDigit_inj _ (by omega) _ (by omega) hhigh
          have hlow := hexDigit_inj _ (by omega) _ (by omega) hlow
          rw [ih hrest, UInt8.toNat_inj.mp (by omega : x.toNat = y.toNat)]

theorem config_path (hf : h.config digest path = some f) : f.path = path := by
  unfold DriftHost.config at hf
  split at hf
  · split at hf
    · obtain ⟨bytes, _, rfl⟩ := Option.map_eq_some_iff.mp hf
      rfl
    · cases hf
  · cases hf

variable (digest) in
/-- The row of a path, as its place is written. -/
theorem config_place (hnames : WellNamed h.disk) (hslash : path.getLast? ≠ some '/')
    (hplace : place h.disk path = some loc) (hfile : h.disk.file loc = some bytes) :
    (¬LeadsToDenied h.disk.toHostFiles path → h.readable loc = true →
      h.config digest path = some (configFile digest path ⟨bytes.length, h.modified loc⟩ bytes)) ∧
    (LeadsToDenied h.disk.toHostFiles path → h.config digest path = none) := by
  obtain ⟨hallowed, hdenied⟩ := Config.checkRead_place hnames hslash hplace hfile
  constructor
  · intro hno hread
    obtain ⟨loc', hleads, heq, hloc'⟩ := canonicalize_checkRead hnames (hallowed hno)
    have hsome : ∀ {loc}, h.disk.canonicalize (Path.ofLocation loc) = some loc' →
        (h.disk.fs.node loc').isSome :=
      fun hloc => (Config.canonicalize_found rfl hloc).1
    have hnode : h.disk.fs.node loc = some .file := (Option.ite_none_right_eq_some.mp hfile).1
    obtain rfl : loc = loc' := by
      refine Path.ofLocation_inj (hnames loc ?_) (hnames loc' (hsome hloc')) heq
      rw [hnode]
      rfl
    rw [DriftHost.config, hallowed hno, hleads]
    dsimp only
    rw [if_pos hread, hfile]
    rfl
  · intro hl
    obtain ⟨reason, hcheck⟩ := hdenied hl
    rw [DriftHost.config, hcheck]

/-- The one row that a path can have. -/
theorem mem_rows {hosts : Nat → DriftHost} (hnames : WellNamed h.disk)
    (hsame : ∀ n, h.SameFiles (hosts n)) {starts : List Nat} {paths : List Str}
    (hf : f ∈ (starts.zip paths).filterMap fun e => rowAt digest hosts e.1 e.2)
    (hpath : f.path = path) : h.config digest path = some f := by
  obtain ⟨e, _, hrow⟩ := List.mem_filterMap.mp hf
  rw [rowAt_same hnames fun m _ _ => hsame m] at hrow
  rwa [← hpath, config_path hrow]

theorem row_mem {hosts : Nat → DriftHost} (hnames : WellNamed h.disk)
    (hsame : ∀ n, h.SameFiles (hosts n)) {starts : List Nat} {paths : List Str}
    (hlength : starts.length = paths.length) (hmem : path ∈ paths)
    (hconfig : h.config digest path = some f) :
    f ∈ (starts.zip paths).filterMap fun e => rowAt digest hosts e.1 e.2 := by
  obtain ⟨i, hi, rfl⟩ := List.mem_iff_getElem.mp hmem
  have hi' : i < starts.length := hlength ▸ hi
  refine List.mem_filterMap.mpr ⟨(starts[i], paths[i]), ?_, ?_⟩
  · refine List.mem_iff_getElem.mpr ⟨i, ?_, List.getElem_zip⟩
    rw [List.length_zip]
    exact Nat.lt_min.mpr ⟨hi', hi⟩
  · exact (rowAt_same hnames (fun m _ _ => hsame m) _).trans hconfig

variable (digest) in
/-- What is written between two snapshots, in the course of which no file changes, shows in the
second, unless the digest is the same; and a file that is denied is in neither. -/
theorem drift_detected {hosts hosts' : Nat → DriftHost} (hnames : WellNamed h.disk)
    (rs : List Config.ConfigRequest) (hafter : h'.disk = afterRequests osError h.disk rs)
    (hsame : ∀ n, h.SameFiles (hosts n)) (hsame' : ∀ n, h'.SameFiles (hosts' n))
    (hslash : path.getLast? ≠ some '/') (hplace : place h.disk path = some loc)
    (hbefore : h.disk.file loc = some bytes)
    (hwritten : rs.foldl (put h.disk) h.disk.file loc = some bytes') {paths : List Str}
    (hmem : path ∈ paths) (snapshotId snapshotId' : Str) {categories : List Str}
    (hasked : Asked categories "configs") :
    ∃ before after,
      sentIn hosts (snapshot digest snapshotId categories paths) = [before] ∧
      sentIn hosts' (snapshot digest snapshotId' categories paths) = [after] ∧
      (¬LeadsToDenied h.disk.toHostFiles path → h.readable loc = true → h'.readable loc = true →
        (∃ f ∈ before.configs, f.path = path) ∧ (∃ f' ∈ after.configs, f'.path = path) ∧
        ∀ f ∈ before.configs, ∀ f' ∈ after.configs, f.path = path → f'.path = path →
          f.size = bytes.length ∧ f'.size = bytes'.length ∧
            (f.hash = f'.hash ↔ digest bytes = digest bytes')) ∧
      (LeadsToDenied h.disk.toHostFiles path →
        ∀ f ∈ before.configs ++ after.configs, f.path ≠ path) := by
  obtain ⟨htree, hnames', hfile⟩ := Config.afterRequests_same osError hnames rs
  rw [← hafter] at htree hnames' hfile
  have hplace' : place h'.disk path = some loc :=
    (Config.place_same htree hnames').trans hplace
  have hdenied := Config.leadsToDenied_same htree hplace
  obtain ⟨hrow, hnone⟩ := config_place digest hnames hslash hplace hbefore
  obtain ⟨hrow', hnone'⟩ := config_place digest hnames' hslash hplace'
    (hfile ▸ hwritten)
  obtain ⟨_, _, _, starts, _, _, _, hlength, _, hsent⟩ :=
    sent_snapshot digest hosts snapshotId categories paths
  obtain ⟨_, _, _, starts', _, _, _, hlength', _, hsent'⟩ :=
    sent_snapshot digest hosts' snapshotId' categories paths
  refine ⟨_, _, hsent, hsent', fun hno hread hread' => ?_, fun hl f hf hpath => ?_⟩
  · dsimp only
    rw [if_pos hasked, if_pos hasked]
    have hrow := hrow hno hread
    have hrow' := hrow' (fun hl => hno (hdenied.mp hl)) hread'
    refine ⟨⟨_, row_mem hnames hsame hlength hmem hrow, rfl⟩,
      ⟨_, row_mem hnames' hsame' hlength' hmem hrow', rfl⟩, fun f hf f' hf' hpath hpath' => ?_⟩
    cases (mem_rows hnames hsame hf hpath).symm.trans hrow
    cases (mem_rows hnames' hsame' hf' hpath').symm.trans hrow'
    exact ⟨rfl, rfl, hexText_inj, congrArg hexText⟩
  · dsimp only at hf
    rw [if_pos hasked, if_pos hasked] at hf
    rcases List.mem_append.mp hf with hf | hf
    · cases (mem_rows hnames hsame hf hpath).symm.trans (hnone hl)
    · cases (mem_rows hnames' hsame' hf hpath).symm.trans (hnone' (hdenied.mpr hl))

end Detected

/-- A file that is written under one of its names, and shown under the other. -/
theorem drift_detected_written :
    ∃ before after,
      sentIn (fun _ => linkedHost) (snapshot id [] [] ["/etc/app/same".toList]) = [before] ∧
      sentIn (fun _ => writtenHost) (snapshot id [] [] ["/etc/app/same".toList]) = [after] ∧
      ∀ f ∈ before.configs, ∀ f' ∈ after.configs, f.path = "/etc/app/same".toList →
        f'.path = "/etc/app/same".toList → f.hash ≠ f'.hash := by
  obtain ⟨before, after, hbefore, hafter, hshown, _⟩ := @drift_detected id linkedHost writtenHost
    "/etc/app/same".toList [os "etc", os "app", os "same"] [1] [97] [] (fun _ => linkedHost)
    (fun _ => writtenHost) Config.linkedDisk_wellNamed Config.linkedRequests rfl
    (fun _ => .refl _) (fun _ => .refl _) (by decide) (by decide +kernel) (by decide +kernel)
    (by decide +kernel) ["/etc/app/same".toList] (List.mem_singleton_self _) [] [] [] (.inl rfl)
  obtain ⟨_, _, hrows⟩ := hshown
    (Config.linkedDisk_app "same".toList (by decide) (by decide) (by decide)) rfl rfl
  refine ⟨before, after, hbefore, hafter, fun f hf f' hf' hpath hpath' hsame => ?_⟩
  have hdigest := (hrows f hf f' hf' hpath hpath').2.2.mp hsame
  exact absurd hdigest (by decide)

end ShellfleetAgent.Agent.Drift
