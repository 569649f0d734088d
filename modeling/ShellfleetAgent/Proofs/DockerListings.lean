import ShellfleetAgent.Lib.Utf8
import ShellfleetAgent.Proofs.DockerRequests

/-!
# Listings arrive whole

Docker prints a row of a listing as a JSON object on a line of its own. Whichever way a
line is cut before it is parsed, such a line is parsed as it was printed; so a response
carries the rows that docker has listed, all of them and in their order.
-/

namespace ShellfleetAgent.Agent.DockerRequests

open ShellfleetAgent.Lib
open Docker (CommandLine)
open Reporters (SwarmRole)

variable {x : Reader} {f : (c : HostCall) → c.Answer}

/-! ## Rows -/

/-- The process has printed these rows, one to a line, with nothing to trim about them. -/
def Prints {ρ : Type} (parse : Str → Option ρ) (found : List ρ) (answer : Except Str Output) :
    Prop :=
  ∃ printed stderr, answer = .ok ⟨some 0, Text.toUtf8 (Text.unlines printed), stderr⟩ ∧
    (∀ line ∈ printed, '\n' ∉ line ∧ line ≠ [] ∧ Text.trim line = line) ∧
    printed.map parse = found.map some

section Rows

variable {ρ : Type} {parse : Str → Option ρ} {cut : Str → Str} {found : List ρ}
  {printed : List Str} {answer : Except Str Output}

theorem filterMap_rows (hcut : ∀ line, Text.trim line = line → cut line = line)
    (hlines : ∀ line ∈ printed, line ≠ [] ∧ Text.trim line = line)
    (hparse : printed.map parse = found.map some) :
    (printed.filterMap fun line => if Text.trim line = [] then none else parse (cut line)) =
      found := by
  induction printed generalizing found with
  | nil =>
      cases found with
      | nil => rfl
      | cons row found => cases hparse
  | cons line printed ih =>
      cases found with
      | nil => cases hparse
      | cons row found =>
          obtain ⟨hrow, hrest⟩ := List.cons.inj hparse
          obtain ⟨hne, htrim⟩ := hlines line (List.mem_cons_self ..)
          have hread : (if Text.trim line = [] then none else parse (cut line)) = some row := by
            rw [htrim, if_neg hne, hcut line htrim, hrow]
          rw [List.filterMap_cons, hread]
          exact congrArg _ (ih (fun line h => hlines line (List.mem_cons_of_mem _ h)) hrest)

/-- There is no carriage return to take off. -/
theorem map_stripCr_trimmed (h : ∀ line ∈ printed, Text.trim line = line) :
    printed.map Text.stripCr = printed := by
  induction printed with
  | nil => rfl
  | cons line printed ih =>
      have hline : Text.stripCr line = line :=
        if_neg (Text.getLast?_trimmed (h line (List.mem_cons_self ..)))
      rw [List.map_cons, hline, ih fun line' h' => h line' (List.mem_cons_of_mem _ h')]

theorem rows_printed (hcut : ∀ line, Text.trim line = line → cut line = line)
    (h : Prints parse found answer) :
    ∃ out, answer = .ok out ∧ out.success = true ∧
      rows cut parse (Text.fromUtf8Lossy out.stdout) = found := by
  obtain ⟨printed, stderr, rfl, hlines, hparse⟩ := h
  refine ⟨_, rfl, rfl, ?_⟩
  have hsplit : Text.lines (Text.unlines printed ++ []) = printed.map Text.stripCr ++
      Text.lines [] := Text.lines_unlines fun line h => (hlines line h).1
  rw [List.append_nil, map_stripCr_trimmed fun line h => (hlines line h).2.2] at hsplit
  rw [rows, Text.fromUtf8Lossy_encoded, hsplit]
  rw [show Text.lines [] = [] from rfl, List.append_nil]
  exact filterMap_rows hcut (fun line h => (hlines line h).2) hparse

end Rows

/-! ## Programs that are answered -/

/-- Answered by `f`, the program sends nothing and returns `a`. -/
def Runs {α : Type} (f : (c : HostCall) → c.Answer) (m : TaskM α) (a : α) : Prop :=
  ∃ h, m.run.answered f = (h, .ok a) ∧ responses h = []

section Runs

variable {α β : Type} {m : TaskM α} {k : α → TaskM β} {a : α} {b : β}

theorem Runs.pure : Runs f (Pure.pure a) a := ⟨[], rfl, rfl⟩

theorem Runs.bind (hm : Runs f m a) (hk : Runs f (k a) b) : Runs f (m >>= k) b := by
  obtain ⟨h, hm, hq⟩ := hm
  obtain ⟨h', hk, hq'⟩ := hk
  refine ⟨h ++ h', ?_, ?_⟩
  · rw [Prog.answered_ok f hm, hk]
  · rw [responses, List.filterMap_append]
    exact List.append_eq_nil_iff.mpr ⟨hq, hq'⟩

/-- What a program sends after another. -/
theorem Runs.responses (hm : Runs f m a) :
    responses ((m >>= k).run.answered f).1 = responses ((k a).run.answered f).1 := by
  obtain ⟨h, hm, hq⟩ := hm
  rw [Prog.answered_ok f hm, DockerRequests.responses, List.filterMap_append]
  exact congrArg (· ++ _) hq

theorem responses_send (response : DockerResponse) :
    responses ((send response).run.answered f).1 = [response] := rfl

theorem runs_output (cmd : CommandLine) : Runs f (output cmd) (f (.output cmd)) :=
  ⟨_, rfl, rfl⟩

theorem runs_listing {spawnError : String} {cmd : CommandLine} {read : Str → Except Str α}
    {out : Output} (hout : f (.output cmd) = .ok out) (hsuccess : out.success = true) :
    Runs f (listing spawnError cmd read) (read (Text.fromUtf8Lossy out.stdout)) := by
  refine Runs.bind (runs_output cmd) ?_
  rw [hout]
  dsimp only
  rw [if_pos hsuccess]
  exact .pure

/-- A listing of rows, which are then made into what the response has of them. -/
theorem runs_rows {ρ : Type} {spawnError : String} {cmd : CommandLine} {parse : Str → Option ρ}
    {cut : Str → Str} {found : List ρ} (make : List ρ → List β)
    (hcut : ∀ line, Text.trim line = line → cut line = line)
    (h : Prints parse found (f (.output cmd))) :
    Runs f (listing spawnError cmd fun stdout => .ok (make (rows cut parse stdout)))
      (.ok (make found)) := by
  obtain ⟨out, hout, hsuccess, hrows⟩ := rows_printed hcut h
  have hrun : Runs f (listing spawnError cmd fun stdout => .ok (make (rows cut parse stdout)))
      (.ok (make (rows cut parse (Text.fromUtf8Lossy out.stdout)))) :=
    runs_listing hout hsuccess
  rw [hrows] at hrun
  exact hrun

end Runs

/-! ## The listings -/

/-- What docker has to list. -/
structure Tables where
  containers : List DockerContainer
  images : List ImageRow
  networks : List NetworkRow
  volumes : List VolumeRow
  swarmStacks : List StackRow
  services : List SwarmService
  nodes : List SwarmNode
  stackServices : Str → List SwarmService
  stackTasks : Str → List SwarmTask

/-- Docker is there on an active manager, and lists its tables. -/
structure Lists (x : Reader) (f : (c : HostCall) → c.Answer) (t : Tables) : Prop where
  available : ∃ out, f (.output Docker.dockerAvailable) = .ok out ∧ out.success = true
  manager : ∃ out info, f (.output Docker.swarmRole) = .ok out ∧ out.success = true ∧
    x.info (Text.fromUtf8Lossy out.stdout) = some info ∧ roleOf info = .manager
  containers : Prints x.container t.containers (f (.output Docker.listContainers))
  images : Prints x.image t.images (f (.output Docker.listImages))
  networks : Prints x.network t.networks (f (.output Docker.listNetworks))
  volumes : Prints x.volume t.volumes (f (.output Docker.listVolumes))
  swarmStacks : Prints x.stack t.swarmStacks (f (.output Docker.listStacks))
  services : Prints x.service t.services (f (.output Docker.listSwarmServices))
  nodes : Prints x.node t.nodes (f (.output Docker.listSwarmNodes))
  stackServices : ∀ name cmd, Docker.stackServices name = .ok cmd →
    Prints x.stackService (t.stackServices name) (f (.output cmd))
  stackTasks : ∀ name cmd, Docker.stackTasks name = .ok cmd →
    Prints x.stackTask (t.stackTasks name) (f (.output cmd))

/-- The response that shows a table, for the requests that list one. -/
def shown (x : Reader) (t : Tables) : DockerRequest → Option DockerResponse
  | .imageList => some (.imageList true (t.images.map (ImageRow.image x)) none)
  | .networkList => some (.networkList true (t.networks.map NetworkRow.network) none)
  | .volumeList => some (.volumeList true (t.volumes.map (VolumeRow.volume x)) none)
  | .stackList => some (.stackList true true (t.swarmStacks.map (StackRow.stack x)) none)
  | .stackInspect name =>
    match Docker.validateObjectRef name with
    | .ok () => some (.stackInspect name true (t.stackServices name) (t.stackTasks name) [] none)
    | .error _ => none
  | .containerList => some (.containerList true .manager
      (t.containers.map fun c => { c with id := c.id.take 12 }) none)
  | .swarmList => some (.swarmList true true t.services t.nodes none)
  | _ => none

variable {t : Tables}

theorem runs_swarmRole (hl : Lists x f t) : Runs f (swarmRole x) .manager := by
  obtain ⟨version, hversion, hok⟩ := hl.available
  obtain ⟨out, info, hout, hsuccess, hinfo, hrole⟩ := hl.manager
  have havailable : Runs f dockerAvailable true := by
    refine Runs.bind (runs_output _) ?_
    rw [hversion]
    dsimp only
    rw [hok]
    exact .pure
  refine Runs.bind havailable ?_
  rw [if_pos rfl]
  refine Runs.bind (runs_output _) ?_
  rw [hout]
  dsimp only
  rw [if_pos hsuccess, hinfo]
  dsimp only
  rw [hrole]
  exact .pure

/-- An arm for managers, on one. -/
theorem responses_gated (hl : Lists x f t) {refused granted : TaskM Unit} :
    responses ((do
      let role ← swarmRole x
      if role ≠ .manager then refused else granted : TaskM Unit).run.answered f).1 =
        responses (granted.run.answered f).1 := by
  refine (runs_swarmRole hl).responses.trans ?_
  rw [if_neg (not_not.mpr rfl)]

theorem trimmed_of_trimmed (line : Str) (h : Text.trim line = line) : Text.trim line = line := h

theorem id_of_trimmed (line : Str) (_ : Text.trim line = line) : id line = line := rfl

theorem runs_listImages (hl : Lists x f t) :
    Runs f (listImages x) (.ok (t.images.map (ImageRow.image x))) :=
  runs_rows _ trimmed_of_trimmed hl.images

theorem runs_listNetworks (hl : Lists x f t) :
    Runs f (listNetworks x) (.ok (t.networks.map NetworkRow.network)) :=
  runs_rows _ id_of_trimmed hl.networks

theorem runs_listVolumes (hl : Lists x f t) :
    Runs f (listVolumes x) (.ok (t.volumes.map (VolumeRow.volume x))) :=
  runs_rows _ id_of_trimmed hl.volumes

theorem runs_listStacks (hl : Lists x f t) :
    Runs f (listStacks x) (.ok (t.swarmStacks.map (StackRow.stack x))) :=
  runs_rows _ id_of_trimmed hl.swarmStacks

theorem runs_listContainers (hl : Lists x f t) : Runs f (listContainers x)
    (.ok (t.containers.map fun c => { c with id := c.id.take 12 })) :=
  runs_rows _ trimmed_of_trimmed hl.containers

theorem runs_listSwarmServices (hl : Lists x f t) :
    Runs f (listSwarmServices x) (.ok t.services) :=
  runs_rows id trimmed_of_trimmed hl.services

theorem runs_listSwarmNodes (hl : Lists x f t) : Runs f (listSwarmNodes x) (.ok t.nodes) :=
  runs_rows id trimmed_of_trimmed hl.nodes

theorem runs_stackServices (hl : Lists x f t) {name : Str} {cmd : CommandLine}
    (hcmd : Docker.stackServices name = .ok cmd) :
    Runs f (stackServices x name) (.ok (t.stackServices name)) := by
  rw [stackServices, hcmd]
  exact runs_rows id id_of_trimmed (hl.stackServices name cmd hcmd)

theorem runs_stackTasks (hl : Lists x f t) {name : Str} {cmd : CommandLine}
    (hcmd : Docker.stackTasks name = .ok cmd) :
    Runs f (stackTasks x name) (.ok (t.stackTasks name)) := by
  rw [stackTasks, hcmd]
  exact runs_rows id id_of_trimmed (hl.stackTasks name cmd hcmd)

/-- Each of these requests is answered by what docker has listed, and by all of it. -/
theorem listings_delivered (hl : Lists x f t) {request : DockerRequest}
    {response : DockerResponse} (hshown : shown x t request = some response) :
    responses ((handle x request).run.answered f).1 = [response] := by
  cases request with
  | imageList =>
      cases hshown
      exact (runs_listImages hl).responses.trans (responses_send _)
  | networkList =>
      cases hshown
      exact (runs_listNetworks hl).responses.trans (responses_send _)
  | volumeList =>
      cases hshown
      exact (runs_listVolumes hl).responses.trans (responses_send _)
  | stackList =>
      cases hshown
      refine (responses_gated hl).trans ?_
      exact (runs_listStacks hl).responses.trans (responses_send _)
  | stackInspect name =>
      simp only [shown] at hshown
      split at hshown
      · next hname =>
          cases hshown
          obtain ⟨services, hservices⟩ : ∃ cmd, Docker.stackServices name = .ok cmd := by
            rw [Docker.stackServices, hname]
            exact ⟨_, rfl⟩
          obtain ⟨tasks, htasks⟩ : ∃ cmd, Docker.stackTasks name = .ok cmd := by
            rw [Docker.stackTasks, hname]
            exact ⟨_, rfl⟩
          refine (responses_gated hl).trans ?_
          refine (runs_stackServices hl hservices).responses.trans ?_
          exact (runs_stackTasks hl htasks).responses.trans (responses_send _)
      · cases hshown
  | containerList =>
      cases hshown
      refine (runs_swarmRole hl).responses.trans ?_
      exact (runs_listContainers hl).responses.trans (responses_send _)
  | swarmList =>
      cases hshown
      refine (responses_gated hl).trans ?_
      refine (runs_listSwarmServices hl).responses.trans ?_
      exact (runs_listSwarmNodes hl).responses.trans (responses_send _)
  | _ => cases hshown

/-- The lines of `docker images`. -/
def nginxLine : Str :=
  ("\x7b\"CreatedSince\":\"2 weeks ago\",\"ID\":\"sha256:0a1b\",\"Repository\":\"nginx\"," ++
    "\"Size\":\"0B\",\"Tag\":\"1.27\"\x7d").toList

def redisLine : Str :=
  ("\x7b\"CreatedSince\":\"3 days ago\",\"ID\":\"sha256:7c42\",\"Repository\":\"redis\"," ++
    "\"Size\":\"41B\",\"Tag\":\"8\"\x7d").toList

def nginxRow : ImageRow where
  id := "sha256:0a1b".toList
  repository := "nginx".toList
  tag := "1.27".toList
  size := "0B".toList
  createdSince := "2 weeks ago".toList
  createdAt := []

def redisRow : ImageRow where
  id := "sha256:7c42".toList
  repository := "redis".toList
  tag := "8".toList
  size := "41B".toList
  createdSince := "3 days ago".toList
  createdAt := []

def imageReader : Reader :=
  { managerReader with
    image := fun line =>
      if line = nginxLine then some nginxRow
      else if line = redisLine then some redisRow else none
    parseDockerSize := fun size => if size = "41B".toList then 41 else 0 }

/-- Two images, and nothing else. -/
def imageHost : (c : HostCall) → c.Answer
  | .output cmd => .ok ⟨some 0,
      if cmd.words = ["images"] then Text.toUtf8 (Text.unlines [redisLine, nginxLine]) else [], []⟩
  | .deploy _ => .ok ⟨some 0, [], []⟩
  | .send _ => .ok ()

theorem prints_nothing {ρ : Type} {parse : Str → Option ρ} {cmd : CommandLine}
    (hcmd : cmd.words ≠ ["images"]) : Prints parse [] (imageHost (.output cmd)) := by
  refine ⟨[], [], ?_, fun line h => ?_, rfl⟩
  · rw [imageHost, if_neg hcmd]
    rfl
  · cases h

theorem image_nginxLine : imageReader.image nginxLine = some nginxRow := by
  simp only [imageReader, if_true]

theorem image_redisLine : imageReader.image redisLine = some redisRow := by
  have hother : redisLine ≠ nginxLine := by decide
  simp only [imageReader, if_neg hother, if_true]

theorem imageHost_lists : Lists imageReader imageHost
    ⟨[], [redisRow, nginxRow], [], [], [], [], [], fun _ => [], fun _ => []⟩ where
  available := ⟨_, rfl, rfl⟩
  manager := ⟨_, _, rfl, rfl, rfl, rfl⟩
  containers := prints_nothing (by decide)
  images := by
    refine ⟨[redisLine, nginxLine], [], rfl, ?_, ?_⟩
    · refine List.forall_mem_cons.mpr ⟨?_, List.forall_mem_singleton.mpr ?_⟩
      · decide
      · decide
    · rw [List.map_cons, List.map_singleton, image_redisLine, image_nginxLine]
      rfl
  networks := prints_nothing (by decide)
  volumes := prints_nothing (by decide)
  swarmStacks := prints_nothing (by decide)
  services := prints_nothing (by decide)
  nodes := prints_nothing (by decide)
  stackServices name cmd hcmd := by
    rw [eq_of_checked hcmd]
    have hwords : ["stack", "services"] ≠ ["images"] := by decide
    exact prints_nothing hwords
  stackTasks name cmd hcmd := by
    rw [eq_of_checked hcmd]
    have hwords : ["stack", "ps"] ≠ ["images"] := by decide
    exact prints_nothing hwords

theorem listings_delivered_images :
    responses ((handle imageReader .imageList).run.answered imageHost).1 =
      [.imageList true
        [⟨"7c42".toList, "redis".toList, "8".toList, 41, "3 days ago".toList⟩,
          ⟨"0a1b".toList, "nginx".toList, "1.27".toList, 0, "2 weeks ago".toList⟩] none] :=
  listings_delivered imageHost_lists rfl

end ShellfleetAgent.Agent.DockerRequests
