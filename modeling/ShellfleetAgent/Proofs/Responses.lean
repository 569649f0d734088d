import ShellfleetAgent.Agent.Responses

/-!
# Responses at the cap

The cap is on the bytes that are read, and the limit on the JSON that they are sent as.
What decoding and escaping add is counted byte by byte, so it can be said of the bytes
when a response fits: bytes that are text without escapes do, whatever the cap lets
through, and a config file of control characters does not.
-/

namespace ShellfleetAgent.Agent

open ShellfleetAgent.Lib LogSources

/-! ## What a command's readers keep -/

namespace Exec

variable {s s' : State}

namespace State

@[simp] theorem setReader_self (s : State) (side : Side) (reader : Reader) :
    (s.setReader side reader).readers side = reader :=
  Function.update_self ..

@[simp] theorem setReader_other (s : State) {side other : Side} (h : other ≠ side)
    (reader : Reader) : (s.setReader side reader).readers other = s.readers other :=
  Function.update_of_ne h ..

end State

theorem go_eq_append {buf : Bytes} {chunks : List Bytes}
    (h : buf.length + chunks.flatten.length ≤ maxOutputBytes) :
    concatenated.go buf chunks = buf ++ chunks.flatten := by
  induction chunks generalizing buf with
  | nil =>
      rw [List.flatten_nil, List.append_nil]
      rfl
  | cons chunk chunks ih =>
      rw [List.flatten_cons, List.length_append] at h
      rw [concatenated.go, if_neg (by omega), ih, List.flatten_cons, List.append_assoc]
      rw [List.length_append]
      omega

theorem concatenate_eq {chunks : List Bytes} (h : chunks.flatten.length ≤ maxOutputBytes) :
    concatenate chunks = Text.fromUtf8Lossy chunks.flatten := by
  rw [concatenate, concatenated, go_eq_append (by rw [List.length_nil]; omega), List.nil_append]

/-- What a reader has sent, in all. -/
def State.kept (s : State) (side : Side) : Bytes := (s.readers side).sent.flatten

/-- The budget is what is left of the cap; and the result of a run is what its readers,
none of which goes on, have sent. -/
structure Inv (s : State) : Prop where
  budget : s.budget + (s.kept .stdout).length + (s.kept .stderr).length = maxOutputBytes
  stopped : ∀ result, s.phase = .finished result → ∀ side, (s.readers side).task ≠ .reading
  output : ∀ result, s.phase = .finished result →
    result.stdout = concatenate (s.readers .stdout).sent ∧
      result.stderr = concatenate (s.readers .stderr).sent

/-- Nothing is sent, and no reader or run starts again. -/
structure Quiet (s s' : State) : Prop where
  budget : s'.budget = s.budget
  sent : ∀ side, (s'.readers side).sent = (s.readers side).sent
  task : ∀ side, (s'.readers side).task = .reading → (s.readers side).task = .reading
  phase : ∀ result, s'.phase = .finished result → s.phase = .finished result

theorem Inv.quiet (hI : Inv s) (hq : Quiet s s') : Inv s' where
  budget := by
    rw [State.kept, State.kept, hq.budget, hq.sent, hq.sent]
    exact hI.budget
  stopped result hfinished side hreading :=
    hI.stopped result (hq.phase result hfinished) side (hq.task side hreading)
  output result hfinished := by
    rw [hq.sent, hq.sent]
    exact hI.output result (hq.phase result hfinished)

theorem quiet_setReader {side : Side} {reader : Reader}
    (hsent : reader.sent = (s.readers side).sent)
    (htask : reader.task = .reading → (s.readers side).task = .reading) :
    Quiet s (s.setReader side reader) := by
  refine ⟨rfl, fun other => ?_, fun other hreading => ?_, fun _ hfinished => hfinished⟩
  · by_cases hother : other = side
    · subst hother
      rw [State.setReader_self, hsent]
    · rw [State.setReader_other s hother]
  · by_cases hother : other = side
    · subst hother
      rw [State.setReader_self] at hreading
      exact htask hreading
    · rw [State.setReader_other s hother] at hreading
      exact hreading

/-! What a read does: what it sends is paid for out of the budget. -/

theorem read_budget (s : State) (side : Side) (n : Nat) :
    (s.read side n).budget = s.budget - min n s.budget ∧ (s.read side n).phase = s.phase := by
  unfold State.read
  dsimp only
  split
  · exact ⟨rfl, rfl⟩
  · exact ⟨rfl, rfl⟩

theorem read_other (s : State) {side other : Side} (h : other ≠ side) (n : Nat) :
    (s.read side n).kept other = s.kept other := by
  unfold State.read State.kept
  dsimp only
  split
  · show (State.readers (State.setReader _ side _) other).sent.flatten = _
    rw [State.setReader_other _ h]
  · rw [State.setReader_other _ h]

theorem read_kept (s : State) {side : Side} {n : Nat} (hn : n ≤ (s.readers side).pipe.length) :
    ((s.read side n).kept side).length = (s.kept side).length + min n s.budget := by
  have hbuf : ((s.readers side).pipe.take n).length = n := List.length_take_of_le hn
  unfold State.read
  dsimp only
  split
  · next hshort =>
      show (State.readers (State.setReader _ side _) side).sent.flatten.length = _
      rw [State.setReader_self, List.flatten_concat, List.length_append, List.length_take, hbuf]
      show _ = (s.readers side).sent.flatten.length + _
      omega
  · next hall =>
      show (State.readers (State.setReader _ side _) side).sent.flatten.length = _
      rw [State.setReader_self, List.flatten_concat, List.length_append, hbuf]
      show _ = (s.readers side).sent.flatten.length + _
      omega

theorem Inv.read (hI : Inv s) {side : Side} {n : Nat}
    (hreading : (s.readers side).task = .reading) (hn : n ≤ (s.readers side).pipe.length) :
    Inv (s.read side n) := by
  obtain ⟨hbudget, hphase⟩ := read_budget s side n
  have hrunning : ∀ result, (s.read side n).phase ≠ .finished result := by
    intro result hfinished
    rw [hphase] at hfinished
    exact hI.stopped result hfinished side hreading
  refine ⟨?_, fun _ h => absurd h (hrunning _), fun _ h => absurd h (hrunning _)⟩
  have hkept := read_kept s hn
  have hcap := hI.budget
  cases side with
  | stdout =>
      rw [hbudget, hkept, read_other s (nofun : Side.stderr ≠ .stdout)]
      omega
  | stderr =>
      rw [hbudget, hkept, read_other s (nofun : Side.stdout ≠ .stderr)]
      omega

theorem abortReader_sent (reader : Reader) : (State.abortReader reader).sent = reader.sent := by
  unfold State.abortReader
  split <;> rfl

theorem abortReader_task (reader : Reader) : (State.abortReader reader).task ≠ .reading := by
  unfold State.abortReader
  split
  · next hjoined =>
      rw [hjoined]
      exact nofun
  · exact nofun

theorem Inv.finish (hI : Inv s) (ms : Nat) :
    Inv { s with readers := fun side => State.abortReader (s.readers side)
                 phase := .finished (s.result ms) } := by
  refine ⟨?_, fun _ _ side => abortReader_task _, fun result hfinished => ?_⟩
  · simp only [State.kept, abortReader_sent]
    exact hI.budget
  · cases hfinished
    simp only [abortReader_sent]
    exact ⟨rfl, rfl⟩

theorem Inv.step {label : Label} (hI : Inv s) (hs : s.step label = some s') : Inv s' := by
  cases label with
  | write side data =>
      simp only [State.step] at hs
      split at hs
      · cases hs
      · cases hs
        exact hI.quiet (quiet_setReader rfl id)
  | close side =>
      cases hs
      exact hI.quiet (quiet_setReader rfl id)
  | read side n =>
      simp only [State.step] at hs
      split at hs
      · next hread =>
          cases hs
          exact hI.read hread.1 (by omega)
      · cases hs
  | readEnd side | readError side e =>
      simp only [State.step] at hs
      split at hs
      · cases hs
        exact hI.quiet (quiet_setReader rfl nofun)
      · cases hs
  | exited code | deadline | limit | reaped =>
      simp only [State.step] at hs
      split at hs
      · cases hs
        exact hI.quiet ⟨rfl, fun _ => rfl, fun _ => id, nofun⟩
      · cases hs
  | join side =>
      simp only [State.step] at hs
      split at hs
      · cases hs
        exact hI.quiet (quiet_setReader rfl nofun)
      · cases hs
  | finish ms =>
      simp only [State.step] at hs
      split at hs
      · cases hs
        exact hI.finish ms
      · cases hs

theorem start_spawned {fromStr : Str → Except Str (List Str)} {raw : Option Str} {command : Str}
    {spawn : Except Str Unit} {ms : Nat} (hstart : start fromStr raw command spawn ms = .inr s) :
    s = spawned := by
  unfold start at hstart
  split at hstart
  · cases hstart
  · split at hstart
    · split at hstart
      · cases hstart
      · exact (Sum.inr.inj hstart).symm
    · cases hstart

theorem inv (hr : exec.Reachable s) : Inv s := by
  refine hr.invariant ?_ ?_
  · rintro _ ⟨_, _, _, _, _, hstart⟩
    rw [start_spawned hstart]
    exact ⟨rfl, nofun, nofun⟩
  · intro s label s' _ hI _ hs
    exact hI.step hs

/-- What both readers have kept is within the cap, so nothing is cut off again. -/
theorem kept_le (hr : exec.Reachable s) :
    (s.kept .stdout).length + (s.kept .stderr).length ≤ maxOutputBytes := by
  have hbudget := (inv hr).budget
  omega

theorem finished_output {result : ExecResult} (hr : exec.Reachable s)
    (hfinished : s.phase = .finished result) :
    result.stdout = Text.fromUtf8Lossy (s.kept .stdout) ∧
      result.stderr = Text.fromUtf8Lossy (s.kept .stderr) := by
  have hkept := kept_le hr
  obtain ⟨hstdout, hstderr⟩ := (inv hr).output result hfinished
  rw [hstdout, hstderr]
  exact ⟨concatenate_eq (by rw [State.kept] at hkept; omega),
    concatenate_eq (by rw [State.kept, State.kept] at hkept; omega)⟩

end Exec

/-! ## What a response carries -/

namespace Responses

open Exec Privileged

variable {h : HostFiles} {osError : Str} {utf8Error : Bytes → Str}
  {opened : OsStr → Except Str Config.ConfigFile}

theorem fromUtf8_some {bytes : Bytes} {s : Str} (hs : Text.fromUtf8 bytes = some s) :
    s = Text.fromUtf8Lossy bytes := by
  unfold Text.fromUtf8 at hs
  split at hs
  · exact (Option.some.inj hs).symm
  · cases hs

/-- What is read is the whole file, within the limit, and UTF-8. -/
theorem readNoFollow_ok {file : Config.ConfigFile} {bytes : Bytes} {maxBytes : Nat} {content : Str}
    (hbytes : file.content = .ok bytes)
    (hread : Config.readNoFollow utf8Error (.ok file) maxBytes = .ok content) :
    bytes.length ≤ maxBytes ∧ content = Text.fromUtf8Lossy bytes := by
  unfold Config.readNoFollow at hread
  cases hfile : file.isFile with
  | error e =>
      simp only [hfile, bind, Except.bind] at hread
      cases hread
  | ok isFile =>
      simp only [hfile, hbytes, bind, Except.bind, throw, throwThe, MonadExceptOf.throw,
        List.length_take] at hread
      split at hread
      · cases hread
      · split at hread
        · cases hread
        · next hle =>
            rw [List.take_of_length_le (by omega)] at hread
            split at hread
            · next value hvalue =>
                cases hread
                exact ⟨by omega, fromUtf8_some hvalue⟩
            · cases hread

/-- A regular file within the limit is read, if it is UTF-8. -/
theorem readNoFollow_eq {file : Config.ConfigFile} {bytes : Bytes} {maxBytes : Nat} {content : Str}
    (hfile : file.isFile = .ok true) (hbytes : file.content = .ok bytes)
    (hle : bytes.length ≤ maxBytes) (hutf8 : Text.fromUtf8 bytes = some content) :
    Config.readNoFollow utf8Error (.ok file) maxBytes = .ok content := by
  unfold Config.readNoFollow
  simp only [hfile, hbytes, bind, Except.bind, List.take_of_length_le (Nat.le_succ_of_le hle),
    if_neg (Nat.not_lt.mpr hle), hutf8]
  rfl

theorem handleReadConfig_eq {path content : Str} {safePath : OsStr}
    (hpath : Config.checkRead h path = .ok safePath)
    (hread : Config.readNoFollow utf8Error (opened safePath) maxOutputBytes = .ok content) :
    handleReadConfig h osError utf8Error opened path = .readConfig path content none := by
  simp only [handleReadConfig, hpath, hread]

/-- What is accepted is not longer than the cap, and is all of the output. -/
theorem inspectNetwork_ok {id json : Str} {output : Output} {error : Option Str}
    (hinspect : inspectNetwork id (.ok output) = (true, json, error)) :
    Text.utf8Len json ≤ maxOutputBytes ∧ json = Text.fromUtf8Lossy output.stdout := by
  unfold inspectNetwork at hinspect
  split at hinspect
  · cases hinspect
  · cases hinspect
  · next heq =>
      cases heq
      dsimp only at hinspect
      split at hinspect
      · cases hinspect
      · next hle =>
          split at hinspect
          · next hsuccess =>
              cases hinspect
              exact ⟨by simpa [hsuccess] using hle, rfl⟩
          · cases hinspect

/-- The strings of a response are the bytes that it carries, decoded. -/
theorem Carries.payload_eq {r : Response} {payload : List Bytes}
    (hc : Carries h osError utf8Error opened r payload) :
    r.payload = payload.map Text.fromUtf8Lossy := by
  cases hc with
  | runCommand requestId hr hfinished =>
      obtain ⟨hstdout, hstderr⟩ := finished_output hr hfinished
      show [_, _] = [_, _]
      rw [hstdout, hstderr]
      rfl
  | readConfig hpath hopened hbytes hresponse =>
      simp only [handleReadConfig, hpath, hopened] at hresponse
      split at hresponse
      · next hread =>
          cases hresponse
          obtain ⟨_, hcontent⟩ := readNoFollow_ok hbytes hread
          show [_] = [_]
          rw [hcontent]
      · cases hresponse
  | dockerNetworkInspect hresponse =>
      injection hresponse with _ hsuccess hjson herror
      obtain ⟨_, hjson⟩ := inspectNetwork_ok (Prod.ext hsuccess (Prod.ext hjson herror))
      show [_] = [_]
      rw [hjson]

/-- What a response carries is within the cap. -/
theorem Carries.capped {r : Response} {payload : List Bytes}
    (hc : Carries h osError utf8Error opened r payload) :
    (payload.map List.length).sum ≤ maxOutputBytes := by
  cases hc with
  | @runCommand _ s _ hr hfinished =>
      have hkept := kept_le hr
      show (s.kept .stdout).length + ((s.kept .stderr).length + 0) ≤ _
      omega
  | @readConfig _ _ _ _ bytes hpath hopened hbytes hresponse =>
      simp only [handleReadConfig, hpath, hopened] at hresponse
      split at hresponse
      · next hread =>
          obtain ⟨hle, _⟩ := readNoFollow_ok hbytes hread
          show bytes.length + 0 ≤ _
          omega
      · cases hresponse
  | @dockerNetworkInspect id json output hresponse =>
      injection hresponse with _ hsuccess hjson herror
      obtain ⟨hle, hjson⟩ := inspectNetwork_ok (Prod.ext hsuccess (Prod.ext hjson herror))
      rw [hjson, Text.utf8Len_fromUtf8Lossy] at hle
      show output.stdout.length + 0 ≤ _
      omega

/-- UTF-8 without a character that is escaped. -/
structure Plain (bytes : Bytes) : Prop where
  short : bytes.countP (Text.onByte JsonText.isShort) = 0
  long : bytes.countP (Text.onByte JsonText.isLong) = 0
  utf8 : Text.illFormed bytes = []

theorem Plain.decodedSize {bytes : Bytes} (h : Plain bytes) :
    JsonText.decodedSize bytes = bytes.length := by
  rw [JsonText.decodedSize, h.short, h.long, h.utf8]
  rfl

theorem sum_plain {payload : List Bytes} (h : ∀ bytes ∈ payload, Plain bytes) :
    (payload.map fun bytes => 2 + JsonText.decodedSize bytes).sum =
      2 * payload.length + (payload.map List.length).sum := by
  induction payload with
  | nil => rfl
  | cons bytes payload ih =>
      rw [List.map_cons, List.sum_cons, (h bytes (List.mem_cons_self ..)).decodedSize,
        ih fun b hb => h b (List.mem_cons_of_mem _ hb), List.map_cons, List.sum_cons,
        List.length_cons]
      omega

/-- As much as the cap is left for the rest of a message: plain text always fits. -/
theorem Carries.fits_of_plain {r : Response} {payload : List Bytes}
    {around : Response.Kind → Bool → Nat} (hc : Carries h osError utf8Error opened r payload)
    (hplain : ∀ bytes ∈ payload, Plain bytes)
    (hrest : around r.kind r.error.isSome + r.metadataSize + 2 * payload.length ≤
      maxOutputBytes) : Fits around r payload := by
  have hcapped := hc.capped
  have hlimit : maxWsMessageBytes = maxOutputBytes + maxOutputBytes := rfl
  rw [Fits, sum_plain hplain, hlimit]
  omega

/-- The JSON of a response to what was accepted under the cap fits into a message if and
only if the bytes, what decoding and escaping add to them, and the rest of it do. -/
theorem response_fits_iff (h : HostFiles) (osError : Str) (utf8Error : Bytes → Str)
    (opened : OsStr → Except Str Config.ConfigFile) (toString : Response → Str)
    (around : Response.Kind → Bool → Nat) (hserde : Derived toString around) (r : Response)
    (payload : List Bytes) (hc : Carries h osError utf8Error opened r payload) :
    Text.utf8Len (toString r) ≤ maxWsMessageBytes ↔ Fits around r payload := by
  have hquotes : (r.payload.map fun s => Text.utf8Len (JsonText.quote s)).sum =
      (payload.map fun bytes => 2 + JsonText.decodedSize bytes).sum := by
    rw [hc.payload_eq, List.map_map]
    refine congrArg List.sum (List.map_congr_left fun bytes _ => ?_)
    exact JsonText.utf8Len_quote_fromUtf8Lossy bytes
  rw [hserde.size, hquotes, Fits]

/-! ## A network that fits, and a file that does not -/

def optional : Option Str → Str
  | some s => JsonText.quote s
  | none => "null".toList

def fields : Response → List (Str × Str)
  | .runCommand requestId result =>
      [("request_id".toList, JsonText.quote requestId),
        ("exit_code".toList, Text.decimalInt result.exitCode),
        ("stdout".toList, JsonText.quote result.stdout),
        ("stderr".toList, JsonText.quote result.stderr),
        ("error".toList, optional result.error),
        ("truncated".toList, JsonText.bool result.truncated),
        ("timed_out".toList, JsonText.bool result.timedOut),
        ("duration_ms".toList, Text.decimal result.durationMs)]
  | .readConfig path content error =>
      [("path".toList, JsonText.quote path), ("content".toList, JsonText.quote content),
        ("error".toList, optional error)]
  | .dockerNetworkInspect id success json error =>
      [("id".toList, JsonText.quote id), ("success".toList, JsonText.bool success),
        ("json".toList, JsonText.quote json), ("error".toList, optional error)]

def name : Response.Kind → Str
  | .runCommand => "RunCommandResponse".toList
  | .readConfig => "ReadConfigResponse".toList
  | .dockerNetworkInspect => "DockerNetworkInspectResponse".toList

def keys : Response.Kind → List (Str × Str)
  | .runCommand => ["request_id", "exit_code", "stdout", "stderr", "error", "truncated",
      "timed_out", "duration_ms"].map fun key => (key.toList, [])
  | .readConfig => ["path", "content", "error"].map fun key => (key.toList, [])
  | .dockerNetworkInspect => ["id", "success", "json", "error"].map fun key => (key.toList, [])

/-- The form that `serde` derives unless told otherwise. -/
def externallyTagged (r : Response) : Str := JsonText.record (name r.kind) (fields r)

/-- The place of an error that there is not. -/
def nullSize : Bool → Nat
  | true => 0
  | false => 4

def framing (kind : Response.Kind) (hasError : Bool) : Nat :=
  Text.utf8Len (JsonText.record (name kind) (keys kind)) + nullSize hasError

theorem utf8Len_optional (error : Option Str) : Text.utf8Len (optional error) =
    nullSize error.isSome + ((error.toList.map JsonText.quote).map Text.utf8Len).sum := by
  cases error with
  | none => decide
  | some e =>
      show Text.utf8Len (JsonText.quote e) = 0 + (Text.utf8Len (JsonText.quote e) + 0)
      omega

theorem derived_externallyTagged : Derived externallyTagged framing where
  size r := by
    have hkeys : JsonText.keysOnly (fields r) = keys r.kind := by
      cases r <;> rfl
    have hsizes : JsonText.sizes (fields r) = nullSize r.error.isSome +
        r.metadataSize + (r.payload.map fun s => Text.utf8Len (JsonText.quote s)).sum := by
      cases r with
      | runCommand requestId result =>
          have herror := utf8Len_optional result.error
          simp only [fields, JsonText.sizes, Response.error, Response.metadataSize,
            Response.metadata, Response.payload, List.map_append, List.sum_append, List.map_cons,
            List.map_nil, List.sum_cons, List.sum_nil]
          omega
      | readConfig path content error =>
          have herror := utf8Len_optional error
          simp only [fields, JsonText.sizes, Response.error, Response.metadataSize,
            Response.metadata, Response.payload, List.map_cons, List.map_nil, List.sum_cons,
            List.sum_nil]
          omega
      | dockerNetworkInspect id success json error =>
          have herror := utf8Len_optional error
          simp only [fields, JsonText.sizes, Response.error, Response.metadataSize,
            Response.metadata, Response.payload, List.map_append, List.sum_append, List.map_cons,
            List.map_nil, List.sum_cons, List.sum_nil]
          omega
    rw [externallyTagged, JsonText.utf8Len_record, hkeys, hsizes, framing]
    omega

def etcHost : HostFiles where
  fs := Fs.ofEntries [([os "etc"], .dir), ([os "etc", os "motd"], .file)] (by decide)
  cwd := []

def escapes (n : Nat) : Bytes := List.replicate n 0x1B

def escapesText (n : Nat) : Str := List.replicate n (Char.ofNat 0x1B)

/-- `/etc/motd` is a megabyte of escape characters. -/
def openedMotd (_ : OsStr) : Except Str Config.ConfigFile :=
  .ok ⟨.ok true, .ok (escapes maxOutputBytes)⟩

def bridge : Bytes := Text.toUtf8 "[\x7b\"Name\": \"bridge\"\x7d]\n".toList

theorem bridge_fits :
    Text.utf8Len (externallyTagged (handleDockerNetworkInspect "bridge".toList
      (.ok ⟨some 0, bridge, []⟩))) ≤ maxWsMessageBytes ↔
    Fits framing (handleDockerNetworkInspect "bridge".toList (.ok ⟨some 0, bridge, []⟩))
      [bridge] := by
  have hresponse : handleDockerNetworkInspect "bridge".toList (.ok ⟨some 0, bridge, []⟩) =
      .dockerNetworkInspect "bridge".toList true (Text.fromUtf8Lossy bridge) none := by
    decide
  rw [hresponse]
  exact response_fits_iff etcHost [] (fun _ => []) openedMotd externallyTagged framing
    derived_externallyTagged _ _ (.dockerNetworkInspect hresponse)

theorem fromUtf8_escapes (n : Nat) : Text.fromUtf8 (escapes n) = some (escapesText n) := by
  have hascii : ∀ b ∈ escapes n, b.toNat < 0x80 := by
    intro b hb
    rw [List.eq_of_mem_replicate hb]
    decide
  rw [Text.fromUtf8_ascii hascii, escapes, List.map_replicate]
  rfl

theorem length_escapes (n : Nat) : (escapes n).length = n := List.length_replicate

/-- Each is written with six characters. -/
theorem utf8Len_quote_escapes (n : Nat) :
    6 * n ≤ Text.utf8Len (JsonText.quote (escapesText n)) := by
  have hlong : JsonText.isLong (Char.ofNat 0x1B) = true := by decide
  have hsize : Text.utf8Len (escapesText n) = n := by
    induction n with
    | zero => rfl
    | succ n ih =>
        show 1 + Text.utf8Len (escapesText n) = n + 1
        omega
  rw [JsonText.utf8Len_quote, hsize, escapesText, List.countP_replicate, List.countP_replicate,
    if_pos hlong]
  omega

/-- The JSON of a config file is no shorter than its content. -/
theorem quote_le_readConfig (path content : Str) : Text.utf8Len (JsonText.quote content) ≤
    Text.utf8Len (externallyTagged (.readConfig path content none)) := by
  have hsize := derived_externallyTagged.size (.readConfig path content none)
  simp only [Response.payload, List.map_cons, List.map_nil, List.sum_cons, List.sum_nil] at hsize
  omega

/-- The file is read, and its JSON is longer than a message may be. -/
theorem escapes_too_long : ∃ content,
    handleReadConfig etcHost [] (fun _ => []) openedMotd "/etc/motd".toList =
      .readConfig "/etc/motd".toList content none ∧
    Carries etcHost [] (fun _ => []) openedMotd (.readConfig "/etc/motd".toList content none)
      [escapes maxOutputBytes] ∧
    maxWsMessageBytes <
      Text.utf8Len (externallyTagged (.readConfig "/etc/motd".toList content none)) := by
  have hpath : Config.checkRead etcHost "/etc/motd".toList = .ok (os "/etc/motd") := by decide
  have hread : Config.readNoFollow (fun _ => []) (openedMotd (os "/etc/motd")) maxOutputBytes =
      .ok (escapesText maxOutputBytes) :=
    readNoFollow_eq rfl rfl (Nat.le_of_eq (length_escapes _)) (fromUtf8_escapes _)
  have hresponse : handleReadConfig etcHost [] (fun _ => []) openedMotd "/etc/motd".toList =
      .readConfig "/etc/motd".toList (escapesText maxOutputBytes) none :=
    handleReadConfig_eq hpath hread
  refine ⟨_, hresponse, .readConfig hpath rfl rfl hresponse, ?_⟩
  have hquote := utf8Len_quote_escapes maxOutputBytes
  have hcontent := quote_le_readConfig "/etc/motd".toList (escapesText maxOutputBytes)
  have hlimit : maxWsMessageBytes < 6 * maxOutputBytes := by decide
  exact Nat.lt_of_lt_of_le hlimit (Nat.le_trans hquote hcontent)

end Responses

end ShellfleetAgent.Agent
