import ShellfleetAgent.Agent.Multipart
import ShellfleetAgent.Lib.Lists

/-!
# What a multipart upload leaves in the bucket

The parts, put together, are the file, however the reads cut it: what is uploaded, what is
in the buffer and what is still to be read are the file at every step. And the session is
closed one way or the other, unless it is the closing itself that fails.
-/

namespace ShellfleetAgent.Agent.Backup.Multipart

open ShellfleetAgent.Lib

variable {s s' : State} {label : Label} {path : OsStr} {content : Bytes} {uploadId : Str}

/-! ## The uploads of a log -/

structure Upload where
  uploadId : Str
  partNumber : Int32
  body : Bytes
  eTag : Option Str

def Upload.part (u : Upload) : CompletedPart := ⟨u.eTag, u.partNumber⟩

def Call.upload : Call → Option Upload
  | .uploadPart uploadId partNumber body (.ok eTag) => some ⟨uploadId, partNumber, body, eTag⟩
  | _ => none

/-- The parts that S3 has taken, in order. -/
def uploads (calls : List Call) : List Upload := calls.filterMap Call.upload

@[simp] theorem uploads_create (calls : List Call) (result : Except Str (Option Str)) :
    uploads (calls ++ [Call.create result]) = uploads calls := by
  simp [uploads, Call.upload]

@[simp] theorem uploads_complete (calls : List Call) (parts : List CompletedPart)
    (result : Except Str Unit) :
    uploads (calls ++ [Call.complete uploadId parts result]) = uploads calls := by
  simp [uploads, Call.upload]

@[simp] theorem uploads_abort (calls : List Call) (result : Except Str Unit) :
    uploads (calls ++ [Call.abort uploadId result]) = uploads calls := by
  simp [uploads, Call.upload]

@[simp] theorem uploads_uploaded (calls : List Call) (partNumber : Int32) (body : Bytes)
    (eTag : Option Str) :
    uploads (calls ++ [Call.uploadPart uploadId partNumber body (.ok eTag)]) =
      uploads calls ++ [⟨uploadId, partNumber, body, eTag⟩] := by
  simp [uploads, Call.upload]

@[simp] theorem uploads_refused (calls : List Call) (partNumber : Int32) (body : Bytes)
    (e : Str) :
    uploads (calls ++ [Call.uploadPart uploadId partNumber body (.error e)]) = uploads calls := by
  simp [uploads, Call.upload]

/-! ## The buffer -/

@[simp] theorem length_body (s : State) : s.body.length = s.filled := by
  simp [State.body]

theorem fill_zero (s : State) : s.fill 0 = s := by
  have hbuf : (fun i => if s.filled ≤ i ∧ i < s.filled + 0 then
      s.rest.getD (i - s.filled) 0 else s.buf i) = s.buf := by
    funext i
    exact if_neg (by omega)
  rw [State.fill, hbuf]
  rfl

/-- A read goes behind what the buffer holds already. -/
theorem body_fill {n : Nat} (hn : n ≤ s.rest.length) :
    (s.fill n).body = s.body ++ s.rest.take n := by
  show (List.range (s.filled + n)).map _ = (List.range s.filled).map s.buf ++ _
  rw [List.range_add, List.map_append, List.map_map]
  congr 1
  · refine List.map_congr_left fun i hi => ?_
    have hlt := List.mem_range.mp hi
    exact if_neg (by omega)
  · refine List.ext_getElem (by simp [hn]) fun i hi hi' => ?_
    have hlt : i < n := by simpa using hi
    have hbuf : (s.fill n).buf (s.filled + i) = s.rest.getD (s.filled + i - s.filled) 0 :=
      if_pos (by omega)
    rw [List.getElem_map, List.getElem_range, Function.comp_apply, List.getElem_take, hbuf,
      Nat.add_sub_cancel_left]
    simp [List.getD_eq_getElem?_getD, List.getElem?_eq_getElem (Nat.lt_of_lt_of_le hlt hn)]

/-! ## What a step does -/

/-- The steps. A `chunk` is a full one, or what there was when the file ended. -/
inductive Stepped (s : State) : Label → State → Prop
  | notCreated (result : Except Str (Option Str)) (e : Str) (hphase : s.phase = .creating)
      (hresult : ∀ uploadId, result ≠ .ok (some uploadId)) :
      Stepped s (.create result) { s.call (.create result) with phase := .returned (.error e) }
  | created (uploadId : Str) (hphase : s.phase = .creating) :
      Stepped s (.create (.ok (some uploadId)))
        { s.call (.create (.ok (some uploadId))) with phase := .opening uploadId }
  | opened (uploadId : Str) (hphase : s.phase = .opening uploadId) :
      Stepped s (.opened (.ok ())) { s with phase := .reading uploadId }
  | openFails (uploadId e e' : Str) (hphase : s.phase = .opening uploadId) :
      Stepped s (.opened (.error e)) (s.partsFail uploadId e')
  | filled (uploadId : Str) (n : Nat) (hphase : s.phase = .reading uploadId) (hpos : 0 < n)
      (hn : n ≤ s.rest.length) (hroom : s.filled + n < multipartChunk) :
      Stepped s (.read n) (s.fill n)
  | chunk (uploadId : Str) (n : Nat) (hphase : s.phase = .reading uploadId)
      (hn : n ≤ s.rest.length) (hroom : n ≤ multipartChunk - s.filled)
      (hfilled : s.filled + n ≠ 0)
      (hend : s.filled + n = multipartChunk ∨ (s.fill n).rest = []) :
      Stepped s (.read n)
        { s.fill n with
          total := s.total + UInt64.ofNat (s.filled + n), phase := .uploading uploadId }
  | eof (uploadId : Str) (hphase : s.phase = .reading uploadId) (hrest : s.rest = [])
      (hfilled : s.filled = 0) :
      Stepped s (.read 0) { s with phase := .completing uploadId }
  | readFails (uploadId e e' : Str) (hphase : s.phase = .reading uploadId) :
      Stepped s (.readFails e) (s.partsFail uploadId e')
  | uploaded (uploadId : Str) (eTag : Option Str) (hphase : s.phase = .uploading uploadId) :
      Stepped s (.uploadPart (.ok eTag))
        ((s.call (.uploadPart uploadId s.partNumber s.body (.ok eTag))).partUploaded
          uploadId eTag)
  | partFails (uploadId e e' : Str) (hphase : s.phase = .uploading uploadId) :
      Stepped s (.uploadPart (.error e))
        ((s.call (.uploadPart uploadId s.partNumber s.body (.error e))).partsFail uploadId e')
  | completed (uploadId : Str) (hphase : s.phase = .completing uploadId) :
      Stepped s (.complete (.ok ()))
        { s.call (.complete uploadId s.parts (.ok ())) with phase := .returned (.ok s.total) }
  | completeFails (uploadId e e' : Str) (hphase : s.phase = .completing uploadId) :
      Stepped s (.complete (.error e))
        { s.call (.complete uploadId s.parts (.error e)) with phase := .returned (.error e') }
  | aborted (uploadId e : Str) (result : Except Str Unit)
      (hphase : s.phase = .aborting uploadId e) :
      Stepped s (.abort result)
        { s.call (.abort uploadId result) with phase := .returned (.error e) }

/-- A read that ends the inner loop. -/
theorem read_stepped {n : Nat} (hphase : s.phase = .reading uploadId) (hn : n ≤ s.rest.length)
    (hroom : n ≤ multipartChunk - s.filled) (hend : n = 0 → s.rest = [])
    (hlast : n = 0 ∨ s.filled + n = multipartChunk) :
    Stepped s (.read n) ((s.fill n).chunkRead uploadId) := by
  by_cases hfilled : s.filled + n = 0
  · obtain ⟨hnone, hzero⟩ := Nat.add_eq_zero_iff.mp hfilled
    subst hzero
    rw [fill_zero, State.chunkRead, if_pos hnone]
    exact .eof uploadId hphase (hend rfl) hnone
  · have hread : (s.fill n).chunkRead uploadId =
        { s.fill n with
          total := s.total + UInt64.ofNat (s.filled + n), phase := .uploading uploadId } :=
      if_neg hfilled
    rw [hread]
    refine .chunk uploadId n hphase hn hroom hfilled ?_
    cases hlast with
    | inl hzero =>
        subst hzero
        exact .inr (hend rfl)
    | inr hfull => exact .inl hfull

theorem step_stepped (hs : multipart.step s label = some s') : Stepped s label s' := by
  change s.step label = some s' at hs
  cases label with
  | create result =>
      simp only [State.step] at hs
      split at hs
      · next hphase =>
          match result with
          | .error e =>
              cases hs
              exact .notCreated _ _ hphase nofun
          | .ok none =>
              cases hs
              exact .notCreated _ _ hphase nofun
          | .ok (some uploadId) =>
              cases hs
              exact .created uploadId hphase
      · cases hs
  | opened result =>
      simp only [State.step] at hs
      split at hs
      · next uploadId hphase =>
          match result with
          | .ok () =>
              cases hs
              exact .opened uploadId hphase
          | .error e =>
              cases hs
              exact .openFails uploadId e _ hphase
      · cases hs
  | read n =>
      simp only [State.step] at hs
      split at hs
      · next uploadId hphase =>
          split at hs
          · next hn =>
              obtain ⟨hle, hend⟩ := hn
              obtain ⟨hrest, hroom⟩ := Nat.le_min.mp hle
              split at hs
              · next hlast =>
                  cases hs
                  exact read_stepped hphase hrest hroom hend hlast
              · next hlast =>
                  cases hs
                  exact .filled uploadId n hphase (by omega) hrest (by omega)
          · cases hs
      · cases hs
  | readFails e =>
      simp only [State.step] at hs
      split at hs
      · next uploadId hphase =>
          cases hs
          exact .readFails uploadId e _ hphase
      · cases hs
  | uploadPart result =>
      simp only [State.step] at hs
      split at hs
      · next uploadId hphase =>
          match result with
          | .ok eTag =>
              cases hs
              exact .uploaded uploadId eTag hphase
          | .error e =>
              cases hs
              exact .partFails uploadId e _ hphase
      · cases hs
  | complete result =>
      simp only [State.step] at hs
      split at hs
      · next uploadId hphase =>
          match result with
          | .ok () =>
              cases hs
              exact .completed uploadId hphase
          | .error e =>
              cases hs
              exact .completeFails uploadId e _ hphase
      · cases hs
  | abort result =>
      simp only [State.step] at hs
      split at hs
      · next uploadId e hphase =>
          cases hs
          exact .aborted uploadId e result hphase
      · cases hs

/-! ## An upload comes to an end -/

/-- What is at most still to do. -/
def State.work (s : State) : Nat :=
  match s.phase with
  | .creating => 3 * s.rest.length + 2 * min s.filled 1 + 4
  | .opening _ => 3 * s.rest.length + 2 * min s.filled 1 + 3
  | .reading _ => 3 * s.rest.length + 2 * min s.filled 1 + 2
  | .uploading _ => 3 * s.rest.length + 3
  | .completing _ | .aborting _ _ => 1
  | .returned _ => 0

theorem step_work (hs : multipart.step s label = some s') : s'.work < s.work := by
  have hstepped := step_stepped hs
  unfold State.work
  cases hstepped with
  | filled uploadId n hphase hpos hn hroom =>
      have hrest : (s.fill n).rest.length = s.rest.length - n := List.length_drop
      have hphase' : (s.fill n).phase = .reading uploadId := hphase
      rw [hphase, hphase']
      dsimp only
      omega
  | chunk uploadId n hphase hn hroom hfilled hend =>
      have hrest : (s.fill n).rest.length = s.rest.length - n := List.length_drop
      rw [hphase]
      dsimp only
      omega
  | notCreated result e hphase | created uploadId hphase | opened uploadId hphase
  | openFails uploadId e e' hphase | eof uploadId hphase hrest hfilled
  | readFails uploadId e e' hphase | uploaded uploadId eTag hphase
  | partFails uploadId e e' hphase | completed uploadId hphase
  | completeFails uploadId e e' hphase | aborted uploadId e result hphase =>
      simp [hphase, State.call, State.partsFail, State.partUploaded]

theorem step_content (hs : multipart.step s label = some s') : s'.content = s.content := by
  cases step_stepped hs <;> rfl

theorem work_le (hr : multipart.Reachable s) : s.work ≤ 3 * s.content.length + 4 := by
  refine hr.invariant (I := fun s => s.work ≤ 3 * s.content.length + 4) ?_ ?_
  · intro s hinit
    obtain ⟨path, content, hstart⟩ := hinit
    rw [hstart]
    exact Nat.le_refl _
  · intro s label s' _ hle _ hs
    have hless := step_work hs
    rw [step_content hs]
    omega

/-! ## The parts are the file -/

/-- No call fails, and S3 takes no part whose number is not positive. -/
def Succeeds (s : State) : Label → Prop
  | .create (.ok (some _)) | .opened (.ok ()) | .read _ | .complete (.ok ()) | .abort (.ok ()) =>
      True
  | .uploadPart (.ok _) => 0 < s.partNumber
  | _ => False

instance (s : State) (label : Label) : Decidable (Succeeds s label) :=
  match label with
  | .create (.ok (some _)) | .opened (.ok ()) | .read _ | .complete (.ok ()) | .abort (.ok ()) =>
      .isTrue trivial
  | .uploadPart (.ok _) => inferInstanceAs (Decidable (0 < s.partNumber))
  | .create (.error _) | .create (.ok none) | .opened (.error _) | .readFails _
  | .uploadPart (.error _) | .complete (.error _) | .abort (.error _) => .isFalse nofun

def bodies (calls : List Call) : List Bytes := (uploads calls).map Upload.body

def Phase.session : Phase → Option Str
  | .creating | .returned _ => none
  | .opening uploadId | .reading uploadId | .uploading uploadId | .completing uploadId
  | .aborting uploadId _ => some uploadId

/-- What `upload_parts` returns to, when it has read the whole of the file. -/
structure Uploaded (uploadId : Str) (s : State) : Prop where
  session : ∀ u ∈ uploads s.calls, u.uploadId = uploadId
  content : (bodies s.calls).flatten = s.content
  numbers : (uploads s.calls).map (fun u => u.partNumber.toInt) =
    (List.range (uploads s.calls).length).map fun i : Nat => (i : Int) + 1
  chunked : Chunked multipartChunk (bodies s.calls)
  parts : s.parts = (uploads s.calls).map Upload.part
  total : s.total.toNat = s.content.length

/-- The buffer, by the call that is next. -/
def Staged (s : State) : Prop :=
  match s.phase with
  | .creating | .opening _ => s.filled = 0 ∧ uploads s.calls = []
  | .reading _ => s.filled < multipartChunk
  | .uploading _ => 0 < s.filled ∧ s.filled ≤ multipartChunk ∧
      (s.filled = multipartChunk ∨ s.rest = [])
  | .completing _ | .returned _ => s.filled = 0 ∧ s.rest = []
  | .aborting _ _ => False

/-- The bytes in `total` that are not in a part yet. -/
def State.pending (s : State) : Nat :=
  match s.phase with
  | .uploading _ => s.filled
  | _ => 0

theorem pending_eq_zero (hphase : ∀ uploadId, s.phase ≠ .uploading uploadId) :
    s.pending = 0 := by
  unfold State.pending
  split
  · next uploadId huploading => exact absurd huploading (hphase uploadId)
  · rfl

theorem pending_reading (hphase : s.phase = .reading uploadId) : s.pending = 0 :=
  pending_eq_zero (by rw [hphase]; nofun)

theorem pending_uploading (hphase : s.phase = .uploading uploadId) : s.pending = s.filled := by
  rw [State.pending, hphase]

structure Inv (s : State) : Prop where
  session : ∀ uploadId, s.phase.session = some uploadId →
    ∀ u ∈ uploads s.calls, u.uploadId = uploadId
  content : (bodies s.calls).flatten ++ (s.body ++ s.rest) = s.content
  numbers : (uploads s.calls).map (fun u => u.partNumber.toInt) =
    (List.range (uploads s.calls).length).map fun i : Nat => (i : Int) + 1
  next : s.partNumber = Int32.ofNat ((uploads s.calls).length + 1)
  few : (uploads s.calls).length < 0x80000000
  parts : s.parts = (uploads s.calls).map Upload.part
  cut : (∀ body ∈ bodies s.calls, body.length = multipartChunk) ∨
    s.rest = [] ∧ s.filled = 0 ∧ Chunked multipartChunk (bodies s.calls)
  total : s.total.toNat = (bodies s.calls).flatten.length + s.pending
  staged : Staged s

/-- As long as part numbers are positive they have not come round. -/
theorem toInt_of_pos {n : Nat} (hn : n ≤ 0x80000000) (hpos : 0 < Int32.ofNat n) :
    n < 0x80000000 ∧ (Int32.ofNat n).toInt = n := by
  have hlt : n < 0x80000000 := by
    -- the one number above the last is the least there is
    by_contra hge
    have hmax : n = 0x80000000 := by omega
    rw [hmax] at hpos
    exact absurd hpos (by decide)
  exact ⟨hlt, Int32.toInt_ofNat_of_lt hlt⟩

theorem length_bodies (calls : List Call) : (bodies calls).length = (uploads calls).length := by
  rw [bodies, List.length_map]

theorem Inv.start (path : OsStr) (content : Bytes) : Inv (start path content) where
  session := nofun
  content := rfl
  numbers := rfl
  next := rfl
  few := Nat.zero_lt_succ _
  parts := rfl
  cut := .inl nofun
  total := rfl
  staged := ⟨rfl, rfl⟩

/-- A step that is neither a read nor a part keeps all but the place in the code. -/
theorem Inv.of_same (hI : Inv s) (hcontent : s'.content = s.content)
    (huploads : uploads s'.calls = uploads s.calls) (hbody : s'.body = s.body)
    (hrest : s'.rest = s.rest) (hparts : s'.parts = s.parts)
    (hnumber : s'.partNumber = s.partNumber) (htotal : s'.total = s.total)
    (hpending : s'.pending = s.pending) (hstaged : Staged s')
    (hsession : ∀ uploadId, s'.phase.session = some uploadId →
      ∀ u ∈ uploads s.calls, u.uploadId = uploadId) : Inv s' := by
  have hbodies : bodies s'.calls = bodies s.calls := by rw [bodies, huploads, bodies]
  have hfilled : s'.filled = s.filled := by rw [← length_body, hbody, length_body]
  constructor
  · rw [huploads]
    exact hsession
  · rw [hbodies, hbody, hrest, hcontent]
    exact hI.content
  · rw [huploads]
    exact hI.numbers
  · rw [huploads, hnumber]
    exact hI.next
  · rw [huploads]
    exact hI.few
  · rw [huploads, hparts]
    exact hI.parts
  · rw [hbodies, hrest, hfilled]
    exact hI.cut
  · rw [htotal, hbodies, hpending]
    exact hI.total
  · exact hstaged

/-- While there is something to put into a part, all parts are full ones. -/
theorem Inv.full (hI : Inv s) (hmore : s.rest ≠ [] ∨ s.filled ≠ 0) :
    ∀ body ∈ bodies s.calls, body.length = multipartChunk := by
  cases hI.cut with
  | inl hfull => exact hfull
  | inr hended =>
      obtain ⟨hrest, hfilled, hchunked⟩ := hended
      cases hmore with
      | inl hmore => exact absurd hrest hmore
      | inr hmore => exact absurd hfilled hmore

/-- A read moves bytes from the file into the buffer. -/
theorem Inv.content_fill {n : Nat} (hI : Inv s) (hn : n ≤ s.rest.length) :
    (bodies s.calls).flatten ++ ((s.fill n).body ++ (s.fill n).rest) = s.content := by
  have hrest : (s.fill n).rest = s.rest.drop n := rfl
  rw [body_fill hn, hrest, List.append_assoc, List.take_append_drop]
  exact hI.content

theorem Inv.filled {n : Nat} (hI : Inv s) (hphase : s.phase = .reading uploadId) (hpos : 0 < n)
    (hn : n ≤ s.rest.length) (hroom : s.filled + n < multipartChunk) : Inv (s.fill n) := by
  have hphase' : (s.fill n).phase = .reading uploadId := hphase
  have htotal := hI.total
  rw [pending_reading hphase] at htotal
  constructor
  · exact hI.session
  · exact hI.content_fill hn
  · exact hI.numbers
  · exact hI.next
  · exact hI.few
  · exact hI.parts
  · refine .inl (hI.full (.inl ?_))
    exact List.ne_nil_of_length_pos (by omega)
  · rw [pending_reading hphase']
    exact htotal
  · rw [Staged, hphase']
    exact hroom

theorem Inv.chunk {n : Nat} (hI : Inv s) (hphase : s.phase = .reading uploadId)
    (hn : n ≤ s.rest.length) (hroom : n ≤ multipartChunk - s.filled)
    (hfilled : s.filled + n ≠ 0)
    (hend : s.filled + n = multipartChunk ∨ (s.fill n).rest = []) :
    Inv { s.fill n with
      total := s.total + UInt64.ofNat (s.filled + n), phase := .uploading uploadId } := by
  have hstaged := hI.staged
  have htotal := hI.total
  rw [Staged, hphase] at hstaged
  rw [pending_reading hphase] at htotal
  have hfull : ∀ body ∈ bodies s.calls, body.length = multipartChunk := by
    refine hI.full ?_
    by_cases hzero : s.filled = 0
    · exact .inl (List.ne_nil_of_length_pos (by omega))
    · exact .inr hzero
  constructor
  · intro uploadId' hsession
    exact hI.session uploadId' (by rw [hphase]; exact hsession)
  · exact hI.content_fill hn
  · exact hI.numbers
  · exact hI.next
  · exact hI.few
  · exact hI.parts
  · exact .inl hfull
  · show (s.total + UInt64.ofNat (s.filled + n)).toNat =
      (bodies s.calls).flatten.length + (s.filled + n)
    -- 2^31 parts of 2^24 bytes are far from the end of a `u64`
    have hlength := length_flatten_of_full hfull
    have hfew := hI.few
    rw [length_bodies] at hlength
    unfold multipartChunk at hlength hroom
    unfold multipartChunk at hstaged
    rw [UInt64.toNat_add, UInt64.toNat_ofNat', htotal]
    omega
  · show 0 < s.filled + n ∧ s.filled + n ≤ multipartChunk ∧ _
    exact ⟨by omega, by omega, hend⟩

theorem Inv.uploaded {eTag : Option Str} (hI : Inv s) (hphase : s.phase = .uploading uploadId)
    (hpos : 0 < s.partNumber)
    (hs' : s' = (s.call (.uploadPart uploadId s.partNumber s.body (.ok eTag))).partUploaded
      uploadId eTag) : Inv s' := by
  have hstaged := hI.staged
  have htotal := hI.total
  have hfew := hI.few
  rw [Staged, hphase] at hstaged
  rw [pending_uploading hphase] at htotal
  obtain ⟨hfilled, hle, hend⟩ := hstaged
  have hfull := hI.full (.inr (by omega))
  obtain ⟨hless, hnumber⟩ := toInt_of_pos (by omega) (hI.next ▸ hpos)
  have huploads : uploads s'.calls =
      uploads s.calls ++ [⟨uploadId, s.partNumber, s.body, eTag⟩] := by
    rw [hs']
    exact uploads_uploaded ..
  have hbodies : bodies s'.calls = bodies s.calls ++ [s.body] := by
    rw [bodies, huploads, List.map_append, bodies]
    rfl
  have hcount : (uploads s'.calls).length = (uploads s.calls).length + 1 := by
    rw [huploads, List.length_append, List.length_singleton]
  constructor
  · intro uploadId' hsession
    rw [hs'] at hsession
    obtain rfl := Option.some.inj hsession
    have hbefore := hI.session uploadId (by rw [hphase]; rfl)
    rw [huploads]
    exact List.forall_mem_append.mpr ⟨hbefore, List.forall_mem_singleton.mpr rfl⟩
  · rw [hbodies, List.flatten_append, List.flatten_singleton, List.append_assoc, hs']
    exact hI.content
  · rw [hcount, huploads, List.map_append, hI.numbers, List.range_succ, List.map_append]
    congr 1
    show [s.partNumber.toInt] = [((uploads s.calls).length : Int) + 1]
    rw [hI.next, hnumber]
    rfl
  · rw [hcount, hs']
    show s.partNumber + 1 = _
    rw [hI.next]
    exact (Int32.ofNat_add _ _).symm
  · rw [hcount]
    exact hless
  · rw [huploads, List.map_append, ← hI.parts, hs']
    rfl
  · rw [hbodies]
    cases hend with
    | inl hwhole =>
        have hbody := (length_body s).trans hwhole
        exact .inl (List.forall_mem_append.mpr ⟨hfull, List.forall_mem_singleton.mpr hbody⟩)
    | inr hrest =>
        have hlength := length_body s
        rw [hs']
        exact .inr ⟨hrest, rfl, .concat hfull (by omega) (by omega)⟩
  · rw [hbodies, List.flatten_append, List.length_append, List.flatten_singleton, length_body,
      hs']
    exact htotal
  · rw [hs']
    exact Nat.lt_of_lt_of_le hfilled hle

theorem Inv.step (hI : Inv s) (hok : Succeeds s label) (hs : multipart.step s label = some s') :
    Inv s' := by
  have hstaged := hI.staged
  unfold Staged at hstaged
  cases step_stepped hs with
  | notCreated result e hphase hresult =>
      match result with
      | .error _ | .ok none => exact hok.elim
      | .ok (some uploadId) => exact absurd rfl (hresult uploadId)
  | created uploadId hphase =>
      rw [hphase] at hstaged
      have hnone : uploads (s.calls ++ [Call.create (.ok (some uploadId))]) = uploads s.calls :=
        uploads_create ..
      have hpending : s.pending = 0 := pending_eq_zero (by rw [hphase]; nofun)
      refine hI.of_same rfl hnone rfl rfl rfl rfl rfl hpending.symm ?_ ?_
      · exact ⟨hstaged.1, hnone.trans hstaged.2⟩
      · intro _ _ u hu
        rw [hstaged.2] at hu
        cases hu
  | opened uploadId hphase =>
      rw [hphase] at hstaged
      have hpending : s.pending = 0 := pending_eq_zero (by rw [hphase]; nofun)
      refine hI.of_same rfl rfl rfl rfl rfl rfl rfl hpending.symm ?_ ?_
      · show s.filled < multipartChunk
        rw [hstaged.1]
        decide
      · intro uploadId' hsession
        exact hI.session uploadId' (by rw [hphase]; exact hsession)
  | filled uploadId n hphase hpos hn hroom => exact hI.filled hphase hpos hn hroom
  | chunk uploadId n hphase hn hroom hfilled hend => exact hI.chunk hphase hn hroom hfilled hend
  | eof uploadId hphase hrest hfilled =>
      refine hI.of_same rfl rfl rfl rfl rfl rfl rfl (pending_reading hphase).symm ?_ ?_
      · exact ⟨hfilled, hrest⟩
      · intro uploadId' hsession
        exact hI.session uploadId' (by rw [hphase]; exact hsession)
  | uploaded uploadId eTag hphase => exact hI.uploaded hphase hok rfl
  | completed uploadId hphase =>
      rw [hphase] at hstaged
      have hnone : uploads (s.calls ++ [Call.complete uploadId s.parts (.ok ())]) =
          uploads s.calls := uploads_complete ..
      have hpending : s.pending = 0 := pending_eq_zero (by rw [hphase]; nofun)
      exact hI.of_same rfl hnone rfl rfl rfl rfl rfl hpending.symm hstaged nofun
  | aborted uploadId e result hphase =>
      rw [hphase] at hstaged
      exact hstaged.elim
  | openFails | readFails | partFails | completeFails => exact hok.elim

theorem reach_inv (hr : multipart.Reach Succeeds s) : Inv s := by
  refine hr.invariant (I := Inv) ?_ fun s label s' _ hI hok hs => hI.step hok hs
  intro s hinit
  obtain ⟨path, content, hstart⟩ := hinit
  exact hstart ▸ .start path content

/-- At the end of the file it is all in the parts. -/
theorem Inv.uploaded_all (hI : Inv s) (hphase : s.phase = .completing uploadId) :
    Uploaded uploadId s := by
  have hstaged := hI.staged
  rw [Staged, hphase] at hstaged
  obtain ⟨hfilled, hrest⟩ := hstaged
  have hcontent : (bodies s.calls).flatten = s.content := by
    have hcontent := hI.content
    rw [hrest, State.body, hfilled] at hcontent
    simpa using hcontent
  have htotal := hI.total
  rw [pending_eq_zero (by rw [hphase]; nofun)] at htotal
  constructor
  · exact hI.session uploadId (by rw [hphase]; rfl)
  · exact hcontent
  · exact hI.numbers
  · cases hI.cut with
    | inl hfull => exact .of_full (by decide) hfull
    | inr hended => exact hended.2.2
  · exact hI.parts
  · rw [htotal, hcontent]
    rfl

/-- While the parts are few enough, S3 takes the next one. -/
theorem Inv.number_pos (hI : Inv s) (hphase : s.phase = .uploading uploadId)
    (hsize : s.content.length ≤ 0x7fffffff * multipartChunk) : 0 < s.partNumber := by
  have hstaged := hI.staged
  rw [Staged, hphase] at hstaged
  have hlength := length_flatten_of_full (hI.full (.inr (by omega)))
  have hcontent := congrArg List.length hI.content
  rw [length_bodies] at hlength
  rw [List.length_append, List.length_append, length_body, hlength] at hcontent
  have hless : (uploads s.calls).length + 1 < 0x80000000 := by
    unfold multipartChunk at hcontent hsize
    omega
  rw [hI.next, Int32.lt_iff_toInt_lt, Int32.toInt_ofNat_of_lt hless]
  show (0 : Int) < _
  omega

theorem Inv.next_step (hI : Inv s) (hsize : s.content.length ≤ 0x7fffffff * multipartChunk)
    (hreturned : ∀ result, s.phase ≠ .returned result) :
    ∃ label, Succeeds s label ∧ (multipart.step s label).isSome := by
  have hstaged := hI.staged
  rw [Staged] at hstaged
  cases hphase : s.phase with
  | creating => exact ⟨.create (.ok (some [])), trivial, by simp [multipart, State.step, hphase]⟩
  | opening uploadId => exact ⟨.opened (.ok ()), trivial, by simp [multipart, State.step, hphase]⟩
  | reading uploadId =>
      rw [hphase] at hstaged
      cases hrest : s.rest with
      | nil => exact ⟨.read 0, trivial, by simp [multipart, State.step, hphase, hrest]⟩
      | cons b rest =>
          refine ⟨.read 1, trivial, ?_⟩
          have hroom : 1 ≤ min s.rest.length (multipartChunk - s.filled) := by
            rw [hrest, List.length_cons]
            omega
          have hguard : 1 ≤ min s.rest.length (multipartChunk - s.filled) ∧ (1 = 0 → s.rest = []) :=
            ⟨hroom, nofun⟩
          simp only [multipart, State.step, hphase, if_pos hguard]
          split <;> rfl
  | uploading uploadId =>
      exact ⟨.uploadPart (.ok none), hI.number_pos hphase hsize,
        by simp [multipart, State.step, hphase]⟩
  | completing uploadId =>
      exact ⟨.complete (.ok ()), trivial, by simp [multipart, State.step, hphase]⟩
  | aborting uploadId e =>
      rw [hphase] at hstaged
      exact hstaged.elim
  | returned result => exact absurd hphase (hreturned result)

/-- If every call succeeds then `upload_parts` returns the parts of the whole file. It does
return: no run is longer than the file allows, and none stops before, unless the file is of
more parts than there are numbers for. -/
theorem parts_uploaded (hr : multipart.Reach Succeeds s) :
    (∀ uploadId, s.phase = .completing uploadId → Uploaded uploadId s) ∧
    (∀ labels s', multipart.run s labels = some s' →
      labels.length ≤ 3 * s.content.length + 4) ∧
    (s.content.length ≤ 0x7fffffff * multipartChunk →
      (∀ result, s.phase ≠ .returned result) →
      ∃ label, Succeeds s label ∧ (multipart.step s label).isSome) := by
  have hI := reach_inv hr
  refine ⟨fun uploadId hphase => hI.uploaded_all hphase, ?_, hI.next_step⟩
  intro labels s' hrun
  have hlength := Machine.run_length_le (W := State.work) (fun _ _ _ => step_work) hrun
  have hwork := work_le hr.reachable
  omega

/-- Three bytes in two reads. -/
theorem parts_uploaded_short_reads : ∃ s, bodies s.calls = [[1, 2, 3]] ∧ Uploaded ['u'] s ∧
    ∃ label, Succeeds s label ∧ (multipart.step s label).isSome := by
  have hrun : (multipart.runWithin Succeeds (start [] [1, 2, 3])
      [.create (.ok (some ['u'])), .opened (.ok ()), .read 2, .read 1, .read 0,
        .uploadPart (.ok none), .read 0]).map (fun s => (bodies s.calls, s.content, s.phase)) =
      some ([[1, 2, 3]], [1, 2, 3], .completing ['u']) := by
    decide
  obtain ⟨s, hs, hseen⟩ := Option.map_eq_some_iff.mp hrun
  obtain ⟨hbodies, hseen⟩ := Prod.mk.inj hseen
  obtain ⟨hcontent, hphase⟩ := Prod.mk.inj hseen
  have hsize : s.content.length ≤ 0x7fffffff * multipartChunk := by
    rw [hcontent]
    decide
  have hinit : multipart.init (start [] [1, 2, 3]) := ⟨[], [1, 2, 3], rfl⟩
  have hreached := Machine.Reach.runWithin (.init hinit) hs
  exact ⟨s, hbodies, (parts_uploaded hreached).1 ['u'] hphase,
    (parts_uploaded hreached).2.2 hsize (by rw [hphase]; nofun)⟩

/-! ## A session is closed -/

/-- How `s3_multipart_upload` may return: after an abort that came last, or after S3 has made
one object of all the parts. -/
def Closed (uploadId : Str) (s : State) : Prop :=
  match s.phase with
  | .returned (.error _) => ∃ before result, s.calls = before ++ [Call.abort uploadId result]
  | .returned (.ok _) => ∃ before,
      s.calls = before ++ [Call.complete uploadId ((uploads before).map Upload.part) (.ok ())]
  | _ => True

/-- What the answers so far have made of a session. -/
inductive Session (labels : List Label) (s : State) : Prop
  | creating (hlabels : labels = []) (hphase : s.phase = .creating) (hcalls : s.calls = [])
      (hparts : s.parts = [])
  | refused (result : Except Str UInt64) (hphase : s.phase = .returned result)
      (hnone : ∀ uploadId, .create (.ok (some uploadId)) ∉ labels)
  | opened (uploadId : Str) (hphase : s.phase.session = some uploadId)
      (hid : ∀ uploadId', .create (.ok (some uploadId')) ∈ labels → uploadId' = uploadId)
      (hnever : ∀ e, .complete (.error e) ∉ labels)
      (hparts : s.parts = (uploads s.calls).map Upload.part)
  | closed (uploadId : Str) (result : Except Str UInt64) (hphase : s.phase = .returned result)
      (hid : ∀ uploadId', .create (.ok (some uploadId')) ∈ labels → uploadId' = uploadId)
      (hnever : ∀ e, .complete (.error e) ∉ labels) (hclosed : Closed uploadId s)
  | unclosed (e e' : Str) (hphase : s.phase = .returned (.error e'))
      (hcomplete : .complete (.error e) ∈ labels) (before : List Call) (uploadId : Str)
      (parts : List CompletedPart)
      (hcalls : s.calls = before ++ [Call.complete uploadId parts (.error e)])

section Session

variable {labels : List Label}

/-- An answer that is not the last one came before. -/
theorem mem_of_concat {other : Label} (hne : other ≠ label) (hmem : other ∈ labels ++ [label]) :
    other ∈ labels :=
  (List.mem_append.mp hmem).resolve_right fun h => hne (List.mem_singleton.mp h)

theorem Session.start (hS : Session labels s) (hphase : s.phase = .creating) :
    labels = [] ∧ s.calls = [] ∧ s.parts = [] := by
  cases hS with
  | creating hlabels _ hcalls hparts => exact ⟨hlabels, hcalls, hparts⟩
  | opened uploadId hphase' =>
      rw [hphase] at hphase'
      cases hphase'
  | refused result hphase' | closed uploadId result hphase' | unclosed e e' hphase' =>
      cases hphase.symm.trans hphase'

theorem Session.inside (hS : Session labels s) (hphase : s.phase.session = some uploadId) :
    (∀ uploadId', .create (.ok (some uploadId')) ∈ labels → uploadId' = uploadId) ∧
    (∀ e, .complete (.error e) ∉ labels) ∧ s.parts = (uploads s.calls).map Upload.part := by
  cases hS with
  | opened uploadId' hphase' hid hnever hparts =>
      obtain rfl := Option.some.inj (hphase'.symm.trans hphase)
      exact ⟨hid, hnever, hparts⟩
  | creating _ hphase' | refused result hphase' | closed uploadId' result hphase'
  | unclosed e e' hphase' =>
      rw [hphase'] at hphase
      cases hphase

/-- Only S3's answers to the first call and to the last one are looked for later. -/
theorem Session.still_inside (hS : Session labels s) (hphase : s.phase.session = some uploadId)
    (hcreate : ∀ uploadId, .create (.ok (some uploadId)) ≠ label)
    (hcomplete : ∀ e, .complete (.error e) ≠ label) :
    (∀ uploadId', .create (.ok (some uploadId')) ∈ labels ++ [label] → uploadId' = uploadId) ∧
    (∀ e, .complete (.error e) ∉ labels ++ [label]) ∧
    s.parts = (uploads s.calls).map Upload.part := by
  obtain ⟨hid, hnever, hparts⟩ := hS.inside hphase
  refine ⟨?_, ?_, hparts⟩
  · intro other hmem
    exact hid other (mem_of_concat (hcreate other) hmem)
  · intro e hmem
    exact hnever e (mem_of_concat (hcomplete e) hmem)

/-- A step that neither opens nor closes the session. -/
theorem Session.go_on (hS : Session labels s) (hphase : s.phase.session = some uploadId)
    (hphase' : s'.phase.session = some uploadId)
    (hcreate : ∀ uploadId, .create (.ok (some uploadId)) ≠ label)
    (hcomplete : ∀ e, .complete (.error e) ≠ label)
    (hparts' : s.parts = (uploads s.calls).map Upload.part →
      s'.parts = (uploads s'.calls).map Upload.part) : Session (labels ++ [label]) s' := by
  obtain ⟨hid, hnever, hparts⟩ := hS.still_inside hphase hcreate hcomplete
  exact .opened uploadId hphase' hid hnever (hparts' hparts)

/-- The step that closes the session. -/
theorem Session.close (hS : Session labels s) (hphase : s.phase.session = some uploadId)
    {result : Except Str UInt64} (hphase' : s'.phase = .returned result)
    (hcreate : ∀ uploadId, .create (.ok (some uploadId)) ≠ label)
    (hcomplete : ∀ e, .complete (.error e) ≠ label)
    (hclosed : s.parts = (uploads s.calls).map Upload.part → Closed uploadId s') :
    Session (labels ++ [label]) s' := by
  obtain ⟨hid, hnever, hparts⟩ := hS.still_inside hphase hcreate hcomplete
  exact .closed uploadId result hphase' hid hnever (hclosed hparts)

theorem Session.step (hS : Session labels s) (hs : multipart.step s label = some s') :
    Session (labels ++ [label]) s' := by
  cases step_stepped hs with
  | notCreated result e hphase hresult =>
      rw [(hS.start hphase).1]
      refine .refused (.error e) rfl ?_
      intro uploadId hmem
      injection List.mem_singleton.mp hmem with heq
      exact hresult uploadId heq.symm
  | created uploadId hphase =>
      obtain ⟨hlabels, hcalls, hparts⟩ := hS.start hphase
      rw [hlabels]
      refine .opened uploadId rfl ?_ ?_ ?_
      · intro other hmem
        injection List.mem_singleton.mp hmem with heq
        injection heq with heq
        exact Option.some.inj heq
      · intro e hmem
        cases List.mem_singleton.mp hmem
      · show s.parts = (uploads (s.calls ++ [_])).map Upload.part
        rw [hparts, hcalls]
        rfl
  | opened uploadId hphase =>
      exact hS.go_on (by rw [hphase]; rfl) rfl nofun nofun id
  | openFails uploadId e e' hphase =>
      exact hS.go_on (by rw [hphase]; rfl) rfl nofun nofun id
  | filled uploadId n hphase =>
      have hsession : s.phase.session = some uploadId := by
        rw [hphase]
        rfl
      exact hS.go_on hsession hsession nofun nofun id
  | chunk uploadId n hphase =>
      exact hS.go_on (by rw [hphase]; rfl) rfl nofun nofun id
  | eof uploadId hphase =>
      exact hS.go_on (by rw [hphase]; rfl) rfl nofun nofun id
  | readFails uploadId e e' hphase =>
      exact hS.go_on (by rw [hphase]; rfl) rfl nofun nofun id
  | uploaded uploadId eTag hphase =>
      refine hS.go_on (by rw [hphase]; rfl) rfl nofun nofun fun hparts => ?_
      show s.parts ++ [⟨eTag, s.partNumber⟩] = (uploads (s.calls ++ [_])).map Upload.part
      rw [uploads_uploaded, List.map_append, hparts]
      rfl
  | partFails uploadId e e' hphase =>
      refine hS.go_on (by rw [hphase]; rfl) rfl nofun nofun fun hparts => ?_
      show s.parts = (uploads (s.calls ++ [_])).map Upload.part
      rw [uploads_refused]
      exact hparts
  | completed uploadId hphase =>
      refine hS.close (by rw [hphase]; rfl) rfl nofun nofun fun hparts => ?_
      exact ⟨s.calls, hparts ▸ rfl⟩
  | completeFails uploadId e e' hphase =>
      exact .unclosed e e' rfl List.mem_concat_self s.calls uploadId s.parts rfl
  | aborted uploadId e result hphase =>
      refine hS.close (by rw [hphase]; rfl) rfl nofun nofun fun _ => ?_
      exact ⟨s.calls, result, rfl⟩

theorem run_session (hrun : multipart.run (start path content) labels = some s) :
    Session labels s :=
  Machine.run_history (I := Session) (fun _ _ _ _ => Session.step)
    (.creating rfl rfl rfl rfl) hrun

/-- An upload that was given a session closes it, if and only if it is not S3's answer to
`CompleteMultipartUpload` that fails: every other failure ends in an abort. -/
theorem session_closed_iff (hid : .create (.ok (some uploadId)) ∈ labels)
    (hrun : multipart.run (start path content) labels = some s) :
    Closed uploadId s ↔ ∀ e, .complete (.error e) ∉ labels := by
  cases run_session hrun with
  | creating hlabels =>
      rw [hlabels] at hid
      cases hid
  | refused result hphase hnone => exact absurd hid (hnone uploadId)
  | opened uploadId' hphase _ hnever =>
      refine iff_of_true ?_ hnever
      unfold Closed
      split
      · next hphase' =>
          rw [hphase'] at hphase
          cases hphase
      · next hphase' =>
          rw [hphase'] at hphase
          cases hphase
      · trivial
  | closed uploadId' result _ hsame hnever hclosed =>
      rw [hsame uploadId hid]
      exact iff_of_true hclosed hnever
  | unclosed e e' hphase hcomplete before uploadId' parts hcalls =>
      refine iff_of_false ?_ fun hnever => hnever e hcomplete
      intro hclosed
      rw [Closed, hphase] at hclosed
      obtain ⟨before', result, hcalls'⟩ := hclosed
      obtain ⟨_, hlast⟩ := List.append_inj' (hcalls.symm.trans hcalls') rfl
      cases hlast

/-- A part that S3 refuses: what is returned comes after the abort. -/
theorem session_closed_refused_part : ∃ s, s.phase = .returned (.error "UploadPart#1: no".toList) ∧
    Closed ['u'] s := by
  have hrun : (multipart.run (start [] [1])
      [.create (.ok (some ['u'])), .opened (.ok ()), .read 1, .read 0,
        .uploadPart (.error "no".toList), .abort (.ok ())]).map State.phase =
      some (.returned (.error "UploadPart#1: no".toList)) := by
    decide
  obtain ⟨s, hs, hphase⟩ := Option.map_eq_some_iff.mp hrun
  refine ⟨s, hphase, (session_closed_iff (List.mem_cons_self ..) hs).mpr ?_⟩
  intro e
  simp

end Session

/-! ## A session that is left open -/

/-- A full chunk in one read, and its part. -/
def round : List Label := [.read multipartChunk, .uploadPart (.ok none)]

theorem step_uploaded (hphase : s.phase = .uploading uploadId) (eTag : Option Str) :
    multipart.step s (.uploadPart (.ok eTag)) =
      some ((s.call (.uploadPart uploadId s.partNumber s.body (.ok eTag))).partUploaded
        uploadId eTag) := by
  simp only [multipart, State.step, hphase]

theorem step_full_chunk (hphase : s.phase = .reading uploadId) (hfilled : s.filled = 0)
    (hrest : multipartChunk ≤ s.rest.length) :
    ∃ s', multipart.step s (.read multipartChunk) = some s' ∧ s'.phase = .uploading uploadId ∧
      s'.rest = s.rest.drop multipartChunk := by
  have hguard : multipartChunk ≤ min s.rest.length (multipartChunk - s.filled) ∧
      (multipartChunk = 0 → s.rest = []) := by
    refine ⟨?_, fun hzero => absurd hzero (by decide)⟩
    rw [hfilled]
    omega
  have hlast : multipartChunk = 0 ∨ s.filled + multipartChunk = multipartChunk := by
    rw [hfilled]
    omega
  have hread : (s.fill multipartChunk).chunkRead uploadId =
      { s.fill multipartChunk with
        total := s.total + UInt64.ofNat (s.filled + multipartChunk)
        phase := .uploading uploadId } := by
    refine if_neg ?_
    show s.filled + multipartChunk ≠ 0
    rw [hfilled]
    decide
  refine ⟨(s.fill multipartChunk).chunkRead uploadId, ?_, by rw [hread], by rw [hread]; rfl⟩
  simp only [multipart, State.step, hphase, if_pos hguard, if_pos hlast]

theorem run_round (hphase : s.phase = .reading uploadId) (hfilled : s.filled = 0)
    (hrest : multipartChunk ≤ s.rest.length) :
    ∃ s', multipart.run s round = some s' ∧ s'.phase = .reading uploadId ∧ s'.filled = 0 ∧
      s'.rest = s.rest.drop multipartChunk := by
  obtain ⟨s₁, hread, hphase₁, hrest₁⟩ := step_full_chunk hphase hfilled hrest
  refine ⟨(s₁.call (.uploadPart uploadId s₁.partNumber s₁.body (.ok none))).partUploaded
    uploadId none, ?_, rfl, rfl, hrest₁⟩
  rw [round, Machine.run, hread, Option.bind_some, Machine.run, step_uploaded hphase₁]
  rfl

theorem run_rounds (n : Nat) (hphase : s.phase = .reading uploadId) (hfilled : s.filled = 0)
    (hrest : s.rest.length = n * multipartChunk) :
    ∃ s', multipart.run s (List.replicate n round).flatten = some s' ∧
      s'.phase = .reading uploadId ∧ s'.filled = 0 ∧ s'.rest = [] := by
  induction n generalizing s with
  | zero =>
      rw [Nat.zero_mul] at hrest
      exact ⟨s, rfl, hphase, hfilled, List.length_eq_zero_iff.mp hrest⟩
  | succ n ih =>
      rw [Nat.succ_mul] at hrest
      obtain ⟨s₁, hrun, hphase₁, hfilled₁, hrest₁⟩ := run_round hphase hfilled (by omega)
      have hlength : s₁.rest.length = n * multipartChunk := by
        rw [hrest₁, List.length_drop]
        omega
      obtain ⟨s₂, hruns, hs₂⟩ := ih hphase₁ hfilled₁ hlength
      refine ⟨s₂, ?_, hs₂⟩
      rw [List.replicate_succ, List.flatten_cons, Machine.run_append, hrun, Option.bind_some]
      exact hruns

theorem step_eof (hphase : s.phase = .reading uploadId) (hfilled : s.filled = 0)
    (hrest : s.rest = []) :
    multipart.step s (.read 0) = some { s with phase := .completing uploadId } := by
  simp [multipart, State.step, hphase, hrest, fill_zero, State.chunkRead, hfilled]

theorem step_complete_fails (hphase : s.phase = .completing uploadId) (e : Str) :
    multipart.step s (.complete (.error e)) =
      some { s.call (.complete uploadId s.parts (.error e)) with
        phase := .returned (.error ("CompleteMultipartUpload: ".toList ++ e)) } := by
  simp only [multipart, State.step, hphase, State.call]

/-- All four parts of a file of the least size that is uploaded so are in, and S3 does not
answer `CompleteMultipartUpload`. -/
theorem unanswered_complete_left_open : ∃ s,
    multipart.run (start [] (List.replicate multipartThreshold 0))
      ([Label.create (.ok (some ['u'])), .opened (.ok ())] ++ (List.replicate 4 round).flatten ++
        [Label.read 0, .complete (.error "timeout".toList)]) = some s ∧ ¬ Closed ['u'] s := by
  have hlength : (List.replicate multipartThreshold (0 : UInt8)).length = 4 * multipartChunk :=
    List.length_replicate
  generalize List.replicate multipartThreshold (0 : UInt8) = content at hlength
  have hopened : ∃ s, multipart.run (start [] content)
      [.create (.ok (some ['u'])), .opened (.ok ())] = some s ∧ s.phase = .reading ['u'] ∧
        s.filled = 0 ∧ s.rest = content :=
    ⟨_, rfl, rfl, rfl, rfl⟩
  obtain ⟨s₁, hopened, hphase₁, hfilled₁, hrest₁⟩ := hopened
  obtain ⟨s₂, hrounds, hphase₂, hfilled₂, hrest₂⟩ :=
    run_rounds 4 hphase₁ hfilled₁ (hrest₁ ▸ hlength)
  rw [Machine.run_append, Machine.run_append, hopened, Option.bind_some, hrounds,
    Option.bind_some, Machine.run, step_eof hphase₂ hfilled₂ hrest₂, Option.bind_some,
    Machine.run, step_complete_fails rfl, Option.bind_some]
  refine ⟨_, rfl, fun hclosed => ?_⟩
  obtain ⟨before, result, hcalls⟩ := hclosed
  obtain ⟨_, hlast⟩ := List.append_inj' hcalls rfl
  cases hlast

end ShellfleetAgent.Agent.Backup.Multipart
