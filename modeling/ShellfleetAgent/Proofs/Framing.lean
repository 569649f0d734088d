import ShellfleetAgent.Privileged.Delivery
import ShellfleetAgent.Proofs.Pty

/-!
# Frames there and back

What was written as frames is read as the same frames, in whatever pieces it comes in, and
not a byte of it is left or missing; and what is read as a frame is what would have been
written for it. A body that is no frame is refused before anything is written.
-/

namespace ShellfleetAgent.Privileged

open ShellfleetAgent.Lib

variable {x : Codec} {other : (o : GateOp) → GateResp o} {w w' : Socket} {body rest : Bytes}
  {pieces left : List Bytes}

/-! ## Pieces -/

/-- No piece is the end of the stream. -/
def Flowing (pieces : List Bytes) : Prop := ∀ piece ∈ pieces, piece ≠ []

theorem Flowing.tail {piece : Bytes} (h : Flowing (piece :: pieces)) : Flowing pieces :=
  fun p hp => h p (List.mem_cons_of_mem _ hp)

/-- The read goes on until it has what it wants, as long as that is to come. -/
theorem readPieces_ok {n : Nat} (hflow : Flowing pieces) (hlen : n ≤ pieces.flatten.length) :
    ∃ left, readPieces n pieces = (.ok (pieces.flatten.take n), left) ∧
      left.flatten = pieces.flatten.drop n ∧ Flowing left := by
  induction pieces generalizing n with
  | nil =>
      have hn : n = 0 := Nat.le_zero.mp hlen
      subst hn
      exact ⟨[], rfl, rfl, hflow⟩
  | cons piece pieces ih =>
      cases n with
      | zero => exact ⟨piece :: pieces, rfl, rfl, hflow⟩
      | succ n =>
          have hpiece : piece ≠ [] := hflow piece (List.mem_cons_self ..)
          rw [List.flatten_cons, List.length_append] at hlen
          rw [readPieces, List.flatten_cons]
          split
          · next hshort =>
              refine ⟨piece.drop (n + 1) :: pieces, ?_, ?_, ?_⟩
              · rw [List.take_append_of_le_length (Nat.le_of_lt hshort)]
              · rw [List.flatten_cons, List.drop_append_of_le_length (Nat.le_of_lt hshort)]
              · intro p hp
                cases List.mem_cons.mp hp with
                | inl heq =>
                    intro hnil
                    have hdrop := congrArg List.length (heq.symm.trans hnil)
                    rw [List.length_drop, List.length_nil] at hdrop
                    omega
                | inr hmem => exact hflow.tail p hmem
          · next hlong =>
              obtain ⟨left, hread, hleft, hflow'⟩ :=
                ih hflow.tail (n := n + 1 - piece.length) (by omega)
              refine ⟨left, ?_, ?_, hflow'⟩
              · rw [hread]
                show (Except.ok (piece ++ _), left) = _
                rw [List.take_append, List.take_of_length_le (Nat.le_of_not_lt hlong)]
              · rw [hleft, List.drop_append, List.drop_eq_nil_of_le (Nat.le_of_not_lt hlong),
                  List.nil_append]

/-- What a read yields has come off the stream. -/
theorem readPieces_inv {n : Nat} {bytes : Bytes} (h : readPieces n pieces = (.ok bytes, left)) :
    pieces.flatten = bytes ++ left.flatten ∧ bytes.length = n := by
  induction pieces generalizing n bytes left with
  | nil =>
      cases n with
      | zero =>
          cases h
          exact ⟨rfl, rfl⟩
      | succ n => cases h
  | cons piece pieces ih =>
      cases n with
      | zero =>
          cases h
          exact ⟨rfl, rfl⟩
      | succ n =>
          rw [readPieces] at h
          split at h
          · next hshort =>
              cases h
              rw [List.flatten_cons, List.flatten_cons, ← List.append_assoc,
                List.take_append_drop]
              exact ⟨rfl, List.length_take_of_le (Nat.le_of_lt hshort)⟩
          · next hlong =>
              split at h
              · cases h
              · cases hread : readPieces (n + 1 - piece.length) pieces with
                | mk result rest =>
                    rw [hread] at h
                    cases result with
                    | error e => cases h
                    | ok got =>
                        cases h
                        obtain ⟨hflat, hgot⟩ := ih hread
                        rw [List.flatten_cons, hflat, List.append_assoc, List.length_append]
                        exact ⟨rfl, by omega⟩

/-! ## One frame -/

theorem run_bind_ok {α β : Type} {m : GateM α} {k : α → GateM β} {a : α}
    (h : w.run other m = (w', .ok a)) : w.run other (m >>= k) = w'.run other (k a) :=
  Prog.alone_ok h

theorem run_bind_error {α β : Type} {m : GateM α} {k : α → GateM β} {e : String}
    (h : w.run other m = (w', .error e)) : w.run other (m >>= k) = (w', .error e) :=
  Prog.alone_error h

theorem run_mapErr {α : Type} (f : String → String) (m : GateM α) :
    w.run other (mapErr f m) =
      ((w.run other m).1, (w.run other m).2.mapError f) := by
  show (Prog.bind m.run _).alone _ _ w = _
  rw [Prog.alone_bind]
  show _ = ((m.run.alone _ _ w).1, (m.run.alone _ _ w).2.mapError f)
  cases (m.run.alone (Socket.exec other) (fun _ => ()) w).2 <;> rfl

theorem run_readExact (n : Nat) : w.run other (readExact n) =
    ({ w with incoming := (readPieces n w.incoming).2 }, (readPieces n w.incoming).1) := rfl

variable (other) in
/-- A read of what is there. -/
theorem run_readExact_ok {f : String → String} {bytes : Bytes} (hflow : Flowing w.incoming)
    (h : w.incoming.flatten = bytes ++ rest) :
    ∃ left, w.run other (mapErr f (readExact bytes.length)) =
        ({ w with incoming := left }, .ok bytes) ∧ left.flatten = rest ∧ Flowing left := by
  have hlen : bytes.length ≤ w.incoming.flatten.length := by
    rw [h, List.length_append]
    omega
  obtain ⟨left, hread, hleft, hflow'⟩ := readPieces_ok hflow hlen
  rw [h, List.take_left] at hread
  rw [h, List.drop_left] at hleft
  refine ⟨left, ?_, hleft, hflow'⟩
  rw [run_mapErr, run_readExact, hread]
  rfl

theorem run_readExact_inv {f : String → String} {n : Nat} {bytes : Bytes}
    (h : w.run other (mapErr f (readExact n)) = (w', .ok bytes)) :
    w.incoming.flatten = bytes ++ w'.incoming.flatten ∧ bytes.length = n ∧
      w'.outgoing = w.outgoing := by
  rw [run_mapErr, run_readExact] at h
  cases hread : readPieces n w.incoming with
  | mk result left =>
      rw [hread] at h
      cases result with
      | error e => cases h
      | ok got =>
          cases h
          obtain ⟨hflat, hlen⟩ := readPieces_inv hread
          exact ⟨hflat, hlen, rfl⟩

theorem run_writeFrame (h : Framable x body) : w.run other (writeFrame x body) =
    ({ w with outgoing := w.outgoing ++ frameBytes body }, .ok ()) := by
  rw [writeFrame, if_neg h, frameBytes, ← List.append_assoc]
  rfl

theorem run_writeFrame_refused (h : ¬ Framable x body) :
    w.run other (writeFrame x body) = (w, .error "invalid trusted frame length") := by
  rw [writeFrame, if_pos (not_not.mp h)]
  rfl

variable (other) in
/-- A frame that is there is read, and nothing behind it. -/
theorem run_readFrame (hmax : x.maxTrustedFrameBytes < 0x100000000) (hbody : Framable x body)
    (hflow : Flowing w.incoming) (h : w.incoming.flatten = frameBytes body ++ rest) :
    ∃ left, w.run other (readFrame x) = ({ w with incoming := left }, .ok body) ∧
      left.flatten = rest ∧ Flowing left := by
  have hlength : beNat (beBytes 4 body.length) = body.length := by
    have hle : body.length ≤ x.maxTrustedFrameBytes := by
      rw [Framable, not_or] at hbody
      omega
    exact beNat_beBytes (by omega)
  have hgood : ¬ (body.length = 0 ∨ body.length > x.maxTrustedFrameBytes) := by
    rw [Framable, List.isEmpty_iff, ← List.length_eq_zero_iff] at hbody
    exact hbody
  rw [frameBytes, List.append_assoc] at h
  obtain ⟨left, hhead, hleft, hflow'⟩ := run_readExact_ok other
    (f := fun error => s!"read frame length: {error}") hflow h
  rw [length_beBytes] at hhead
  obtain ⟨left', hread, hleft', hflow''⟩ := run_readExact_ok other
    (w := { w with incoming := left }) (f := fun error => s!"read trusted frame: {error}")
    hflow' hleft
  refine ⟨left', ?_, hleft', hflow''⟩
  rw [readFrame, run_bind_ok hhead]
  dsimp only
  rw [hlength, if_neg hgood]
  exact hread

/-- A frame that was read is the one that would be written for its body. -/
theorem run_readFrame_inv (h : w.run other (readFrame x) = (w', .ok body)) :
    w.incoming.flatten = frameBytes body ++ w'.incoming.flatten ∧ Framable x body := by
  rw [readFrame] at h
  cases hhead : w.run other (mapErr (fun error => s!"read frame length: {error}")
      (readExact 4)) with
  | mk w₁ result =>
      cases result with
      | error e =>
          rw [run_bind_error hhead] at h
          cases h
      | ok head =>
          rw [run_bind_ok hhead] at h
          obtain ⟨hflat, hlen, _⟩ := run_readExact_inv hhead
          dsimp only at h
          split at h
          · cases h
          · next hgood =>
              obtain ⟨hflat', hlen', _⟩ := run_readExact_inv h
              have hword := beBytes_beNat head
              rw [hlen, ← hlen'] at hword
              rw [frameBytes, hword, List.append_assoc, ← hflat', ← hflat]
              refine ⟨rfl, ?_⟩
              rw [Framable, List.isEmpty_iff, ← List.length_eq_zero_iff, hlen']
              exact hgood

/-! ## One after the other -/

theorem run_writeFrames {bodies : List Bytes} (h : ∀ body ∈ bodies, Framable x body) :
    w.run other (writeFrames x bodies) =
      ({ w with outgoing := w.outgoing ++ frameStream bodies }, .ok ()) := by
  induction bodies generalizing w with
  | nil =>
      show (w, _) = _
      rw [frameStream, List.flatMap_nil, List.append_nil]
  | cons body bodies ih =>
      rw [writeFrames, run_bind_ok (run_writeFrame (h body (List.mem_cons_self ..))),
        ih fun b hb => h b (List.mem_cons_of_mem _ hb), List.append_assoc]
      rfl

theorem run_readFrames (hmax : x.maxTrustedFrameBytes < 0x100000000) {bodies : List Bytes}
    (hbodies : ∀ body ∈ bodies, Framable x body) (hflow : Flowing w.incoming)
    (h : w.incoming.flatten = frameStream bodies ++ rest) :
    ∃ left, w.run other (readFrames x bodies.length) = ({ w with incoming := left }, .ok bodies) ∧
      left.flatten = rest := by
  induction bodies generalizing w with
  | nil => exact ⟨w.incoming, rfl, h⟩
  | cons body bodies ih =>
      rw [frameStream, List.flatMap_cons, List.append_assoc] at h
      obtain ⟨left, hread, hleft, hflow'⟩ :=
        run_readFrame other hmax (hbodies body (List.mem_cons_self ..)) hflow h
      obtain ⟨left', hrest, hleft'⟩ := ih (w := { w with incoming := left })
        (fun b hb => hbodies b (List.mem_cons_of_mem _ hb)) hflow' hleft
      refine ⟨left', ?_, hleft'⟩
      rw [List.length_cons, readFrames, run_bind_ok hread, run_bind_ok hrest]
      rfl

theorem framable_iff :
    Framable x body ↔ 1 ≤ body.length ∧ body.length ≤ x.maxTrustedFrameBytes := by
  rw [Framable, List.isEmpty_iff, ← List.length_eq_zero_iff]
  omega

/-- What is written for a list of bodies is read as these bodies, however it arrives; what
is read as a body is what is written for it; and for any other there is nothing written. -/
theorem frames_recovered (x : Codec) (other : (o : GateOp) → GateResp o)
    (hmax : x.maxTrustedFrameBytes < 0x100000000) :
    (∀ bodies : List Bytes,
      (∀ body ∈ bodies, 1 ≤ body.length ∧ body.length ≤ x.maxTrustedFrameBytes) →
      ∃ bytes, (∀ w : Socket, w.run other (writeFrames x bodies) =
          ({ w with outgoing := w.outgoing ++ bytes }, .ok ())) ∧
        ∀ (w : Socket) rest, Flowing w.incoming → w.incoming.flatten = bytes ++ rest →
          ∃ left, w.run other (readFrames x bodies.length) =
            ({ w with incoming := left }, .ok bodies) ∧ left.flatten = rest) ∧
      (∀ (w w' : Socket) body, w.run other (readFrame x) = (w', .ok body) →
        ∃ bytes, w.incoming.flatten = bytes ++ w'.incoming.flatten ∧
          ∀ v : Socket, v.run other (writeFrame x body) =
            ({ v with outgoing := v.outgoing ++ bytes }, .ok ())) ∧
      ∀ (w : Socket) (body : Bytes),
        ¬ (1 ≤ body.length ∧ body.length ≤ x.maxTrustedFrameBytes) →
        w.run other (writeFrame x body) = (w, .error "invalid trusted frame length") := by
  refine ⟨fun bodies hbodies => ?_, fun w w' body h => ?_, fun w body hbody => ?_⟩
  · have hframable : ∀ body ∈ bodies, Framable x body := fun body hmem =>
      framable_iff.mpr (hbodies body hmem)
    exact ⟨frameStream bodies, fun w => run_writeFrames hframable,
      fun w rest hflow h => run_readFrames hmax hframable hflow h⟩
  · obtain ⟨hflat, hbody⟩ := run_readFrame_inv h
    exact ⟨frameBytes body, hflat, fun v => run_writeFrame hbody⟩
  · exact run_writeFrame_refused fun h => hbody (framable_iff.mp h)

/-- Two frames in three pieces, with the first byte of another behind them. -/
theorem frames_recovered_pieces :
    ∃ left, Socket.run (obliging ⟨some 0, [], []⟩)
        ⟨[[0, 0], [0, 1, 7, 0, 0, 0], [2, 8, 9, 0]], []⟩
        (readFrames plainExternals.toCodec 2) = (⟨left, []⟩, .ok [[7], [8, 9]]) ∧
      left.flatten = [0] := by
  obtain ⟨bytes, hwrite, hread⟩ := (frames_recovered plainExternals.toCodec
    (obliging ⟨some 0, [], []⟩) (by decide)).1 [[7], [8, 9]] (by decide)
  have hbytes : bytes = [0, 0, 0, 1, 7, 0, 0, 0, 2, 8, 9] :=
    congrArg (fun result => result.1.outgoing) (hwrite ⟨[], []⟩).symm
  have hflow : Flowing [[0, 0], [0, 1, 7, 0, 0, 0], [2, 8, 9, 0]] := by simp [Flowing]
  exact hread ⟨[[0, 0], [0, 1, 7, 0, 0, 0], [2, 8, 9, 0]], []⟩ [0] hflow (by rw [hbytes]; rfl)

end ShellfleetAgent.Privileged
