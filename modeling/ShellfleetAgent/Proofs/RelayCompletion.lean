import ShellfleetAgent.Proofs.Relay

/-!
# One completion for each start

`main` announces the completion of a request whenever it answers with an error, and
the reader of a connection when it comes to its end. Neither knows of the other, and
neither takes the session out of the map. A start has one completion, its last
announcement, where `main` has errors only for requests that were never accepted, a
reader comes to its end only after the close, and a request id is used again only when
its old reader has ended.
-/

namespace ShellfleetAgent.Agent.Relay

open ShellfleetAgent.Lib ShellfleetAgent.Privileged

variable {x : RelayCodec} {s s' : State} {i : Label} {r : String}

/-! ## Announcements since a start -/

def track (r : String) (announced : Option (List Bool)) : Event → Option (List Bool)
  | .accepted r' => if r' = r then some [] else announced
  | .host r' complete => if r' = r then announced.map (· ++ [complete]) else announced

/-- Whether each announcement about `r` since its last accepted start was a completion;
nothing where no start was accepted. -/
def since (r : String) (log : List Event) : Option (List Bool) := log.foldl (track r) none

theorem since_concat (log : List Event) (e : Event) :
    since r (log ++ [e]) = track r (since r log) e := by
  rw [since, List.foldl_append]
  rfl

theorem since_accepted (log : List Event) : since r (log ++ [Event.accepted r]) = some [] := by
  rw [since_concat, track, if_pos rfl]

theorem since_host (log : List Event) (complete : Bool) :
    since r (log ++ [Event.host r complete]) = (since r log).map (· ++ [complete]) := by
  rw [since_concat, track, if_pos rfl]

theorem since_other {r' : String} (log : List Event) (h : r' ≠ r) (complete : Bool) :
    since r (log ++ [Event.host r' complete]) = since r log ∧
      since r (log ++ [Event.accepted r']) = since r log := by
  rw [since_concat, since_concat, track, track, if_neg h, if_neg h]
  exact ⟨rfl, rfl⟩

/-! ## The condition -/

/-- The session of connection `n` cannot send the payload. -/
def sendFails (x : RelayCodec) (s : State) (message : ClientMessage) (n : Nat) : Bool :=
  match s.connections[n]? with
  | some c =>
      match c.send x message.requestId message.payload with
      | .ok _ => false
      | .error _ => true
  | none => false

/-- `main` answers the message with an error. -/
def answersError (x : RelayCodec) (s : State) (message : ClientMessage) : Bool :=
  !innerMatches x message ||
    if message.start then (s.trustedSessions message.requestId).isSome
    else
      match s.trustedSessions message.requestId with
      | some n => sendFails x s message n
      | none => true

/-- The reader comes to its end with this. -/
def ends (x : RelayCodec) : Except String Bytes → Bool
  | .ok payload => State.completes x payload
  | .error _ => true

def Orderly (x : RelayCodec) (s : State) : Label → Bool
  | .receive message => !answersError x s message || (since message.requestId s.log).isNone
  | .connected result =>
      match s.main with
      | .idle => true
      | .connecting r payload =>
          match result, (Connection.open r).send x r payload with
          | .ok (), .ok _ => s.connections.all fun c => c.requestId ≠ r || !c.reading
          | _, _ => (since r s.log).isNone
  | .read n result =>
      match s.connections[n]? with
      | some c => !ends x result || (s.trustedSessions c.requestId).isNone
      | none => true
  | _ => true

theorem Refuses.answersError {message : ClientMessage} (h : Refuses x s message) :
    answersError x s message = true := by
  unfold Relay.answersError
  rcases h with hmatches | ⟨hstart, hmap⟩ | ⟨hstart, hmap⟩
  · rw [hmatches]
    rfl
  · rw [if_pos hstart, Option.isSome_iff_ne_none.mpr hmap, Bool.or_true]
  · rw [if_neg (by rw [hstart]; exact Bool.false_ne_true), hmap, Bool.or_true]

theorem answersError_of_send {message : ClientMessage} {n : Nat} {c : Connection} {error : String}
    (hstart : message.start = false) (hmap : s.trustedSessions message.requestId = some n)
    (hconn : s.connections[n]? = some c)
    (hsend : c.send x message.requestId message.payload = .error error) :
    answersError x s message = true := by
  unfold answersError sendFails
  simp only [hstart, Bool.false_eq_true, if_false, hmap, hconn, hsend, Bool.or_true]

theorem unstarted_of_error {message : ClientMessage} (hok : Orderly x s (.receive message) = true)
    (h : answersError x s message = true) : since message.requestId s.log = none := by
  simp only [Orderly, h, Bool.not_true, Bool.false_or, Option.isNone_iff_eq_none] at hok
  exact hok

/-! ## What each step keeps -/

/-- A reader for `r` is at work. -/
def ReadingFor (connections : List Connection) (r : String) (n : Nat) : Prop :=
  ∃ c, connections[n]? = some c ∧ c.requestId = r ∧ c.reading = true

/-- Either no completion was announced, and there is one reader at most, or it was the
last announcement, and neither a reader nor a session is left. -/
inductive Phase (connections : List Connection) (session : Option Nat) (r : String)
    (announced : List Bool) : Prop
  | live (hnone : true ∉ announced)
      (hone : ∀ n m, ReadingFor connections r n → ReadingFor connections r m → n = m)
  | done {before : List Bool} (hlast : announced = before ++ [true]) (hnone : true ∉ before)
      (hread : ∀ n, ¬ReadingFor connections r n) (hsession : session = none)

structure CompletionInv (s : State) : Prop where
  phase : ∀ r announced, since r s.log = some announced →
    Phase s.connections (s.trustedSessions r) r announced
  last : ∀ log, log <+: s.log → ∀ r announced, since r log = some announced →
    ∀ before after, announced = before ++ true :: after → after = []

theorem Phase.of_reading {connections connections' : List Connection}
    {session session' : Option Nat} {announced : List Bool}
    (h : Phase connections session r announced)
    (hread : ∀ n, ReadingFor connections' r n → ReadingFor connections r n)
    (hsession : session' = session ∨ session' = none) :
    Phase connections' session' r announced := by
  cases h with
  | live hnone hone => exact .live hnone fun n m hn hm => hone n m (hread n hn) (hread m hm)
  | done hlast hnone hno hfree =>
      refine .done hlast hnone (fun n hn => hno n (hread n hn)) ?_
      rcases hsession with h | h
      · rw [h, hfree]
      · exact h

theorem Kept.reading {connections connections' : List Connection}
    (h : Kept connections connections') {n : Nat} (hn : ReadingFor connections' r n) :
    ReadingFor connections r n := by
  obtain ⟨d, hd, hr, hreading⟩ := hn
  obtain ⟨c, hc, hsame⟩ := h n d hd
  exact ⟨c, hc, hsame.requestId ▸ hr, hsame.reading ▸ hreading⟩

theorem Phase.only_last {connections : List Connection} {session : Option Nat}
    {announced before after : List Bool} (h : Phase connections session r announced)
    (hsplit : announced = before ++ true :: after) : after = [] := by
  cases h with
  | live hnone _ =>
      refine absurd ?_ hnone
      rw [hsplit]
      exact List.mem_append_right _ List.mem_cons_self
  | @done first hlast hnone _ _ =>
      cases after using List.reverseRecOn with
      | nil => rfl
      | append_singleton after b _ =>
          rw [hlast, ← List.cons_append, ← List.append_assoc] at hsplit
          obtain ⟨hfirst, _⟩ := List.append_inj' hsplit rfl
          refine absurd ?_ hnone
          rw [hfirst]
          exact List.mem_append_right _ List.mem_cons_self

/-- Nothing is announced. -/
theorem CompletionInv.same {t : State} (h : CompletionInv s) (hlog : t.log = s.log)
    (hkept : Kept s.connections t.connections)
    (hsession : ∀ r, t.trustedSessions r = s.trustedSessions r ∨ t.trustedSessions r = none) :
    CompletionInv t := by
  refine ⟨fun r announced hsince => ?_, ?_⟩
  · rw [hlog] at hsince
    exact (h.phase r announced hsince).of_reading (fun n => hkept.reading) (hsession r)
  · rw [hlog]
    exact h.last

/-- One more event, after which each request is again in a phase. -/
theorem CompletionInv.log {t : State} {e : Event} (h : CompletionInv s)
    (hlog : t.log = s.log ++ [e])
    (hphase : ∀ r announced, since r t.log = some announced →
      Phase t.connections (t.trustedSessions r) r announced) : CompletionInv t := by
  refine ⟨hphase, fun log hpre r announced hsince before after hsplit => ?_⟩
  rw [hlog] at hpre
  rcases List.prefix_concat_iff.mp hpre with rfl | hpre
  · rw [← hlog] at hsince
    exact (hphase r announced hsince).only_last hsplit
  · exact h.last log hpre r announced hsince before after hsplit

/-- An error about a request that was never accepted. -/
theorem CompletionInv.unstarted {t : State} {r : String} {complete : Bool} (h : CompletionInv s)
    (hsince : since r s.log = none) (hlog : t.log = s.log ++ [Event.host r complete])
    (hread : ∀ r' n, r' ≠ r → ReadingFor t.connections r' n → ReadingFor s.connections r' n)
    (hsession : ∀ r, t.trustedSessions r = s.trustedSessions r ∨ t.trustedSessions r = none) :
    CompletionInv t := by
  refine h.log hlog fun r' announced hannounced => ?_
  rw [hlog] at hannounced
  by_cases hr : r = r'
  · subst hr
    rw [since_host, hsince] at hannounced
    cases hannounced
  · rw [(since_other s.log hr complete).1] at hannounced
    exact (h.phase r' announced hannounced).of_reading (fun n => hread r' n (Ne.symm hr))
      (hsession r')

/-- A new reader is for `r` only. -/
theorem reading_concat {connections : List Connection} {c : Connection} {r' : String} {n : Nat}
    (h : ReadingFor (connections ++ [c]) r' n) :
    ReadingFor connections r' n ∨ n = connections.length ∧ c.requestId = r' := by
  obtain ⟨d, hd, hr, hreading⟩ := h
  rcases concat_cases hd with ⟨rfl, rfl⟩ | ⟨_, hd⟩
  · exact .inr ⟨rfl, hr⟩
  · exact .inl ⟨d, hd, hr, hreading⟩

theorem closeIf_session (s : State) (close : Bool) (r : String) (n : Nat) (r' : String) :
    (s.closeIf close r n).trustedSessions r' = s.trustedSessions r' ∨
      (s.closeIf close r n).trustedSessions r' = none := by
  cases close with
  | false => exact .inl rfl
  | true =>
      show Function.update s.trustedSessions r none r' = _ ∨
        Function.update s.trustedSessions r none r' = _
      by_cases hr : r' = r
      · rw [hr, Function.update_self]
        exact .inr rfl
      · rw [Function.update_of_ne hr]
        exact .inl rfl

theorem closeIf_log (s : State) (close : Bool) (r : String) (n : Nat) :
    (s.closeIf close r n).log = s.log := by
  cases close <;> rfl

/-- A start is accepted, and no reader is left of an earlier one. -/
theorem CompletionInv.opened {t : State} {c : Connection} (h : CompletionInv s)
    (hfree : ∀ n, ¬ReadingFor s.connections r n) (hlog : t.log = s.log ++ [Event.accepted r])
    (hconns : t.connections = s.connections ++ [c]) (hid : c.requestId = r)
    (hsession : ∀ r', r' ≠ r → t.trustedSessions r' = s.trustedSessions r') :
    CompletionInv t := by
  refine h.log hlog fun r' announced hannounced => ?_
  rw [hlog] at hannounced
  rw [hconns]
  by_cases hr : r = r'
  · subst hr
    rw [since_accepted] at hannounced
    cases hannounced
    refine .live List.not_mem_nil fun n m hn hm => ?_
    rcases reading_concat hn with hn | ⟨rfl, _⟩
    · exact absurd hn (hfree n)
    · rcases reading_concat hm with hm | ⟨rfl, _⟩
      · exact absurd hm (hfree m)
      · rfl
  · rw [(since_other s.log hr true).2] at hannounced
    refine (h.phase r' announced hannounced).of_reading (fun n hn => ?_)
      (.inl (hsession r' (Ne.symm hr)))
    rcases reading_concat hn with hn | ⟨_, hr'⟩
    · exact hn
    · exact absurd (hid.symm.trans hr') hr

/-- A reader announces, and goes on or comes to its end. -/
theorem CompletionInv.read {t : State} {n : Nat} {c d : Connection} {complete : Bool}
    (h : CompletionInv s) (hconn : s.connections[n]? = some c) (hreading : c.reading = true)
    (hok : complete = true → s.trustedSessions c.requestId = none)
    (hlog : t.log = s.log ++ [Event.host c.requestId complete])
    (hconns : t.connections = s.connections.set n d) (hid : d.requestId = c.requestId)
    (hends : d.reading = !complete) (hsession : t.trustedSessions = s.trustedSessions) :
    CompletionInv t := by
  have hread : ∀ r m, ReadingFor t.connections r m → ReadingFor s.connections r m ∧
      (m = n → complete = false) := by
    intro r m hm
    obtain ⟨e, he, hr, hreads⟩ := hm
    rw [hconns] at he
    rcases set_cases he with ⟨rfl, rfl⟩ | ⟨hne, he⟩
    · refine ⟨⟨c, hconn, hid.symm.trans hr, hreading⟩, fun _ => ?_⟩
      rw [hends, Bool.not_eq_true'] at hreads
      exact hreads
    · exact ⟨⟨e, he, hr, hreads⟩, fun hm => absurd hm hne⟩
  have hhere : ReadingFor s.connections c.requestId n := ⟨c, hconn, rfl, hreading⟩
  refine h.log hlog fun r announced hannounced => ?_
  rw [hlog] at hannounced
  rw [hsession]
  by_cases hr : c.requestId = r
  · subst hr
    rw [since_host] at hannounced
    obtain ⟨before, hbefore, rfl⟩ := Option.map_eq_some_iff.mp hannounced
    cases h.phase _ before hbefore with
    | done _ _ hno _ => exact absurd hhere (hno n)
    | live hnone hone =>
        cases complete with
        | false =>
            refine .live (fun hmem => ?_) fun m m' hm hm' =>
              hone m m' (hread _ m hm).1 (hread _ m' hm').1
            rcases List.mem_append.mp hmem with hmem | hmem
            · exact hnone hmem
            · cases List.mem_singleton.mp hmem
        | true =>
            refine .done rfl hnone (fun m hm => ?_) (hok rfl)
            obtain ⟨hm, hend⟩ := hread _ m hm
            cases hend (hone m n hm hhere)
  · rw [(since_other s.log hr complete).1] at hannounced
    exact (h.phase r announced hannounced).of_reading (fun m hm => (hread r m hm).1) (.inl rfl)

theorem CompletionInv.move (h : CompletionInv s) (hok : Orderly x s i = true)
    (hm : Move x s i s') : CompletionInv s' := by
  cases hm with
  | refused error hrefuses =>
      have hsince := unstarted_of_error hok hrefuses.answersError
      exact h.unstarted hsince rfl (fun _ _ _ hn => hn) fun _ => .inl rfl
  | @sendFailed message n c error hstart hmap hconn hsend =>
      have hsince := unstarted_of_error hok (answersError_of_send hstart hmap hconn hsend)
      have hfail : CompletionInv (s.fail x message.requestId error) :=
        h.unstarted hsince rfl (fun _ _ _ hn => hn) fun _ => .inl rfl
      exact hfail.same (closeIf_log _ _ _ _) (kept_closeIf _ _ _ _) fun r =>
        closeIf_session _ _ _ _ r
  | @relayed message n c c' hmatches hstart hmap hconn hsend =>
      obtain ⟨_, rfl⟩ := send_ok hsend
      have hset : CompletionInv { s with connections := s.connections.set n { c with
          channel := c.channel ++ [⟨message.requestId, message.payload⟩] } } :=
        h.same rfl (.set hconn ⟨rfl, rfl, rfl, rfl⟩) fun _ => .inl rfl
      exact hset.same (closeIf_log _ _ _ _) (kept_closeIf _ _ _ _) fun r =>
        closeIf_session _ _ _ _ r
  | connecting => exact h.same rfl (.refl _) fun _ => .inl rfl
  | @connectFailed r payload e error hmain =>
      have hsince : since r s.log = none := by
        simp only [Orderly, hmain, Option.isNone_iff_eq_none] at hok
        exact hok
      exact h.unstarted hsince rfl (fun _ _ _ hn => hn) fun _ => .inl rfl
  | @opened r payload c hmain hsend =>
      simp only [Orderly, hmain, hsend, List.all_eq_true, Bool.or_eq_true, Bool.not_eq_true',
        decide_eq_true_eq] at hok
      obtain ⟨_, rfl⟩ := send_ok hsend
      refine h.opened (fun n hn => ?_) rfl rfl rfl fun r' hr => ?_
      · obtain ⟨d, hd, hr, hreading⟩ := hn
        rcases hok d (List.mem_of_getElem? hd) with hne | hnot
        · exact hne hr
        · rw [hreading] at hnot
          cases hnot
      · exact Function.update_of_ne hr _ _
  | @firstRefused r payload error hmain hsend =>
      have hsince : since r s.log = none := by
        simp only [Orderly, hmain, hsend, Option.isNone_iff_eq_none] at hok
        exact hok
      refine h.unstarted hsince rfl (fun r' n hr hn => ?_) fun _ => .inl rfl
      rcases reading_concat hn with hn | ⟨_, hr'⟩
      · exact hn
      · exact absurd hr'.symm hr
  | wrote hconn => exact h.same rfl (.set hconn ⟨rfl, rfl, rfl, rfl⟩) fun _ => .inl rfl
  | writerEnded channel hconn =>
      exact h.same rfl (.set hconn ⟨rfl, rfl, rfl, rfl⟩) fun _ => .inl rfl
  | @forwarded n c payload hconn hreading =>
      refine h.read hconn hreading (fun hends => ?_) rfl rfl rfl rfl rfl
      simp only [Orderly, hconn, ends, hends, Bool.not_true, Bool.false_or,
        Option.isNone_iff_eq_none] at hok
      exact hok
  | @readFailed n c error hconn hreading =>
      refine h.read hconn hreading (fun _ => ?_) rfl rfl rfl rfl rfl
      simp only [Orderly, hconn, ends, Bool.not_true, Bool.false_or,
        Option.isNone_iff_eq_none] at hok
      exact hok
  | queue => exact h.same rfl (.refl _) fun _ => .inl rfl

/-- At every moment of such a run the completion that was announced about a request since
its last accepted start is its last announcement, and its session is gone from then on. -/
theorem completed_once (hr : (machine x).Reach (fun s i => Orderly x s i = true) s) :
    (∀ log, log <+: s.log → ∀ r announced, since r log = some announced →
      ∀ before after, announced = before ++ true :: after → after = []) ∧
    ∀ r announced, since r s.log = some announced → true ∈ announced →
      s.trustedSessions r = none := by
  have hI : CompletionInv s := by
    refine hr.invariant (I := CompletionInv) ?_ fun s i s' _ hI hok hs => hI.move hok (step_move hs)
    intro s ⟨_, _, _, hlog⟩
    refine ⟨fun r announced hsince => ?_, fun log hpre r announced hsince => ?_⟩
    · rw [hlog] at hsince
      cases hsince
    · rw [hlog] at hpre
      rw [List.prefix_nil.mp hpre] at hsince
      cases hsince
  refine ⟨hI.last, fun r announced hsince hmem => ?_⟩
  cases hI.phase r announced hsince with
  | live hnone _ => exact absurd hmem hnone
  | done _ _ _ hsession => exact hsession

/-! A request that ends after its close, and one that is started twice. -/

theorem completed_once_r : ∃ s : State, since "r" s.log = some [false, true] ∧
    (∀ log, log <+: s.log → ∀ r announced, since r log = some announced →
      ∀ before after, announced = before ++ true :: after → after = []) ∧
    ∀ r announced, since r s.log = some announced → true ∈ announced →
      s.trustedSessions r = none := by
  have hrun : ((machine byteRelay).runWithin (fun s i => Orderly byteRelay s i = true) (idleRelay 4)
      (openR ++ [Label.write 0 true, .read 0 (.ok [20]), .receive closeR, .read 0 (.ok [7])])).map
        (fun s => since "r" s.log) = some (some [false, true]) := by
    decide
  obtain ⟨s, hs, hseen⟩ := Option.map_eq_some_iff.mp hrun
  exact ⟨s, hseen, completed_once (Machine.Reach.runWithin (.init idleRelay_init) hs)⟩

/-- A second start announces the completion of a session that goes on; and the end of a
session, announced by its reader, leaves it in the map. -/
theorem completed_while_live :
    (∃ s : State, (machine byteRelay).Reachable s ∧
      since "r" s.log = some [true, false, true] ∧ s.trustedSessions "r" = some 0) ∧
    ∃ s : State, (machine byteRelay).Reachable s ∧
      since "r" s.log = some [true] ∧ s.trustedSessions "r" = some 0 := by
  constructor
  · have hrun : ((machine byteRelay).run (idleRelay 4)
        (openR ++ [Label.write 0 true, .receive startR, .read 0 (.ok [20]), .read 0 (.ok [7])])).map
          (fun s => (since "r" s.log, s.trustedSessions "r")) =
        some (some [true, false, true], some 0) := by
      decide
    obtain ⟨s, hs, hseen⟩ := Option.map_eq_some_iff.mp hrun
    obtain ⟨hsince, hsession⟩ := Prod.mk.inj hseen
    exact ⟨s, Machine.Reach.run (.init idleRelay_init) hs, hsince, hsession⟩
  · have hrun : ((machine byteRelay).run (idleRelay 4)
        (openR ++ [Label.write 0 true, .read 0 (.ok [7])])).map
          (fun s => (since "r" s.log, s.trustedSessions "r")) = some (some [true], some 0) := by
      decide
    obtain ⟨s, hs, hseen⟩ := Option.map_eq_some_iff.mp hrun
    obtain ⟨hsince, hsession⟩ := Prod.mk.inj hseen
    exact ⟨s, Machine.Reach.run (.init idleRelay_init) hs, hsince, hsession⟩

end ShellfleetAgent.Agent.Relay
