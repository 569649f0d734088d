import ShellfleetAgent.Privileged.HostKeys
import ShellfleetAgent.Proofs.Gate

/-!
# One host, one identity

A key file is the work of at most one start. What is in it is what that start has written so
far, so a reader sees a part of one key, and the only part of a key that passes for a key is
all of it. A file that is left behind in parts stays like that: no later start gets past it.
-/

namespace ShellfleetAgent.Privileged.HostKeys

open ShellfleetAgent.Lib GateState

abbrev KeyEvent := Event KeyOp KeyResp

abbrev KeyTrace := Trace KeyOp KeyResp Start

/-- The event is the making of the file. -/
def KeyEvent.made (path : OsStr) : KeyEvent → Bool
  | ⟨.createNew p _, .ok ()⟩ => p == path
  | _ => false

/-- What the event has put into the file. -/
def KeyEvent.wrote (path : OsStr) : KeyEvent → Bytes
  | ⟨.write p buf, .ok n⟩ => if p = path then buf.take n else []
  | _ => []

/-- What the event has read from the file. -/
def KeyEvent.read (path : OsStr) : KeyEvent → Option Bytes
  | ⟨.read p, .ok bytes⟩ => if p = path then some bytes else none
  | _ => none

def made (path : OsStr) (h : KeyHistory) : Prop := ∃ e ∈ h, KeyEvent.made path e = true

def written (path : OsStr) (h : KeyHistory) : Bytes := h.flatMap (KeyEvent.wrote path)

def read (path : OsStr) (h : KeyHistory) (bytes : Bytes) : Prop :=
  ∃ e ∈ h, KeyEvent.read path e = some bytes

/-- The history has seen to it that the file holds `key`. -/
def Secured (path : OsStr) (key : Key) (h : KeyHistory) : Prop :=
  read path h key.toList ∨ made path h ∧ written path h = key.toList

variable {path p : OsStr} {h h' : KeyHistory} {e : KeyEvent} {bytes : Bytes} {key : Key}

theorem made_snoc : made path (h ++ [e]) ↔ made path h ∨ KeyEvent.made path e = true := by
  simp [made, or_and_right, exists_or]

theorem written_snoc : written path (h ++ [e]) = written path h ++ KeyEvent.wrote path e := by
  simp [written]

theorem read_snoc :
    read path (h ++ [e]) bytes ↔ read path h bytes ∨ KeyEvent.read path e = some bytes := by
  simp [read, or_and_right, exists_or]

/-- The event is about no file's content. -/
structure Idle (e : KeyEvent) : Prop where
  made : ∀ path, KeyEvent.made path e = false
  wrote : ∀ path, KeyEvent.wrote path e = []
  read : ∀ path, KeyEvent.read path e = none

theorem Idle.secured (he : Idle e) (hs : Secured path key h) : Secured path key (h ++ [e]) := by
  rcases hs with hread | ⟨hmade, hwritten⟩
  · exact .inl (read_snoc.mpr (.inl hread))
  · refine .inr ⟨made_snoc.mpr (.inl hmade), ?_⟩
    rw [written_snoc, he.wrote, List.append_nil, hwritten]

/-! ## The host, one call at a time -/

variable {w w' : KeyHost}

theorem exec_cases {o : KeyOp} {ch : KeyChoice} {r : KeyResp o} (hx : w.exec o ch = some (w', r)) :
    (Idle ⟨o, r⟩ ∧ w' = w) ∨
    (∃ p bytes, (⟨o, r⟩ : KeyEvent) = ⟨.read p, .ok bytes⟩ ∧ w.files p = some bytes ∧ w' = w) ∨
    (∃ p m, (⟨o, r⟩ : KeyEvent) = ⟨.createNew p m, .ok ()⟩ ∧ w.files p = none ∧
      w' = w.put p []) ∨
    (∃ p buf n bytes, (⟨o, r⟩ : KeyEvent) = ⟨.write p buf, .ok n⟩ ∧ w.files p = some bytes ∧
      n ≤ buf.length ∧ w' = w.put p (bytes ++ buf.take n)) := by
  have hidle : ∀ {o r}, (∀ path, KeyEvent.made path ⟨o, r⟩ = false) →
      (∀ path, KeyEvent.wrote path ⟨o, r⟩ = []) → (∀ path, KeyEvent.read path ⟨o, r⟩ = none) →
      Idle ⟨o, r⟩ := fun h₁ h₂ h₃ => ⟨h₁, h₂, h₃⟩
  cases o with
  | read p =>
      cases ch with
      | good =>
          simp only [KeyHost.exec] at hx
          split at hx
          · next bytes hfile =>
              cases hx
              exact .inr (.inl ⟨p, bytes, rfl, hfile, rfl⟩)
          · cases hx
            exact .inl ⟨hidle (fun _ => rfl) (fun _ => rfl) (fun _ => rfl), rfl⟩
      | bad e =>
          cases hx
          exact .inl ⟨hidle (fun _ => rfl) (fun _ => rfl) (fun _ => rfl), rfl⟩
      | _ => cases hx
  | createNew p m =>
      cases ch with
      | good =>
          simp only [KeyHost.exec] at hx
          split at hx
          · next hfile =>
              cases hx
              exact .inr (.inr (.inl ⟨p, m, rfl, hfile, rfl⟩))
          · cases hx
            exact .inl ⟨hidle (fun _ => rfl) (fun _ => rfl) (fun _ => rfl), rfl⟩
      | bad e =>
          cases hx
          exact .inl ⟨hidle (fun _ => rfl) (fun _ => rfl) (fun _ => rfl), rfl⟩
      | _ => cases hx
  | write p buf =>
      cases ch with
      | wrote n =>
          simp only [KeyHost.exec] at hx
          split at hx
          · next bytes hfile =>
              split at hx
              · next hn =>
                  cases hx
                  exact .inr (.inr (.inr ⟨p, buf, n, bytes, rfl, hfile, hn, rfl⟩))
              · cases hx
          · cases hx
      | bad e =>
          cases hx
          exact .inl ⟨hidle (fun _ => rfl) (fun _ => rfl) (fun _ => rfl), rfl⟩
      | _ => cases hx
  | _ =>
      cases ch <;> cases hx <;>
        exact .inl ⟨hidle (fun _ => rfl) (fun _ => rfl) (fun _ => rfl), rfl⟩

/-! ## A start, on its own -/

/-- A start writes only to a file that it has made itself, and to that one key at most. -/
def keyContract : Contract KeyOp KeyResp where
  may h
    | .write path buf => made path h ∧ buf ≠ [] ∧ (written path h).length + buf.length = 32
    | _ => True
  answer h
    | .createNew path _, .ok () => written path h = []
    | .write _ buf, .ok n => n ≤ buf.length
    | _, _ => True

/-- What is secured stays so, whatever a start goes on to do. -/
theorem Secured.snoc {o : KeyOp} (hs : Secured path key h) (hmay : keyContract.may h o)
    (r : KeyResp o) : Secured path key (h ++ [⟨o, r⟩]) := by
  rcases hs with hread | ⟨hmade, hwritten⟩
  · exact .inl (read_snoc.mpr (.inl hread))
  refine .inr ⟨made_snoc.mpr (.inl hmade), ?_⟩
  have hwrote : KeyEvent.wrote path ⟨o, r⟩ = [] := by
    unfold KeyEvent.wrote
    split
    · next p buf n heq =>
        cases heq
        obtain ⟨_, hne, hlen⟩ := hmay
        have hother : p ≠ path := by
          rintro rfl
          rw [hwritten, Vector.length_toList] at hlen
          exact hne (List.eq_nil_of_length_eq_zero (by omega))
        exact if_neg hother
    · rfl
  rw [written_snoc, hwrote, List.append_nil, hwritten]

/-- The program keeps to the contract, and what it returns satisfies `Q`. -/
abbrev Keeps {α : Type} (m : KeyM α) (Q : KeyHistory → α → Prop) (h : KeyHistory) : Prop :=
  keyContract.wp m.run (fun h' r => ∀ a, r = .ok a → Q h' a) h

section Keeps

variable {α β : Type} {m : KeyM α} {Q : KeyHistory → α → Prop}

theorem Keeps.bind {f : α → KeyM β} {R : KeyHistory → β → Prop} (hm : Keeps m Q h)
    (hf : ∀ h' a, Q h' a → Keeps (f a) R h') : Keeps (m >>= f) R h := by
  refine Contract.wp_run_bind.mpr (Contract.wp_mono hm fun h' r hr => ?_)
  cases r with
  | ok a => exact hf h' a (hr a rfl)
  | error e => exact nofun

theorem Keeps.pure {a : α} (hq : Q h a) : Keeps (Pure.pure a : KeyM α) Q h := by
  intro b hb
  cases hb
  exact hq

theorem Keeps.throw {e : String} : Keeps (MonadExcept.throw e : KeyM α) Q h := nofun

/-- Whatever is done under the contract, what was secured before is so afterwards. -/
theorem Keeps.secured (hm : Keeps m Q h) (hs : Secured path key h) :
    Keeps m (fun h' a => Q h' a ∧ Secured path key h') h := by
  have hp : ∀ (p : Prog KeyOp KeyResp (Except String α)) (h : KeyHistory),
      Secured path key h → keyContract.wp p (fun h' r => ∀ a, r = .ok a → Q h' a) h →
      keyContract.wp p (fun h' r => ∀ a, r = .ok a → Q h' a ∧ Secured path key h') h := by
    intro p
    induction p with
    | ret r => exact fun h hs hq a ha => ⟨hq a ha, hs⟩
    | call o k ih =>
        rintro h hs ⟨hmay, hk⟩
        exact ⟨hmay, fun r hr => ih r _ (hs.snoc hmay r) (hk r hr)⟩
  exact hp m.run h hs hm

end Keeps

/-- All of `buf` gets into the file, if `write_all` succeeds. -/
theorem keeps_writeAll {turns : Nat} {buf : Bytes} (hmade : made path h)
    (hlen : (written path h).length + buf.length = 32) (hturns : buf.length ≤ turns) :
    Keeps (writeAll path turns buf)
      (fun h' _ => made path h' ∧ written path h' = written path h ++ buf) h := by
  induction turns generalizing h buf with
  | zero =>
      have hnil : buf = [] := List.eq_nil_of_length_eq_zero (by omega)
      subst hnil
      exact .pure ⟨hmade, (List.append_nil _).symm⟩
  | succ turns ih =>
      rw [writeAll]
      split
      · next hempty =>
          rw [List.isEmpty_iff] at hempty
          subst hempty
          exact .pure ⟨hmade, (List.append_nil _).symm⟩
      next hne =>
      have hne : buf ≠ [] := fun hnil => hne (List.isEmpty_iff.mpr hnil)
      refine Keeps.bind (Q := fun h' n => n ≤ buf.length ∧ made path h' ∧
        written path h' = written path h ++ buf.take n) ⟨⟨hmade, hne, hlen⟩, ?_⟩ ?_
      · intro r hr n hn
        subst hn
        refine ⟨hr, made_snoc.mpr (.inl hmade), ?_⟩
        rw [written_snoc]
        exact congrArg _ (if_pos rfl)
      · rintro h' n ⟨hle, hmade', hwritten⟩
        split
        · exact .throw
        next hn =>
        have hlen' : (written path h').length + (buf.drop n).length = 32 := by
          rw [hwritten, List.length_append, List.length_take, List.length_drop]
          omega
        have hturns' : (buf.drop n).length ≤ turns := by
          rw [List.length_drop]
          omega
        have hrest := ih hmade' hlen' hturns'
        rw [hwritten, List.append_assoc, List.take_append_drop] at hrest
        exact hrest

theorem toKey_eq_some : toKey bytes = some key ↔ bytes = key.toList := by
  unfold toKey
  split
  · next hsize =>
      rw [Option.some.injEq]
      constructor
      · intro hk
        subst hk
        rfl
      · intro hb
        subst hb
        rfl
  · next hsize =>
      refine iff_of_false (by simp) fun hb => hsize ?_
      subst hb
      simp

/-- A key that is returned is what the file holds. -/
theorem keeps_loadOrCreateKey :
    Keeps (loadOrCreateKey path) (fun h' key => Secured path key h') h := by
  refine Keeps.bind (Q := fun h' r => ∀ bytes, r = .ok bytes → read path h' bytes)
    ⟨trivial, fun r _ a ha bytes hb => ?_⟩ fun h₁ r hr => ?_
  · cases ha
    subst hb
    exact read_snoc.mpr (.inr (if_pos rfl))
  cases r with
  | ok bytes =>
      dsimp only
      split
      · next key hkey =>
          rw [toKey_eq_some] at hkey
          exact .pure (.inl (hkey ▸ hr bytes rfl))
      · exact .throw
  | error e =>
      refine Keeps.bind (Q := fun _ _ => True) ⟨trivial, fun _ _ _ _ => trivial⟩ fun h₂ key _ => ?_
      refine Keeps.bind (Q := fun h' _ => made path h' ∧ written path h' = [])
        ⟨trivial, fun r hr a ha => ?_⟩ fun h₃ _ hmade => ?_
      · subst ha
        refine ⟨made_snoc.mpr (.inr (beq_self_eq_true path)), ?_⟩
        rw [written_snoc]
        exact (List.append_nil _).trans hr
      · obtain ⟨hmade, hwritten⟩ := hmade
        have hlen : (written path h₃).length + key.toList.length = 32 := by
          rw [hwritten, Vector.length_toList]
          rfl
        refine Keeps.bind (keeps_writeAll hmade hlen (Nat.le_refl _)) fun h₄ _ hall => ?_
        rw [hwritten, List.nil_append] at hall
        exact .pure (.inr hall)

/-- What a start that has returned `g` has behind it. -/
structure Keyed (x : Externals) (c : Start) (h : KeyHistory) (g : GateState) : Prop where
  signing : Secured (signingPath c.stateDir) g.hostSigning h
  transport : Secured (transportPath c.stateDir) g.transportSecret h
  hostId : g.hostId = hostIdOf x g.hostSigning

theorem keeps_loadOrCreate {x : Externals} {c : Start} :
    Keeps (loadOrCreate x c.stateDir c.approversPath) (Keyed x c) h := by
  refine Keeps.bind (Q := fun _ _ => True) ⟨trivial, fun _ _ _ _ => trivial⟩ fun h₁ _ _ => ?_
  refine Keeps.bind (Q := fun _ _ => True) ⟨trivial, fun _ _ _ _ => trivial⟩ fun h₂ _ _ => ?_
  refine Keeps.bind keeps_loadOrCreateKey fun h₃ signing hs => ?_
  refine Keeps.bind (keeps_loadOrCreateKey.secured hs) fun h₄ transport ⟨ht, hs⟩ => ?_
  have hboth : ∀ {m : KeyM Unit} {h : KeyHistory}, Keeps m (fun _ _ => True) h →
      Secured (signingPath c.stateDir) signing h ∧ Secured (transportPath c.stateDir) transport h →
      Keeps m (fun h' _ => Secured (signingPath c.stateDir) signing h' ∧
        Secured (transportPath c.stateDir) transport h') h := by
    intro m h hm hh
    refine Contract.wp_mono ((hm.secured hh.1).secured hh.2) fun h' r hr a ha => ?_
    obtain ⟨⟨_, hs'⟩, ht'⟩ := hr a ha
    exact ⟨hs', ht'⟩
  refine Keeps.bind (hboth ⟨trivial, fun _ _ _ _ => trivial⟩ ⟨hs, ht⟩) fun h₅ _ hh => ?_
  refine Keeps.bind (hboth ⟨trivial, fun _ _ _ _ => trivial⟩ hh) fun h₆ _ hh => ?_
  refine Keeps.bind (hboth ⟨trivial, fun _ _ _ _ => trivial⟩ hh) fun h₇ _ hh => ?_
  exact .pure ⟨hh.1, hh.2, rfl⟩

def keyOutline (x : Externals) : Outline (startCode x) where
  contract _ := keyContract
  loopInv := nofun
  post c h r := ∀ g, r = .ok g → Keyed x c h g

theorem keyOutline_holds (x : Externals) : (keyOutline x).Holds where
  start _ := Contract.wp_bind.mpr (Contract.wp_mono keeps_loadOrCreate fun _ _ hr => hr)
  again _ _ l := nomatch l

/-! ## All of them together -/

/-- What a start has made holds what it has written; what has passed for a key is there
still. -/
structure Kept (w : KeyHost) (h : KeyHistory) : Prop where
  holds : ∀ path, made path h → w.files path = some (written path h)
  unmade : ∀ path, ¬made path h → written path h = []
  seen : ∀ path (bytes : Bytes), read path h bytes → bytes.length = 32 →
    w.files path = some bytes

/-- No file is made twice. -/
structure KeyInv (w : KeyHost) (v : Nat → Option KeyTrace) : Prop where
  kept : ∀ t tr, v t = some tr → Kept w tr.hist
  sole : ∀ t t' tr tr' path, v t = some tr → v t' = some tr' → made path tr.hist →
    made path tr'.hist → t = t'

theorem put_self (content : Bytes) : (w.put p content).files p = some content :=
  Function.update_self ..

theorem put_ne (content : Bytes) (hne : path ≠ p) : (w.put p content).files path = w.files path :=
  Function.update_of_ne hne ..

/-- A file that changes is none that a start that did not make it knows as a key. -/
theorem Kept.put (hk : Kept w h) (hmade : ¬made p h)
    (hnone : ∀ bytes : Bytes, bytes.length = 32 → w.files p ≠ some bytes) (content : Bytes) :
    Kept (w.put p content) h where
  holds path hm := by
    have hne : path ≠ p := by
      rintro rfl
      exact hmade hm
    rw [put_ne content hne]
    exact hk.holds path hm
  unmade := hk.unmade
  seen path bytes hread hlen := by
    have hfile := hk.seen path bytes hread hlen
    have hne : path ≠ p := by
      rintro rfl
      exact hnone bytes hlen hfile
    rw [put_ne content hne, hfile]

theorem Kept.idle (hk : Kept w h) (he : Idle e) : Kept w (h ++ [e]) := by
  have hmade : ∀ path, made path (h ++ [e]) ↔ made path h := fun path => by
    rw [made_snoc, he.made]
    simp
  have hwritten : ∀ path, written path (h ++ [e]) = written path h := fun path => by
    rw [written_snoc, he.wrote, List.append_nil]
  refine ⟨fun path hm => ?_, fun path hm => ?_, fun path bytes hr hlen => ?_⟩
  · rw [hwritten]
    exact hk.holds path ((hmade path).mp hm)
  · rw [hwritten]
    exact hk.unmade path fun hm' => hm ((hmade path).mpr hm')
  · rw [read_snoc, he.read] at hr
    exact hk.seen path bytes (hr.resolve_right nofun) hlen

theorem Kept.read (hk : Kept w h) (hfile : w.files p = some bytes) :
    Kept w (h ++ [⟨.read p, .ok bytes⟩]) := by
  have hmade : ∀ path, made path (h ++ [⟨.read p, .ok bytes⟩]) ↔ made path h := fun path => by
    simp [made_snoc, KeyEvent.made]
  have hwritten : ∀ path, written path (h ++ [⟨.read p, .ok bytes⟩]) = written path h :=
    fun path => by simp [written_snoc, KeyEvent.wrote]
  refine ⟨fun path hm => ?_, fun path hm => ?_, fun path found hr hlen => ?_⟩
  · rw [hwritten]
    exact hk.holds path ((hmade path).mp hm)
  · rw [hwritten]
    exact hk.unmade path fun hm' => hm ((hmade path).mpr hm')
  · rcases read_snoc.mp hr with hr | hr
    · exact hk.seen path found hr hlen
    · simp only [KeyEvent.read] at hr
      split at hr
      · next heq =>
          cases hr
          rw [← heq, hfile]
      · cases hr

theorem Kept.create {m : Nat} (hk : Kept w h) (hfile : w.files p = none) :
    Kept (w.put p []) (h ++ [⟨.createNew p m, .ok ()⟩]) := by
  have hmade : ¬made p h := fun hm => by
    rw [hk.holds p hm] at hfile
    cases hfile
  have hnone : ∀ bytes : Bytes, bytes.length = 32 → w.files p ≠ some bytes := fun bytes _ => by
    rw [hfile]
    exact nofun
  have hk' := hk.put hmade hnone []
  have hwritten : ∀ path, written path (h ++ [⟨.createNew p m, .ok ()⟩]) = written path h :=
    fun path => by simp [written_snoc, KeyEvent.wrote]
  refine ⟨fun path hm => ?_, fun path hm => ?_, fun path found hr hlen => ?_⟩
  · rw [hwritten]
    rcases made_snoc.mp hm with hm | hm
    · exact hk'.holds path hm
    · obtain rfl : p = path := beq_iff_eq.mp hm
      rw [put_self, hk.unmade p hmade]
  · rw [hwritten]
    exact hk.unmade path fun hm' => hm (made_snoc.mpr (.inl hm'))
  · rw [read_snoc] at hr
    exact hk'.seen path found (hr.resolve_right nofun) hlen

theorem Kept.write {buf : Bytes} {n : Nat} (hk : Kept w h) (hmade : made p h)
    (hshort : (written p h).length < 32) :
    Kept (w.put p (written p h ++ buf.take n)) (h ++ [⟨.write p buf, .ok n⟩]) := by
  have hm' : ∀ path, made path (h ++ [⟨.write p buf, .ok n⟩]) ↔ made path h := fun path => by
    simp [made_snoc, KeyEvent.made]
  have hself : written p (h ++ [⟨.write p buf, .ok n⟩]) = written p h ++ buf.take n := by
    rw [written_snoc]
    exact congrArg _ (if_pos rfl)
  have hother : ∀ path, path ≠ p →
      written path (h ++ [⟨.write p buf, .ok n⟩]) = written path h := fun path hne => by
    rw [written_snoc]
    have hwrote : KeyEvent.wrote path ⟨.write p buf, .ok n⟩ = [] := if_neg (Ne.symm hne)
    rw [hwrote, List.append_nil]
  refine ⟨fun path hm => ?_, fun path hm => ?_, fun path found hr hlen => ?_⟩
  · by_cases heq : path = p
    · rw [heq, put_self, hself]
    · rw [put_ne _ heq, hother path heq]
      exact hk.holds path ((hm' path).mp hm)
  · have heq : path ≠ p := by
      rintro rfl
      exact hm ((hm' path).mpr hmade)
    rw [hother path heq]
    exact hk.unmade path fun hmade' => hm ((hm' path).mpr hmade')
  · have hfile := hk.seen path found ((read_snoc.mp hr).resolve_right nofun) hlen
    have heq : path ≠ p := by
      rintro rfl
      rw [hk.holds path hmade, Option.some.injEq] at hfile
      rw [hfile] at hshort
      omega
    rw [put_ne _ heq, hfile]

/-- The others keep what they know when `t` has changed a file that none of them made. -/
theorem KeyInv.moved {content : Bytes} (hI : KeyInv w v) (ht : v t = some ⟨c, h, true⟩)
    (hnone : ∀ bytes : Bytes, bytes.length = 32 → w.files p ≠ some bytes)
    (hfree : ∀ u tr, u ≠ t → v u = some tr → ¬made p tr.hist)
    (hmine : Kept (w.put p content) (h ++ [e]))
    (hmade : ∀ path, made path (h ++ [e]) → made path h ∨ path = p) :
    KeyInv (w.put p content) (Function.update v t (some ⟨c, h ++ [e], true⟩)) where
  kept u tr hu := by
    rcases update_some hu with ⟨rfl, rfl⟩ | ⟨hut, hu⟩
    · exact hmine
    · exact (hI.kept u tr hu).put (hfree u tr hut hu) hnone content
  sole u u' tr tr' path hu hu' hm hm' := by
    rcases update_some hu with ⟨rfl, rfl⟩ | ⟨hut, hv⟩
    · rcases update_some hu' with ⟨rfl, _⟩ | ⟨hut', hv'⟩
      · rfl
      · rcases hmade path hm with hm | rfl
        · exact hI.sole u u' _ tr' path ht hv' hm hm'
        · exact absurd hm' (hfree u' tr' hut' hv')
    · rcases update_some hu' with ⟨rfl, rfl⟩ | ⟨hut', hv'⟩
      · rcases hmade path hm' with hm' | rfl
        · exact hI.sole u u' tr _ path hv ht hm hm'
        · exact absurd hm (hfree u tr hut hv)
      · exact hI.sole u u' tr tr' path hv hv' hm hm'

/-- Nothing but what `t` knows has changed. -/
theorem KeyInv.noted {l : Bool} (hI : KeyInv w v) (ht : v t = some ⟨c, h, true⟩)
    (hmine : Kept w h') (hmade : ∀ path, made path h' → made path h) :
    KeyInv w (Function.update v t (some ⟨c, h', l⟩)) where
  kept u tr hu := by
    rcases update_some hu with ⟨rfl, rfl⟩ | ⟨_, hu⟩
    · exact hmine
    · exact hI.kept u tr hu
  sole u u' tr tr' path hu hu' hm hm' := by
    rcases update_some hu with ⟨rfl, rfl⟩ | ⟨_, hv⟩
    · rcases update_some hu' with ⟨rfl, _⟩ | ⟨_, hv'⟩
      · rfl
      · exact hI.sole u u' _ tr' path ht hv' (hmade path hm) hm'
    · rcases update_some hu' with ⟨rfl, rfl⟩ | ⟨_, hv'⟩
      · exact hI.sole u u' tr _ path hv ht hm (hmade path hm')
      · exact hI.sole u u' tr tr' path hv hv' hm hm'

theorem KeyInv.act {o : KeyOp} {r : KeyResp o} {ch : KeyChoice} (hI : KeyInv w v)
    (ht : v t = some ⟨c, h, true⟩) (hmay : keyContract.may h o)
    (hx : w.exec o ch = some (w', r)) :
    keyContract.answer h o r ∧
      KeyInv w' (Function.update v t (some ⟨c, h ++ [⟨o, r⟩], true⟩)) := by
  have hk : Kept w h := hI.kept t _ ht
  rcases exec_cases hx with ⟨hidle, rfl⟩ | ⟨p, bytes, heq, hfile, rfl⟩ |
    ⟨p, m, heq, hfile, rfl⟩ | ⟨p, buf, n, bytes, heq, hfile, hn, rfl⟩
  · refine ⟨?_, hI.noted ht (hk.idle hidle) fun path hm => ?_⟩
    · cases o with
      | createNew path mode =>
          cases r with
          | ok _ => exact absurd (hidle.made path) (by simp [KeyEvent.made])
          | error e => trivial
      | write path buf =>
          cases r with
          | ok n =>
              show n ≤ buf.length
              have hwrote : (if path = path then buf.take n else []) = [] := hidle.wrote path
              rw [if_pos rfl, List.take_eq_nil_iff] at hwrote
              rcases hwrote with rfl | rfl
              · exact Nat.zero_le _
              · exact absurd rfl hmay.2.1
          | error e => trivial
      | _ => trivial
    · rw [made_snoc, hidle.made] at hm
      exact hm.resolve_right nofun
  · cases heq
    refine ⟨trivial, hI.noted ht (hk.read hfile) fun path hm => ?_⟩
    exact (made_snoc.mp hm).resolve_right nofun
  · cases heq
    have hnone : ∀ bytes : Bytes, bytes.length = 32 → w.files p ≠ some bytes := fun bytes _ => by
      rw [hfile]
      exact nofun
    have hfree : ∀ u tr, v u = some tr → ¬made p tr.hist := fun u tr hu hm => by
      rw [(hI.kept u tr hu).holds p hm] at hfile
      cases hfile
    refine ⟨hk.unmade p (hfree t _ ht), ?_⟩
    refine hI.moved ht hnone (fun u tr _ hu => hfree u tr hu) (hk.create hfile) fun path hm => ?_
    rcases made_snoc.mp hm with hm | hm
    · exact .inl hm
    · exact .inr (beq_iff_eq.mp hm).symm
  · cases heq
    obtain ⟨hmade, hne, hlen⟩ := hmay
    have hpos := List.length_pos_iff.mpr hne
    have hshort : (written p h).length < 32 := by omega
    have hcontent := hk.holds p hmade
    rw [hfile, Option.some.injEq] at hcontent
    subst hcontent
    refine ⟨hn, hI.moved ht (fun bytes hlen hb => ?_) (fun u tr hut hu hm => ?_)
      (hk.write hmade hshort) fun path hm => .inl ((made_snoc.mp hm).resolve_right nofun)⟩
    · rw [hfile, Option.some.injEq] at hb
      rw [hb] at hshort
      omega
    · exact hut (hI.sole u t tr _ p hu ht hm hmade)

/-- A start that has done nothing yet knows nothing. -/
theorem KeyInv.spawn (hI : KeyInv w v) :
    KeyInv w (Function.update v t (some ⟨c, [], true⟩)) := by
  have hnone : ∀ path, ¬made path [] := fun path hm => by
    obtain ⟨e, he, _⟩ := hm
    cases he
  refine ⟨fun u tr hu => ?_, fun u u' tr tr' path hu hu' hm hm' => ?_⟩
  · rcases update_some hu with ⟨_, rfl⟩ | ⟨_, hv⟩
    · refine ⟨fun path hm => absurd hm (hnone path), fun _ _ => rfl, fun path bytes hr => ?_⟩
      obtain ⟨e, he, _⟩ := hr
      cases he
    · exact hI.kept u tr hv
  · rcases update_some hu with ⟨_, rfl⟩ | ⟨_, hv⟩
    · exact absurd hm (hnone path)
    · rcases update_some hu' with ⟨_, rfl⟩ | ⟨_, hv'⟩
      · exact absurd hm' (hnone path)
      · exact hI.sole u u' tr tr' path hv hv' hm hm'

theorem keySound (x : Externals) :
    (keyOutline x).Sound keyHost (fun _ _ => True) (fun w v => KeyInv w v) where
  init _ _ := ⟨nofun, nofun⟩
  spawn _ _ _ _ _ hI _ hw := by
    cases hw
    exact hI.spawn
  act _ _ _ _ _ _ _ _ _ hI ht hmay _ hx := hI.act (Pool.State.view_eq ht) hmay hx
  kill _ _ t _ _ hI ht := hI.noted ht (hI.kept t _ ht) fun _ hm => hm
  env _ _ e := nomatch e

/-! ## What a start returns -/

variable {x : Externals} {s s' : KeyPoolState} {g g' : GateState} {c' : Start} {t' : Nat}

theorem Secured.file (hs : Secured path key h) (hk : Kept w h) :
    w.files path = some key.toList := by
  rcases hs with hread | ⟨hmade, hwritten⟩
  · exact hk.seen path _ hread (Vector.length_toList ..)
  · rw [hk.holds path hmade, hwritten]

/-- The key files hold what a start has returned, from then on. -/
theorem Started.files (hr : (startPool x).Reachable s) (hs : Started s t c g) :
    s.world.files (signingPath c.stateDir) = some g.hostSigning.toList ∧
      s.world.files (transportPath c.stateDir) = some g.transportSecret.toList ∧
      g.hostId = hostIdOf x g.hostSigning := by
  obtain ⟨hI, hK⟩ := Outline.invariant (keyOutline_holds x) (keySound x) hr
  obtain ⟨h, ht⟩ := hs
  have hkeyed : Keyed x c h g := hK t _ ht g rfl
  have hkept : Kept s.world h := hI.kept t _ (Pool.State.view_eq ht)
  exact ⟨hkeyed.signing.file hkept, hkeyed.transport.file hkept, hkeyed.hostId⟩

theorem toList_inj {k k' : Key} (heq : k.toList = k'.toList) : k = k' :=
  Vector.toArray_inj.mp (Array.toList_inj.mp heq)

/-- However many starts there are, at once or one after the other, and wherever they are
killed: those that succeed on one state directory have the same identity, and it is the one
in the files. -/
theorem starts_agree (hr : (startPool x).Reachable s) (hs : Started s t c g)
    (hs' : Started s t' c' g') (hdir : c'.stateDir = c.stateDir) :
    g'.hostSigning = g.hostSigning ∧ g'.transportSecret = g.transportSecret ∧
      g'.hostId = g.hostId ∧
      s.world.files (signingPath c.stateDir) = some g.hostSigning.toList ∧
      s.world.files (transportPath c.stateDir) = some g.transportSecret.toList := by
  obtain ⟨hsign, htrans, hid⟩ := hs.files hr
  obtain ⟨hsign', htrans', hid'⟩ := hs'.files hr
  have hsigning : g'.hostSigning = g.hostSigning := by
    rw [hdir, hsign, Option.some.injEq] at hsign'
    exact (toList_inj hsign').symm
  have htransport : g'.transportSecret = g.transportSecret := by
    rw [hdir, htrans, Option.some.injEq] at htrans'
    exact (toList_inj htrans').symm
  refine ⟨hsigning, htransport, ?_, hsign, htrans⟩
  rw [hid', hid, hsigning]

/-- The result of thread `t`, if it has one. -/
def resultOf (s : KeyPoolState) (t : Nat) : Option (Start × GateState) :=
  match s.threads t with
  | some ⟨⟨c, _, true⟩, .ret (.inr (.ok g))⟩ => some (c, g)
  | _ => none

theorem started_of_resultOf (h : resultOf s t = some (c, g)) : Started s t c g := by
  unfold resultOf at h
  split at h
  · next c' hist g' ht =>
      cases h
      exact ⟨hist, ht⟩
  · cases h

def plainStart : Start := ⟨os "/g", os "/a"⟩

/-- The second start comes when the first has written one of its keys, in two pieces. -/
def twoStarts : List (Pool.Label Start KeyChoice Empty) :=
  [.spawn 0 plainStart, .act 0 .good, .act 0 .good, .act 0 .good,
    .act 0 (.key (Vector.replicate 32 1)), .act 0 .good, .act 0 (.wrote 20), .act 0 (.wrote 12),
    .spawn 1 plainStart, .act 1 .good, .act 1 .good, .act 1 .good, .act 1 .good,
    .act 1 (.key (Vector.replicate 32 2)), .act 1 .good, .act 1 (.wrote 32),
    .act 0 .good, .act 0 .good, .act 0 .good, .act 0 .good,
    .act 1 .good, .act 1 .good, .act 1 .good]

def emptyHost : KeyPoolState := ⟨⟨fun _ => none⟩, fun _ => none⟩

/-- Each has made one of the two keys, and read the other. -/
theorem starts_agree_two : ∃ s c g c' g', (startPool plainExternals).Reachable s ∧
    Started s 0 c g ∧ Started s 1 c' g' ∧ g'.hostSigning = g.hostSigning ∧
    g'.transportSecret = g.transportSecret := by
  have hrun : (((startPool plainExternals).run emptyHost twoStarts).bind fun s =>
      (resultOf s 0).bind fun r => (resultOf s 1).bind fun r' =>
        if r'.1.stateDir = r.1.stateDir then some () else none) = some () := rfl
  obtain ⟨s, hs, hrun⟩ := Option.bind_eq_some_iff.mp hrun
  obtain ⟨⟨c, g⟩, hg, hrun⟩ := Option.bind_eq_some_iff.mp hrun
  obtain ⟨⟨c', g'⟩, hg', hrun⟩ := Option.bind_eq_some_iff.mp hrun
  obtain ⟨hdir, _⟩ := Option.ite_none_right_eq_some.mp hrun
  have hr : (startPool plainExternals).Reachable s := .run (.init ⟨trivial, fun _ => rfl⟩) hs
  obtain ⟨hsigning, htransport, _⟩ :=
    starts_agree hr (started_of_resultOf hg) (started_of_resultOf hg') hdir
  exact ⟨s, c, g, c', g', hr, started_of_resultOf hg, started_of_resultOf hg', hsigning,
    htransport⟩

/-! ## A key that was never finished -/

/-- No start that has made the file has anything left to do. -/
def Abandoned (path : OsStr) (s : KeyPoolState) : Prop :=
  ∀ t c h o k, s.threads t = some ⟨⟨c, h, true⟩, .call o k⟩ → ¬made path h

theorem Abandoned.set {th : Thread KeyOp KeyResp Start Empty (Except String GateState)}
    (ha : Abandoned path s) (hth : th.live = true → ¬made path th.hist) :
    Abandoned path (s.set w t th) := by
  intro u c h o k hu
  rcases update_some hu with ⟨_, rfl⟩ | ⟨_, hv⟩
  · exact hth rfl
  · exact ha u c h o k hv

/-- A file that is there, and that no one is still writing, stays as it is. -/
theorem abandoned_step {i : Pool.Label Start KeyChoice Empty} (hr : (startPool x).Reachable s)
    (hs : (startPool x).step s i = some s') (ha : Abandoned path s)
    (hfile : s.world.files path = some bytes) :
    Abandoned path s' ∧ s'.world.files path = some bytes := by
  have hnone : ¬made path [] := fun ⟨_, he, _⟩ => nomatch he
  rcases Pool.step_cases hs with ⟨t, c, w, rfl, _, hw, rfl⟩ |
    ⟨t, ch, c, o, k, h, w, r, rfl, ht, hx, rfl⟩ | ⟨t, c, l, _⟩ |
    ⟨t, c, p, h, rfl, _, _, rfl⟩ | ⟨e, _⟩
  · cases hw
    exact ⟨ha.set fun _ => hnone, hfile⟩
  · have hmade := ha t c h o k ht
    have hmay : keyContract.may h o :=
      ((Outline.invariant (keyOutline_holds x) (keySound x) hr).2 t _ ht).1
    rcases exec_cases hx with ⟨hidle, rfl⟩ | ⟨p, found, heq, _, rfl⟩ |
      ⟨p, m, heq, hnew, rfl⟩ | ⟨p, buf, n, found, heq, _, _, rfl⟩
    · refine ⟨ha.set fun _ hm => ?_, hfile⟩
      rw [made_snoc, hidle.made] at hm
      exact hmade (hm.resolve_right nofun)
    · cases heq
      exact ⟨ha.set fun _ hm => hmade ((made_snoc.mp hm).resolve_right nofun), hfile⟩
    · cases heq
      have hne : path ≠ p := by
        rintro rfl
        rw [hfile] at hnew
        cases hnew
      refine ⟨ha.set fun _ hm => ?_, (put_ne _ hne).trans hfile⟩
      rcases made_snoc.mp hm with hm | hm
      · exact hmade hm
      · exact hne (beq_iff_eq.mp hm).symm
    · cases heq
      have hne : path ≠ p := by
        rintro rfl
        exact hmade hmay.1
      exact ⟨ha.set fun _ hm => hmade ((made_snoc.mp hm).resolve_right nofun),
        (put_ne _ hne).trans hfile⟩
  · exact nomatch l
  · exact ⟨ha.set nofun, hfile⟩
  · exact nomatch e

theorem abandoned_run {is : List (Pool.Label Start KeyChoice Empty)}
    (hr : (startPool x).Reachable s) (hrun : (startPool x).run s is = some s')
    (ha : Abandoned path s) (hfile : s.world.files path = some bytes) :
    s'.world.files path = some bytes := by
  refine (hr.run_rel (R := fun s s' => Abandoned path s → s.world.files path = some bytes →
    Abandoned path s' ∧ s'.world.files path = some bytes) ?_ ?_ ?_ hrun ha hfile).2
  · exact fun s ha hfile => ⟨ha, hfile⟩
  · intro s₁ s₂ s₃ h₁ h₂ ha hfile
    obtain ⟨ha₂, hfile₂⟩ := h₁ ha hfile
    exact h₂ ha₂ hfile₂
  · exact fun s i s' hr hs ha hfile => abandoned_step hr hs ha hfile

/-- A key file that a start has left unfinished, being killed or refused by the disk, is never
finished and never replaced, and no start on that directory succeeds again. -/
theorem torn_key_blocks {is : List (Pool.Label Start KeyChoice Empty)}
    (hr : (startPool x).Reachable s) (ha : Abandoned path s)
    (hfile : s.world.files path = some bytes) (hlen : bytes.length ≠ 32)
    (hrun : (startPool x).run s is = some s') :
    s'.world.files path = some bytes ∧ ∀ t c g, Started s' t c g →
      signingPath c.stateDir ≠ path ∧ transportPath c.stateDir ≠ path := by
  have hfile' := abandoned_run hr hrun ha hfile
  refine ⟨hfile', fun t c g hs => ?_⟩
  obtain ⟨hsign, htrans, _⟩ := hs.files (hr.run hrun)
  have hother : ∀ {p : OsStr} {key : Key}, s'.world.files p = some key.toList → p ≠ path := by
    rintro p key hp rfl
    rw [hfile', Option.some.injEq] at hp
    exact hlen (hp ▸ Vector.length_toList ..)
  exact ⟨hother hsign, hother htrans⟩

/-- A host whose gate was killed when it had written one byte of its first key. -/
def tornHost : KeyPoolState :=
  ⟨⟨fun p => if p = signingPath (os "/g") then some [7] else none⟩, fun _ => none⟩

/-- The next start of the gate on that host has come to nothing. -/
theorem torn_key_blocks_next : ∃ s, (startPool plainExternals).Reachable s ∧
    (s.threads 0).isSome = true ∧ s.world.files (signingPath (os "/g")) = some [7] ∧
    ¬∃ c g, Started s 0 c g ∧ c.stateDir = os "/g" := by
  have hinit : (startPool plainExternals).Reachable tornHost := .init ⟨trivial, fun _ => rfl⟩
  have hrun : ((startPool plainExternals).run tornHost
      [.spawn 0 plainStart, .act 0 .good, .act 0 .good, .act 0 .good]).map
        (fun s => (s.threads 0).isSome) = some true := rfl
  obtain ⟨s, hs, hsome⟩ := Option.map_eq_some_iff.mp hrun
  have hfile : tornHost.world.files (signingPath (os "/g")) = some [7] := by
    show (if signingPath (os "/g") = signingPath (os "/g") then some [(7 : UInt8)] else none) = _
    exact if_pos rfl
  obtain ⟨hkept, hno⟩ := torn_key_blocks hinit nofun hfile (by decide) hs
  refine ⟨s, hinit.run hs, hsome, hkept, ?_⟩
  rintro ⟨c, g, hg, hdir⟩
  exact (hno 0 c g hg).1 (congrArg signingPath hdir)

end ShellfleetAgent.Privileged.HostKeys
