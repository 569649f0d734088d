import ShellfleetAgent.Privileged.Enrollment
import ShellfleetAgent.Proofs.Gate

/-!
# What is loaded after enrolling

Both programs read the file as a map from ids to encoded keys, and enrolling puts one entry
into it. So the map in the file is the invariant (`savedValues`): a call that succeeds has
added its entry to it, whatever was there, and loading decodes it entry by entry.
-/

namespace ShellfleetAgent.Privileged.Enrollment

open ShellfleetAgent.Lib GateState

/-- What the JSON reader and writer are relied on for: a map is read in the order of its
keys, and what is written is read back. -/
structure StringMaps (x : Externals)
    (toVecPretty : BTreeMap String String → Except String String) : Prop where
  sorted : ∀ {raw entries}, x.parseStringMap raw = some entries →
    entries.Pairwise fun e e' => e.1 < e'.1
  read_written : ∀ {values text}, toVecPretty values = .ok text →
    x.parseStringMap text = some values.entries

/-- What `load_approvers` makes of an encoded key. -/
def approverKey (x : Externals) (encoded : String) : Option Key :=
  (x.decodeBase64 encoded).bind toKey

/-- On this host `load_approvers` returns this map. -/
def Loads (x : Externals) (path : String) (w : KeyringHost) (approvers : BTreeMap String Key) :
    Prop :=
  Returns (loadApprovers x path).run [⟨.readApprovers path, w.files (os path)⟩]
    (.ok approvers.entries)

/-- The keyring is loaded, or there is none, or there is no one in it. -/
def Keyring (x : Externals) (path : String) (w : KeyringHost)
    (approvers : BTreeMap String Key) : Prop :=
  Loads x path w approvers ∨
    approvers = .empty ∧ ((∃ e, w.files (os path) = .error e) ∨
      ∃ raw, w.files (os path) = .ok raw ∧ x.parseStringMap raw = some [])

/-- Successful calls one after another, with their ids and keys. -/
inductive Enrolled (x : Externals) (toVecPretty : BTreeMap String String → Except String String)
    (path : String) : KeyringHost → List (String × String) → KeyringHost → Prop
  | nil (w : KeyringHost) : Enrolled x toVecPretty path w [] w
  | call {w w' w'' : KeyringHost} {ch : KeyringOp → KeyringChoice} {id encoded : String}
      {calls : List (String × String)}
      (hcall : KeyringHost.enroll x toVecPretty ch path id encoded w = (w', .ok ()))
      (hrest : Enrolled x toVecPretty path w' calls w'') :
      Enrolled x toVecPretty path w ((id, encoded) :: calls) w''

variable {x : Externals} {toVecPretty : BTreeMap String String → Except String String}
variable {path : String} {w w' : KeyringHost} {ch : KeyringOp → KeyringChoice}

/-! ## One call -/

theorem checkApprover_key {id encoded : String} (h : checkApprover x id encoded = .ok ()) :
    (approverKey x encoded).isSome = true := by
  unfold checkApprover at h
  split at h
  · cases h
  · split at h
    · cases h
    · next decoded hdecoded =>
        split at h
        · cases h
        · next key hkey =>
            rw [approverKey, hdecoded, Option.bind_some, hkey]
            rfl

theorem computed_run {α : Type} {r r' : Except String α} {w w' : KeyringHost}
    (h : (computed r).run.alone KeyringHost.exec ch w = (w', r')) : w = w' ∧ r = r' := by
  have hret : (w, r) = (w', r') := h
  cases hret
  exact ⟨rfl, rfl⟩

/-- A call that succeeds has put its entry into the map, and the map into the file. -/
theorem enroll_ok {id encoded : String}
    (h : KeyringHost.enroll x toVecPretty ch path id encoded w = (w', .ok ())) :
    checkApprover x id encoded = .ok () ∧ ∃ text,
      toVecPretty ((savedValues x (w.files (os path))).insert id encoded) = .ok text ∧
      w'.files (os path) = .ok text := by
  obtain ⟨w₁, euid, heuid, hroot⟩ := Prog.alone_ok_inv h
  cases heuid
  dsimp only at hroot
  split at hroot
  · cases hroot
  · obtain ⟨w₂, _, hcheck, hload⟩ := Prog.alone_ok_inv hroot
    obtain ⟨rfl, hchecked⟩ := computed_run hcheck
    obtain ⟨w₃, raw, hraw, hinsert⟩ := Prog.alone_ok_inv hload
    cases hraw
    obtain ⟨w₄, text, htext, hsave⟩ := Prog.alone_ok_inv hinsert
    obtain ⟨rfl, hpretty⟩ := computed_run htext
    obtain ⟨w₅, _, hwrite, hprotect⟩ := Prog.alone_ok_inv hsave
    obtain ⟨w₆, _, hmode, hrename⟩ := Prog.alone_ok_inv hprotect
    have hwritten := KeyringChoice.settle_ok hwrite
    have hprotected := KeyringChoice.settle_ok hmode
    have hrenamed := KeyringChoice.settle_ok hrename
    refine ⟨hchecked, text, hpretty, ?_⟩
    rw [hrenamed, KeyringHost.move_files_new, hprotected, hwritten, KeyringHost.set_files_self]

/-- A call whose arguments are refused does nothing. -/
theorem enroll_refused {id encoded e : String} (h : checkApprover x id encoded = .error e) :
    ∃ e', KeyringHost.enroll x toVecPretty ch path id encoded w = (w, .error e') := by
  have heuid : geteuid.run.alone KeyringHost.exec ch w = (w, .ok w.euid) := rfl
  have hcheck : (computed (checkApprover x id encoded)).run.alone KeyringHost.exec ch w =
      (w, .error e) := by
    rw [h]
    rfl
  rw [KeyringHost.enroll, enrollApprover, Prog.alone_ok heuid]
  split
  · exact ⟨_, rfl⟩
  · exact ⟨e, Prog.alone_error hcheck⟩

/-- A call that fails anywhere leaves the keyring as it was, if what it writes first has
another name. -/
theorem enroll_failed {id encoded e : String}
    (htemporary : os path ≠ Path.withExtension (os path) (os "json.tmp"))
    (h : KeyringHost.enroll x toVecPretty ch path id encoded w = (w', .error e)) :
    w'.files (os path) = w.files (os path) := by
  rcases Prog.alone_error_inv h with heuid | ⟨w₁, euid, heuid, hroot⟩
  · cases heuid
  cases heuid
  dsimp only at hroot
  split at hroot
  · cases hroot
    rfl
  rcases Prog.alone_error_inv hroot with hcheck | ⟨w₂, _, hcheck, hload⟩
  · obtain ⟨rfl, _⟩ := computed_run hcheck
    rfl
  obtain ⟨rfl, _⟩ := computed_run hcheck
  rcases Prog.alone_error_inv hload with hraw | ⟨w₃, raw, hraw, hinsert⟩
  · cases hraw
  cases hraw
  rcases Prog.alone_error_inv hinsert with htext | ⟨w₄, text, htext, hsave⟩
  · obtain ⟨rfl, _⟩ := computed_run htext
    rfl
  obtain ⟨rfl, _⟩ := computed_run htext
  rcases Prog.alone_error_inv hsave with hwrite | ⟨w₅, _, hwrite, hprotect⟩
  · obtain ⟨left, rfl⟩ := KeyringChoice.settle_error hwrite
    exact KeyringHost.set_files_ne _ _ htemporary
  have hwritten := KeyringChoice.settle_ok hwrite
  have hkept : w₅.files (os path) = w.files (os path) := by
    rw [hwritten]
    exact KeyringHost.set_files_ne _ _ htemporary
  rcases Prog.alone_error_inv hprotect with hmode | ⟨w₆, _, hmode, hrename⟩
  · obtain ⟨_, rfl⟩ := KeyringChoice.settle_error hmode
    exact hkept
  have hprotected := KeyringChoice.settle_ok hmode
  obtain ⟨_, rfl⟩ := KeyringChoice.settle_error hrename
  rw [hprotected]
  exact hkept

/-! ## All calls -/

/-- The map in the keyring file. -/
abbrev saved (x : Externals) (path : String) (w : KeyringHost) : BTreeMap String String :=
  savedValues x (w.files (os path))

/-- A map that was written is the map in the file. -/
theorem StringMaps.saved_written (hx : StringMaps x toVecPretty)
    {values : BTreeMap String String} {text : String} (htext : toVecPretty values = .ok text) :
    savedValues x (.ok text) = values := by
  simp only [savedValues, hx.read_written htext]
  exact BTreeMap.ofList_entries values

/-- Each call puts its entry into the map, and what is in the file at the end is what was
written. -/
theorem Enrolled.saved_eq (hx : StringMaps x toVecPretty) {calls : List (String × String)}
    (h : Enrolled x toVecPretty path w calls w') :
    saved x path w' = (saved x path w).extend calls ∧
      (∀ c ∈ calls, (approverKey x c.2).isSome = true) ∧
      (calls ≠ [] → ∃ raw, w'.files (os path) = .ok raw ∧
        x.parseStringMap raw = some (saved x path w').entries) := by
  induction h with
  | nil w => exact ⟨rfl, fun c hc => absurd hc List.not_mem_nil, fun hne => absurd rfl hne⟩
  | @call w w₁ w' ch id encoded calls hcall hrest ih =>
      obtain ⟨hcheck, text, htext, hfile⟩ := enroll_ok hcall
      have hsaved : saved x path w₁ = (saved x path w).insert id encoded := by
        rw [saved, hfile, hx.saved_written htext]
      obtain ⟨hextend, hkeys, hwritten⟩ := ih
      refine ⟨by rw [hextend, hsaved]; rfl, ?_, fun _ => ?_⟩
      · exact List.forall_mem_cons.mpr ⟨checkApprover_key hcheck, hkeys⟩
      · by_cases hnil : calls = []
        · subst hnil
          cases hrest
          refine ⟨text, hfile, ?_⟩
          rw [hsaved]
          exact hx.read_written htext
        · exact hwritten hnil

/-! ## Loading -/

theorem decodeApprover_ok {e : String × String} {r : String × Key} :
    decodeApprover x e = .ok r ↔ approverKey x e.2 = some r.2 ∧ r.1 = e.1 := by
  unfold decodeApprover approverKey
  cases x.decodeBase64 e.2 with
  | none => exact iff_of_false (fun h => by cases h) fun h => by cases h.1
  | some decoded =>
      dsimp only
      rw [Option.bind_some]
      cases toKey decoded with
      | none => exact iff_of_false (fun h => by cases h) fun h => by cases h.1
      | some key =>
          constructor
          · intro h
            cases h
            exact ⟨rfl, rfl⟩
          · intro h
            obtain ⟨id, key'⟩ := r
            obtain ⟨hkey, rfl⟩ := h
            cases hkey
            rfl

/-- Keys that can all be decoded are. -/
theorem mapM_decodeApprover {entries : List (String × String)}
    (h : ∀ e ∈ entries, (approverKey x e.2).isSome = true) :
    ∃ approvers, entries.mapM (decodeApprover x) = .ok approvers ∧
      approvers.map Prod.fst = entries.map Prod.fst ∧
      ∀ id, approvers.lookup id = (entries.lookup id).bind (approverKey x) := by
  induction entries with
  | nil => exact ⟨[], rfl, rfl, fun _ => rfl⟩
  | cons e entries ih =>
      obtain ⟨hkey, hrest⟩ := List.forall_mem_cons.mp h
      obtain ⟨key, hkey⟩ := Option.isSome_iff_exists.mp hkey
      obtain ⟨approvers, hmap, hids, hlookup⟩ := ih hrest
      have hdecode : decodeApprover x e = .ok (e.1, key) := decodeApprover_ok.mpr ⟨hkey, rfl⟩
      refine ⟨(e.1, key) :: approvers, ?_, ?_, fun id => ?_⟩
      · rw [List.mapM_cons, hdecode, hmap]
        rfl
      · rw [List.map_cons, List.map_cons, hids]
      · rw [BTreeMap.lookup_cons_if, BTreeMap.lookup_cons_if, hlookup]
        split
        · exact hkey.symm
        · rfl

theorem decoded_of_mapM {entries : List (String × String)} {approvers : List (String × Key)}
    (h : entries.mapM (decodeApprover x) = .ok approvers) :
    ∀ e ∈ entries, (approverKey x e.2).isSome = true := by
  induction entries generalizing approvers with
  | nil => exact fun e he => absurd he List.not_mem_nil
  | cons e entries ih =>
      rw [List.mapM_cons] at h
      cases hfirst : decodeApprover x e with
      | error error =>
          rw [hfirst] at h
          cases h
      | ok r =>
          cases hrest : entries.mapM (decodeApprover x) with
          | error error =>
              rw [hfirst, hrest] at h
              cases h
          | ok later =>
              rw [List.forall_mem_cons, (decodeApprover_ok.mp hfirst).1]
              exact ⟨rfl, ih hrest⟩

theorem loads_iff {approvers : BTreeMap String Key} :
    Loads x path w approvers ↔ ∃ raw, w.files (os path) = .ok raw ∧
      parseApprovers x raw = .ok approvers.entries := by
  unfold Loads
  cases w.files (os path) with
  | error e =>
      constructor
      · intro h
        cases h with
        | call r hr => cases hr.ret_inv.2
      · intro h
        obtain ⟨raw, hraw, _⟩ := h
        cases hraw
  | ok raw =>
      constructor
      · intro h
        cases h with
        | call r hr => exact ⟨raw, rfl, hr.ret_inv.2.symm⟩
      · intro h
        obtain ⟨raw, hraw, hparse⟩ := h
        cases hraw
        refine .call _ ?_
        rw [← hparse]
        exact .ret _

theorem parseApprovers_some {raw : String} {entries : List (String × String)}
    (hraw : x.parseStringMap raw = some entries) (hne : entries ≠ []) :
    parseApprovers x raw = entries.mapM (decodeApprover x) := by
  unfold parseApprovers
  rw [hraw]
  exact if_neg fun hempty => hne (List.isEmpty_iff.mp hempty)

theorem parseApprovers_ok {raw : String} {approvers : List (String × Key)}
    (h : parseApprovers x raw = .ok approvers) :
    ∃ entries, x.parseStringMap raw = some entries ∧
      entries.mapM (decodeApprover x) = .ok approvers := by
  unfold parseApprovers at h
  split at h
  · cases h
  · next entries hraw =>
      split at h
      · cases h
      · exact ⟨entries, hraw, h⟩

/-- What the approvers are at first: the map in the file, decoded. -/
theorem Keyring.get_eq (hx : StringMaps x toVecPretty) {approvers : BTreeMap String Key}
    (h : Keyring x path w approvers) :
    (∀ e ∈ (saved x path w).entries, (approverKey x e.2).isSome = true) ∧
      ∀ id, approvers.get id = ((saved x path w).get id).bind (approverKey x) := by
  rcases h with hloads | ⟨rfl, hnone⟩
  · obtain ⟨raw, hfile, hparse⟩ := loads_iff.mp hloads
    obtain ⟨entries, hentries, hmap⟩ := parseApprovers_ok hparse
    have hsaved : (saved x path w).entries = entries := by
      rw [saved, hfile, savedValues, hentries]
      exact BTreeMap.entries_ofList (hx.sorted hentries)
    have hkeys := decoded_of_mapM hmap
    obtain ⟨approvers', hmap', _, hlookup⟩ := mapM_decodeApprover hkeys
    rw [hmap] at hmap'
    cases hmap'
    rw [hsaved]
    refine ⟨hkeys, fun id => ?_⟩
    rw [BTreeMap.get, BTreeMap.get, hsaved]
    exact hlookup id
  · have hsaved : saved x path w = .empty := by
      rcases hnone with ⟨e, hfile⟩ | ⟨raw, hfile, hraw⟩
      · rw [saved, hfile, savedValues]
      · rw [saved, hfile, savedValues, hraw]
        rfl
    rw [hsaved]
    exact ⟨fun e he => absurd he List.not_mem_nil, fun _ => rfl⟩

/-- A map in the file is loaded if there is someone in it and all keys can be decoded. -/
theorem loads_saved {raw : String} (hfile : w.files (os path) = .ok raw)
    (hraw : x.parseStringMap raw = some (saved x path w).entries)
    (hne : (saved x path w).entries ≠ [])
    (hkeys : ∀ e ∈ (saved x path w).entries, (approverKey x e.2).isSome = true) :
    ∃ approvers, Loads x path w approvers ∧
      ∀ id, approvers.get id = ((saved x path w).get id).bind (approverKey x) := by
  obtain ⟨approvers, hmap, hids, hlookup⟩ := mapM_decodeApprover hkeys
  have hsorted : approvers.Pairwise fun e e' => e.1 < e'.1 := by
    have hsaved := List.pairwise_map.mpr (saved x path w).sorted
    rw [← hids] at hsaved
    exact List.pairwise_map.mp hsaved
  refine ⟨⟨approvers, hsorted⟩, loads_iff.mpr ⟨raw, hfile, ?_⟩, hlookup⟩
  rw [parseApprovers_some hraw hne, hmap]

/-- What the gate loads after calls that succeeded is what it would have loaded before
them, with the key of the last call for each id. A call whose arguments are refused leaves
everything as it was. -/
theorem enrolled_load (hx : StringMaps x toVecPretty) (path : String) :
    (∀ (w w' : KeyringHost) (approvers : BTreeMap String Key) (calls : List (String × String)),
      Keyring x path w approvers → calls ≠ [] → Enrolled x toVecPretty path w calls w' →
      (∀ c ∈ calls, (approverKey x c.2).isSome = true) ∧
        ∃ after : BTreeMap String Key, Loads x path w' after ∧
          ∀ id, after.get id = match calls.reverse.lookup id with
            | some encoded => approverKey x encoded
            | none => approvers.get id) ∧
    ∀ (w : KeyringHost) (ch : KeyringOp → KeyringChoice) (id encoded e : String),
      checkApprover x id encoded = .error e →
      ∃ e', KeyringHost.enroll x toVecPretty ch path id encoded w = (w, .error e') := by
  refine ⟨?_, fun w ch id encoded e h => enroll_refused h⟩
  intro w w' approvers calls hkeyring hne hcalls
  obtain ⟨hextend, hcallKeys, hwritten⟩ := hcalls.saved_eq hx
  obtain ⟨hkeys, hget⟩ := hkeyring.get_eq hx
  obtain ⟨raw, hfile, hraw⟩ := hwritten hne
  have hsome : (saved x path w').entries ≠ [] := by
    rw [hextend]
    exact BTreeMap.extend_ne_nil (.inr hne)
  have hall : ∀ e ∈ (saved x path w').entries, (approverKey x e.2).isSome = true := by
    intro e he
    rw [hextend] at he
    exact (BTreeMap.mem_extend he).elim (hkeys e) (hcallKeys e)
  obtain ⟨after, hloads, hafter⟩ := loads_saved hfile hraw hsome hall
  refine ⟨hcallKeys, after, hloads, fun id => ?_⟩
  rw [hafter, hextend, BTreeMap.get_extend]
  cases hlast : calls.reverse.lookup id with
  | some encoded => rfl
  | none => exact (hget id).symm

/-! An operator beside an auditor, who gets another key. The first key is the base point of the
curve. -/

def basePoint : String := "WGZmZmZmZmZmZmZmZmZmZmZmZmZmZmZmZmZmZmZmZmY="

def otherPoint : String := "11qYAYKxCrfVS/7TyWQHOg7hcvPapiMlrwIaaPcHURo="

def otherKey : Bytes :=
  [0xd7, 0x5a, 0x98, 0x01, 0x82, 0xb1, 0x0a, 0xb7, 0xd5, 0x4b, 0xfe, 0xd3, 0xc9, 0x64, 0x07, 0x3a,
    0x0e, 0xe1, 0x72, 0xf3, 0xda, 0xa6, 0x23, 0x25, 0xaf, 0x02, 0x1a, 0x68, 0xf7, 0x07, 0x51, 0x1a]

def keyrings : List (List (String × String)) :=
  [[("auditor", basePoint)], [("auditor", basePoint), ("operator", basePoint)],
    [("auditor", basePoint), ("operator", otherPoint)]]

def keyringText (entries : List (String × String)) : String :=
  "\x7b\n" ++ ",\n".intercalate (entries.map fun e => "  \"" ++ e.1 ++ "\": \"" ++ e.2 ++ "\"") ++
    "\n\x7d"

def operatorExternals : Externals :=
  { plainExternals with
    decodeBase64 := fun encoded =>
      if encoded = basePoint then some (0x58 :: List.replicate 31 0x66)
      else if encoded = otherPoint then some otherKey else none
    parseStringMap := fun raw => keyrings.find? fun entries => keyringText entries = raw }

def operatorPretty (values : BTreeMap String String) : Except String String :=
  if values.entries ∈ keyrings then .ok (keyringText values.entries) else .error "not written"

theorem operator_stringMaps : StringMaps operatorExternals operatorPretty where
  sorted {raw entries} h := by
    have hall : ∀ entries ∈ keyrings, entries.Pairwise fun e e' => e.1 < e'.1 := by
      decide
    have hfind : keyrings.find? (fun entries => keyringText entries = raw) = some entries := h
    exact hall entries (List.mem_of_find?_eq_some hfind)
  read_written {values text} h := by
    have hall : ∀ entries ∈ keyrings,
        operatorExternals.parseStringMap (keyringText entries) = some entries := by
      decide
    unfold operatorPretty at h
    split at h
    · next hvalues =>
        cases h
        exact hall _ hvalues
    · cases h

def keyringPath : String := "/etc/shellfleet/approvers.json"

def auditorHost : KeyringHost where
  euid := 0
  files p :=
    if p = os keyringPath then .ok (keyringText [("auditor", basePoint)])
    else .error KeyringHost.noEntry

def enrollOperator (w : KeyringHost) (encoded : String) : KeyringHost × Except String Unit :=
  w.enroll operatorExternals operatorPretty (fun _ => .good) keyringPath "operator" encoded

def enrolledOnce : KeyringHost := (enrollOperator auditorHost basePoint).1

def enrolledTwice : KeyringHost := (enrollOperator enrolledOnce otherPoint).1

theorem enrollOperator_once : enrollOperator auditorHost basePoint = (enrolledOnce, .ok ()) :=
  Prod.ext rfl rfl

theorem enrollOperator_twice : enrollOperator enrolledOnce otherPoint = (enrolledTwice, .ok ()) :=
  Prod.ext rfl rfl

theorem enrolled_load_again :
    (∃ after : BTreeMap String Key, Loads operatorExternals keyringPath enrolledTwice after ∧
      after.get "operator" = approverKey operatorExternals otherPoint ∧
      after.get "auditor" = approverKey operatorExternals basePoint) ∧
    ∃ e', enrolledTwice.enroll operatorExternals operatorPretty (fun _ => .good) keyringPath
      "operator/1" basePoint = (enrolledTwice, .error e') := by
  obtain ⟨hload, hrefused⟩ := enrolled_load operator_stringMaps keyringPath
  have hraw : operatorExternals.parseStringMap (keyringText [("auditor", basePoint)]) =
      some (saved operatorExternals keyringPath auditorHost).entries := by
    decide
  obtain ⟨approvers, hloads, hbefore⟩ :=
    loads_saved (x := operatorExternals) (w := auditorHost) rfl hraw (by decide) (by decide)
  have hcalls : Enrolled operatorExternals operatorPretty keyringPath auditorHost
      [("operator", basePoint), ("operator", otherPoint)] enrolledTwice :=
    .call enrollOperator_once (.call enrollOperator_twice (.nil _))
  obtain ⟨_, after, hafter, hget⟩ := hload _ _ _ _ (.inl hloads) (List.cons_ne_nil _ _) hcalls
  refine ⟨⟨after, hafter, hget _, ?_⟩,
    hrefused enrolledTwice (fun _ => .good) _ _ "invalid approver id" (by decide)⟩
  exact (hget _).trans (hbefore _)

end ShellfleetAgent.Privileged.Enrollment
