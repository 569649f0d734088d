import ShellfleetAgent.Agent.Runtime
import ShellfleetAgent.Lib.Utf8

/-!
# Which processes go on

The kernel prints the capabilities of a process on a line of its own, with a fixed number of
digits, and the group file has a line for each group. Read as they are printed, they tell the
agent what it is, but for its effective group: `getgroups` lists the supplementary ones.
-/

namespace ShellfleetAgent.Agent.Runtime

open ShellfleetAgent.Lib Text

/-! ## What the system prints -/

/-- A line of `/proc/self/status`. A line feed in a value is printed by its escape. -/
structure StatusField where
  key : Str
  value : Str
  key_plain : ':' ∉ key
  oneLine : '\n' ∉ key ∧ '\n' ∉ value

def StatusField.text (f : StatusField) : Str := f.key ++ ':' :: '\t' :: f.value

theorem oneLine_hexFixed (width n : Nat) : '\n' ∉ hexFixed width n := by
  intro h
  obtain ⟨d, hd, heq⟩ := isDigit_hexFixed h
  exact (hexDigit_plain d hd).2.1 heq.symm

/-- The mask of the capabilities in effect, with sixteen digits. -/
def capEff (caps : UInt64) : StatusField where
  key := "CapEff".toList
  value := hexFixed 16 caps.toNat
  key_plain := by decide
  oneLine := ⟨by decide, oneLine_hexFixed 16 _⟩

/-- A line of `/etc/group`. -/
structure Group where
  name : Str
  password : Str
  gid : UInt32
  members : Str
  plain : ∀ field ∈ [name, password], ':' ∉ field ∧ '\n' ∉ field
  oneLine : '\n' ∉ members

def Group.text (g : Group) : Str :=
  g.name ++ ':' :: (g.password ++ ':' :: (decimal g.gid.toNat ++ ':' :: g.members))

/-- A process and the host it runs on. -/
structure Host where
  euid : UInt32
  egid : UInt32
  caps : UInt64
  before : List StatusField
  behind : List StatusField
  groups : List Group
  supplementary : List UInt32
  one_capEff : ∀ f ∈ before, f.key ≠ "CapEff".toList

def Host.status (k : Host) : List StatusField := k.before ++ capEff k.caps :: k.behind

def Host.process (k : Host) : Process where
  geteuid := k.euid
  status := some (toUtf8 (unlines (k.status.map StatusField.text)))
  group := some (toUtf8 (unlines (k.groups.map Group.text)))
  groupCount := k.supplementary.length
  getgroups := some k.supplementary

/-- The first group of that name is the one that counts. -/
def Host.dockerGroup (k : Host) : Option UInt32 :=
  (k.groups.find? fun g => g.name = "docker".toList).map Group.gid

def Host.inDockerGroup (k : Host) : Bool := k.dockerGroup.any (· ∈ k.supplementary)

/-- The process is in no other way a member of the group. -/
def Host.dockerEffective (k : Host) : Prop :=
  k.dockerGroup = some k.egid ∧ k.egid ∉ k.supplementary

/-! ## How it is read -/

theorem StatusField.oneLine_text (f : StatusField) : '\n' ∉ f.text := by
  rw [StatusField.text, List.mem_append, List.mem_cons, List.mem_cons]
  rintro (h | h | h | h)
  · exact f.oneLine.1 h
  · cases h
  · cases h
  · exact f.oneLine.2 h

theorem StatusField.stripCr_text (f : StatusField) :
    stripCr f.text = f.key ++ ':' :: '\t' :: stripCr f.value := by
  have htab : f.text = (f.key ++ [':']) ++ '\t' :: f.value := by
    rw [StatusField.text, List.append_assoc]
    rfl
  rw [htab, stripCr_append (by decide), List.append_assoc]
  rfl

/-- What is before the first colon. -/
theorem key_eq {key key' rest rest' : Str} (h : ':' ∉ key) (h' : ':' ∉ key')
    (heq : key ++ ':' :: rest = key' ++ ':' :: rest') : key = key' ∧ rest = rest' := by
  have hsplit : ∀ {key : Str} (rest : Str), ':' ∉ key →
      (key ++ ':' :: rest).takeWhile (fun c => c ≠ ':') = key := by
    intro key rest h
    have hkeep : ∀ c ∈ key, decide (c ≠ ':') = true := by
      intro c hc
      refine decide_eq_true ?_
      rintro rfl
      exact h hc
    rw [List.takeWhile_append_of_pos hkeep, List.takeWhile_cons]
    exact List.append_nil key
  have hkey : key = key' := by
    rw [← hsplit rest h, heq, hsplit rest' h']
  subst hkey
  exact ⟨rfl, (List.cons.inj (List.append_cancel_left heq)).2⟩

/-- Only the line of that key is taken for it. -/
theorem stripStart_field (f : StatusField) :
    stripStart "CapEff:\t".toList (stripCr f.text) =
      if f.key = "CapEff".toList then some (stripCr f.value) else none := by
  rw [f.stripCr_text]
  by_cases hkey : f.key = "CapEff".toList
  · rw [if_pos hkey, hkey]
    exact stripStart_eq_some.mpr rfl
  · rw [if_neg hkey]
    cases hstrip : stripStart "CapEff:\t".toList (f.key ++ ':' :: '\t' :: stripCr f.value) with
    | none => rfl
    | some rest =>
        have heq := stripStart_eq_some.mp hstrip
        exact absurd (key_eq f.key_plain (by decide) heq).1 hkey

theorem effective_status (k : Host) :
    effective (unlines (k.status.map StatusField.text)) = k.caps.toNat := by
  have hbefore : k.before.findSome? (fun f =>
      stripStart "CapEff:\t".toList (stripCr f.text)) = none := by
    refine List.findSome?_eq_none_iff.mpr fun f hf => ?_
    rw [stripStart_field, if_neg (k.one_capEff f hf)]
  have hcap : stripStart "CapEff:\t".toList (stripCr (capEff k.caps).text) =
      some (stripCr (hexFixed 16 k.caps.toNat)) :=
    (stripStart_field _).trans (if_pos rfl)
  have hfirst : (lines (unlines (k.status.map StatusField.text))).findSome?
      (stripStart "CapEff:\t".toList) = some (stripCr (hexFixed 16 k.caps.toNat)) := by
    rw [lines_texts StatusField.oneLine_text, List.findSome?_map, Host.status,
      List.findSome?_append]
    simp only [Function.comp_def, hbefore, Option.none_or, List.findSome?_cons, hcap]
  have hwide : k.caps.toNat < 16 ^ 16 := Nat.lt_of_lt_of_eq k.caps.toNat_lt (by decide)
  rw [effective, hfirst, Option.bind_some, trim_stripCr, trim_hexFixed,
    parseHexU64_hexFixed (by decide) hwide k.caps.toNat_lt, Option.getD_some]

theorem parseU32_decimal (gid : UInt32) :
    Privileged.parseU32 (String.ofList (decimal gid.toNat)) = some gid := by
  have hdigits : ∀ c ∈ decimal gid.toNat, c.isDigit = true := fun c hc => isDigit_of_mem_decimal hc
  have hvalue : (decimal gid.toNat).foldl (fun n c => n * 10 + (c.toNat - '0'.toNat)) 0 =
      gid.toNat := by
    have hfold := Nat.ofDigitChars_ten_toDigits (n := gid.toNat)
    rw [Nat.ofDigitChars_eq_foldl, ← decimal_eq_toDigits] at hfold
    simpa only [Nat.mul_comm] using hfold
  have hall : (decimal gid.toNat).all Char.isDigit = true := List.all_eq_true.mpr hdigits
  have hne : (decimal gid.toNat).isEmpty = false := by
    rw [List.isEmpty_eq_false_iff]
    exact decimal_ne_nil _
  unfold Privileged.parseU32
  rw [String.toList_ofList]
  dsimp only
  split
  · next rest heq =>
      have hplus := hdigits '+' (by rw [heq]; exact List.mem_cons_self ..)
      cases hplus
  · rw [hne, hall, hvalue, if_neg (by decide), if_pos gid.toNat_lt, UInt32.ofNat_toNat]

theorem Group.oneLine_text (g : Group) : '\n' ∉ g.text := by
  have hname := (g.plain g.name (by simp)).2
  have hpassword := (g.plain g.password (by simp)).2
  have hgid : '\n' ∉ decimal g.gid.toNat := by
    intro h
    have hdigit := isDigit_of_mem_decimal h
    cases hdigit
  rw [Group.text, List.mem_append, List.mem_cons, List.mem_append, List.mem_cons,
    List.mem_append, List.mem_cons]
  rintro (h | h | h | h | h | h | h)
  · exact hname h
  · cases h
  · exact hpassword h
  · cases h
  · exact hgid h
  · cases h
  · exact g.oneLine h

theorem dockerGid_text (g : Group) :
    dockerGid (stripCr g.text) = if g.name = "docker".toList then some g.gid else none := by
  have hgid : ':' ∉ decimal g.gid.toNat := by
    intro h
    have hdigit := isDigit_of_mem_decimal h
    cases hdigit
  have htext : stripCr g.text = g.name ++ ':' :: (g.password ++ ':' ::
      (decimal g.gid.toNat ++ ':' :: stripCr g.members)) := by
    have hlast : g.text = (g.name ++ ':' :: (g.password ++ ':' :: decimal g.gid.toNat)) ++
        ':' :: g.members := by
      simp [Group.text]
    rw [hlast, stripCr_append (by decide)]
    simp
  rw [dockerGid, htext, List.splitOn_append_cons_self_of_not_mem (g.plain g.name (by simp)).1,
    List.splitOn_append_cons_self_of_not_mem (g.plain g.password (by simp)).1,
    List.splitOn_append_cons_self_of_not_mem hgid]
  dsimp only
  rw [parseU32_decimal]

theorem dockerGid_group (groups : List Group) :
    (lines (unlines (groups.map Group.text))).findSome? dockerGid =
      (groups.find? fun g => g.name = "docker".toList).map Group.gid := by
  rw [lines_texts Group.oneLine_text, List.findSome?_map]
  induction groups with
  | nil => rfl
  | cons g groups ih =>
      have hg : (dockerGid ∘ fun l => stripCr l.text) g =
          if g.name = "docker".toList then some g.gid else none := dockerGid_text g
      rw [List.findSome?_cons, hg, List.find?_cons]
      by_cases hname : g.name = "docker".toList
      · rw [if_pos hname, decide_eq_true hname]
        rfl
      · rw [if_neg hname, decide_eq_false hname]
        exact ih

theorem checked (k : Host) : assertUnprivilegedRuntime k.process =
    if k.euid = 0 then .error .root
    else if k.caps ≠ 0 then .error .capabilities
    else if k.inDockerGroup then .error .dockerGroup
    else .ok () := by
  have hstatus : ((readToString k.process.status).map effective).getD 0 = k.caps.toNat := by
    rw [Host.process, readToString, Option.bind_some, fromUtf8_encoded]
    exact effective_status k
  have hgroup : ((readToString k.process.group).bind fun groups =>
      (lines groups).findSome? dockerGid) = k.dockerGroup := by
    rw [Host.process, readToString, Option.bind_some, fromUtf8_encoded]
    exact dockerGid_group k.groups
  have hcaps : k.caps.toNat ≠ 0 ↔ k.caps ≠ 0 := by
    rw [← UInt64.toNat_zero, Ne, UInt64.toNat_inj]
  have hmember : ∀ gid : UInt32, 0 < k.process.groupCount ∧ gid ∈ k.process.getgroups.getD [] ↔
      gid ∈ k.supplementary := by
    intro gid
    refine ⟨fun h => h.2, fun h => ⟨?_, h⟩⟩
    exact Int.natCast_pos.mpr (List.length_pos_of_mem h)
  have hgeteuid : k.process.geteuid = k.euid := rfl
  unfold assertUnprivilegedRuntime
  rw [hstatus, hgroup, hgeteuid]
  simp only [hmember, hcaps]
  by_cases heuid : k.euid = 0
  · rw [if_pos heuid, if_pos heuid]
    rfl
  rw [if_neg heuid, if_neg heuid]
  by_cases hc : k.caps ≠ 0
  · rw [if_pos hc, if_pos hc]
    rfl
  rw [if_neg hc, if_neg hc, Host.inDockerGroup]
  cases k.dockerGroup with
  | none => rfl
  | some gid =>
      rw [Option.any_some]
      dsimp only
      by_cases hg : gid ∈ k.supplementary
      · rw [if_pos hg, if_pos (decide_eq_true hg)]
        rfl
      · rw [if_neg hg, if_neg (by rw [decide_eq_false hg]; exact Bool.false_ne_true)]
        rfl

/-- The process goes on if and only if it is none of what the agent must not be, and what it
says otherwise is what it is. One that goes on can act as the docker group if and only if that
is its effective group. -/
theorem runs_unprivileged (k : Host) :
    (assertUnprivilegedRuntime k.process =
      if k.euid = 0 then .error .root
      else if k.caps ≠ 0 then .error .capabilities
      else if k.inDockerGroup then .error .dockerGroup
      else .ok ()) ∧
    (assertUnprivilegedRuntime k.process = .ok () →
      ((∃ gid, k.dockerGroup = some gid ∧ gid ∈ k.egid :: k.supplementary) ↔
        k.dockerEffective)) := by
  refine ⟨checked k, fun hok => ?_⟩
  have hout : k.inDockerGroup = false := by
    rw [checked] at hok
    cases hin : k.inDockerGroup with
    | false => rfl
    | true =>
        rw [hin] at hok
        split at hok
        · cases hok
        · split at hok <;> cases hok
  constructor
  · rintro ⟨gid, hgid, hmem⟩
    have hnot : gid ∉ k.supplementary := by
      rw [Host.inDockerGroup, hgid, Option.any_some] at hout
      exact of_decide_eq_false hout
    rcases List.mem_cons.mp hmem with rfl | hmem
    · exact ⟨hgid, hnot⟩
    · exact absurd hmem hnot
  · rintro ⟨hgid, _⟩
    exact ⟨k.egid, hgid, List.mem_cons_self ..⟩

/-- A user whose effective group is docker's, and none of whose other groups is. -/
def effectiveHost : Host where
  euid := 998
  egid := 999
  caps := 0
  before := [⟨"Name".toList, "agent".toList, by decide, by decide⟩]
  behind := []
  groups := [⟨"dockerroot".toList, "x".toList, 998, [], by decide, by decide⟩,
    ⟨"docker".toList, "x".toList, 999, "admin".toList, by decide, by decide⟩]
  supplementary := [998]
  one_capEff := by decide

theorem runs_unprivileged_effective :
    assertUnprivilegedRuntime effectiveHost.process = .ok () ∧
      ∃ gid, effectiveHost.dockerGroup = some gid ∧
        gid ∈ effectiveHost.egid :: effectiveHost.supplementary := by
  obtain ⟨hchecked, hdocker⟩ := runs_unprivileged effectiveHost
  have hok : assertUnprivilegedRuntime effectiveHost.process = .ok () := by
    rw [hchecked]
    decide
  exact ⟨hok, (hdocker hok).mpr ⟨by decide, by decide⟩⟩

end ShellfleetAgent.Agent.Runtime
