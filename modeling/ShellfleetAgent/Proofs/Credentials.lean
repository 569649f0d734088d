import ShellfleetAgent.Agent.Credentials

/-!
# Whose credentials are presented

After a pairing the agent refreshes only with what stems from it, unless the refresh file
still holds a token from before: a response without a refresh token leaves that file
alone, and so does one whose write fails to open it. The same start may never get to use
it. But the file stays, and one of the next starts will, if there is a token to start with.

Whether a refresh file is clean is all that the rest of a start has to know about the
disk, and a refresh with a clean token leaves it clean. So it is clean for every later
start.
-/

namespace ShellfleetAgent.Agent.Credentials

open ShellfleetAgent.Lib

variable {x : StartAnswers} {disk : Disk} {t : DeviceToken} {w : World} {token refresh : Token}

theorem readTrimmed_origin {stored : Stored} (h : readTrimmed stored = some token) :
    token.origin = stored.origin := by
  obtain ⟨text, _, rfl⟩ := Option.map_eq_some_iff.mp h
  rfl

/-- Nothing can be read that was refused before. -/
theorem readTrimmed_write {stored : Stored} {contents : Str} {n : Nat}
    (h : readTrimmed (writeSecretFile stored contents .paired (.opened n)) = some token) :
    token.origin = .paired := by
  have horigin := readTrimmed_origin h
  rw [horigin]
  rw [writeSecretFile] at h ⊢
  cases hfile : stored.file with
  | missing => rfl
  | regular _ => rfl
  | refused =>
      rw [hfile] at h
      simp [readTrimmed, hfile, readSecretFile] at h

/-- What a response leaves in the refresh file. -/
theorem persist_refreshToken (disk : Disk) (y : PersistAnswers) (t : DeviceToken)
    (origin : Origin) :
    persistTokenTriple disk y t origin .refreshToken =
      match t.refreshToken with
      | some refresh => writeSecretFile (disk .refreshToken) refresh origin y.refreshToken
      | none => disk .refreshToken := rfl

/-- It is what was there, or it stems from the pairing. -/
theorem read_persisted {disk : Disk} {y : PersistAnswers}
    (h : readRefreshToken (persistTokenTriple disk y t .paired) = some token) :
    token.origin = .paired ∨ (readRefreshToken disk = some token ∧
      (t.refreshToken = none ∨ y.refreshToken = .notOpened)) := by
  rw [readRefreshToken, persist_refreshToken] at h
  cases hnew : t.refreshToken with
  | none =>
      rw [hnew] at h
      exact .inr ⟨h, .inl rfl⟩
  | some new =>
      rw [hnew] at h
      cases hwrite : y.refreshToken with
      | notOpened =>
          rw [hwrite] at h
          exact .inr ⟨h, .inr rfl⟩
      | opened n =>
          rw [hwrite] at h
          exact .inl (readTrimmed_write h)

/-- So is what can be read of the token file. -/
theorem token_persisted {disk : Disk} {y : PersistAnswers}
    (h : readToken (persistTokenTriple disk y t .paired) = some token) :
    token.origin = .paired ∨ (readToken disk = some token ∧ y.token = .notOpened) := by
  rw [readToken, show persistTokenTriple disk y t .paired .token =
    writeSecretFile (disk .token) t.accessToken .paired y.token from rfl] at h
  cases hwrite : y.token with
  | notOpened =>
      rw [hwrite] at h
      exact .inr ⟨h, rfl⟩
  | opened n =>
      rw [hwrite] at h
      exact .inl (readTrimmed_write h)

/-- Refreshes are with tokens of the pairing, and only they are at hand for one. Among the
bearers are others, as `own` tells, and others are in the token file, as `kept` tells. -/
structure Clean (own kept : Token → Prop) (w : World) : Prop where
  refresh : ∀ token, readRefreshToken w.disk = some token → token.origin = .paired
  token : ∀ token, readToken w.disk = some token → kept token ∨ token.origin = .paired
  presented : ∀ p ∈ w.presented,
    (∃ token, own token ∧ p = .bearer token) ∨ p.token.origin = .paired

variable {own kept : Token → Prop}

theorem Clean.refreshes (h : Clean own kept w) (hp : .refresh token ∈ w.presented) :
    token.origin = .paired := by
  rcases h.presented _ hp with ⟨_, _, heq⟩ | hpaired
  · cases heq
  · exact hpaired

theorem presented_concat {p : Presented}
    (h : ∀ q ∈ w.presented, (∃ token, own token ∧ q = .bearer token) ∨ q.token.origin = .paired)
    (hp : (∃ token, own token ∧ p = .bearer token) ∨ p.token.origin = .paired) :
    ∀ q ∈ w.presented ++ [p],
      (∃ token, own token ∧ q = .bearer token) ∨ q.token.origin = .paired := by
  intro q hq
  rcases List.mem_append.mp hq with hq | hq
  · exact h q hq
  · rw [List.mem_singleton.mp hq]
    exact hp

/-! ## What a start does -/

theorem presented_refreshTokenPair (y : RefreshAnswers) :
    (refreshTokenPair w y refresh).1.presented = w.presented ++ [Presented.refresh refresh] := by
  unfold refreshTokenPair
  split <;> rfl

theorem attempt_reached (hbuilt : x.requestBuilt = true)
    (hencodes : x.bearerEncodes token.text = true) (answer : Handshake) :
    attempt x w token answer =
      (⟨w.disk, w.presented ++ [Presented.bearer token]⟩, some answer) := by
  rw [attempt, hbuilt, hencodes]
  rfl

/-- A handshake presents the token, or does not take place. -/
theorem attempt_cases (x : StartAnswers) (w : World) (token : Token) (answer : Handshake) :
    attempt x w token answer = (⟨w.disk, w.presented ++ [Presented.bearer token]⟩, some answer) ∧
        x.requestBuilt = true ∧ x.bearerEncodes token.text = true ∨
      attempt x w token answer = (w, none) := by
  unfold attempt
  split
  · next h => exact .inl ⟨rfl, by simpa using h⟩
  · exact .inr rfl

/-- The loop ends with the first handshake, unless it fails and there is a token to
refresh with. -/
theorem connect_cases (x : StartAnswers) (w : World) (token : Token) :
    (connect x w token).1 = (attempt x w token x.first).1 ∧
        ((attempt x w token x.first).2 = some .failed →
          readRefreshToken (attempt x w token x.first).1.disk = none) ∨
      ∃ refresh, readRefreshToken (attempt x w token x.first).1.disk = some refresh ∧
        ((connect x w token).1 =
            (refreshTokenPair (attempt x w token x.first).1 x.reactive refresh).1 ∨
          ∃ new, (refreshTokenPair (attempt x w token x.first).1 x.reactive refresh).2 =
              some new ∧
            (connect x w token).1 = (attempt x
              (refreshTokenPair (attempt x w token x.first).1 x.reactive refresh).1 new
              x.second).1) := by
  unfold connect
  obtain ⟨w₁, answer⟩ := attempt x w token x.first
  cases answer with
  | none => exact .inl ⟨rfl, nofun⟩
  | some answer =>
      cases answer with
      | connected => exact .inl ⟨rfl, nofun⟩
      | timedOut => exact .inl ⟨rfl, nofun⟩
      | failed =>
          dsimp only
          cases hread : readRefreshToken w₁.disk with
          | none => exact .inl ⟨rfl, fun _ => rfl⟩
          | some refresh =>
              refine .inr ⟨refresh, rfl, ?_⟩
              dsimp only
              obtain ⟨w₂, new⟩ := refreshTokenPair w₁ x.reactive refresh
              cases new with
              | none => exact .inl rfl
              | some new =>
                  refine .inr ⟨new, rfl, ?_⟩
                  dsimp only
                  split
                  · next heq => rw [heq]
                  · next heq => rw [heq]

/-! ## A clean start -/

theorem Clean.refreshTokenPair (h : Clean own kept w) (y : RefreshAnswers)
    (hrefresh : refresh.origin = .paired) :
    Clean own kept (refreshTokenPair w y refresh).1 ∧
      ∀ token, (refreshTokenPair w y refresh).2 = some token → token.origin = .paired := by
  have hpresented := presented_concat h.presented (p := .refresh refresh) (.inr hrefresh)
  unfold Credentials.refreshTokenPair
  rw [hrefresh]
  cases y.reply with
  | none => exact ⟨⟨h.refresh, h.token, hpresented⟩, nofun⟩
  | some response =>
      cases response with
      | error _ => exact ⟨⟨h.refresh, h.token, hpresented⟩, nofun⟩
      | token t =>
          refine ⟨⟨?_, ?_, hpresented⟩, ?_⟩
          · intro token hread
            rcases read_persisted hread with hpaired | ⟨hold, _⟩
            · exact hpaired
            · exact h.refresh token hold
          · intro token hread
            rcases token_persisted hread with hpaired | ⟨hold, _⟩
            · exact .inr hpaired
            · exact h.token token hold
          · intro token htoken
            cases htoken
            rfl

theorem Clean.attempt (h : Clean own kept w) (htoken : own token ∨ token.origin = .paired)
    (answer : Handshake) : Clean own kept (attempt x w token answer).1 := by
  rcases attempt_cases x w token answer with ⟨heq, _⟩ | heq
  · rw [heq]
    refine ⟨h.refresh, h.token, presented_concat h.presented ?_⟩
    rcases htoken with hown | hpaired
    · exact .inl ⟨token, hown, rfl⟩
    · exact .inr hpaired
  · rw [heq]
    exact h

theorem Clean.refreshProactively (h : Clean own kept w)
    (htoken : own token ∨ token.origin = .paired) :
    Clean own kept (refreshProactively x w token).1 ∧
      (own (refreshProactively x w token).2 ∨
        (refreshProactively x w token).2.origin = .paired) := by
  unfold Credentials.refreshProactively
  cases hread : readRefreshToken w.disk with
  | none => exact ⟨h, htoken⟩
  | some refresh =>
      dsimp only
      split
      · obtain ⟨hclean, hnew⟩ := h.refreshTokenPair x.proactive (h.refresh refresh hread)
        refine ⟨hclean, ?_⟩
        cases hreply : (Credentials.refreshTokenPair w x.proactive refresh).2 with
        | none => exact htoken
        | some new => exact .inr (hnew new hreply)
      · exact ⟨h, htoken⟩

theorem Clean.connect (h : Clean own kept w) (htoken : own token ∨ token.origin = .paired) :
    Clean own kept (connect x w token).1 := by
  have hfirst := h.attempt (x := x) htoken x.first
  rcases connect_cases x w token with
    ⟨heq, _⟩ | ⟨refresh, hread, heq⟩
  · rw [heq]
    exact hfirst
  · obtain ⟨hrefreshed, hnew⟩ := hfirst.refreshTokenPair x.reactive (hfirst.refresh refresh hread)
    rcases heq with heq | ⟨new, hreply, heq⟩
    · rw [heq]
      exact hrefreshed
    · rw [heq]
      exact hrefreshed.attempt (.inr (hnew new hreply)) x.second

theorem Clean.run (h : Clean own kept ⟨disk, []⟩) (htoken : own token ∨ token.origin = .paired) :
    Clean own kept (run x disk token).1 :=
  (h.refreshProactively htoken).1.connect (h.refreshProactively htoken).2

/-- A start without `--pair` connects with what it finds in the token file. -/
theorem Clean.start (h : Clean kept kept ⟨disk, []⟩) : Clean kept kept (start x disk false).1 := by
  unfold Credentials.start
  rw [if_neg Bool.false_ne_true]
  cases hread : readToken disk with
  | none => exact h
  | some token => exact h.run (h.token token hread)

/-- So do all later ones. -/
theorem Clean.restarts (h : Clean kept kept ⟨disk, []⟩) (ys : List StartAnswers) :
    Clean kept kept (restarts disk ys) := by
  induction ys generalizing disk with
  | nil => exact h
  | cons y ys ih =>
      have hhere := h.start (x := y)
      have hlater := ih ⟨hhere.refresh, hhere.token, nofun⟩
      refine ⟨hlater.refresh, hlater.token, fun p hp => ?_⟩
      rcases List.mem_append.mp hp with hp | hp
      · exact hhere.presented p hp
      · exact hlater.presented p hp

/-! ## A token from before -/

/-- The refresh file had a token, and the pairing did not get to it. -/
def OldTokenLeft (x : StartAnswers) (disk : Disk) (t : DeviceToken) : Prop :=
  (readRefreshToken disk).isSome ∧
    (t.refreshToken = none ∨ x.paired.refreshToken = .notOpened)

/-- A refresh is due before the connect, or when the connect has failed. -/
def Refreshes (x : StartAnswers) (disk : Disk) (t : DeviceToken) : Prop :=
  stale (afterPairing x disk t) x.now = true ∨
    (x.requestBuilt = true ∧ x.bearerEncodes t.accessToken = true ∧ x.first = .failed)

theorem read_oldTokenLeft {files : SecretPath → SecretFile} (h : OldTokenLeft x (found files) t) :
    ∃ old, readRefreshToken (afterPairing x (found files) t) = some old ∧
      old.origin = .stored := by
  obtain ⟨old, hold⟩ := Option.isSome_iff_exists.mp h.1
  refine ⟨old, ?_, readTrimmed_origin hold⟩
  rw [readRefreshToken, afterPairing, persist_refreshToken]
  rcases h.2 with hnone | hclosed
  · rw [hnone]
    exact hold
  · rw [hclosed]
    cases t.refreshToken with
    | none => exact hold
    | some _ => exact hold

theorem presented_attempt (x : StartAnswers) (w : World) (token : Token) (answer : Handshake) :
    w.presented <+: (attempt x w token answer).1.presented := by
  rcases attempt_cases x w token answer with ⟨heq, _⟩ | heq
  · rw [heq]
    exact List.prefix_append _ _
  · rw [heq]

/-- What was presented before the loop, and what it refreshes with. -/
theorem presented_connect : w.presented <+: (connect x w token).1.presented := by
  have hfirst := presented_attempt x w token x.first
  rcases connect_cases x w token with ⟨heq, _⟩ | ⟨refresh, _, heq⟩
  · rw [heq]
    exact hfirst
  · have hrefreshed := hfirst.trans (List.prefix_append _ [.refresh refresh])
    rw [← presented_refreshTokenPair x.reactive] at hrefreshed
    rcases heq with heq | ⟨new, _, heq⟩
    · rw [heq]
      exact hrefreshed
    · rw [heq]
      exact hrefreshed.trans (presented_attempt x _ new x.second)

/-- A stale token is refreshed with whatever is in the refresh file. -/
theorem presents_stale {disk : Disk} (hread : readRefreshToken disk = some refresh)
    (hstale : stale disk x.now = true) : .refresh refresh ∈ (run x disk token).1.presented := by
  have hproactive : .refresh refresh ∈ (refreshProactively x ⟨disk, []⟩ token).1.presented := by
    unfold refreshProactively
    rw [hread]
    dsimp only
    rw [if_pos hstale]
    dsimp only
    rw [presented_refreshTokenPair]
    exact List.mem_singleton_self _
  exact presented_connect.subset hproactive

theorem refreshProactively_fresh (hfresh : stale w.disk x.now = false) :
    refreshProactively x w token = (w, token) := by
  unfold refreshProactively
  cases readRefreshToken w.disk with
  | none => rfl
  | some refresh =>
      dsimp only
      rw [hfresh]
      rfl

/-- So is one that the server has turned down. -/
theorem presents_failed {disk : Disk} (hread : readRefreshToken disk = some refresh)
    (hfresh : stale disk x.now = false) (hbuilt : x.requestBuilt = true)
    (hencodes : x.bearerEncodes token.text = true) (hfailed : x.first = .failed) :
    .refresh refresh ∈ (run x disk token).1.presented := by
  rw [run, refreshProactively_fresh hfresh]
  have hfirst := attempt_reached (w := ⟨disk, []⟩) hbuilt hencodes x.first
  dsimp only
  rcases connect_cases x ⟨disk, []⟩ token with
    ⟨_, hnone⟩ | ⟨refresh', hread', heq⟩
  · rw [hfirst, hfailed] at hnone
    rw [hnone rfl] at hread
    cases hread
  · rw [hfirst] at hread' heq
    rw [hread] at hread'
    cases hread'
    have hsent : .refresh refresh ∈ (refreshTokenPair
        ⟨disk, [] ++ [Presented.bearer token]⟩ x.reactive refresh).1.presented := by
      rw [presented_refreshTokenPair]
      exact List.mem_append_right _ (List.mem_singleton_self _)
    rcases heq with heq | ⟨new, _, heq⟩
    · rw [heq]
      exact hsent
    · rw [heq]
      exact (presented_attempt x _ new x.second).subset hsent

/-- Without a refresh there is the one handshake, and the disk stays as it is. -/
theorem run_unrefreshed (token : Token) (hfresh : stale disk x.now = false)
    (hfirst : ¬(x.requestBuilt = true ∧ x.bearerEncodes token.text = true ∧ x.first = .failed)) :
    (∀ p ∈ (run x disk token).1.presented, p = .bearer token) ∧
      (run x disk token).1.disk = disk := by
  rw [run, refreshProactively_fresh hfresh]
  dsimp only
  rcases attempt_cases x ⟨disk, []⟩ token x.first with
    ⟨heq, hbuilt, hencodes⟩ | heq
  · have hfailed : x.first ≠ .failed := fun h => hfirst ⟨hbuilt, hencodes, h⟩
    have hconnect : (connect x ⟨disk, []⟩ token).1 = ⟨disk, [.bearer token]⟩ := by
      unfold connect
      rw [heq]
      cases h : x.first with
      | connected => rfl
      | timedOut => rfl
      | failed => exact absurd h hfailed
    rw [hconnect]
    exact ⟨fun p hp => List.mem_singleton.mp hp, rfl⟩
  · have hconnect : (connect x ⟨disk, []⟩ token).1 = ⟨disk, []⟩ := by
      unfold connect
      rw [heq]
    rw [hconnect]
    exact ⟨nofun, rfl⟩

/-- Nor is anything presented by starts that find no token. -/
theorem restarts_tokenless (h : readToken disk = none) (ys : List StartAnswers) :
    restarts disk ys = ⟨disk, []⟩ := by
  have hstart : ∀ y, start y disk false = (⟨disk, []⟩, none) := by
    intro y
    rw [start, if_neg Bool.false_ne_true, h]
  induction ys with
  | nil => rfl
  | cons y ys ih =>
      rw [restarts, hstart]
      dsimp only
      rw [ih]
      rfl

/-- At the time at which the expiry was, or at any if there is none, a token is stale. -/
theorem exists_stale (disk : Disk) : ∃ now, stale disk now = true := by
  cases hexpiry : readTokenExpiry disk with
  | none => exact ⟨0, by rw [stale, hexpiry]⟩
  | some e =>
      refine ⟨e, ?_⟩
      rw [stale, hexpiry]
      dsimp only
      rw [Int.sub_self]
      decide

/-- A start that finds a token and, behind time, a token to refresh with sends that. -/
theorem start_stale {y : StartAnswers} (hread : readRefreshToken disk = some refresh)
    (htoken : readToken disk = some token) (hstale : stale disk y.now = true) :
    .refresh refresh ∈ (start y disk false).1.presented := by
  rw [start, if_neg Bool.false_ne_true, htoken]
  exact presents_stale hread hstale

/-! ## A pairing -/

theorem start_paired (hpair : pair x.polls = .authorized t) :
    start x disk true = run x (afterPairing x disk t) ⟨t.accessToken, .paired⟩ := by
  rw [start, if_pos rfl, hpair]

theorem clean_afterPairing (hleft : ¬OldTokenLeft x disk t) (hkept : ∀ token,
      readToken disk = some token → x.paired.token = .notOpened → kept token) :
    Clean own kept ⟨afterPairing x disk t, []⟩ := by
  refine ⟨fun token hread => ?_, fun token hread => ?_, nofun⟩
  · rcases read_persisted hread with hpaired | ⟨hold, hclosed⟩
    · exact hpaired
    · exact absurd ⟨Option.isSome_iff_exists.mpr ⟨token, hold⟩, hclosed⟩ hleft
  · rcases token_persisted hread with hpaired | ⟨hold, hclosed⟩
    · exact .inr hpaired
    · exact .inl (hkept token hold hclosed)

/-- In the start with `--pair` and in all that follow it, with what it leaves: the tokens
that are presented in the first and the refresh tokens of the others stem from the pairing,
exactly if none is left from before, or none was due at once and no token is left to start
with. If the token file was written, that goes for all that is ever presented. -/
theorem pairing_supersedes_iff (x : StartAnswers) (files : SecretPath → SecretFile)
    (t : DeviceToken) (hpair : pair x.polls = .authorized t) :
    (((∀ p ∈ (start x (found files) true).1.presented, p.token.origin = .paired) ∧
        ∀ ys token, .refresh token ∈
          (restarts (start x (found files) true).1.disk ys).presented →
          token.origin = .paired) ↔
      ¬OldTokenLeft x (found files) t ∨
        ¬Refreshes x (found files) t ∧ readToken (afterPairing x (found files) t) = none) ∧
    (¬OldTokenLeft x (found files) t → x.paired.token ≠ .notOpened → ∀ ys,
      ∀ p ∈ (restarts (start x (found files) true).1.disk ys).presented,
        p.token.origin = .paired) := by
  rw [start_paired hpair]
  refine ⟨⟨fun ⟨hfirst, hlater⟩ => ?_, fun hcond => ?_⟩, fun hleft hopened ys p hp => ?_⟩
  · refine or_iff_not_imp_left.mpr fun hleft => ?_
    obtain ⟨old, hread, hold⟩ := read_oldTokenLeft (not_not.mp hleft)
    have hsent : .refresh old ∉
        (run x (afterPairing x (found files) t) ⟨t.accessToken, .paired⟩).1.presented := by
      intro hmem
      have hpaired : old.origin = .paired := hfirst _ hmem
      rw [hold] at hpaired
      cases hpaired
    have hquiet : ¬Refreshes x (found files) t := by
      intro hrefreshes
      cases hstale : stale (afterPairing x (found files) t) x.now with
      | true => exact hsent (presents_stale hread hstale)
      | false =>
          rcases hrefreshes with hrefreshes | ⟨hbuilt, hencodes, hfailed⟩
          · rw [hstale] at hrefreshes
            cases hrefreshes
          · exact hsent (presents_failed hread hstale hbuilt hencodes hfailed)
    refine ⟨hquiet, ?_⟩
    cases htoken : readToken (afterPairing x (found files) t) with
    | none => rfl
    | some token =>
        -- a later start that comes late enough
        obtain ⟨now, hstale⟩ := exists_stale (afterPairing x (found files) t)
        have hfresh : stale (afterPairing x (found files) t) x.now = false :=
          Bool.eq_false_iff.mpr fun h => hquiet (.inl h)
        have hdisk := (run_unrefreshed ⟨t.accessToken, .paired⟩ hfresh
          fun h => hquiet (.inr h)).2
        have hpaired : old.origin = .paired := by
          refine hlater [{ x with now := now }] old ?_
          rw [hdisk, restarts]
          exact List.mem_append_left _ (start_stale hread htoken hstale)
        rw [hold] at hpaired
        cases hpaired
  · rcases hcond with hleft | ⟨hquiet, htoken⟩
    · have hclean : Clean (fun _ => False) (fun _ => True)
          (run x (afterPairing x (found files) t) ⟨t.accessToken, .paired⟩).1 :=
        (clean_afterPairing hleft fun _ _ _ => trivial).run (.inr rfl)
      refine ⟨fun p hp => ?_, fun ys token htoken => ?_⟩
      · exact (hclean.presented p hp).resolve_left fun ⟨_, hown, _⟩ => hown
      · have hend : Clean (fun _ => True) (fun _ => True) ⟨_, []⟩ :=
          ⟨hclean.refresh, hclean.token, nofun⟩
        exact (hend.restarts ys).refreshes htoken
    · have hfresh : stale (afterPairing x (found files) t) x.now = false :=
        Bool.eq_false_iff.mpr fun h => hquiet (.inl h)
      obtain ⟨hpresented, hdisk⟩ := run_unrefreshed ⟨t.accessToken, .paired⟩ hfresh
        fun h => hquiet (.inr h)
      refine ⟨fun p hp => ?_, fun ys token hsent => ?_⟩
      · rw [hpresented p hp]
        rfl
      · rw [hdisk, restarts_tokenless htoken] at hsent
        cases hsent
  · have hclean : Clean (fun _ => False) (fun _ => False)
        (run x (afterPairing x (found files) t) ⟨t.accessToken, .paired⟩).1 :=
      (clean_afterPairing hleft fun _ _ hclosed => hopened hclosed).run (.inr rfl)
    have hend : Clean (fun _ => False) (fun _ => False) ⟨_, []⟩ :=
      ⟨hclean.refresh, hclean.token, nofun⟩
    exact ((hend.restarts ys).presented p hp).resolve_left fun ⟨_, hown, _⟩ => hown

/-- An agent that was paired before, and a server whose response has an access token
alone, or a refresh token too. -/
def pairedBefore : SecretPath → SecretFile
  | .token => .regular (Text.toUtf8 "access-1".toList)
  | .refreshToken => .regular (Text.toUtf8 "refresh-1".toList)
  | .tokenExpiry => .missing

def written : PersistAnswers := ⟨.opened 100, .opened 100, 1000, .opened 100⟩

def answers (refreshToken : Option Str) (expiresIn : Option Int) (now : Int) : StartAnswers where
  polls := [none, some (.error "authorization_pending".toList),
    some (.token ⟨"access-2".toList, refreshToken, expiresIn⟩)]
  paired := written
  now := now
  proactive := ⟨none, written⟩
  requestBuilt := true
  bearerEncodes _ := true
  first := .connected
  reactive := ⟨none, written⟩
  second := .connected

/-- With a new refresh token, all that the pairing and two later starts present is new. -/
theorem pairing_supersedes_new_refresh_token : ∃ sent : List Presented,
    sent = (start (answers (some "refresh-2".toList) none 1001) (found pairedBefore) true
        ).1.presented ++
      (restarts (start (answers (some "refresh-2".toList) none 1001) (found pairedBefore) true
        ).1.disk [answers none none 2000, answers none none 3000]).presented ∧
    sent.length = 6 ∧ ∀ p ∈ sent, p.token.origin = .paired := by
  obtain ⟨hiff, hall⟩ := pairing_supersedes_iff (answers (some "refresh-2".toList) none 1001)
    pairedBefore ⟨"access-2".toList, some "refresh-2".toList, none⟩ (by decide)
  have hleft : ¬OldTokenLeft (answers (some "refresh-2".toList) none 1001) (found pairedBefore)
      ⟨"access-2".toList, some "refresh-2".toList, none⟩ := by
    rintro ⟨_, h | h⟩
    · cases h
    · cases h
  refine ⟨_, rfl, by decide, fun p hp => ?_⟩
  rcases List.mem_append.mp hp with hp | hp
  · exact (hiff.mpr (.inl hleft)).1 p hp
  · exact hall hleft (by decide) _ p hp

/-- The old refresh token is sent, right after the pairing. If the new access token lasts,
it is sent by a later start. -/
theorem old_refresh_token_sent :
    pair (answers none none 1001).polls = .authorized ⟨"access-2".toList, none, none⟩ ∧
    (start (answers none none 1001) (found pairedBefore) true).1.presented =
      [.refresh ⟨"refresh-1".toList, .stored⟩, .bearer ⟨"access-2".toList, .paired⟩] ∧
    pair (answers none (some 3600) 1001).polls =
      .authorized ⟨"access-2".toList, none, some 3600⟩ ∧
    (start (answers none (some 3600) 1001) (found pairedBefore) true).1.presented =
      [.bearer ⟨"access-2".toList, .paired⟩] ∧
    (restarts (start (answers none (some 3600) 1001) (found pairedBefore) true).1.disk
        [answers none none 4500]).presented =
      [.refresh ⟨"refresh-1".toList, .stored⟩, .bearer ⟨"access-2".toList, .paired⟩] := by
  decide

end ShellfleetAgent.Agent.Credentials
