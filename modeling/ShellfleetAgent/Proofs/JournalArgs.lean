import ShellfleetAgent.Agent.LogSources
import ShellfleetAgent.Lib.Checks
import ShellfleetAgent.Lib.Options

/-!
# What `journalctl` makes of a request

The filters of a request are values of options, whatever is in them, and there is nothing
else on the command line. So they come back as they were; and a value that could have been
an option itself, or is none, has not come so far.
-/

namespace ShellfleetAgent.Agent.LogSources.JournalStream

open ShellfleetAgent.Lib ShellfleetAgent.Lib.Options ShellfleetAgent.Agent.Streams

variable {g : Grammar} {args : StreamArgs} {argv : List Str} {f : Token × Role → Option Str}

/-! ## The arguments -/

theorem optionArg_ok {option : String} {ok : Str → Bool} {error : Str → Str}
    {value : Option Str} {words : List Str} (h : optionArg option ok error value = .ok words) :
    words = value.toList.flatMap (fun v => [option.toList, v]) ∧ ∀ v ∈ value, ok v = true := by
  cases value with
  | none =>
      cases h
      exact ⟨rfl, nofun⟩
  | some value =>
      rw [optionArg] at h
      split at h
      · next hok =>
          cases h
          exact ⟨rfl, fun v hv => Option.some.inj hv ▸ hok⟩
      · cases h

theorem unitArgs_ok {option : String} {ok : Str → Bool} {error : Str → Str}
    {values : List Str} {words : List (List Str)}
    (h : values.mapM (fun v => optionArg option ok error (some v)) = .ok words) :
    words.flatten = values.flatMap (fun v => [option.toList, v]) ∧ ∀ v ∈ values, ok v = true := by
  induction values generalizing words with
  | nil =>
      cases h
      exact ⟨rfl, nofun⟩
  | cons value values ih =>
      rw [List.mapM_cons] at h
      cases hvalue : optionArg option ok error (some value) with
      | error e =>
          rw [hvalue] at h
          cases h
      | ok first =>
          cases hrest : values.mapM fun v => optionArg option ok error (some v) with
          | error e =>
              rw [hvalue, hrest] at h
              cases h
          | ok rest =>
              rw [hvalue, hrest] at h
              cases h
              obtain ⟨hfirst, hok⟩ := optionArg_ok hvalue
              obtain ⟨hwords, hall⟩ := ih hrest
              refine ⟨?_, ?_⟩
              · rw [List.flatten_cons, hwords, hfirst]
                rfl
              · exact List.forall_mem_cons.mpr ⟨hok value rfl, hall⟩

/-- What `build_argv` wants of a request. -/
structure Accepted (args : StreamArgs) : Prop where
  units : ∀ unit ∈ args.units, isSafeToken unit = true
  priority : ∀ priority ∈ args.priority, priority ∈ allowedPriorities
  identifier : ∀ identifier ∈ args.identifier, isSafeToken identifier = true
  since : ∀ since ∈ args.since, isSafeSince since = true
  grep : ∀ grep ∈ args.grep, grep ≠ [] ∧ grep.head? ≠ some '-'

/-- One option, with one value after the other. -/
def optionWords (option : String) (values : List Str) : List Str :=
  values.flatMap fun v => [option.toList, v]

theorem buildArgv_ok (h : buildArgv args = .ok argv) :
    Accepted args ∧
      argv = ["--no-pager".toList, "--output=short-iso".toList] ++
        (if args.follow then ["--follow".toList] else []) ++
        ["--lines=".toList ++ Text.decimal (min args.lines 10000)] ++
        optionWords "-u" args.units ++ optionWords "-p" args.priority.toList ++
        optionWords "-t" args.identifier.toList ++ optionWords "--since" args.since.toList ++
        optionWords "-g" args.grep.toList := by
  unfold buildArgv at h
  obtain ⟨units, hunits, h⟩ := Checks.bind_ok h
  obtain ⟨priority, hpriority, h⟩ := Checks.bind_ok h
  obtain ⟨identifier, hidentifier, h⟩ := Checks.bind_ok h
  obtain ⟨since, hsince, h⟩ := Checks.bind_ok h
  obtain ⟨grep, hgrep, h⟩ := Checks.bind_ok h
  cases h
  obtain ⟨hwords, hunitsOk⟩ := unitArgs_ok hunits
  obtain ⟨hpriorityWords, hpriorityOk⟩ := optionArg_ok hpriority
  obtain ⟨hidentifierWords, hidentifierOk⟩ := optionArg_ok hidentifier
  obtain ⟨hsinceWords, hsinceOk⟩ := optionArg_ok hsince
  obtain ⟨hgrepWords, hgrepOk⟩ := optionArg_ok hgrep
  refine ⟨⟨hunitsOk, ?_, hidentifierOk, hsinceOk, ?_⟩, ?_⟩
  · intro name hname
    exact List.contains_iff_mem.mp (hpriorityOk name hname)
  · intro pattern hpattern
    have hok := hgrepOk pattern hpattern
    simp only [Bool.not_eq_eq_eq_not, Bool.not_true, Bool.or_eq_false_iff, decide_eq_false_iff_not]
      at hok
    exact ⟨hok.1.1, hok.2⟩
  · rw [hwords, hpriorityWords, hidentifierWords, hsinceWords, hgrepWords]
    rfl

/-! ## What is read from them -/

/-- The words as tokens; whose they are makes no difference to a reader. -/
def tokens (argv : List Str) : List Token := argv.map fun word => ⟨word, true⟩

theorem tokens_optionWords (option : String) (values : List Str) :
    tokens (optionWords option values) =
      withValues option (values.map fun value => ⟨value, true⟩) := by
  rw [tokens, optionWords, withValues, List.map_flatMap, List.flatMap_map]
  rfl

/-- The options that have their value behind them. -/
def valued : List String := ["-u", "-p", "-t", "--since", "-g"]

/-- What is documented of the options the agent uses. -/
structure Documented (journalctl : Grammar) : Prop where
  valued : ∀ name ∈ valued, journalctl.takesValue name.toList = true
  noPager : journalctl.takesValue "--no-pager".toList = false
  follow : journalctl.takesValue "--follow".toList = false

/-- What `journalctl` takes out of its arguments. -/
structure Query where
  units : List Str
  priority : List Str
  identifier : List Str
  since : List Str
  grep : List Str
  follow : Bool
  lines : List Nat
  others : List Str
  positional : List Str
  deriving DecidableEq

/-- The number in a `--lines=`. -/
def lineCount (option : Str) : Option Nat :=
  (Text.stripStart "--lines=".toList option).bind Text.parseU64

/-- Not one of the options that a request can bring with it. -/
def fixed (option : Str) : Bool :=
  !(("--follow" :: valued).map String.toList).contains option && (lineCount option).isNone

def readQuery (journalctl : Grammar) (argv : List Str) : Query where
  units := values journalctl "-u" (tokens argv)
  priority := values journalctl "-p" (tokens argv)
  identifier := values journalctl "-t" (tokens argv)
  since := values journalctl "--since" (tokens argv)
  grep := values journalctl "-g" (tokens argv)
  follow := (options journalctl (tokens argv)).contains "--follow".toList
  lines := (options journalctl (tokens argv)).filterMap lineCount
  others := (options journalctl (tokens argv)).filter fixed
  positional := operands journalctl (tokens argv)

/-- What a request asks for. -/
def query (args : StreamArgs) : Query where
  units := args.units
  priority := args.priority.toList
  identifier := args.identifier.toList
  since := args.since.toList
  grep := args.grep.toList
  follow := args.follow
  lines := [min args.lines 10000]
  others := ["--no-pager".toList, "--output=short-iso".toList]
  positional := []

def linesWord (args : StreamArgs) : Str := "--lines=".toList ++ Text.decimal (min args.lines 10000)

theorem lineCount_linesWord (args : StreamArgs) :
    lineCount (linesWord args) = some (min args.lines 10000) := by
  have hsmall : min args.lines 10000 < UInt64.size := by
    have hle := Nat.min_le_right args.lines 10000
    have hsize : 10000 < UInt64.size := by decide
    omega
  have hrest : Text.stripStart "--lines=".toList (linesWord args) =
      some (Text.decimal (min args.lines 10000)) := Text.stripStart_eq_some.mpr rfl
  rw [lineCount, hrest, Option.bind_some, Text.parseU64_decimal hsmall]

theorem valued_option (hdoc : Documented g) {name : String} (hname : name ∈ valued) :
    isOption name.toList = true ∧ name.toList ≠ ['-', '-'] ∧ consumes g name.toList = true := by
  have hall : ∀ name ∈ valued, isOption name.toList = true ∧ name.toList ≠ ['-', '-'] ∧
      name.toList.contains '=' = false := by decide
  obtain ⟨hoption, hend, hplain⟩ := hall name hname
  refine ⟨hoption, hend, ?_⟩
  rw [consumes, hdoc.valued name hname, hplain]
  rfl

/-- The command line, stretch by stretch. -/
theorem readAs_argv (hdoc : Documented g) (h : buildArgv args = .ok argv)
    (f : Token × Role → Option Str) :
    readAs g f (tokens argv) =
      readAs g f [own "--no-pager"] ++ (readAs g f [own "--output=short-iso"] ++
      (readAs g f (if args.follow then [own "--follow"] else []) ++
      (readAs g f [⟨linesWord args, true⟩] ++
      (readAs g f (withValues "-u" (args.units.map (⟨·, true⟩))) ++
      (readAs g f (withValues "-p" (args.priority.toList.map (⟨·, true⟩))) ++
      (readAs g f (withValues "-t" (args.identifier.toList.map (⟨·, true⟩))) ++
      (readAs g f (withValues "--since" (args.since.toList.map (⟨·, true⟩))) ++
      readAs g f (withValues "-g" (args.grep.toList.map (⟨·, true⟩)))))))))) := by
  have hvalued : ∀ name ∈ valued, ∀ ts, Stretch g (withValues name ts) := by
    intro name hname
    obtain ⟨hoption, hend, hconsumes⟩ := valued_option hdoc hname
    exact Stretch.withValues hoption hend hconsumes
  have hpager : Stretch g [own "--no-pager"] := by
    apply Stretch.flag rfl (by decide) (by decide)
    rw [consumes, own, hdoc.noPager]
    rfl
  have houtput : Stretch g [own "--output=short-iso"] :=
    Stretch.flag rfl (by decide) (by decide) (Bool.and_false _)
  have hfollow : Stretch g (if args.follow then [own "--follow"] else []) := by
    split
    · apply Stretch.flag rfl (by decide) (by decide)
      rw [consumes, own, hdoc.follow]
      rfl
    · exact .nil
  have hend : linesWord args ≠ ['-', '-'] := by
    intro hend
    have hthird : 'l' = ' ' := congrArg (List.getD · 2 ' ') hend
    exact absurd hthird (by decide)
  have hlines : Stretch g [⟨linesWord args, true⟩] :=
    Stretch.flag rfl rfl hend (Bool.and_false _)
  have hfollowTokens : tokens (if args.follow then ["--follow".toList] else []) =
      if args.follow then [own "--follow"] else [] := by
    split <;> rfl
  have hargv : tokens argv = [own "--no-pager"] ++ ([own "--output=short-iso"] ++
      ((if args.follow then [own "--follow"] else []) ++ ([⟨linesWord args, true⟩] ++
      (withValues "-u" (args.units.map (⟨·, true⟩)) ++
      (withValues "-p" (args.priority.toList.map (⟨·, true⟩)) ++
      (withValues "-t" (args.identifier.toList.map (⟨·, true⟩)) ++
      (withValues "--since" (args.since.toList.map (⟨·, true⟩)) ++
      withValues "-g" (args.grep.toList.map (⟨·, true⟩))))))))) := by
    rw [(buildArgv_ok h).2]
    simp only [← tokens_optionWords, ← hfollowTokens]
    simp only [tokens, List.map_append, List.append_assoc]
    rfl
  rw [hargv, hpager.readAs_append, houtput.readAs_append, hfollow.readAs_append,
    hlines.readAs_append, (hvalued "-u" (by decide) _).readAs_append,
    (hvalued "-p" (by decide) _).readAs_append, (hvalued "-t" (by decide) _).readAs_append,
    (hvalued "--since" (by decide) _).readAs_append]

theorem values_argv (hdoc : Documented g) (h : buildArgv args = .ok argv) (asked : String) :
    values g asked (tokens argv) =
      (if "-u" = asked then args.units else []) ++
      ((if "-p" = asked then args.priority.toList else []) ++
      ((if "-t" = asked then args.identifier.toList else []) ++
      ((if "--since" = asked then args.since.toList else []) ++
      (if "-g" = asked then args.grep.toList else [])))) := by
  have hvalued : ∀ name ∈ valued, ∀ vs : List Str,
      readAs g (valueOf asked.toList) (withValues name (vs.map (⟨·, true⟩))) =
        if name = asked then vs else [] := by
    intro name hname vs
    obtain ⟨hoption, hend, hconsumes⟩ := valued_option hdoc hname
    have htext : (vs.map (⟨·, true⟩ : Str → Token)).map Token.text = vs := by
      simp [Function.comp_def]
    rw [values_withValues hoption hend hconsumes, htext]
  have hfollow : readAs g (valueOf asked.toList)
      (if args.follow then [own "--follow"] else []) = [] := by
    split
    · exact readAs_flag (by decide)
    · rfl
  rw [values, readAs_argv hdoc h, hvalued "-u" (by decide), hvalued "-p" (by decide),
    hvalued "-t" (by decide), hvalued "--since" (by decide), hvalued "-g" (by decide), hfollow,
    readAs_flag (by decide), readAs_flag (by decide), readAs_flag rfl]
  rfl

theorem operands_argv (hdoc : Documented g) (h : buildArgv args = .ok argv) :
    operands g (tokens argv) = [] := by
  have hvalued : ∀ name ∈ valued, ∀ ts, readAs g operandOf (withValues name ts) = [] := by
    intro name hname
    obtain ⟨hoption, hend, hconsumes⟩ := valued_option hdoc hname
    exact operands_withValues hoption hend hconsumes
  have hfollow : readAs g operandOf (if args.follow then [own "--follow"] else []) = [] := by
    split
    · exact readAs_flag (by decide)
    · rfl
  rw [operands, readAs_argv hdoc h, hvalued "-u" (by decide), hvalued "-p" (by decide),
    hvalued "-t" (by decide), hvalued "--since" (by decide), hvalued "-g" (by decide), hfollow,
    readAs_flag (by decide), readAs_flag (by decide), readAs_flag rfl]
  rfl

theorem options_argv (hdoc : Documented g) (h : buildArgv args = .ok argv) :
    options g (tokens argv) =
      ["--no-pager".toList, "--output=short-iso".toList] ++
      ((if args.follow then ["--follow".toList] else []) ++ ([linesWord args] ++
      ((args.units.map fun _ => "-u".toList) ++
      ((args.priority.toList.map fun _ => "-p".toList) ++
      ((args.identifier.toList.map fun _ => "-t".toList) ++
      ((args.since.toList.map fun _ => "--since".toList) ++
      (args.grep.toList.map fun _ => "-g".toList))))))) := by
  have hvalued : ∀ name ∈ valued, ∀ vs : List Str,
      readAs g optionOf (withValues name (vs.map (⟨·, true⟩))) = vs.map fun _ => name.toList := by
    intro name hname vs
    obtain ⟨hoption, hend, hconsumes⟩ := valued_option hdoc hname
    rw [options_withValues hoption hend hconsumes, List.map_map]
    rfl
  have hfollow : readAs g optionOf (if args.follow then [own "--follow"] else []) =
      if args.follow then ["--follow".toList] else [] := by
    split
    · exact readAs_flag (by decide)
    · rfl
  rw [options, readAs_argv hdoc h, hvalued "-u" (by decide), hvalued "-p" (by decide),
    hvalued "-t" (by decide), hvalued "--since" (by decide), hvalued "-g" (by decide), hfollow,
    readAs_flag (by decide), readAs_flag (by decide), readAs_flag rfl]
  rfl

theorem filterMap_names (f : Str → Option Nat) {name : Str} (hname : f name = none)
    (vs : List Str) : (vs.map fun _ => name).filterMap f = [] := by
  rw [List.filterMap_map]
  exact List.filterMap_eq_nil_iff.mpr fun _ _ => hname

theorem lines_argv (hdoc : Documented g) (h : buildArgv args = .ok argv) :
    (options g (tokens argv)).filterMap lineCount = [min args.lines 10000] := by
  have hfollow : (if args.follow then ["--follow".toList] else []).filterMap lineCount = [] := by
    split
    · decide
    · rfl
  have hfixed : ["--no-pager".toList, "--output=short-iso".toList].filterMap lineCount = [] := by
    decide
  have hcount : [linesWord args].filterMap lineCount = [min args.lines 10000] := by
    rw [List.filterMap_cons_some (lineCount_linesWord args)]
    rfl
  rw [options_argv hdoc h]
  simp only [List.filterMap_append]
  rw [hfixed, hfollow, hcount, filterMap_names _ (by decide), filterMap_names _ (by decide),
    filterMap_names _ (by decide), filterMap_names _ (by decide), filterMap_names _ (by decide)]
  rfl

theorem filter_names {name : Str} (hname : fixed name = false) (vs : List Str) :
    (vs.map fun _ => name).filter fixed = [] := by
  refine List.filter_eq_nil_iff.mpr fun option hmem => ?_
  obtain ⟨_, _, heq⟩ := List.mem_map.mp hmem
  rw [← heq, hname]
  exact Bool.false_ne_true

theorem others_argv (hdoc : Documented g) (h : buildArgv args = .ok argv) :
    (options g (tokens argv)).filter fixed =
      ["--no-pager".toList, "--output=short-iso".toList] := by
  have hfollow : (if args.follow then ["--follow".toList] else []).filter fixed = [] := by
    split
    · decide
    · rfl
  have hpair : ["--no-pager".toList, "--output=short-iso".toList].filter fixed =
      ["--no-pager".toList, "--output=short-iso".toList] := by decide
  have hcount : [linesWord args].filter fixed = [] := by
    rw [List.filter_singleton, fixed, lineCount_linesWord]
    simp
  rw [options_argv hdoc h]
  simp only [List.filter_append]
  rw [hpair, hfollow, hcount, filter_names (by decide), filter_names (by decide),
    filter_names (by decide), filter_names (by decide), filter_names (by decide)]
  rfl

theorem follow_argv (hdoc : Documented g) (h : buildArgv args = .ok argv) :
    (options g (tokens argv)).contains "--follow".toList = args.follow := by
  have hcount : lineCount "--follow".toList = none := by decide
  have hlines : "--follow".toList ≠ linesWord args := by
    intro heq
    rw [heq, lineCount_linesWord] at hcount
    cases hcount
  have hnames : ∀ name : Str, "--follow".toList ≠ name → ∀ vs : List Str,
      "--follow".toList ∉ vs.map fun _ => name := by
    intro name hname vs hmem
    obtain ⟨_, _, heq⟩ := List.mem_map.mp hmem
    exact hname heq.symm
  have hpair : "--follow".toList ∉ ["--no-pager".toList, "--output=short-iso".toList] := by
    decide
  rw [Bool.eq_iff_iff, List.contains_iff_mem, options_argv hdoc h]
  simp only [List.mem_append, List.mem_singleton, hpair, hlines, hnames "-u".toList (by decide),
    hnames "-p".toList (by decide), hnames "-t".toList (by decide),
    hnames "--since".toList (by decide), hnames "-g".toList (by decide), or_false, false_or]
  split
  · next hfollow => exact iff_of_true (by simp) hfollow
  · next hfollow => exact iff_of_false List.not_mem_nil hfollow

/-! ## The request -/

theorem readQuery_argv (hdoc : Documented g) (h : buildArgv args = .ok argv) :
    readQuery g argv = query args := by
  have hvalues := values_argv hdoc h
  rw [readQuery, follow_argv hdoc h, lines_argv hdoc h, others_argv hdoc h, operands_argv hdoc h]
  simp only [hvalues, String.reduceEq, if_true, if_false, List.nil_append, List.append_nil]
  rfl

/-- It can be taken for an option, or is nothing. -/
def Unusable (value : Str) : Prop := value = [] ∨ value.head? = some '-'

/-- A value that no request can have. -/
def Refused (args : StreamArgs) : Prop :=
  (∃ unit ∈ args.units, Unusable unit) ∨ (∃ identifier ∈ args.identifier, Unusable identifier) ∨
    (∃ since ∈ args.since, Unusable since) ∨ (∃ grep ∈ args.grep, Unusable grep) ∨
    ∃ priority ∈ args.priority, priority ∉ allowedPriorities

theorem not_isSafeToken {value : Str} (h : Unusable value) : ¬ isSafeToken value = true := by
  rw [isSafeToken, if_pos (h.imp id .inl)]
  exact Bool.false_ne_true

theorem not_isSafeSince {value : Str} (h : Unusable value) : ¬ isSafeSince value = true := by
  rw [isSafeSince, if_pos (h.imp id .inl)]
  exact Bool.false_ne_true

theorem Accepted.not_refused (h : Accepted args) : ¬ Refused args := by
  intro hrefused
  rcases hrefused with ⟨unit, hunit, hbad⟩ | ⟨identifier, hid, hbad⟩ | ⟨since, hsince, hbad⟩ |
    ⟨grep, hgrep, hbad⟩ | ⟨priority, hpriority, hbad⟩
  · exact not_isSafeToken hbad (h.units unit hunit)
  · exact not_isSafeToken hbad (h.identifier identifier hid)
  · exact not_isSafeSince hbad (h.since since hsince)
  · obtain ⟨hempty, hdash⟩ := h.grep grep hgrep
    exact hbad.elim hempty hdash
  · exact hbad (h.priority priority hpriority)

/-- A request comes out of its command line as it was, and one with a value that could be
read as something else is refused. -/
theorem request_recovered (args : StreamArgs) {journalctl : Grammar}
    (hdoc : Documented journalctl) :
    (∀ argv, buildArgv args = .ok argv → readQuery journalctl argv = query args) ∧
      (Refused args → ∃ e, buildArgv args = .error e) := by
  refine ⟨fun argv h => readQuery_argv hdoc h, fun hrefused => ?_⟩
  cases h : buildArgv args with
  | error e => exact ⟨e, rfl⟩
  | ok argv => exact absurd hrefused (buildArgv_ok h).1.not_refused

/-! Errors of two units, with a pattern that looks like an option further on. -/

def journalctlOptions : Grammar where
  takesValue := (valued.map String.toList).contains
  interspersed := true

theorem journalctlOptions_documented : Documented journalctlOptions where
  valued := by decide
  noPager := by decide
  follow := by decide

def sshErrors : StreamArgs where
  streamId := "1".toList
  units := ["ssh.service".toList, "nginx.service".toList]
  priority := some "err".toList
  since := some "2 hours ago".toList
  grep := some "login -u root".toList
  identifier := none
  lines := 20000
  follow := true

theorem request_recovered_ssh :
    ∃ argv, buildArgv sshErrors = .ok argv ∧
      readQuery journalctlOptions argv = query sshErrors := by
  refine ⟨_, rfl, ?_⟩
  exact (request_recovered sshErrors journalctlOptions_documented).1 _ rfl

end ShellfleetAgent.Agent.LogSources.JournalStream
