import ShellfleetAgent.Proofs.Docker

/-!
# What docker makes of a container

The options of a `docker run` come back out of its arguments as they were in the spec, and
the first argument that is none of them is the image. What is behind the image is the
container's command, every token of it; so a spec comes back whole as long as nothing was
put between the two.
-/

namespace ShellfleetAgent.Agent.Docker

open ShellfleetAgent.Lib ShellfleetAgent.Lib.Options

/-! ## The words of a command -/

def escaped (c : Char) : Str := if c = doubleQuote ∨ c = '\\' then ['\\', c] else [c]

/-- An argument in double quotes. -/
def quoted (arg : Str) : Str := doubleQuote :: arg.flatMap escaped ++ [doubleQuote]

def rendered (args : List Str) : Str := [' '].intercalate (args.map quoted)

/-- The words when the command ends here. -/
def Splitter.words (s : Splitter) : List Str := if s.cur = [] then s.out else s.out ++ [s.cur]

theorem foldl_escaped (out : List Str) (cur : Str) (c : Char) :
    (escaped c).foldl Splitter.step ⟨out, cur, some doubleQuote, false⟩ =
      ⟨out, cur ++ [c], some doubleQuote, false⟩ := by
  rw [escaped]
  split
  · rfl
  · next hplain =>
      obtain ⟨hquote, hslash⟩ := not_or.mp hplain
      rw [List.foldl_cons, List.foldl_nil, Splitter.step, if_neg Bool.false_ne_true,
        if_neg hslash]
      dsimp only
      rw [if_neg (Ne.symm hquote)]
      rfl

theorem foldl_inside (out : List Str) (cur arg : Str) :
    (arg.flatMap escaped).foldl Splitter.step ⟨out, cur, some doubleQuote, false⟩ =
      ⟨out, cur ++ arg, some doubleQuote, false⟩ := by
  induction arg generalizing cur with
  | nil =>
      rw [List.append_nil]
      rfl
  | cons c arg ih =>
      rw [List.flatMap_cons, List.foldl_append, foldl_escaped, ih, List.append_assoc]
      rfl

theorem foldl_quoted (out : List Str) (cur arg : Str) :
    (quoted arg).foldl Splitter.step ⟨out, cur, none, false⟩ =
      ⟨out, cur ++ arg, none, false⟩ := by
  have hopen : Splitter.step ⟨out, cur, none, false⟩ doubleQuote =
      ⟨out, cur, some doubleQuote, false⟩ := rfl
  rw [quoted, List.cons_append, List.foldl_cons, hopen, List.foldl_append, foldl_inside]
  rfl

theorem step_space (out : List Str) (cur : Str) :
    Splitter.step ⟨out, cur, none, false⟩ ' ' =
      ⟨Splitter.words ⟨out, cur, none, false⟩, [], none, false⟩ := by
  have hspace : Splitter.step ⟨out, cur, none, false⟩ ' ' =
      if cur = [] then ⟨out, cur, none, false⟩ else ⟨out ++ [cur], [], none, false⟩ := rfl
  rw [hspace, Splitter.words]
  dsimp only
  split
  · next hnil => rw [hnil]
  · rfl

theorem words_word (out : List Str) (arg : Str) :
    Splitter.words ⟨out, arg, none, false⟩ = out ++ [arg].filter (· ≠ []) := by
  rw [Splitter.words]
  dsimp only
  split
  · next hnil =>
      subst hnil
      exact (List.append_nil _).symm
  · next hword => rw [List.filter_singleton, decide_eq_true hword, cond_true]

theorem foldl_rendered (out : List Str) (args : List Str) :
    ((rendered args).foldl Splitter.step ⟨out, [], none, false⟩).words =
      out ++ args.filter (· ≠ []) := by
  induction args generalizing out with
  | nil => exact (List.append_nil _).symm
  | cons arg args ih =>
      cases args with
      | nil =>
          have hone : rendered [arg] = quoted arg := by
            rw [rendered, List.map_singleton, List.intercalate_singleton]
          rw [hone, foldl_quoted, List.nil_append, words_word]
      | cons arg' args =>
          have hmore : rendered (arg :: arg' :: args) =
              quoted arg ++ ' ' :: rendered (arg' :: args) := by
            rw [rendered, rendered, List.map_cons, List.map_cons, List.intercalate_cons_cons,
              List.append_assoc, List.singleton_append]
          rw [hmore, List.foldl_append, foldl_quoted, List.nil_append, List.foldl_cons, step_space,
            ih, words_word, List.append_assoc, ← List.filter_append, List.singleton_append]

/-- Words that are not empty come back. -/
theorem splitCommand_rendered (args : List Str) :
    splitCommand (rendered args) = args.filter (· ≠ []) := by
  have hwords : splitCommand (rendered args) =
      ((rendered args).foldl Splitter.step ⟨[], [], none, false⟩).words := rfl
  rw [hwords, foldl_rendered, List.nil_append]

/-- A list of arguments comes back from a command line if no argument is empty. -/
theorem arguments_recovered_iff (args : List Str) :
    splitCommand (rendered args) = args ↔ [] ∉ args := by
  rw [splitCommand_rendered, List.filter_eq_self]
  constructor
  · intro h hnil
    have hword := h [] hnil
    simp at hword
  · intro h arg harg
    refine decide_eq_true fun hnil => h ?_
    rw [← hnil]
    exact harg

/-- `echo ""` comes back as `echo`. -/
theorem empty_argument_lost :
    splitCommand (rendered ["echo".toList, []]) ≠ ["echo".toList, []] := by
  decide

/-! ## The options of `docker run` -/

variable {g : Grammar} {f : Token × Role → Option Str} {line : CommandLine}
  {docker : List String → Grammar}

/-- What `docker run` takes out of its arguments. Without `--restart` the policy is `no`. -/
structure RunArgs where
  detached : Bool
  name : List Str
  ports : List Str
  env : List Str
  volumes : List Str
  restart : Str
  network : List Str
  pull : List Str
  image : Option Str
  command : List Str
  deriving DecidableEq

def readRun (g : Grammar) (args : List Token) : RunArgs where
  detached := (options g args).contains "-d".toList
  name := values g "--name" args
  ports := values g "-p" args
  env := values g "-e" args
  volumes := values g "-v" args
  restart := (values g "--restart" args).getLast?.getD "no".toList
  network := values g "--network" args
  pull := values g "--pull" args
  image := (operands g args).head?
  command := (operands g args).tail

/-- What a spec asks for. -/
def ContainerSpec.asked (spec : ContainerSpec) : RunArgs where
  detached := spec.detached
  name := (spec.name.bind filled).toList
  ports := spec.ports.filterMap filled
  env := spec.env.filterMap filled
  volumes := spec.volumes.filterMap filled
  restart := (spec.restartPolicy.bind filled).getD "no".toList
  network := (spec.network.bind filled).toList
  pull := if spec.pull then ["always".toList] else []
  image := some spec.image
  command := (spec.command.map splitCommand).getD []

theorem withOption_eq (name : String) (vs : List Str) :
    withOption name vs = withValues name (vs.map given) := by
  rw [withOption, withValues, List.flatMap_map]

theorem values_withOption {name : String} (hname : Separate name)
    (hvalue : g.takesValue name.toList = true) (asked : String) (vs : List Str) :
    readAs g (valueOf asked.toList) (withOption name vs) = if name = asked then vs else [] := by
  have htext : (vs.map given).map Token.text = vs := by simp [Function.comp_def, given]
  rw [withOption_eq, values_withValues hname.1 hname.2.1 (hname.consumes hvalue), htext]

theorem operands_withOption {name : String} (hname : Separate name)
    (hvalue : g.takesValue name.toList = true) (vs : List Str) :
    readAs g operandOf (withOption name vs) = [] := by
  rw [withOption_eq, operands_withValues hname.1 hname.2.1 (hname.consumes hvalue)]

theorem options_withOption {name : String} (hname : Separate name)
    (hvalue : g.takesValue name.toList = true) (vs : List Str) {option : Str}
    (h : option ∈ readAs g optionOf (withOption name vs)) : option = name.toList := by
  rw [withOption_eq, options_withValues hname.1 hname.2.1 (hname.consumes hvalue)] at h
  obtain ⟨_, _, heq⟩ := List.mem_map.mp h
  exact heq.symm

/-- Behind the image everything is the container's, the `--` too. -/
theorem readAs_imageAndCommand (hrest : g.interspersed = false) {image : Str}
    (himage : dashed image = false) (f : Token × Role → Option Str) (command : Option Str) :
    readAs g f (imageAndCommand image command) =
      (f (given image, .positional)).toList ++
        (command.toList.flatMap fun command =>
          own "--" :: (splitCommand command).map given).filterMap fun t => f (t, .rest) := by
  have hnot : isOption image = false := by
    rw [isOption, himage]
    rfl
  have hend : image ≠ ['-', '-'] := by
    intro heq
    rw [heq] at himage
    cases himage
  have hrole : role .options (given image) = .positional := by
    rw [role, given, hnot]
    rfl
  have hnext : next g .options (given image) = .ended := by
    rw [next, given, if_neg hend, hnot, hrest]
    rfl
  rw [imageAndCommand, readAs, roles, hrole, hnext]
  cases hread : f (given image, .positional) with
  | none =>
      rw [List.filterMap_cons_none hread, readAs_ended]
      rfl
  | some text =>
      rw [List.filterMap_cons_some hread, readAs_ended]
      rfl

theorem readAs_createContainer (hdoc : Documented docker) {spec : ContainerSpec}
    (h : createContainer spec = .ok line) (f : Token × Role → Option Str) :
    readAs (docker line.words) f line.args =
      readAs (docker ["run"]) f (if spec.detached then [own "-d"] else []) ++
      (readAs (docker ["run"]) f (withOption "--name" (spec.name.bind filled).toList) ++
      (readAs (docker ["run"]) f (withOption "-p" (spec.ports.filterMap filled)) ++
      (readAs (docker ["run"]) f (withOption "-e" (spec.env.filterMap filled)) ++
      (readAs (docker ["run"]) f (withOption "-v" (spec.volumes.filterMap filled)) ++
      (readAs (docker ["run"]) f (withOption "--restart"
        ((spec.restartPolicy.bind filled).filter (· ≠ "no".toList)).toList) ++
      (readAs (docker ["run"]) f (withOption "--network" (spec.network.bind filled).toList) ++
      (readAs (docker ["run"]) f (if spec.pull then [own "--pull", own "always"] else []) ++
      readAs (docker ["run"]) f (imageAndCommand spec.image spec.command)))))))) := by
  have hoption := hdoc.option_stretch
  have hdetached := hdoc.detached_stretch spec.detached
  have hpull := hdoc.pull_stretch spec.pull
  rw [createContainer] at h
  split at h
  · cases h
  · cases h
    simp only [List.append_assoc]
    rw [hdetached.readAs_append, (hoption "--name" (by decide) _).readAs_append,
      (hoption "-p" (by decide) _).readAs_append, (hoption "-e" (by decide) _).readAs_append,
      (hoption "-v" (by decide) _).readAs_append,
      (hoption "--restart" (by decide) _).readAs_append,
      (hoption "--network" (by decide) _).readAs_append, hpull.readAs_append]

/-- Each option has its own values. -/
theorem values_createContainer (hdoc : Documented docker)
    (hrest : (docker ["run"]).interspersed = false) {spec : ContainerSpec}
    (himage : dashed spec.image = false) (h : createContainer spec = .ok line)
    (asked : String) :
    values (docker line.words) asked line.args =
      (if "--name" = asked then (spec.name.bind filled).toList else []) ++
      ((if "-p" = asked then spec.ports.filterMap filled else []) ++
      ((if "-e" = asked then spec.env.filterMap filled else []) ++
      ((if "-v" = asked then spec.volumes.filterMap filled else []) ++
      ((if "--restart" = asked then
        ((spec.restartPolicy.bind filled).filter (· ≠ "no".toList)).toList else []) ++
      ((if "--network" = asked then (spec.network.bind filled).toList else []) ++
      (if "--pull" = asked then if spec.pull then ["always".toList] else [] else [])))))) := by
  have hoption : ∀ name ∈ runOptions, ∀ vs,
      readAs (docker ["run"]) (valueOf asked.toList) (withOption name vs) =
        if name = asked then vs else [] := by
    intro name hname
    exact values_withOption (runOptions_separate name hname) (hdoc.run name hname) asked
  have hdetached : readAs (docker ["run"]) (valueOf asked.toList)
      (if spec.detached then [own "-d"] else []) = [] := by
    split
    · exact readAs_flag (by decide)
    · rfl
  have hpull : readAs (docker ["run"]) (valueOf asked.toList)
      (if spec.pull then [own "--pull", own "always"] else []) =
        if "--pull" = asked then if spec.pull then ["always".toList] else [] else [] := by
    split
    · exact values_withValues pull_separate.1 pull_separate.2.1 hdoc.pull_consumes asked
        [own "always"]
    · rw [ite_self]
      rfl
  have hlast : readAs (docker ["run"]) (valueOf asked.toList)
      (imageAndCommand spec.image spec.command) = [] := by
    rw [readAs_imageAndCommand hrest himage]
    simp [valueOf]
  rw [values, readAs_createContainer hdoc h, hdetached, hpull, hlast,
    hoption "--name" (by decide), hoption "-p" (by decide), hoption "-e" (by decide),
    hoption "-v" (by decide), hoption "--restart" (by decide),
    hoption "--network" (by decide), List.nil_append, List.append_nil]

theorem operands_createContainer (hdoc : Documented docker)
    (hrest : (docker ["run"]).interspersed = false) {spec : ContainerSpec}
    (himage : dashed spec.image = false) (h : createContainer spec = .ok line) :
    operands (docker line.words) line.args =
      spec.image :: spec.command.toList.flatMap fun command =>
        "--".toList :: splitCommand command := by
  have hoption : ∀ name ∈ runOptions, ∀ vs,
      readAs (docker ["run"]) operandOf (withOption name vs) = [] := by
    intro name hname
    exact operands_withOption (runOptions_separate name hname) (hdoc.run name hname)
  have hdetached : readAs (docker ["run"]) operandOf
      (if spec.detached then [own "-d"] else []) = [] := by
    split
    · exact readAs_flag (by decide)
    · rfl
  have hpull : readAs (docker ["run"]) operandOf
      (if spec.pull then [own "--pull", own "always"] else []) = [] := by
    split
    · exact readAs_option pull_separate.1 pull_separate.2.1 hdoc.pull_consumes _
    · rfl
  rw [operands, readAs_createContainer hdoc h, hdetached, hpull,
    readAs_imageAndCommand hrest himage, hoption "--name" (by decide), hoption "-p" (by decide),
    hoption "-e" (by decide), hoption "-v" (by decide), hoption "--restart" (by decide),
    hoption "--network" (by decide)]
  cases spec.command with
  | none => rfl
  | some command => simp [operandOf, own, given, Function.comp_def]

theorem detached_createContainer (hdoc : Documented docker)
    (hrest : (docker ["run"]).interspersed = false) {spec : ContainerSpec}
    (himage : dashed spec.image = false) (h : createContainer spec = .ok line) :
    (options (docker line.words) line.args).contains "-d".toList = spec.detached := by
  have hother : ∀ name ∈ runOptions, "-d".toList ≠ name.toList := by decide
  have hoption : ∀ name ∈ runOptions, ∀ vs,
      "-d".toList ∉ readAs (docker ["run"]) optionOf (withOption name vs) := by
    intro name hname vs hmem
    exact hother name hname
      (options_withOption (runOptions_separate name hname) (hdoc.run name hname) vs hmem)
  have hpull : "-d".toList ∉ readAs (docker ["run"]) optionOf
      (if spec.pull then [own "--pull", own "always"] else []) := by
    split
    · rw [readAs_option pull_separate.1 pull_separate.2.1 hdoc.pull_consumes]
      decide
    · exact List.not_mem_nil
  have hlast : "-d".toList ∉ readAs (docker ["run"]) optionOf
      (imageAndCommand spec.image spec.command) := by
    rw [readAs_imageAndCommand hrest himage]
    simp [optionOf]
  rw [Bool.eq_iff_iff, List.contains_iff_mem, options, readAs_createContainer hdoc h]
  simp only [List.mem_append, hoption "--name" (by decide), hoption "-p" (by decide),
    hoption "-e" (by decide), hoption "-v" (by decide), hoption "--restart" (by decide),
    hoption "--network" (by decide), hpull, hlast, or_false]
  split
  · next hdetached =>
      rw [readAs_flag (by decide)]
      exact iff_of_true (by decide) hdetached
  · next hdetached => exact iff_of_false List.not_mem_nil hdetached

/-- A policy that is left out is the one docker takes by itself. -/
theorem restart_default (policy : Option Str) :
    (policy.filter (· ≠ "no".toList)).toList.getLast?.getD "no".toList =
      policy.getD "no".toList := by
  cases policy with
  | none => rfl
  | some policy =>
      by_cases hno : policy = "no".toList
      · subst hno
        rfl
      · rw [Option.filter_some, if_pos (decide_eq_true hno)]
        rfl

/-- Everything comes back, and before the words of a command a `--`. -/
theorem readRun_createContainer (hdoc : Documented docker)
    (hrest : (docker ["run"]).interspersed = false) {spec : ContainerSpec}
    (himage : dashed spec.image = false) (h : createContainer spec = .ok line) :
    readRun (docker line.words) line.args =
      { spec.asked with
        command := spec.command.toList.flatMap fun command =>
          "--".toList :: splitCommand command } := by
  have hvalues := values_createContainer hdoc hrest himage h
  have hdetached := detached_createContainer hdoc hrest himage h
  rw [readRun, operands_createContainer hdoc hrest himage h]
  simp only [hvalues, hdetached, String.reduceEq, if_true, if_false, List.nil_append,
    List.append_nil, restart_default, List.head?_cons, List.tail_cons]
  rfl

/-- A container comes out of its command line as the spec asks for it if no command is asked
for; before a command there is a `--` that becomes its first word. -/
theorem container_recovered_iff (hdoc : Documented docker)
    (hrest : (docker ["run"]).interspersed = false) {spec : ContainerSpec}
    (himage : dashed spec.image = false) (h : createContainer spec = .ok line) :
    readRun (docker line.words) line.args = spec.asked ↔ spec.command = none := by
  rw [readRun_createContainer hdoc hrest himage h]
  cases hcommand : spec.command with
  | none =>
      refine iff_of_true ?_ rfl
      rw [ContainerSpec.asked, hcommand]
      rfl
  | some command =>
      refine iff_of_false (fun heq => ?_) (Option.some_ne_none _)
      rw [ContainerSpec.asked, hcommand] at heq
      have hwords : ("--".toList :: splitCommand command) ++ [] = splitCommand command :=
        congrArg RunArgs.command heq
      rw [List.append_nil] at hwords
      exact absurd (congrArg List.length hwords) (Nat.succ_ne_self _)

def webSpec (command : Option Str) : ContainerSpec where
  image := "nginx".toList
  name := some " web".toList
  ports := ["8080:80".toList, []]
  env := ["TZ=UTC".toList]
  volumes := []
  restartPolicy := some "no".toList
  network := none
  pull := true
  detached := true
  command := command

def webArgs : List Token :=
  [own "-d", own "--name", given "web".toList, own "-p", given "8080:80".toList, own "-e",
    given "TZ=UTC".toList, own "--pull", own "always", given "nginx".toList]

theorem container_recovered_web :
    createContainer (webSpec none) = .ok { words := ["run"], args := webArgs } ∧
      readRun (dockerOptions ["run"]) webArgs = (webSpec none).asked := by
  have hspawn : createContainer (webSpec none) =
      .ok { words := ["run"], args := webArgs } := by decide
  have himage : dashed (webSpec none).image = false := by decide
  exact ⟨hspawn, (container_recovered_iff dockerOptions_documented rfl himage hspawn).mpr rfl⟩

/-- The container is to run `--`, with `sh` for an argument. -/
theorem command_behind_dashes :
    createContainer (webSpec (some "sh".toList)) =
        .ok { words := ["run"], args := webArgs ++ [own "--", given "sh".toList] } ∧
      (readRun (dockerOptions ["run"]) (webArgs ++ [own "--", given "sh".toList])).command =
        ["--".toList, "sh".toList] ∧
      readRun (dockerOptions ["run"]) (webArgs ++ [own "--", given "sh".toList]) ≠
        (webSpec (some "sh".toList)).asked := by
  decide

end ShellfleetAgent.Agent.Docker
