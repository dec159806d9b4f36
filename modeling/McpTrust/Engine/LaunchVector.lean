import McpTrust.Engine.DockerCli
import McpTrust.Engine.Scan
import McpTrust.Core.HistoryViews

/-! # The argument vector of a container

`prepare_owned_container` rewrites the vector of `wrap`. The Docker CLI reads the
result back as the options of the sandbox, the image, the command and its
arguments, provided the image is not itself read as an option.
-/

namespace McpTrust.Engine

set_option autoImplicit false

open Python OptionGrammar DockerCli

/-- The controls a sandbox has unless its caller overrides them. -/
structure DefaultControls (box : DockerSandbox) : Prop where
  network : box.network = u "none"
  memory : box.memory = u "512m"
  pidsLimit : box.pidsLimit = 256
  cpus : box.cpus = u "1"
  workdir : box.workdir = u "/scan"
  tmpfsSize : box.tmpfsSize = u "64m"
  tmpfsMode : box.tmpfsMode = u "1777"
  user : box.user = some (u "1000:1000")

/-- Options through which a container reaches the host. -/
def exposingOptions : List String :=
  ["-v", "--volume", "--mount", "--volumes-from", "--volume-driver", "--privileged", "--device",
    "--device-cgroup-rule", "--cap-add", "--gpus", "--env-file", "-e", "-u", "-m", "--net",
    "--pid", "--ipc", "--uts", "--userns", "--cgroupns", "--cgroup-parent", "--runtime"]

/-- What a `docker container create` vector is read as. -/
structure Confined (line : CommandLine) : Prop where
  networkNone : line.valuesOf "--network" = [some (u "none")]
  readOnlyRoot : line.uses "--read-only"
  capabilitiesDropped : line.valuesOf "--cap-drop" = [some (u "ALL")]
  noNewPrivileges : line.valuesOf "--security-opt" = [some (u "no-new-privileges")]
  memoryLimit : line.valuesOf "--memory" = [some (u "512m")]
  swapLimit : line.valuesOf "--memory-swap" = [some (u "512m")]
  pidsLimit : line.valuesOf "--pids-limit" = [some (u "256")]
  cpuLimit : line.valuesOf "--cpus" = [some (u "1")]
  nonRootUser : line.valuesOf "--user" = [some (u "1000:1000")]
  unexposed : ∀ name ∈ exposingOptions, ¬line.uses name

/-- `argv` creates a confined container of `image` that runs `command` with `args`, its
environment extended by `env` and nothing else. -/
structure ConfinedCreate (image command : Str) (args : List Str) (env : List (Str × Str))
    (argv : List Str) : Prop where
  readAs : ∃ line, parseCreate argv = some line ∧ Confined line ∧
    line.positionals = image :: command :: args ∧
    line.valuesOf "--env" = env.map fun entry => some (entry.1 ++ ch '=' :: entry.2)

/-! ## Rewriting `run` to `container create` -/

theorem normalizeLocalDockerHost_scheme {value endpoint : Str}
    (h : normalizeLocalDockerHost value = .ok endpoint) : ∃ path, endpoint = u "unix://" ++ path := by
  unfold normalizeLocalDockerHost at h
  split at h
  · cases h
  · dsimp only at h
    split at h
    · cases h
    · cases h
      exact ⟨_, rfl⟩

theorem DockerHost.head (host : DockerHost) : host.val.head? = some (ch 'u') := by
  obtain ⟨endpoint, value, h⟩ := host
  obtain ⟨path, rfl⟩ := normalizeLocalDockerHost_scheme h
  rfl

namespace DockerSandbox

variable (box : DockerSandbox)

theorem not_mem_hostArgs {word : String} (hword : (u word).head? ≠ some (ch 'u'))
    (hne : word ≠ "--host") : u word ∉ box.hostArgs := by
  unfold hostArgs
  cases hhost : box.host with
  | none => simp
  | some host =>
    simp only [List.mem_cons, List.not_mem_nil, or_false, not_or, u_inj]
    refine ⟨hne, fun h => hword ?_⟩
    rw [h]
    exact host.head

/-- What follows `container create`. -/
def createTail (command : Str) (args : List Str) : List Str :=
  box.controlArgs ++ box.userArgs ++ box.env.flatMap envArg ++ box.image :: command :: args

theorem wrap_eq (command : Str) (args : List Str) : box.wrap command args =
    (u "docker", box.hostArgs ++ u "run" :: u "--rm" :: box.createTail command args) := rfl

end DockerSandbox

theorem createArgs_wrap (box : DockerSandbox) (command : Str) (args : List Str) :
    createArgs (box.wrap command args).2 =
      .ok (box.hostArgs ++ u "container" :: u "create" :: box.createTail command args) := by
  have hrun : u "run" ∉ box.hostArgs := box.not_mem_hostArgs (by decide) (by decide)
  have hrm : u "--rm" ∉ box.hostArgs := box.not_mem_hostArgs (by decide) (by decide)
  have hindex : (box.hostArgs ++ u "run" :: u "--rm" :: box.createTail command args).idxOf (u "run") =
      box.hostArgs.length := by
    rw [List.idxOf_append_of_notMem hrun, List.idxOf_cons_self, Nat.add_zero]
  rw [DockerSandbox.wrap_eq]
  unfold createArgs
  rw [if_pos (by simp)]
  simp only [hindex, List.take_left', List.drop_append]
  have hdrop : (u "run" :: u "--rm" :: box.createTail command args).drop
      (box.hostArgs.length + 1 - box.hostArgs.length) = u "--rm" :: box.createTail command args := by
    rw [Nat.add_sub_cancel_left, List.drop_one, List.tail_cons]
  rw [List.drop_eq_nil_of_le (Nat.le_succ _), List.nil_append, hdrop, if_pos (by simp),
    List.erase_append_right _ hrm, List.erase_cons_tail (by simp), List.erase_cons_tail (by simp),
    List.erase_cons_head]

/-! ## Reading the vector back -/

namespace DockerSandbox

variable (box : DockerSandbox)

def controlOptions : List (Str × Option Str) :=
  [(u "-i", none), (u "--name", some box.containerName),
    (u "--label", some (scanOwnerLabel ++ ch '=' :: box.ownerToken)),
    (u "--network", some box.network), (u "--memory", some box.memory),
    (u "--memory-swap", some box.memory), (u "--pids-limit", some (intRepr box.pidsLimit)),
    (u "--cpus", some box.cpus), (u "--security-opt", some (u "no-new-privileges")),
    (u "--cap-drop", some (u "ALL")), (u "--read-only", none),
    (u "--tmpfs", some (box.workdir ++ u ":rw,size=" ++ box.tmpfsSize ++ u ",mode=" ++ box.tmpfsMode)),
    (u "--workdir", some box.workdir), (u "--env", some (u "HOME=" ++ box.workdir)),
    (u "--env", some (u "TMPDIR=" ++ box.workdir)), (u "--user", some (u "1000:1000"))]

def envOptions (env : List (Str × Str)) : List (Str × Option Str) :=
  env.map fun entry => (u "--env", some (entry.1 ++ ch '=' :: entry.2))

theorem render_envOptions (env : List (Str × Str)) : render (envOptions env) = env.flatMap envArg := by
  induction env with
  | nil => rfl
  | cons entry env ih => exact congrArg (fun tail => envArg entry ++ tail) ih

theorem createTail_eq {box : DockerSandbox} (huser : box.user = some (u "1000:1000")) (command : Str)
    (args : List Str) : box.createTail command args =
      render (box.controlOptions ++ envOptions box.env) ++ box.image :: command :: args := by
  have huserArgs : box.userArgs = [u "--user", u "1000:1000"] := by
    unfold userArgs
    rw [huser]
    exact if_neg (by decide)
  rw [render_append, render_envOptions, createTail, huserArgs]
  rfl

end DockerSandbox

theorem readable_valued {name : String} (hdash : beginsWithDash (u name) = true)
    (hattached : attachedValue (u name) = none)
    (hswitch : isOneOf createSwitches (u name) = false) (value : Str) :
    Readable (isOneOf createSwitches) (u name, some value) := ⟨hdash, hattached, hswitch⟩

theorem controlOptions_readable (box : DockerSandbox) :
    ∀ option ∈ box.controlOptions, Readable (isOneOf createSwitches) option := by
  unfold DockerSandbox.controlOptions
  simp only [List.forall_mem_cons, List.not_mem_nil, false_imp_iff, implies_true, and_true]
  refine ⟨⟨by decide, by decide, by decide⟩, ?_, ?_, ?_, ?_, ?_, ?_, ?_, ?_, ?_,
    ⟨by decide, by decide, by decide⟩, ?_, ?_, ?_, ?_, ?_⟩
  all_goals exact readable_valued (by decide) (by decide) (by decide) _

theorem envOptions_readable (env : List (Str × Str)) :
    ∀ option ∈ DockerSandbox.envOptions env, Readable (isOneOf createSwitches) option := by
  intro option hoption
  obtain ⟨entry, -, rfl⟩ := List.mem_map.mp hoption
  exact readable_valued (by decide) (by decide) (by decide) _

/-- The vector is read as the sandbox wrote it when the image does not begin with a dash. -/
theorem parseCreate_createTail {box : DockerSandbox} (huser : box.user = some (u "1000:1000"))
    (himage : beginsWithDash box.image = false) (command : Str) (args : List Str) :
    parseCreate (u "docker" :: (box.hostArgs ++ u "container" :: u "create" ::
      box.createTail command args)) =
      some ⟨box.controlOptions ++ DockerSandbox.envOptions box.env, box.image :: command :: args⟩ := by
  have hverb : ∀ tail, parse (isOneOf globalSwitches) (u "container" :: tail) =
      some ⟨[], u "container" :: tail⟩ := fun tail => parse_positional (by decide)
  have hglobal : ∀ tail, ∃ options, parse (isOneOf globalSwitches)
      (box.hostArgs ++ u "container" :: tail) = some ⟨options, u "container" :: tail⟩ := by
    intro tail
    unfold DockerSandbox.hostArgs
    cases box.host with
    | none => exact ⟨[], hverb tail⟩
    | some host =>
      refine ⟨[(u "--host", some host.val)], ?_⟩
      rw [List.cons_append, List.cons_append, List.nil_append,
        parse_valued (by decide) (by decide) (by decide), hverb tail]
      rfl
  have hcreate : parse (isOneOf createSwitches) (box.createTail command args) =
      some ⟨box.controlOptions ++ DockerSandbox.envOptions box.env, box.image :: command :: args⟩ := by
    rw [DockerSandbox.createTail_eq huser]
    have hreadable : ∀ option ∈ box.controlOptions ++ DockerSandbox.envOptions box.env,
        Readable (isOneOf createSwitches) option := by
      intro option hoption
      obtain h | h := List.mem_append.mp hoption
      · exact controlOptions_readable box option h
      · exact envOptions_readable box.env option h
    rw [parse_render hreadable (parse_positional himage), List.append_nil]
  obtain ⟨options, hoptions⟩ := hglobal (u "create" :: box.createTail command args)
  unfold parseCreate
  simp [hoptions, hcreate]

/-! ## The controls of the vector -/

section Controls

variable {box : DockerSandbox}

theorem envOptions_filter {name : String} (hname : name ≠ "--env") (env : List (Str × Str)) :
    (DockerSandbox.envOptions env).filter (fun o => decide (o.1 = u name)) = [] := by
  apply List.filter_eq_nil_iff.mpr
  intro option hoption
  obtain ⟨entry, -, rfl⟩ := List.mem_map.mp hoption
  simp [Ne.symm hname]

theorem valuesOf_control {name : String} (hname : name ≠ "--env") (positionals : List Str) :
    CommandLine.valuesOf ⟨box.controlOptions ++ DockerSandbox.envOptions box.env, positionals⟩ name =
      (box.controlOptions.filter fun o => decide (o.1 = u name)).map Prod.snd := by
  rw [CommandLine.valuesOf, List.filter_append, envOptions_filter hname, List.append_nil]

theorem valuesOf_env (positionals : List Str) :
    CommandLine.valuesOf ⟨box.controlOptions ++ DockerSandbox.envOptions box.env, positionals⟩ "--env" =
      (((u "HOME", box.workdir) :: (u "TMPDIR", box.workdir) :: box.env).map fun entry =>
        some (entry.1 ++ ch '=' :: entry.2)) := by
  have henv : (DockerSandbox.envOptions box.env).filter (fun o => decide (o.1 = u "--env")) =
      DockerSandbox.envOptions box.env := by
    apply List.filter_eq_self.mpr
    intro option hoption
    obtain ⟨entry, -, rfl⟩ := List.mem_map.mp hoption
    simp
  rw [CommandLine.valuesOf, List.filter_append, henv]
  simp [DockerSandbox.controlOptions, DockerSandbox.envOptions, Function.comp_def]
  constructor <;> rfl

/-- The names of the options `wrap` writes. -/
def writtenOptions : List String :=
  ["-i", "--name", "--label", "--network", "--memory", "--memory-swap", "--pids-limit", "--cpus",
    "--security-opt", "--cap-drop", "--read-only", "--tmpfs", "--workdir", "--env", "--env", "--user"]

theorem controlOptions_names : box.controlOptions.map Prod.fst = writtenOptions.map u := rfl

theorem mem_writtenOptions (positionals : List Str) {name : String}
    (huses : CommandLine.uses ⟨box.controlOptions ++ DockerSandbox.envOptions box.env, positionals⟩ name) :
    name ∈ writtenOptions := by
  obtain ⟨option, hoption, hname⟩ := huses
  have hwritten : option.1 ∈ writtenOptions.map u := by
    obtain h | h := List.mem_append.mp hoption
    · rw [← controlOptions_names]
      exact List.mem_map_of_mem h
    · obtain ⟨entry, -, rfl⟩ := List.mem_map.mp h
      have henv : "--env" ∈ writtenOptions := by decide
      exact List.mem_map_of_mem henv
  rw [hname] at hwritten
  obtain ⟨written, hmem, heq⟩ := List.mem_map.mp hwritten
  rw [← u_inj.mp heq]
  exact hmem

theorem confined_controls (hdefault : DefaultControls box) (positionals : List Str) :
    Confined ⟨box.controlOptions ++ DockerSandbox.envOptions box.env, positionals⟩ where
  networkNone := by
    rw [valuesOf_control (by decide)]
    simp [DockerSandbox.controlOptions, hdefault.network]
  readOnlyRoot := ⟨(u "--read-only", none), by simp [DockerSandbox.controlOptions], rfl⟩
  capabilitiesDropped := by
    rw [valuesOf_control (by decide)]
    simp [DockerSandbox.controlOptions]
  noNewPrivileges := by
    rw [valuesOf_control (by decide)]
    simp [DockerSandbox.controlOptions]
  memoryLimit := by
    rw [valuesOf_control (by decide)]
    simp [DockerSandbox.controlOptions, hdefault.memory]
  swapLimit := by
    rw [valuesOf_control (by decide)]
    simp [DockerSandbox.controlOptions, hdefault.memory]
  pidsLimit := by
    have hpids : intRepr 256 = u "256" := by decide
    rw [valuesOf_control (by decide)]
    simp [DockerSandbox.controlOptions, hdefault.pidsLimit, hpids]
  cpuLimit := by
    rw [valuesOf_control (by decide)]
    simp [DockerSandbox.controlOptions, hdefault.cpus]
  nonRootUser := by
    rw [valuesOf_control (by decide)]
    simp [DockerSandbox.controlOptions]
  unexposed := by
    intro name hname huses
    have hnone : ∀ name ∈ exposingOptions, name ∉ writtenOptions := by decide
    exact hnone name hname (mem_writtenOptions positionals huses)

end Controls

/-- What a sandbox with default controls creates is confined. -/
theorem confinedCreate_wrap {box : DockerSandbox} (hdefault : DefaultControls box)
    (himage : beginsWithDash box.image = false) (command : Str) (args create : List Str)
    (hcreate : createArgs (box.wrap command args).2 = .ok create) :
    ConfinedCreate box.image command args
      ((u "HOME", u "/scan") :: (u "TMPDIR", u "/scan") :: box.env) (u "docker" :: create) := by
  rw [createArgs_wrap] at hcreate
  cases hcreate
  refine ⟨_, parseCreate_createTail hdefault.user himage command args, confined_controls hdefault _,
    rfl, ?_⟩
  rw [valuesOf_env, hdefault.workdir]

end McpTrust.Engine
