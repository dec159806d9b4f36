import McpTrust.Effects
import McpTrust.Python.Lines
import McpTrust.Python.JsonLoads
import McpTrust.Python.Utf8
import McpTrust.Python.Sha256
import McpTrust.Core.Patterns
import McpTrust.Engine.DockerCli

/-! # The Docker sandbox

`DockerSandbox` turns a launch command into a locked-down container, creates
that container itself, and removes it again. The Docker CLI is reached through a
runner that may answer anything and may raise anything; it is a function of the
whole trace, so no behaviour of the daemon is left out.
-/

namespace McpTrust.Engine

set_option autoImplicit false

open Python Effects Effects.Eff

/-! ## What can be raised -/

inductive Raised
  | cleanupError (message : String)
  | readbackError (message : String) (failedControls : List String)
  /-- `ScanError`; `about` is the reference the message quotes. -/
  | scanError (message : String) (about : Option Str)
  | scanTimeoutError (message : String) (about : Option Str) (hardTerminationEvidence : String)
  | timeoutExpired
  | timeoutError
  /-- `KeyboardInterrupt` and `SystemExit`. -/
  | interrupt
  | builtin (e : PyErr)
  deriving DecidableEq

namespace Raised

/-- `except (OSError, subprocess.TimeoutExpired)`; `TimeoutError` is an `OSError`. -/
def isRunnerFailure : Raised → Bool
  | timeoutExpired | timeoutError | builtin .osError => true
  | _ => false

def isCleanupError : Raised → Bool
  | cleanupError _ => true
  | _ => false

/-- `except (json.JSONDecodeError, TypeError)`. -/
def isUnreadableJson : Raised → Bool
  | builtin .jsonDecodeError | builtin .typeError => true
  | _ => false

/-- `except Exception`, which lets interrupts pass. -/
def isException : Raised → Bool
  | interrupt => false
  | _ => true

end Raised

/-! ## The sandbox object -/

/-- `normalize_local_docker_host(value)`. -/
def normalizeLocalDockerHost (value : Str) : Except PyErr Str :=
  if (u "unix:///").isPrefixOf value = false ∨ value ≠ strip value ∨
      value.any (fun c => decide (c.val ∈ [0, 10, 13]) || decide (c ∈ u "?#")) = true then
    .error .valueError
  else
    let socketPath := value.drop 7
    if socketPath.head? ≠ some (ch '/') ∨ socketPath = [] ∨ socketPath = u "/" then
      .error .valueError
    else .ok (u "unix://" ++ socketPath)

/-- An endpoint `__post_init__` has normalized. -/
def DockerHost : Type := { endpoint : Str // ∃ value, normalizeLocalDockerHost value = .ok endpoint }

structure DockerSandbox where
  image : Str := u "node:22-slim"
  network : Str := u "none"
  memory : Str := u "512m"
  pidsLimit : ℤ := 256
  cpus : Str := u "1"
  workdir : Str := u "/scan"
  tmpfsSize : Str := u "64m"
  tmpfsMode : Str := u "1777"
  host : Option DockerHost := none
  user : Option Str := some (u "1000:1000")
  env : List (Str × Str) := []
  ownerToken : Str
  containerId : Option Str := none
  serverProcessDigests : Option (List Str) := none

def scanOwnerLabel : Str := u "com.mcp-trust.scan-owner"

/-- `^[0-9a-f]{64}$`. -/
def isFullContainerId (s : Str) : Bool := isSha256 s

/-- `^[A-Za-z0-9][A-Za-z0-9._-]*$`. -/
def isBareExecutable : Str → Bool
  | [] => false
  | c :: rest => isAlnum c && rest.all fun d => isAlnum d || decide (d ∈ u "._-")

namespace DockerSandbox

variable (box : DockerSandbox)

def containerName : Str := u "mcp-trust-scan-" ++ box.ownerToken

def hostArgs : List Str :=
  match box.host with
  | some host => [u "--host", host.val]
  | none => []

def envArg (entry : Str × Str) : List Str := [u "--env", entry.1 ++ ch '=' :: entry.2]

/-- What `wrap` puts after `run --rm`. -/
def controlArgs : List Str :=
  [u "-i", u "--name", box.containerName, u "--label", scanOwnerLabel ++ ch '=' :: box.ownerToken,
    u "--network", box.network, u "--memory", box.memory, u "--memory-swap", box.memory,
    u "--pids-limit", intRepr box.pidsLimit, u "--cpus", box.cpus,
    u "--security-opt", u "no-new-privileges", u "--cap-drop", u "ALL", u "--read-only",
    u "--tmpfs", box.workdir ++ u ":rw,size=" ++ box.tmpfsSize ++ u ",mode=" ++ box.tmpfsMode,
    u "--workdir", box.workdir, u "--env", u "HOME=" ++ box.workdir,
    u "--env", u "TMPDIR=" ++ box.workdir]

/-- `if self.user`, which an empty string does not pass. -/
def userArgs : List Str :=
  match box.user with
  | some user => if user = [] then [] else [u "--user", user]
  | none => []

def wrap (command : Str) (args : List Str) : Str × List Str :=
  (u "docker", box.hostArgs ++ u "run" :: u "--rm" :: (box.controlArgs ++ box.userArgs ++
    box.env.flatMap envArg ++ box.image :: command :: args))

def dockerCommand (args : List Str) : List Str := u "docker" :: (box.hostArgs ++ args)

end DockerSandbox

/-- `run_args` rewritten to `container create`: the first `run` and the first `--rm` go. -/
def createArgs (runArgs : List Str) : Except PyErr (List Str) :=
  if u "run" ∈ runArgs then
    let runIndex := runArgs.idxOf (u "run")
    let created := runArgs.take runIndex ++ u "container" :: u "create" :: runArgs.drop (runIndex + 1)
    if u "--rm" ∈ created then .ok (created.erase (u "--rm")) else .error .valueError
  else .error .valueError

/-! ## The outside -/

inductive Transport
  | stdio (command : Str) (args : List Str)
  | http (url : Str)
  deriving DecidableEq

inductive Event
  /-- The runner is called with an argument vector. -/
  | invoke (argv : List Str)
  /-- The connector is called; over `stdio` it starts the command as a process. -/
  | connect (transport : Transport)
  deriving DecidableEq

inductive Reply
  | completed (returncode : ℤ) (stdout : Str)
  | raised (e : Raised)

inductive Connection
  | audit (status : Str)
  | missing
  | raised (e : Raised)

/-- Everything one scan meets outside the repository, at each point of the trace. -/
structure Host where
  environ : Str → Option Str
  dockerOnPath : Bool
  engineInstalled : Bool
  /-- The owner token `secrets.token_hex` gives a sandbox made in this scan. -/
  freshToken : Str
  runner : List Event → Reply
  /-- The text of the fixed probe that is executed inside the container. -/
  attestor : Str
  /-- Whether the readback deadline is still ahead, at each reading of the clock. -/
  timeLeft : Nat → Bool
  connector : List Event → Connection
  /-- What `ServerConnector(...)` raises, if it does. -/
  connectorRefused : Option Raised
  hasLifecycleHook : Bool
  /-- What `PermissionAnalyzer()` and `RiskScorer()` raise, if they do. -/
  pipelineRefused : Option Raised
  /-- What `ServerConfig(...)` raises, if it refuses its fields. -/
  configRefused : Option Raised
  /-- The readback's comparison of the three documents with the locked profile. -/
  readbackVerdict : List Event → Except Raised Json
  /-- What `analyzer`, `scorer` and the mapping of their results raise, if they do. -/
  analysisFailed : Option PyErr
  interp : Interpreter

structure World where
  box : DockerSandbox
  trace : List Event
  clockReadings : Nat

abbrev Scan (α : Type) := Eff World Raised α

def emit (event : Event) : Scan Unit := update fun w => { w with trace := w.trace ++ [event] }

def setBox (f : DockerSandbox → DockerSandbox) : Scan Unit := update fun w => { w with box := f w.box }

def currentBox : Scan DockerSandbox := fun w => (.ok w.box, w)

def clockAllows (host : Host) : Scan Bool := fun w =>
  (.ok (host.timeLeft w.clockReadings), { w with clockReadings := w.clockReadings + 1 })

def invoke (host : Host) (argv : List Str) : Scan (ℤ × Str) := do
  emit (.invoke argv)
  let w ← read
  match host.runner w.trace with
  | .completed returncode stdout => pure (returncode, stdout)
  | .raised e => raise e

/-- `try: x except handled: handler`. -/
def catching {α : Type} (x : Scan α) (handled : Raised → Bool) (handler : Scan α) : Scan α :=
  handle x fun e => if handled e then handler else raise e

def liftPy {α : Type} (x : Except PyErr α) : Scan α := lift (x.mapError .builtin)

/-! ## Readback and cleanup of the owned container -/

def cleanupQueryFailed : Raised :=
  .cleanupError "Docker cleanup readback could not query the bound daemon"

def ownedContainerIds (host : Host) : Scan (List Str) := do
  let box ← currentBox
  let (returncode, stdout) ← catching (invoke host (box.dockerCommand
      [u "container", u "ls", u "--all", u "--no-trunc", u "--filter",
        u "label=" ++ scanOwnerLabel ++ ch '=' :: box.ownerToken, u "--filter",
        u "name=^/" ++ box.containerName ++ u "$", u "--format", u "\x7b\x7b.ID\x7d\x7d"]))
    Raised.isRunnerFailure (raise cleanupQueryFailed)
  if returncode ≠ 0 then raise cleanupQueryFailed
  else
    let containerIds := strippedLines stdout
    if containerIds.length > 1 ∨ containerIds.any (fun id => !isFullContainerId id) = true then
      raise (.cleanupError "Docker cleanup readback returned an ambiguous owned-container identity")
    else pure containerIds

def cleanupInspectFailed : Raised :=
  .cleanupError "Docker cleanup could not inspect the owned scan container"

def cleanupAmbiguous : Raised :=
  .cleanupError "Docker cleanup inspection returned an ambiguous container identity"

/-- The labels `container["Config"]["Labels"]`, when both are objects. -/
def containerLabels (container : Dict) : Option Dict :=
  match Dict.get container "Config" with
  | .obj config =>
    match Dict.get config "Labels" with
    | .obj labels => some labels
    | _ => none
  | _ => none

def isOwnedContainer (box : DockerSandbox) (containerId : Str) (container : Dict) : Bool :=
  (match Dict.get container "Id" with | .str id => decide (id = containerId) | _ => false) &&
    (match Dict.get container "Name" with
      | .str name => decide (name = ch '/' :: box.containerName) | _ => false) &&
    match containerLabels container with
    | some labels =>
      match (Dict.lookup labels scanOwnerLabel).getD .null with
      | .str token => decide (token = box.ownerToken)
      | _ => false
    | none => false

def verifyOwnedContainerIdentity (host : Host) (containerId : Str) : Scan Unit := do
  let box ← currentBox
  let (returncode, stdout) ← catching
    (invoke host (box.dockerCommand [u "container", u "inspect", containerId]))
    Raised.isRunnerFailure (raise cleanupInspectFailed)
  if returncode ≠ 0 then raise cleanupInspectFailed
  else do
    let payload ← catching (liftPy (jsonLoads host.interp stdout)) Raised.isUnreadableJson
      (raise cleanupAmbiguous)
    match payload with
    | .arr [.obj container] =>
      if isOwnedContainer box containerId container then pure ()
      else raise (.cleanupError
        "Docker cleanup inspection did not match the owned container identity")
    | _ => raise cleanupAmbiguous

def removeFailed : Raised := .cleanupError "Docker could not force-remove the owned scan container"

def removeOwnedContainer (host : Host) (containerId : Str) : Scan Unit := do
  verifyOwnedContainerIdentity host containerId
  let box ← currentBox
  let (returncode, _) ← catching
    (invoke host (box.dockerCommand [u "container", u "rm", u "--force", containerId]))
    Raised.isRunnerFailure (raise removeFailed)
  if returncode ≠ 0 then raise removeFailed else pure ()

/-- What `cleanup_owned_container` does about the identifiers the daemon listed. -/
def removeListed (host : Host) (containerIds : List Str) : Scan Unit := do
  let box ← currentBox
  match containerIds with
  | [] => pure ()
  | containerId :: _ =>
    if box.containerId ≠ none ∧ some containerId ≠ box.containerId then
      raise (.cleanupError "Docker cleanup readback did not match the prepared container ID")
    else removeOwnedContainer host containerId

def absenceVerified : String := "CONTAINER_ABSENCE_VERIFIED"

def cleanupOwnedContainer (host : Host) : Scan String := do
  let containerIds ← ownedContainerIds host
  removeListed host containerIds
  let remaining ← ownedContainerIds host
  if remaining ≠ [] then
    raise (.cleanupError "Docker owned scan container remained after forced cleanup")
  else do
    setBox fun box => { box with containerId := none, serverProcessDigests := none }
    pure absenceVerified

/-! ## Creating the owned container -/

def commandLineBytes (command : Str) (args : List Str) : Except PyErr Bytes := do
  let items ← (command :: args).mapM encodeUtf8
  .ok (items.flatMap fun item => item ++ [0])

def sha256Text (bytes : Bytes) : Str := u "sha256:" ++ sha256Hex bytes

def consoleScriptDirectory : Str := u "/opt/venv/bin"

/-- `sandbox_server_process_digests(command, args, …)`. -/
def serverProcessDigests (command : Str) (args : List Str) (allowPythonConsoleScript : Bool)
    (allowedProcessTitle : Option Str) : Except Raised (List Str) := do
  let encoded ← (commandLineBytes command args).mapError .builtin
  let consoleScript ←
    if allowPythonConsoleScript ∧ isBareExecutable command = true then do
      let bytes ← (commandLineBytes (consoleScriptDirectory ++ u "/python")
        ((consoleScriptDirectory ++ ch '/' :: command) :: args)).mapError .builtin
      .ok [sha256Text bytes]
    else .ok []
  let rewritten ←
    match allowedProcessTitle with
    | none => .ok []
    | some title => do
      let bytes ← (encodeUtf8 title).mapError .builtin
      if isBareExecutable title = false ∨ bytes.length > encoded.length then
        .error (.readbackError "allowed server process title is invalid" [])
      else .ok [sha256Text (bytes ++ List.replicate (encoded.length - bytes.length) 0)]
  .ok (sha256Text encoded :: consoleScript ++ rewritten)

/-- `for _ in range(polls): cleanup(); sleep()`. -/
def settle (host : Host) : Nat → Scan Unit
  | 0 => pure ()
  | polls + 1 => do
    let _ ← cleanupOwnedContainer host
    settle host polls

def createSettlePolls : Nat := 20

/-- The handler of a create command that did not finish: the daemon may still act on it. -/
def createFailed (host : Host) : Scan (ℤ × Str) := do
  catching (do settle host createSettlePolls; let _ ← cleanupOwnedContainer host; pure ())
    Raised.isCleanupError
    (raise (.cleanupError "Docker create failed and cleanup could not prove the uniquely owned scan container absent"))
  raise (.cleanupError "Docker could not create the uniquely owned scan container")

/-- A failed command can still have created a container. -/
def createRefused (host : Host) : Scan (Str × List Str) := do
  let _ ← cleanupOwnedContainer host
  raise (.cleanupError "Docker did not return one immutable scan container ID")

def startArgs (containerId : Str) : List Str :=
  [u "container", u "start", u "--attach", u "--interactive", containerId]

/-- `prepare_owned_container(…)`: what the connector is to launch. -/
def prepareOwnedContainer (host : Host) (command : Str) (args : List Str)
    (allowPythonConsoleScript : Bool) (allowedProcessTitle : Option Str) :
    Scan (Str × List Str) := do
  let box ← currentBox
  if box.containerId ≠ none then
    raise (.cleanupError "Docker scan container is already prepared")
  else do
    let (dockerCommand, runArgs) := box.wrap command args
    let create ← liftPy (createArgs runArgs)
    let (returncode, stdout) ← catching (invoke host (dockerCommand :: create))
      Raised.isRunnerFailure (createFailed host)
    match returncode, strippedLines stdout with
    | 0, [containerId] =>
      if isFullContainerId containerId then do
        setBox fun box => { box with containerId := some containerId }
        let digests ← lift
          (serverProcessDigests command args allowPythonConsoleScript allowedProcessTitle)
        setBox fun box => { box with serverProcessDigests := some digests }
        pure (dockerCommand, (box.dockerCommand (startArgs containerId)).tail)
      else createRefused host
    | _, _ => createRefused host
/-! ## Readback of the running container -/

def readbackError (message : String) : Raised := .readbackError message []

/-- `_runtime_command(…)`, refused once the deadline has passed. -/
def runtimeCommand (host : Host) (args : List Str) : Scan (ℤ × Str) := do
  let allowed ← clockAllows host
  if allowed = false then
    raise (readbackError "Docker runtime readback exceeded its bounded deadline")
  else do
    let box ← currentBox
    catching (invoke host (box.dockerCommand args)) Raised.isRunnerFailure
      (raise (readbackError "Docker runtime readback command did not complete"))

/-- `_one_json_object(completed)`. -/
def oneJsonObject (host : Host) (completed : ℤ × Str) : Scan Dict := do
  if completed.1 ≠ 0 then raise (readbackError "Docker runtime readback failed")
  else do
    let payload ← catching (liftPy (jsonLoads host.interp completed.2)) Raised.isUnreadableJson
      (raise (readbackError "Docker runtime readback returned invalid JSON"))
    match payload with
    | .arr [.obj fields] => pure fields
    | _ => raise (readbackError "Docker runtime readback returned an ambiguous object")

def isRunning (container : Dict) : Bool :=
  match Dict.get container "State" with
  | .obj state => match Dict.get state "Running" with | .bool running => running | _ => false
  | _ => false

def pollOnce (host : Host) (containerId : Str) : Scan (Option Dict) := do
  let inspected ← runtimeCommand host [u "container", u "inspect", containerId]
  if inspected.1 = 0 then do
    let fields ← oneJsonObject host inspected
    pure (if isRunning fields then some fields else none)
  else pure none

/-- The polls for the container in its running state. -/
def pollRunning (host : Host) (containerId : Str) : Nat → Scan (Option Dict)
  | 0 => pure none
  | polls + 1 => do
    let candidate ← pollOnce host containerId
    match candidate with
    | some container => pure (some container)
    | none => do
      let allowed ← clockAllows host
      if allowed = false then pure none else pollRunning host containerId polls

def runtimeReadbackPolls : Nat := 50

def attestorExecutable : Str := u "/opt/venv/bin/python"

def judgeReadback (host : Host) : Scan Json := fun w => (host.readbackVerdict w.trace, w)

/-- The probe in the container, and the verdict over everything read so far. -/
def attestInContainer (host : Host) (containerId user workdir : Str) : Scan Json := do
  let attested ← runtimeCommand host
    [u "container", u "exec", u "--user", user, u "--workdir", u "/", containerId,
      attestorExecutable, u "-I", u "-c", host.attestor, workdir]
  if attested.1 ≠ 0 then raise (readbackError "Docker in-container runtime attestor failed")
  else do
    let process ← catching (liftPy (jsonLoads host.interp attested.2)) Raised.isUnreadableJson
      (raise (readbackError "Docker in-container runtime attestor returned invalid JSON"))
    match process with
    | .obj _ => judgeReadback host
    | _ => raise (readbackError "Docker in-container runtime attestor returned an invalid object")

def captureRuntimeReadback (host : Host) : Scan Json := do
  let box ← currentBox
  match box.containerId with
  | none => raise (readbackError "Docker runtime readback has no prepared immutable container")
  | some containerId =>
    if isFullContainerId containerId = false then
      raise (readbackError "Docker runtime readback has no prepared immutable container")
    else do
      let container ← pollRunning host containerId runtimeReadbackPolls
      match container with
      | none =>
        raise (readbackError "Docker runtime readback never observed the exact container running")
      | some _ => do
        let inspected ← runtimeCommand host [u "image", u "inspect", box.image]
        let _ ← oneJsonObject host inspected
        match box.user with
        | none => raise (readbackError
            "Docker in-container runtime attestor requires the configured target user")
        | some user => attestInContainer host containerId user box.workdir

end McpTrust.Engine
