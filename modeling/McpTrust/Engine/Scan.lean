import McpTrust.Engine.Sandbox

/-! # The scan

`MCPAuditEngine.scan`: sandbox resolution with its fail-closed gate, dummy
credentials, the launch command, and the connector between the creation and the
removal of the container. The `mcp-audits` pipeline is outside; what it answers
or raises is part of the host.
-/

namespace McpTrust.Engine

set_option autoImplicit false

open Python Effects Effects.Eff

/-! ## Sources -/

inductive SourceKind
  | npm
  | pypi
  | git
  | binary
  | remote
  deriving DecidableEq

def SourceKind.text : SourceKind → String
  | npm => "npm"
  | pypi => "pypi"
  | git => "git"
  | binary => "binary"
  | remote => "remote"

structure ServerSource where
  kind : SourceKind
  reference : Str
  command : Option Str := none
  args : List Str := []
  envKeys : List Str := []
  sandboxImage : Option Str := none
  trusted : Bool := false
  envKeys_names : ∀ key ∈ envKeys, key.length ≤ 128 ∧ isCredentialName key = true
  envKeys_nodup : envKeys.Nodup

namespace ServerSource

theorem noKeys_names : ∀ key ∈ ([] : List Str), key.length ≤ 128 ∧ isCredentialName key = true := by
  intro key hkey
  cases hkey

theorem noKeys_nodup : ([] : List Str).Nodup := List.nodup_nil

variable (source : ServerSource)

/-- `source.command`, if it is not empty. -/
def givenCommand : Option Str := source.command.filter fun command => decide (command ≠ [])

def launchesLocalProcess : Bool :=
  !(decide (source.kind = .remote) && decide (source.givenCommand = none))

/-- `launch_spec(source)`. -/
def launchSpec : Except Raised (Str × List Str) :=
  match source.givenCommand with
  | some command => .ok (command, source.args)
  | none =>
    match source.kind with
    | .npm => .ok (u "npx", u "-y" :: source.reference :: source.args)
    | .pypi => .ok (u "uvx", source.reference :: source.args)
    | .binary => .ok (source.reference, source.args)
    | .git | .remote =>
      .error (.scanError "Cannot infer a launch command; set an explicit `command` on the source."
        (some source.reference))

end ServerSource

/-- The console script each reviewed npm package installs. -/
def npmConsoleScriptBindings : List (String × String) :=
  [("@adeu/mcp-server", "adeu-mcp-server"), ("@discourse/mcp", "discourse-mcp"),
    ("@kage-core/kage-graph-mcp", "kage-graph-mcp"),
    ("@modelcontextprotocol/server-everything", "mcp-server-everything"),
    ("@modelcontextprotocol/server-filesystem", "mcp-server-filesystem"),
    ("@modelcontextprotocol/server-memory", "mcp-server-memory"),
    ("@modelcontextprotocol/server-sequential-thinking", "mcp-server-sequential-thinking"),
    ("@pulsemcp/image-diff-mcp-server", "image-diff-mcp-server"),
    ("@playwright/mcp", "playwright-mcp"),
    ("@swins/intent-engineering-mcp", "intent-engineering-mcp"),
    ("@ui5/webcomponents-react-mcp", "ui5-wcr-mcp"), ("@nvidia-elements/cli", "nve"),
    ("mythsensus-mcp", "mythsensus-mcp"), ("raven-mcp", "raven-mcp"),
    ("redacta-mcp", "redacta-mcp"), ("chrome-devtools-mcp", "chrome-devtools-mcp"),
    ("sovereign-ai-act-mcp", "sovereign-ai-act-mcp")]

def npmProcessTitleBindings : List (String × String) :=
  [("chrome-devtools-mcp", "chrome-devtools-mcp")]

def bindingOf (bindings : List (String × String)) (reference : Str) : Option Str :=
  (bindings.find? fun binding => decide (u binding.1 = reference)).map fun binding => u binding.2

def npmConsoleScriptInterpreter : Str := u "/usr/local/bin/node"

def npmConsoleScriptDirectory : Str := u "/opt/npm/node_modules/.bin"

namespace ServerSource

variable (source : ServerSource)

/-- `docker_launch_spec(source)`: a reviewed npm console script runs under Node itself. -/
def dockerLaunchSpec : Except Raised (Str × List Str) := do
  let (command, args) ← source.launchSpec
  if source.kind ≠ .npm ∨ source.command = none then .ok (command, args)
  else
    match bindingOf npmConsoleScriptBindings source.reference with
    | none => .ok (command, args)
    | some script =>
      if script ≠ command then
        .error (.scanError "The npm source and console-script command are not qualified" none)
      else if isBareExecutable command = false then
        .error (.scanError "An npm console-script command must be one bare executable name" none)
      else .ok (npmConsoleScriptInterpreter, (npmConsoleScriptDirectory ++ ch '/' :: command) :: args)

/-- `docker_process_title(source)`. -/
def dockerProcessTitle : Except Raised (Option Str) :=
  if source.kind ≠ .npm ∨ source.command = none then .ok none
  else
    match bindingOf npmProcessTitleBindings source.reference with
    | none => .ok none
    | some title =>
      if bindingOf npmConsoleScriptBindings source.reference ≠ source.command ∨
          some title ≠ source.command then
        .error (.scanError "The npm process-title binding is not qualified" none)
      else .ok (some title)

end ServerSource

/-! ## Dummy credentials -/

def fakePayload : Str := List.replicate 40 (ch '0')

def typedPrefixes : List (String × String) :=
  [("GITHUB", "ghp_"), ("GITLAB", "glpat-"), ("SLACK", "xoxb-"), ("ANTHROPIC", "sk-ant-"),
    ("OPENAI", "sk-"), ("STRIPE", "sk_test_")]

/-- `_dummy_value(env_key)`; a valid key is ASCII. -/
def dummyValue (envKey : Str) : Str :=
  match typedPrefixes.find? fun typed => isInfix (u typed.1) (upperAscii envKey) with
  | some typed => u typed.2 ++ fakePayload
  | none => u "mcp-trust-dummy-" ++ fakePayload

/-- `build_dummy_env(env_keys)`; the keys of a source are distinct. -/
def buildDummyEnv (envKeys : List Str) : List (Str × Str) :=
  (envKeys.filter fun key => decide (key ≠ [])).map fun key => (key, dummyValue key)

/-! ## Sandbox resolution -/

/-- The kind of a sandbox; the state of a Docker sandbox is the world's `box`. -/
inductive Sandbox
  | noSandbox
  | docker
  | custom (isolates available : Bool) (wrap : Str → List Str → Str × List Str)

namespace Sandbox

def isolates : Sandbox → Bool
  | noSandbox => false
  | docker => true
  | custom isolates _ _ => isolates

def isDocker : Sandbox → Bool
  | docker => true
  | _ => false

def available (host : Host) : Sandbox → Bool
  | noSandbox => true
  | docker => host.dockerOnPath
  | custom _ available _ => available

end Sandbox

/-- An engine built with a sandbox, or one that selects a sandbox for each scan. -/
structure MCPAuditEngine where
  sandbox : Option Sandbox

def environGet (host : Host) (name default : String) : Str := (host.environ (u name)).getD (u default)

/-- `effective_docker_image(source_image)`. -/
def effectiveDockerImage (host : Host) (sourceImage : Option Str) : Str :=
  (sourceImage.filter fun image => decide (image ≠ [])).getD
    (environGet host "MCP_TRUST_SANDBOX_IMAGE" "node:22-slim")

/-- The endpoint `DockerSandbox(host=…)` keeps. -/
def dockerHostOf (value : Option Str) : Except PyErr (Option DockerHost) :=
  match value.filter fun endpoint => decide (endpoint ≠ []) with
  | none => .ok none
  | some endpoint =>
    match hnormal : normalizeLocalDockerHost endpoint with
    | .ok normal => .ok (some ⟨normal, endpoint, hnormal⟩)
    | .error e => .error e

/-- `select_sandbox(image=image)`; a Docker sandbox is made anew. -/
def selectSandbox (host : Host) (image : Option Str) : Scan Sandbox := do
  let resolved := lower (environGet host "MCP_TRUST_SANDBOX" "none")
  if resolved = u "none" then pure .noSandbox
  else if resolved = u "docker" then do
    let endpoint ← liftPy (dockerHostOf (host.environ (u "MCP_TRUST_DOCKER_HOST")))
    setBox fun _ =>
      { image := effectiveDockerImage host image
        network := environGet host "MCP_TRUST_SANDBOX_NETWORK" "none"
        host := endpoint
        ownerToken := host.freshToken }
    pure .docker
  else raise (.builtin .valueError)

def chosenSandbox (host : Host) (engine : MCPAuditEngine) (source : ServerSource) : Scan Sandbox :=
  match engine.sandbox with
  | some sandbox => pure sandbox
  | none => selectSandbox host source.sandboxImage

/-- `_resolve_sandbox(source)`. -/
def resolveSandbox (host : Host) (engine : MCPAuditEngine) (source : ServerSource) :
    Scan Sandbox := do
  let sandbox ← chosenSandbox host engine source
  if source.launchesLocalProcess ∧ sandbox.isolates = false ∧ source.trusted = false then
    raise (.scanError "Refusing to scan untrusted source without a sandbox" (some source.reference))
  else if source.launchesLocalProcess ∧ sandbox.isolates = true ∧ sandbox.isDocker = false then
    raise (.scanError "Refusing an isolating sandbox without the repository-owned container lifecycle contract."
      none)
  else pure sandbox

def credentialsMode (host : Host) : Str := lower (environGet host "MCP_TRUST_SCAN_CREDENTIALS" "none")

def resetCredentials (sandbox : Sandbox) : Scan Unit :=
  if sandbox.isDocker then setBox fun box => { box with env := [] } else pure ()

/-- `_apply_dummy_credentials(sandbox, source)`; a reused sandbox is reset first. -/
def applyDummyCredentials (host : Host) (sandbox : Sandbox) (source : ServerSource) :
    Scan Unit := do
  resetCredentials sandbox
  if credentialsMode host ≠ u "dummy" ∨ source.envKeys = [] then pure ()
  else if source.kind = .remote then
    raise (.scanError "credentialed scan applies to sandboxed stdio servers only" none)
  else if sandbox.isDocker = false then
    raise (.scanError "credentialed scan requires the docker sandbox" none)
  else do
    let box ← currentBox
    if box.network ≠ u "none" then raise (.scanError "credentialed scan requires network-off" none)
    else setBox fun box => { box with env := buildDummyEnv source.envKeys }

/-! ## The scan -/

/-- A Docker container is prepared for every source that launches a process. -/
def ownsContainer (sandbox : Sandbox) (source : ServerSource) : Bool :=
  source.launchesLocalProcess && sandbox.isDocker

def prepareLaunch (host : Host) (sandbox : Sandbox) (source : ServerSource) :
    Scan (Option (Str × List Str)) := do
  if ownsContainer sandbox source then do
    let (command, args) ← lift source.dockerLaunchSpec
    let title ← lift source.dockerProcessTitle
    let prepared ← catching
      (prepareOwnedContainer host command args
        (decide (source.kind = .pypi) && decide (source.command ≠ none)) title)
      Raised.isCleanupError
      (raise (.scanError "Docker could not establish a uniquely owned scan lifecycle." none))
    pure (some prepared)
  else pure none

def wrapWith (sandbox : Sandbox) (command : Str) (args : List Str) : Scan (Str × List Str) :=
  match sandbox with
  | .noSandbox => pure (command, args)
  | .docker => do
    let box ← currentBox
    pure (box.wrap command args)
  | .custom _ _ wrap => pure (wrap command args)

def transportOf (sandbox : Sandbox) (source : ServerSource)
    (launchOverride : Option (Str × List Str)) : Scan Transport :=
  if source.launchesLocalProcess = false then pure (.http source.reference)
  else
    match launchOverride with
    | some (command, args) => pure (.stdio command args)
    | none => do
      let (command, args) ← lift source.launchSpec
      let (command, args) ← wrapWith sandbox command args
      pure (.stdio command args)

/-- `_build_config(…)`, read as the transport the connector gets. -/
def buildConfig (host : Host) (sandbox : Sandbox) (source : ServerSource)
    (launchOverride : Option (Str × List Str)) : Scan Transport := do
  let transport ← transportOf sandbox source launchOverride
  match host.configRefused with
  | some e => raise e
  | none => pure transport

/-- `_build_config` inside `scan`: a prepared container is removed before its exception goes on. -/
def configure (host : Host) (sandbox : Sandbox) (source : ServerSource)
    (prepared : Option (Str × List Str)) : Scan Transport :=
  handle (buildConfig host sandbox source prepared) fun e =>
    if prepared ≠ none then do
      let _ ← catching (cleanupOwnedContainer host) Raised.isCleanupError
        (raise (.scanError "Docker scan configuration failed and cleanup could not prove the owned container absent."
          none))
      raise e
    else raise e

def runtimeProbe (host : Host) (owned : Bool) : Scan (Option Json) :=
  if owned then do
    let readback ← captureRuntimeReadback host
    pure (some readback)
  else pure none

/-- The connector and, beside it, the readback of a container the scan owns. -/
def runSync (host : Host) (owned : Bool) (transport : Transport) :
    Scan (Option Str × Option Json) := do
  emit (.connect transport)
  let readback ← runtimeProbe host owned
  let w ← read
  match host.connector w.trace with
  | .raised e => raise e
  | .missing => pure (none, readback)
  | .audit status => pure (some status, readback)

/-- What a failed connection is reported as. -/
def connectError (owned : Bool) : Raised → Raised
  | .timeoutError => .scanTimeoutError "Could not scan: configured connection timeout expired." none
      (if owned then "CONTAINER_ABSENCE_VERIFIED_AFTER_TIMEOUT" else "UNKNOWN")
  | .readbackError _ failedControls =>
    .scanError ("Docker live runtime controls could not be attested" ++
      String.join (failedControls.map fun control => ", " ++ control)) none
  | e => e

structure Connected where
  status : Str
  cleanupEvidence : Option String
  readback : Option Json

def settled {α : Type} (x : Scan α) : Scan (Except Raised α) :=
  handle (do let a ← x; pure (.ok a)) fun e => pure (.error e)

def cleanupEvidenceOf (host : Host) (owned : Bool) : Scan (Option String) :=
  if owned then do
    let evidence ← catching (cleanupOwnedContainer host) Raised.isCleanupError
      (raise (.scanError "Docker scan cleanup could not prove the owned container absent; refusing to return scan evidence."
        none))
    pure (some evidence)
  else pure none

/-- `_connect_with_lifecycle(…)`. -/
def connectWithLifecycle (host : Host) (owned : Bool) (transport : Transport) :
    Scan Connected := do
  let outcome ← settled (runSync host owned transport)
  let cleanupEvidence ← cleanupEvidenceOf host owned
  match outcome with
  | .error e => raise (connectError owned e)
  | .ok (none, _) => raise (.scanError "mcp-audits returned no connection result" none)
  | .ok (some status, readback) => pure ⟨status, cleanupEvidence, readback⟩

/-- The handlers of `scan` around the connection. -/
def reportConnection (source : ServerSource) : Raised → Raised
  | .timeoutError => .scanTimeoutError "Could not scan: configured connection timeout expired."
      (some source.reference) "UNKNOWN"
  | .scanTimeoutError message about evidence => .scanTimeoutError message about evidence
  | .scanError message about => .scanError message about
  | .interrupt => .interrupt
  | _ => .scanError "Failed to connect" (some source.reference)

structure EngineResult where
  sandboxImage : Option Str
  sandboxCleanupEvidence : Option String
  sandboxRuntimeReadback : Option Json

def refusedBy (refused : Option Raised) : Scan Unit :=
  match refused with
  | some e => raise e
  | none => pure ()

/-- The connector and its lifecycle gate, made before the connection. -/
def makeConnector (host : Host) (owned : Bool) : Scan Unit := do
  refusedBy host.connectorRefused
  if owned ∧ host.hasLifecycleHook = false then
    raise (.scanError "mcp-audits connector lacks the required lifecycle hook" none)
  else refusedBy host.pipelineRefused

/-- The end of `scan`: connection status, analysis and result. -/
def reportResult (host : Host) (sandbox : Sandbox) (source : ServerSource) (connected : Connected) :
    Scan EngineResult := do
  let status := lower connected.status
  if status = u "timeout" then
    raise (.scanTimeoutError "Could not scan: connection timeout." (some source.reference)
      (if connected.cleanupEvidence = some absenceVerified then
        "CONTAINER_ABSENCE_VERIFIED_AFTER_TIMEOUT" else "UNKNOWN"))
  else if status = u "failed" then
    raise (.scanError "Could not scan: connection failed." (some source.reference))
  else
    match host.analysisFailed with
    | some _ =>
      raise (.scanError "mcp-audits returned an unexpected result shape" (some source.reference))
    | none => do
      let box ← currentBox
      pure
        { sandboxImage := if ownsContainer sandbox source then some box.image else none
          sandboxCleanupEvidence := connected.cleanupEvidence
          sandboxRuntimeReadback := connected.readback }

/-- `MCPAuditEngine.scan(source)`. -/
def scan (host : Host) (engine : MCPAuditEngine) (source : ServerSource) : Scan EngineResult := do
  if host.engineInstalled = false then raise (.scanError "mcp-audits is not installed." none)
  else do
    let sandbox ← resolveSandbox host engine source
    if sandbox.available host = false then
      raise (.scanError "Sandbox is not available on this host" none)
    else do
      applyDummyCredentials host sandbox source
      let prepared ← prepareLaunch host sandbox source
      let transport ← configure host sandbox source prepared
      makeConnector host (ownsContainer sandbox source)
      let connected ← handle
        (connectWithLifecycle host (ownsContainer sandbox source) transport)
        fun e => raise (reportConnection source e)
      reportResult host sandbox source connected

end McpTrust.Engine
