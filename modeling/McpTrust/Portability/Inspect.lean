import McpTrust.Portability.HostValues

/-! # Inspecting a host document

The Codex reader and the reader of the three JSON hosts. The models that validate what the
readers build, and the regular expressions over Unicode words, are the fields of `Layer`.
-/

namespace McpTrust.Portability

set_option autoImplicit false

open Python

inductive Host
  | codex
  | claudeCode
  | claudeDesktop
  | vscode
  deriving DecidableEq

def Host.text : Host → String
  | .codex => "codex"
  | .claudeCode => "claude-code"
  | .claudeDesktop => "claude-desktop"
  | .vscode => "vscode"

/-- What `validation_input_error` tells of a `ValidationError`. -/
structure ValidationError where
  detail : Str
  deriving DecidableEq

structure NeutralConfig where
  servers : List (Str × ServerIntent)
  deriving DecidableEq

/-- The environment of the readers. -/
structure Layer where
  /-- `str(value)`, which refuses integers of too many digits. -/
  text : HostValue → Except PyErr Str
  repr : HostValue → Str
  readFloat : Str → Option PyFloat
  safeErrorText : Str → Str
  /-- `_OBVIOUS_SECRET_RE.search(value) or _SENSITIVE_ASSIGNMENT_RE.search(value)`. -/
  probableSecret : Str → Bool
  /-- `_SENSITIVE_FLAG_RE.fullmatch`. -/
  secretFlag : Str → Bool
  semanticChange : SemanticChange → Except ValidationError SemanticChange
  valueSource : ValueKind → Str → Except ValidationError ValueSource
  environmentBinding : Str → ValueSource → Except ValidationError EnvironmentBinding
  headerBinding : Str → ValueSource → Except ValidationError HeaderBinding
  stdioTransport : Str → List Str → HostValue → Except ValidationError Transport
  httpTransport : Str → List HeaderBinding → Except ValidationError Transport
  authRequirement : AuthRequirement → Except ValidationError AuthRequirement
  scopePolicy : ScopePolicy → Except ValidationError ScopePolicy
  startupPolicy : HostValue → HostValue → HostValue → Except ValidationError StartupPolicy
  serverIntent : ServerIntent → Except ValidationError ServerIntent
  neutralConfig : List (Str × ServerIntent) → Except ValidationError NeutralConfig

inductive InspectError
  | portability (text : Str)
  | validation (error : ValidationError)
  | escaped (e : PyErr)
  deriving DecidableEq

abbrev InspectM := Except InspectError

abbrev Changes := List SemanticChange

/-- `ModelClass(...)`. -/
def validated {α : Type} : Except ValidationError α → InspectM α
  | .ok a => .ok a
  | .error e => .error (.validation e)

def raising {α : Type} : Except PyErr α → InspectM α
  | .ok a => .ok a
  | .error e => .error (.escaped e)

/-- `raise PortabilityInputError(text)`. -/
def inputError {α : Type} (layer : Layer) (text : Str) : InspectM α := .error (.portability (layer.safeErrorText text))

def note (server : Str) (path : String) (state : ChangeState) (explanation : String) : SemanticChange :=
  { server := server, path := u path, state := state, explanation := explanation }

def noteAt (server : Str) (front : String) (key : Str) (state : ChangeState) (explanation : String) : SemanticChange :=
  { server := server, path := u front ++ key, state := state, explanation := explanation }

/-- The changes, each built by its model. -/
def noted (layer : Layer) (changes : Changes) : InspectM Changes := validated (changes.mapM layer.semanticChange)

/-! ## Shared steps -/

/-- `source_from_host_value`, by what it sees of the value. -/
def sourceOf (layer : Layer) (reference : HostReference) (fallback server path : Str) : InspectM (Changes × ValueSource) :=
  match reference with
  | .environment name => do
    let changes ← noted layer [⟨server, path, .preserved, "Environment reference preserved."⟩]
    let source ← validated (layer.valueSource .environment name)
    .ok (changes, source)
  | .input label => do
    let changes ← noted layer
      [⟨server, path, .transformed, "Host input reference normalized to a prompt placeholder."⟩]
    let source ← validated (layer.valueSource .prompt (portableKey label "INPUT"))
    .ok (changes, source)
  | .literal => do
    let changes ← noted layer [⟨server, path, .transformed,
      "A host literal was replaced by a placeholder; the original value was not retained."⟩]
    let source ← validated (layer.valueSource .prompt (portableKey fallback "VALUE"))
    .ok (changes, source)

def sourceFromHostValue (layer : Layer) (value : HostValue) (fallback server path : Str) :
    InspectM (Changes × ValueSource) := sourceOf layer (hostReference value) fallback server path

def noteUnknownFields (layer : Layer) (server : Str) (raw : HostDict) (known : List String) :
    InspectM (Changes × List Str) := do
  let fields := HostDict.unknownKeys raw known
  let changes ← noted layer (fields.map fun field => noteAt server "host." field .unknown
    "The host field is not represented by the neutral schema; its value was not retained.")
  .ok (changes, fields)

def redaction (server : Str) : SemanticChange :=
  note server "transport.args" .transformed
    "A probable secret argument value was replaced by an environment placeholder; the original value was not retained."

/-- The argument that is kept for a text. -/
def redactedArg (redact : Bool) (index : Nat) (text : Str) : Str :=
  if redact then u "$\x7benv:REDACTED_SECRET_" ++ natRepr index ++ u "\x7d" else text

/-- The loop of `redact_host_args`. -/
def redactFrom (layer : Layer) (server : Str) (previousSecretFlag : Bool) (index : Nat) :
    List HostValue → InspectM (Changes × List Str)
  | [] => .ok ([], [])
  | raw :: rest => do
    let text ← raising (layer.text raw)
    let redact := previousSecretFlag || layer.probableSecret text
    let value := redactedArg redact index text
    let change ← noted layer (if redact then [redaction server] else [])
    let (changes, values) ←
      redactFrom layer server (layer.secretFlag value) (if redact then index + 1 else index) rest
    .ok (change ++ changes, value :: values)

def redactHostArgs (layer : Layer) (values : List HostValue) (server : Str) : InspectM (Changes × List Str) :=
  redactFrom layer server false 1 values

/-- `sorted(str(item) for item in value or [])`. -/
def sortedTexts (layer : Layer) (value : HostValue) : InspectM (List Str) := do
  let items ← raising value.iterate
  let texts ← raising (items.mapM layer.text)
  .ok (sortedStr texts)

/-- `StdioTransport(...)` with the redacted arguments. -/
def inspectStdio (layer : Layer) (server command : Str) (args cwd : HostValue) : InspectM (Changes × Transport) := do
  let items ← raising args.iterate
  let (redactions, values) ← redactHostArgs layer items server
  let transport ← validated (layer.stdioTransport command values cwd)
  let changes ← noted layer [note server "transport" .preserved "stdio transport inspected."]
  .ok (redactions ++ changes, transport)

def inspectHeader (layer : Layer) (server name : Str) (value : HostValue) : InspectM (Changes × HeaderBinding) := do
  let (changes, source) ← sourceFromHostValue layer value (u "HEADER_" ++ name) server (u "transport.headers." ++ name)
  let binding ← validated (layer.headerBinding name source)
  .ok (changes, binding)

/-! ## Codex -/

def codexKnown : List String :=
  ["args", "auth", "bearer_token_env_var", "command", "cwd", "default_tools_approval_mode", "disabled_tools", "enabled",
    "enabled_tools", "env", "env_http_headers", "env_vars", "experimental_environment", "http_headers",
    "oauth_resource", "required", "scopes", "startup_timeout_ms", "startup_timeout_sec", "tool_timeout_sec", "tools",
    "url"]

def codexServerText (layer : Layer) (server : Str) (text : String) : Str :=
  u "Codex server " ++ layer.repr (.str server) ++ u text

def codexEnvHeader (layer : Layer) (server : Str) (item : Str × HostValue) : InspectM (Changes × HeaderBinding) := do
  let key ← raising (layer.text item.2)
  let source ← validated (layer.valueSource .environment key)
  let binding ← validated (layer.headerBinding item.1 source)
  let changes ← noted layer
    [noteAt server "transport.headers." item.1 .preserved "Header environment reference preserved."]
  .ok (changes, binding)

/-- The turn of a literal header; none for the authorization header beside a bearer token. -/
def codexLiteralHeader (layer : Layer) (server : Str) (hasToken : Bool) (item : Str × HostValue) :
    InspectM (Option (Changes × HeaderBinding)) :=
  if lower item.1 = u "authorization" ∧ hasToken = true then .ok none
  else (inspectHeader layer server item.1 item.2).map some

def codexHttp (layer : Layer) (server url : Str) (envHeaders literalHeaders token : HostValue) :
    InspectM (Changes × Transport) :=
  match envHeaders.table with
  | none => inputError layer (codexServerText layer server " env_http_headers must be a table")
  | some envTable => do
    let references ← (HostDict.sortedItems envTable).mapM (codexEnvHeader layer server)
    match literalHeaders.table with
    | none => inputError layer (codexServerText layer server " http_headers must be a table")
    | some literalTable => do
      let literals ← (HostDict.sortedItems literalTable).mapM (codexLiteralHeader layer server token.truthy)
      let headers := references ++ literals.filterMap id
      let transport ← validated (layer.httpTransport url (headers.map Prod.snd))
      let changes ← noted layer [note server "transport" .preserved "Streamable HTTP URL inspected."]
      .ok (headers.flatMap Prod.fst ++ changes, transport)

abbrev Bindings := List (Str × EnvironmentBinding)

/-- `environment[name] = binding`. -/
def setBinding (bindings : Bindings) (name : Str) (binding : EnvironmentBinding) : Bindings :=
  if bindings.any fun kv => decide (kv.1 = name) then
    bindings.map fun kv => if kv.1 = name then (name, binding) else kv
  else bindings ++ [(name, binding)]

def referenceBinding (layer : Layer) (bindings : Bindings) (name : Str) : InspectM Bindings := do
  let source ← validated (layer.valueSource .environment name)
  let binding ← validated (layer.environmentBinding name source)
  .ok (setBinding bindings name binding)

/-- A turn of the loop over the literal environment. -/
def codexEnvName (layer : Layer) (server : Str) (state : Changes × Bindings) (name : Str) :
    InspectM (Changes × Bindings) := do
  let bindings ← referenceBinding layer state.2 name
  let changes ← noted layer [noteAt server "environment." name .transformed
    "Literal environment value replaced by an environment-name reference; the original value was not retained."]
  .ok (state.1 ++ changes, bindings)

/-- The name of an item of `env_vars`. -/
def envVarName : HostValue → HostValue
  | .str s => .str s
  | .obj fields => HostDict.get fields "name"
  | _ => .null

def codexEnvVar (layer : Layer) (bindings : Bindings) (item : HostValue) : InspectM Bindings :=
  if (envVarName item).truthy then do
    let name ← raising (layer.text (envVarName item))
    referenceBinding layer bindings name
  else .ok bindings

/-- `value or []`, with `none` where it is no list. -/
def arrayOf (value : HostValue) : Option (List HostValue) :=
  if value.truthy then
    match value with
    | .arr items => some items
    | _ => none
  else some []

def BindingBefore (p q : Str × EnvironmentBinding) : Prop := strLe p.1 q.1 = true

instance (p q : Str × EnvironmentBinding) : Decidable (BindingBefore p q) :=
  inferInstanceAs (Decidable (strLe p.1 q.1 = true))

/-- The literal environment is read by its names only. -/
def codexEnvironment (layer : Layer) (server : Str) (envVars : HostValue) (literalNames : Option (List Str)) :
    InspectM (Changes × List EnvironmentBinding) :=
  match arrayOf envVars with
  | none => inputError layer (codexServerText layer server " env_vars must be an array")
  | some items => do
    let referenced ← items.foldlM (codexEnvVar layer) []
    match literalNames with
    | none => inputError layer (codexServerText layer server " env must be a table")
    | some names => do
      let (changes, bindings) ← (sortedStr names).foldlM (codexEnvName layer server) ([], referenced)
      let kept ← noted layer
        (if bindings = [] then [] else [note server "environment" .preserved "Environment key names preserved."])
      .ok (changes ++ kept, (bindings.insertionSort BindingBefore).map Prod.snd)

def codexAuth (layer : Layer) (server : Str) (token auth scopes : HostValue) : InspectM (Changes × AuthRequirement) :=
  match token with
  | .str name => do
    let source ← validated (layer.valueSource .environment name)
    let auth ← validated (layer.authRequirement { kind := .bearer, required := true, token := some source })
    let changes ← noted layer [note server "auth" .preserved "Bearer token environment reference preserved."]
    .ok (changes, auth)
  | _ =>
    let named := match auth with
      | .str s => s
      | _ => []
    if named = u "oauth" ∨ scopes.truthy = true then do
      let texts ← sortedTexts layer scopes
      let auth ← validated (layer.authRequirement { kind := .oauth, required := true, scopes := texts })
      let changes ← noted layer [note server "auth" .preserved "OAuth requirement inspected."]
      .ok (changes, auth)
    else if named = u "chatgpt" then do
      let auth ← validated (layer.authRequirement { kind := .unknown, required := false })
      let changes ← noted layer
        [note server "auth" .unknown "ChatGPT-session authentication has no neutral portable equivalent."]
      .ok (changes, auth)
    else .ok ([], {})

/-- `float(value)`. -/
def pyFloat (layer : Layer) : HostValue → Except PyErr PyFloat
  | .float x => .ok x
  | .int n => floatOfInt n
  | .bool b => .ok (.ofRat (if b then 1 else 0))
  | .str s =>
    match layer.readFloat s with
    | some x => .ok x
    | none => .error .valueError
  | _ => .error .typeError

def HostValue.isNull : HostValue → Bool
  | .null => true
  | _ => false

def codexStartup (layer : Layer) (server : Str) (seconds millis tool required : HostValue) :
    InspectM (Changes × StartupPolicy) :=
  if seconds.isNull && !millis.isNull then do
    let value ← raising (pyFloat layer millis)
    let changes ← noted layer
      [note server "startup.startup_timeout_seconds" .transformed "Milliseconds normalized to seconds."]
    let startup ← validated (layer.startupPolicy (.float (thousandth value)) tool required)
    .ok (changes, startup)
  else do
    let startup ← validated (layer.startupPolicy seconds tool required)
    .ok ([], startup)

def codexProvenance : Provenance where
  sourceHost := u "codex"
  sourceFormat := u "config.toml current format (no published format version; docs as of 2026-08-11)"
  sourceAsOf := u "2026-08-11"
  documentationUrl := some (u "https://learn.chatgpt.com/docs/extend/mcp?surface=cli")

/-- The names of the literal environment, `none` where it is no table. -/
def literalNames (value : HostValue) : Option (List Str) := value.table.map HostDict.keys

def codexTransport (layer : Layer) (server : Str) (raw : HostDict) : InspectM (Changes × Transport) :=
  match HostDict.get raw "command", HostDict.get raw "url" with
  | .str _, .str _ => inputError layer (codexServerText layer server " must contain exactly one of command or url")
  | .str command, _ => inspectStdio layer server command (HostDict.get raw "args") (HostDict.get raw "cwd")
  | _, .str url => codexHttp layer server url (HostDict.get raw "env_http_headers") (HostDict.get raw "http_headers")
      (HostDict.get raw "bearer_token_env_var")
  | _, _ => inputError layer (codexServerText layer server " must contain exactly one of command or url")

def codexServer (layer : Layer) (server : Str) (raw : HostDict) : InspectM (Changes × (Str × ServerIntent)) := do
  let (transportChanges, transport) ← codexTransport layer server raw
  let (envChanges, environment) ←
    codexEnvironment layer server (HostDict.get raw "env_vars") (literalNames (HostDict.get raw "env"))
  let (authChanges, auth) ← codexAuth layer server (HostDict.get raw "bearer_token_env_var") (HostDict.get raw "auth")
    (HostDict.get raw "scopes")
  let enabledChanges ← noted layer
    (if (HostDict.lookup raw "enabled").isSome then []
      else [note server "enabled" .defaulted "Codex default enabled=true applied."])
  let (startupChanges, startup) ← codexStartup layer server (HostDict.get raw "startup_timeout_sec")
    (HostDict.get raw "startup_timeout_ms") (HostDict.get raw "tool_timeout_sec") (HostDict.get raw "required")
  let (unknownChanges, unknown) ← noteUnknownFields layer server raw codexKnown
  let allow ← sortedTexts layer (HostDict.get raw "enabled_tools")
  let deny ← sortedTexts layer (HostDict.get raw "disabled_tools")
  let tools ← validated (layer.scopePolicy { allow := allow, deny := deny })
  let intent ← validated (layer.serverIntent
    { transport := transport, environment := environment, auth := auth,
      enabled := ((HostDict.lookup raw "enabled").getD (.bool true)).truthy, tools := tools, resources := {},
      startup := startup, provenance := codexProvenance, unknownSemantics := unknown })
  .ok (transportChanges ++ envChanges ++ authChanges ++ enabledChanges ++ startupChanges ++ unknownChanges,
    (server, intent))

/-- One turn of the loop over the servers. -/
def codexEntry (layer : Layer) (item : Str × HostValue) : InspectM (Changes × (Str × ServerIntent)) :=
  match item.2 with
  | .obj raw => codexServer layer item.1 raw
  | _ => inputError layer (codexServerText layer item.1 " must be a table")

/-! ## Reports -/

def ChangeState.text : ChangeState → String
  | .preserved => "preserved"
  | .transformed => "transformed"
  | .dropped => "dropped"
  | .unsupported => "unsupported"
  | .defaulted => "defaulted"
  | .widened => "widened"
  | .unknown => "UNKNOWN"

/-- The order of `(server, path, state, explanation)`. -/
def ChangeBefore (c d : SemanticChange) : Prop :=
  partsLe [c.server, c.path, u c.state.text, u c.explanation] [d.server, d.path, u d.state.text, u d.explanation] = true

instance (c d : SemanticChange) : Decidable (ChangeBefore c d) :=
  inferInstanceAs (Decidable (partsLe [c.server, c.path, u c.state.text, u c.explanation]
    [d.server, d.path, u d.state.text, u d.explanation] = true))

structure PortabilityReport where
  operation : String
  host : Host
  adapterFormatVersion : Str
  changes : Changes
  summary : ChangeState → Nat

def buildReport (operation : String) (host : Host) (formatVersion : Str) (changes : Changes) : PortabilityReport where
  operation := operation
  host := host
  adapterFormatVersion := formatVersion
  changes := changes.insertionSort ChangeBefore
  summary := fun state => changes.countP fun c => decide (c.state = state)

structure InspectResult where
  intent : NeutralConfig
  report : PortabilityReport

def inspectResult (layer : Layer) (host : Host) (formatVersion : Str) (front : Changes)
    (inspected : List (Changes × (Str × ServerIntent))) : InspectM InspectResult := do
  let intent ← validated (layer.neutralConfig (inspected.map Prod.snd))
  .ok ⟨intent, buildReport "inspect" host formatVersion (front ++ (inspected.map Prod.fst).flatten)⟩

def inspectCodex (layer : Layer) (root : HostDict) : InspectM InspectResult :=
  match HostDict.get root "mcp_servers" with
  | .obj servers => do
    let inspected ← (HostDict.sortedItems servers).mapM (codexEntry layer)
    inspectResult layer .codex codexProvenance.sourceFormat [] inspected
  | _ => inputError layer (u "Codex input must contain an [mcp_servers] table")

/-! ## The JSON hosts -/

structure JsonHostProfile where
  host : Host
  formatVersion : Str
  docsUrl : Str
  serverKey : String
  supportsRemote : Bool
  supportsCwd : Bool
  supportsToolTimeout : Bool

/-- `f"{self.host} {middle}{name!r}{text}"`. -/
def jsonServerText (layer : Layer) (profile : JsonHostProfile) (middle : String) (server : Str) (text : String) : Str :=
  u profile.host.text ++ ch ' ' :: u middle ++ layer.repr (.str server) ++ u text

/-- What a header turn sees: a bearer reference, or a reference of its own. -/
def headerReference (item : Str × HostValue) : Str ⊕ HostReference :=
  match item.2 with
  | .str text =>
    match bearerEnv text with
    | some name => if lower item.1 = u "authorization" then .inl name else .inr (hostReference item.2)
    | none => .inr (hostReference item.2)
  | _ => .inr (hostReference item.2)

structure HeaderTurn where
  changes : Changes
  header : Option HeaderBinding := none
  auth : Option AuthRequirement := none

def jsonHeader (layer : Layer) (server name : Str) (reference : Str ⊕ HostReference) : InspectM HeaderTurn :=
  match reference with
  | .inl key => do
    let source ← validated (layer.valueSource .environment key)
    let auth ← validated (layer.authRequirement { kind := .bearer, required := true, token := some source })
    let changes ← noted layer
      [note server "auth" .preserved "Bearer environment reference inspected without reading a token."]
    .ok { changes := changes, auth := some auth }
  | .inr reference => do
    let (changes, source) ← sourceOf layer reference (u "HEADER_" ++ name) server (u "transport.headers." ++ name)
    let binding ← validated (layer.headerBinding name source)
    .ok { changes := changes, header := some binding }

def jsonHeaderItem (layer : Layer) (server : Str) (item : Str × HostValue) : InspectM HeaderTurn :=
  jsonHeader layer server item.1 (headerReference item)

def jsonRemote (layer : Layer) (profile : JsonHostProfile) (server kind url : Str) (headers : HostValue) :
    InspectM (Changes × Transport × AuthRequirement) :=
  match headers.table with
  | none => inputError layer (jsonServerText layer profile "server " server " headers must be an object")
  | some table => do
    let turns ← (HostDict.sortedItems table).mapM (jsonHeaderItem layer server)
    let kindChange :=
      if kind = u "sse" then note server "transport.kind" .transformed
        "Deprecated SSE normalized to neutral remote URL semantics; transport behavior will not round-trip exactly."
      else note server "transport" .transformed "Host HTTP spelling normalized to streamable-http."
    let unsupported :=
      if profile.supportsRemote then []
      else [note server "transport" .unsupported "Remote entries are not supported by Claude Desktop developer JSON."]
    let changes ← noted layer (kindChange :: unsupported)
    let transport ← validated (layer.httpTransport url (turns.filterMap HeaderTurn.header))
    .ok (turns.flatMap HeaderTurn.changes ++ changes, transport,
      ((turns.filterMap HeaderTurn.auth).getLast?).getD {})

def jsonStdio (layer : Layer) (profile : JsonHostProfile) (server : Str) (raw : HostDict) :
    InspectM (Changes × Transport × AuthRequirement) :=
  match HostDict.get raw "command" with
  | .str command => do
    let (changes, transport) ← inspectStdio layer server command (HostDict.get raw "args")
      (if profile.supportsCwd then HostDict.get raw "cwd" else .null)
    .ok (changes, transport, {})
  | _ => inputError layer (jsonServerText layer profile "stdio server " server " requires command")

def remoteKinds : List String := ["http", "streamable-http", "sse"]

def unsupportedType (layer : Layer) (profile : JsonHostProfile) (server : Str) (kind : HostValue) : Str :=
  u "unsupported " ++ u profile.host.text ++ u " transport type for " ++ layer.repr (.str server) ++ u ": " ++
    layer.repr kind

def jsonTransport (layer : Layer) (profile : JsonHostProfile) (server : Str) (raw : HostDict) :
    InspectM (Changes × Transport × AuthRequirement) :=
  match HostDict.get raw "type" with
  | .null =>
    if (HostDict.lookup raw "url").isSome then
      inputError layer (jsonServerText layer profile "server " server " has a url but no type")
    else do
      let defaulted ← noted layer [note server "transport.kind" .defaulted "Missing type defaulted to stdio."]
      let (changes, rest) ← jsonStdio layer profile server raw
      .ok (defaulted ++ changes, rest)
  | .str kind =>
    if kind = u "stdio" then jsonStdio layer profile server raw
    else if kind ∈ remoteKinds.map u then
      match HostDict.get raw "url" with
      | .str url => jsonRemote layer profile server kind url (HostDict.get raw "headers")
      | _ => inputError layer (jsonServerText layer profile "remote server " server " requires url")
    else inputError layer (unsupportedType layer profile server (.str kind))
  | .arr _ => .error (.escaped .typeError)
  | .obj _ => .error (.escaped .typeError)
  | kind => inputError layer (unsupportedType layer profile server kind)

def jsonEnvItem (layer : Layer) (server : Str) (item : Str × HostValue) :
    InspectM (Changes × EnvironmentBinding) := do
  let (changes, source) ← sourceFromHostValue layer item.2 item.1 server (u "environment." ++ item.1)
  let binding ← validated (layer.environmentBinding item.1 source)
  .ok (changes, binding)

def jsonEnvironment (layer : Layer) (profile : JsonHostProfile) (server : Str) (env : HostValue) :
    InspectM (Changes × List EnvironmentBinding) :=
  match env.table with
  | none => inputError layer (jsonServerText layer profile "server " server " env must be an object")
  | some table => do
    let items ← (HostDict.sortedItems table).mapM (jsonEnvItem layer server)
    .ok (items.flatMap Prod.fst, items.map Prod.snd)

/-- The scopes of an `oauth` object. -/
def oauthScopes (layer : Layer) (scopes : HostValue) : Except PyErr (List Str) :=
  match scopes with
  | .str text => .ok (splitWords text)
  | .arr items => items.mapM layer.text
  | _ => .ok []

def jsonAuth (layer : Layer) (server : Str) (oauth : HostValue) (auth : AuthRequirement) :
    InspectM (Changes × AuthRequirement) :=
  match oauth with
  | .obj fields => do
    let scopes ← raising (oauthScopes layer (HostDict.get fields "scopes"))
    let auth ← validated (layer.authRequirement { kind := .oauth, required := true, scopes := sortedStr scopes })
    let changes ← noted layer
      [note server "auth" .preserved "OAuth requirement inspected; credential values are outside this schema."]
    .ok (changes, auth)
  | _ => .ok ([], auth)

/-- `float(timeout) / 1000 if isinstance(timeout, (int, float)) else None`. -/
def jsonTimeout (layer : Layer) (timeout : HostValue) : Except PyErr HostValue :=
  match timeout with
  | .bool _ | .int _ | .float _ => (pyFloat layer timeout).map fun x => .float (thousandth x)
  | _ => .ok .null

def jsonKnown (profile : JsonHostProfile) : List String :=
  ["type", "command", "args", "env", "url", "headers", "oauth"] ++ (if profile.supportsCwd then ["cwd"] else []) ++
    if profile.supportsToolTimeout then ["timeout"] else []

def JsonHostProfile.provenance (profile : JsonHostProfile) : Provenance where
  sourceHost := u profile.host.text
  sourceFormat := profile.formatVersion
  sourceAsOf := u "2026-08-11"
  documentationUrl := some profile.docsUrl

def jsonServer (layer : Layer) (profile : JsonHostProfile) (server : Str) (raw : HostDict) :
    InspectM (Changes × (Str × ServerIntent)) := do
  let (transportChanges, transport, headerAuth) ← jsonTransport layer profile server raw
  let (envChanges, environment) ← jsonEnvironment layer profile server (HostDict.get raw "env")
  let (authChanges, auth) ← jsonAuth layer server (HostDict.get raw "oauth") headerAuth
  let timeout := if profile.supportsToolTimeout then HostDict.get raw "timeout" else .null
  let toolTimeout ← raising (jsonTimeout layer timeout)
  let startup ← validated (layer.startupPolicy .null toolTimeout .null)
  let timeoutChanges ← noted layer
    (if timeout.isNull then []
      else [note server "startup.tool_timeout_seconds" .transformed "Host milliseconds normalized to seconds."])
  let enabledChanges ← noted layer [note server "enabled" .defaulted
    "Enablement is stored outside this host document; enabled=true assumed for a present server."]
  let (unknownChanges, unknown) ← noteUnknownFields layer server raw (jsonKnown profile)
  let intent ← validated (layer.serverIntent
    { transport := transport, environment := environment, auth := auth, enabled := true, tools := {}, resources := {},
      startup := startup, provenance := profile.provenance, unknownSemantics := unknown })
  .ok (transportChanges ++ envChanges ++ authChanges ++ timeoutChanges ++ enabledChanges ++ unknownChanges,
    (server, intent))

def jsonEntry (layer : Layer) (profile : JsonHostProfile) (item : Str × HostValue) :
    InspectM (Changes × (Str × ServerIntent)) :=
  match item.2 with
  | .obj raw => jsonServer layer profile item.1 raw
  | _ => inputError layer (jsonServerText layer profile "server " item.1 " must be an object")

def topKnown (profile : JsonHostProfile) : List String :=
  profile.serverKey :: if profile.host = .vscode then ["inputs", "sandbox"] else []

def topChanges (layer : Layer) (profile : JsonHostProfile) (root : HostDict) : InspectM Changes :=
  noted layer <| (if profile.host = .vscode ∧ (HostDict.lookup root "sandbox").isSome = true then
    [note (u "*") "sandbox" .unknown
      "VS Code sandbox policy is outside the neutral connection-intent schema; its value was not retained."]
    else []) ++
  (HostDict.unknownKeys root (topKnown profile)).map fun key =>
    noteAt (u "*") "host." key .unknown "Unknown top-level host field was not retained."

def inspectJson (layer : Layer) (profile : JsonHostProfile) (root : HostDict) : InspectM InspectResult :=
  match HostDict.get root profile.serverKey with
  | .obj servers => do
    let front ← topChanges layer profile root
    let inspected ← (HostDict.sortedItems servers).mapM (jsonEntry layer profile)
    inspectResult layer profile.host profile.formatVersion front inspected
  | _ => inputError layer
      (u profile.host.text ++ u " input must contain a " ++ layer.repr (.str (u profile.serverKey)) ++ u " object")

def claudeCode : JsonHostProfile where
  host := .claudeCode
  formatVersion := u ".mcp.json current format (Claude Code docs through v2.1.221; as of 2026-08-11)"
  docsUrl := u "https://code.claude.com/docs/en/mcp"
  serverKey := "mcpServers"
  supportsRemote := true
  supportsCwd := false
  supportsToolTimeout := true

def claudeDesktop : JsonHostProfile where
  host := .claudeDesktop
  formatVersion := u "claude_desktop_config.json local developer format (no published version; as of 2026-08-11)"
  docsUrl := u "https://modelcontextprotocol.io/docs/2026-07-28/develop/connect-local-servers"
  serverKey := "mcpServers"
  supportsRemote := false
  supportsCwd := false
  supportsToolTimeout := false

def vscode : JsonHostProfile where
  host := .vscode
  formatVersion := u "mcp.json current format (no published version; VS Code docs as of 2026-08-11)"
  docsUrl := u "https://code.visualstudio.com/docs/agents/reference/mcp-configuration"
  serverKey := "servers"
  supportsRemote := true
  supportsCwd := true
  supportsToolTimeout := false

/-! ## `inspect_host` -/

/-- What `tomllib.loads` and `json.loads` raise, with their text or position. -/
inductive ParseFailure
  | decode (message : Str)
  | unicode (message : Str)
  | other (e : PyErr)
  deriving DecidableEq

/-- A failure of `json.loads` itself, or of the hook that rejects duplicate keys. -/
inductive JsonFailure
  | parse (failure : ParseFailure)
  | duplicateKey
  deriving DecidableEq

structure Parsers where
  toml : Str → Except ParseFailure HostDict
  json : Str → Except JsonFailure HostValue

def loadToml (layer : Layer) (parsers : Parsers) (document : Str) : InspectM HostDict :=
  match parsers.toml document with
  | .ok root => .ok root
  | .error (.decode message) => inputError layer (u "invalid Codex TOML: " ++ layer.safeErrorText message)
  | .error (.unicode message) => inputError layer (u "invalid Codex TOML: " ++ layer.safeErrorText message)
  | .error (.other e) => .error (.escaped e)

/-- `_load_json`; the position of a decode error is its message. -/
def loadJson (layer : Layer) (parsers : Parsers) (document : Str) : InspectM HostDict :=
  match parsers.json document with
  | .ok (.obj root) => .ok root
  | .ok _ => inputError layer (u "host configuration must be a JSON object")
  | .error .duplicateKey => inputError layer (u "duplicate JSON key")
  | .error (.parse (.decode message)) => inputError layer (u "invalid JSON at " ++ message)
  | .error (.parse (.unicode _)) => inputError layer (u "invalid JSON text encoding")
  | .error (.parse (.other e)) => .error (.escaped e)

def inspectRoot (layer : Layer) : Host → HostDict → InspectM InspectResult
  | .codex, root => inspectCodex layer root
  | .claudeCode, root => inspectJson layer claudeCode root
  | .claudeDesktop, root => inspectJson layer claudeDesktop root
  | .vscode, root => inspectJson layer vscode root

def parseDocument (layer : Layer) (parsers : Parsers) : Host → Str → InspectM HostDict
  | .codex, document => loadToml layer parsers document
  | _, document => loadJson layer parsers document

/-- A `ValidationError` becomes a `PortabilityInputError`. -/
def publicError (layer : Layer) (host : Host) : InspectError → InspectError
  | .validation e =>
    .portability (layer.safeErrorText (u "invalid " ++ u host.text ++ u " host configuration: " ++ e.detail))
  | e => e

def inspectHost (layer : Layer) (parsers : Parsers) (document : Str) (host : Host) : InspectM InspectResult :=
  (parseDocument layer parsers host document >>= inspectRoot layer host).mapError (publicError layer host)

end McpTrust.Portability
