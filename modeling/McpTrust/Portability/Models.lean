import McpTrust.Python.Json
import McpTrust.Catalog.RootRotation

/-! # Neutral connection intents

The models of the portability studio and the JSON form in which two intents are compared.
Literal values have no place in an intent: a value is a `ValueSource`.
-/

namespace McpTrust.Portability

set_option autoImplicit false

open Python

inductive ValueKind
  | environment
  | prompt
  | unknown
  deriving DecidableEq

def ValueKind.text : ValueKind → String
  | .environment => "environment"
  | .prompt => "prompt"
  | .unknown => "unknown"

structure ValueSource where
  kind : ValueKind
  key : Str
  secret : Bool := true
  required : Bool := true
  deriving DecidableEq

structure EnvironmentBinding where
  name : Str
  valueFrom : ValueSource
  deriving DecidableEq

structure HeaderBinding where
  name : Str
  valueFrom : ValueSource
  deriving DecidableEq

/-- `StdioTransport | HttpTransport`. -/
inductive Transport
  | stdio (command : Str) (args : List Str) (cwd : Option Str)
  | http (url : Str) (headers : List HeaderBinding)
  deriving DecidableEq

inductive AuthKind
  | none
  | bearer
  | oauth
  | headers
  | unknown
  deriving DecidableEq

def AuthKind.text : AuthKind → String
  | .none => "none"
  | .bearer => "bearer"
  | .oauth => "oauth"
  | .headers => "headers"
  | .unknown => "unknown"

structure AuthRequirement where
  kind : AuthKind := .none
  required : Bool := false
  token : Option ValueSource := Option.none
  scopes : List Str := []
  deriving DecidableEq

structure ScopePolicy where
  allow : List Str := []
  deny : List Str := []
  deriving DecidableEq

structure StartupPolicy where
  startupTimeoutSeconds : Option PyFloat := none
  toolTimeoutSeconds : Option PyFloat := none
  required : Option Bool := none
  deriving DecidableEq

structure Provenance where
  sourceHost : Str
  sourceFormat : Str
  sourceAsOf : Str
  documentationUrl : Option Str := none
  deriving DecidableEq

structure ServerIntent where
  transport : Transport
  environment : List EnvironmentBinding := []
  auth : AuthRequirement := {}
  enabled : Bool := true
  tools : ScopePolicy := {}
  resources : ScopePolicy := {}
  startup : StartupPolicy := {}
  provenance : Provenance
  unknownSemantics : List Str := []
  deriving DecidableEq

inductive ChangeState
  | preserved
  | transformed
  | dropped
  | unsupported
  | defaulted
  | widened
  | unknown
  deriving DecidableEq

structure SemanticChange where
  server : Str
  path : Str
  state : ChangeState
  explanation : String
  deriving DecidableEq

/-! ## `model_dump(mode="json")` -/

def textJson (s : String) : Json := .str (u s)

def textsJson (values : List Str) : Json := .arr (values.map Json.str)

def optionJson {α : Type} (dump : α → Json) : Option α → Json
  | none => .null
  | some a => dump a

def ValueSource.dump (source : ValueSource) : Json :=
  .obj
    [(u "kind", textJson source.kind.text), (u "key", .str source.key), (u "secret", .bool source.secret),
      (u "required", .bool source.required)]

def EnvironmentBinding.dump (binding : EnvironmentBinding) : Json :=
  .obj [(u "name", .str binding.name), (u "value_from", binding.valueFrom.dump)]

def HeaderBinding.dump (binding : HeaderBinding) : Json :=
  .obj [(u "name", .str binding.name), (u "value_from", binding.valueFrom.dump)]

def Transport.dump : Transport → Json
  | .stdio command args cwd =>
    .obj
      [(u "kind", textJson "stdio"), (u "command", .str command), (u "args", textsJson args),
        (u "cwd", optionJson .str cwd)]
  | .http url headers =>
    .obj
      [(u "kind", textJson "streamable-http"), (u "url", .str url),
        (u "headers", .arr (headers.map HeaderBinding.dump))]

def AuthRequirement.dump (auth : AuthRequirement) : Json :=
  .obj
    [(u "kind", textJson auth.kind.text), (u "required", .bool auth.required),
      (u "token", optionJson ValueSource.dump auth.token), (u "scopes", textsJson auth.scopes)]

def ScopePolicy.dump (policy : ScopePolicy) : Json :=
  .obj [(u "allow", textsJson policy.allow), (u "deny", textsJson policy.deny)]

def StartupPolicy.dump (startup : StartupPolicy) : Json :=
  .obj
    [(u "startup_timeout_seconds", optionJson .float startup.startupTimeoutSeconds),
      (u "tool_timeout_seconds", optionJson .float startup.toolTimeoutSeconds),
      (u "required", optionJson .bool startup.required)]

/-- A server of `_semantic_view`: the dump without provenance and unknown semantics. -/
def ServerIntent.view (server : ServerIntent) : Json :=
  .obj
    [(u "transport", server.transport.dump), (u "environment", .arr (server.environment.map EnvironmentBinding.dump)),
      (u "auth", server.auth.dump), (u "enabled", .bool server.enabled), (u "tools", server.tools.dump),
      (u "resources", server.resources.dump), (u "startup", server.startup.dump)]

end McpTrust.Portability
