import McpTrust.Failure
import McpTrust.Portability.Literals

/-! # Errors that escape

The readers index, iterate and convert loosely typed values before any model validates them.
An error outside the portability errors is raised exactly where the reader reaches one of the
unguarded conversions with a value it does not accept.
-/

namespace McpTrust.Portability

set_option autoImplicit false

open Python Failure

def Escaped (e : InspectError) : Prop := ∃ raised, e = .escaped raised

/-! ## Unguarded conversions -/

/-- The values that `value or []` can be iterated for. -/
def HostValue.iterable : HostValue → Bool
  | .bool b => !b
  | .int n => decide (n = 0)
  | .float x => decide (x.value? = some 0)
  | .moment _ => false
  | _ => true

/-- An item that `str` refuses. -/
def TextDefect (layer : Layer) (items : List HostValue) : Prop := ∃ item ∈ items, ∃ e, layer.text item = .error e

/-- `[str(item) for item in value or []]`. -/
def SequenceDefect (layer : Layer) (value : HostValue) : Prop :=
  value.iterable = false ∨ ∃ items, value.iterate = .ok items ∧ TextDefect layer items

/-- An argument that `str` refuses, reached by the redaction. -/
def RedactDefect (layer : Layer) (server : Str) (previousSecretFlag : Bool) (index : Nat) : List HostValue → Prop
  | [] => False
  | raw :: rest =>
    (∃ e, layer.text raw = .error e) ∨
      ∃ text, layer.text raw = .ok text ∧
        Passes (noted layer (if previousSecretFlag || layer.probableSecret text then [redaction server] else [])) ∧
        RedactDefect layer server
          (layer.secretFlag (redactedArg (previousSecretFlag || layer.probableSecret text) index text))
          (if previousSecretFlag || layer.probableSecret text then index + 1 else index) rest

/-- `args` of a stdio server. -/
def ArgsDefect (layer : Layer) (server : Str) (args : HostValue) : Prop :=
  args.iterable = false ∨ ∃ items, args.iterate = .ok items ∧ RedactDefect layer server false 1 items

/-- The name of a header variable that `str` refuses. -/
def HeaderDefect (layer : Layer) (server : Str) (envHeaders : HostValue) : Prop :=
  ∃ table, envHeaders.table = some table ∧ ∃ front item rest, HostDict.sortedItems table = front ++ item :: rest ∧
    (∀ other ∈ front, Passes (codexEnvHeader layer server other)) ∧ ∃ e, layer.text item.2 = .error e

def TransportDefect (layer : Layer) (server : Str) (raw : HostDict) : Prop :=
  (HostDict.get raw "command").isStr = true ∧ (HostDict.get raw "url").isStr = false ∧
      ArgsDefect layer server (HostDict.get raw "args") ∨
    (HostDict.get raw "command").isStr = false ∧ (HostDict.get raw "url").isStr = true ∧
      HeaderDefect layer server (HostDict.get raw "env_http_headers")

/-- The name of a variable that `str` refuses. -/
def EnvVarsDefect (layer : Layer) (envVars : HostValue) : Prop :=
  ∃ items, arrayOf envVars = some items ∧ ∃ front item rest bindings, items = front ++ item :: rest ∧
    front.foldlM (codexEnvVar layer) [] = .ok bindings ∧ (envVarName item).truthy = true ∧
      ∃ e, layer.text (envVarName item) = .error e

/-- `scopes` beside no bearer token. -/
def AuthDefect (layer : Layer) (token scopes : HostValue) : Prop := token.isStr = false ∧ SequenceDefect layer scopes

/-- `startup_timeout_ms` where it is converted. -/
def StartupDefect (layer : Layer) (seconds millis : HostValue) : Prop :=
  seconds.isNull = true ∧ millis.isNull = false ∧ ∃ e, pyFloat layer millis = .error e

/-- The steps of a Codex server, each with what goes wrong when it is reached. -/
def CodexDefect (layer : Layer) (server : Str) (raw : HostDict) : Prop :=
  TransportDefect layer server raw ∨
    Passes (codexTransport layer server raw) ∧
    (EnvVarsDefect layer (HostDict.get raw "env_vars") ∨
      Passes (codexEnvironment layer server (HostDict.get raw "env_vars") (literalNames (HostDict.get raw "env"))) ∧
      (AuthDefect layer (HostDict.get raw "bearer_token_env_var") (HostDict.get raw "scopes") ∨
        Passes (codexAuth layer server (HostDict.get raw "bearer_token_env_var") (HostDict.get raw "auth")
          (HostDict.get raw "scopes")) ∧
        Passes (noted layer (if (HostDict.lookup raw "enabled").isSome then []
          else [note server "enabled" .defaulted "Codex default enabled=true applied."])) ∧
        (StartupDefect layer (HostDict.get raw "startup_timeout_sec") (HostDict.get raw "startup_timeout_ms") ∨
          Passes (codexStartup layer server (HostDict.get raw "startup_timeout_sec")
            (HostDict.get raw "startup_timeout_ms") (HostDict.get raw "tool_timeout_sec") (HostDict.get raw "required")) ∧
          Passes (noteUnknownFields layer server raw codexKnown) ∧
          (SequenceDefect layer (HostDict.get raw "enabled_tools") ∨
            Passes (sortedTexts layer (HostDict.get raw "enabled_tools")) ∧
            SequenceDefect layer (HostDict.get raw "disabled_tools")))))

/-- `type` that cannot be hashed. -/
def HostValue.unhashable : HostValue → Bool
  | .arr _ => true
  | .obj _ => true
  | _ => false

def defaultedType (server : Str) : SemanticChange :=
  note server "transport.kind" .defaulted "Missing type defaulted to stdio."

/-- The server is read as a stdio server. -/
def ReadsStdio (layer : Layer) (server : Str) (raw : HostDict) : Prop :=
  (HostDict.get raw "type").isNull = true ∧ HostDict.lookup raw "url" = none ∧
      Passes (noted layer [defaultedType server]) ∨
    ∃ kind, HostDict.get raw "type" = .str kind ∧ kind = u "stdio"

def JsonTransportDefect (layer : Layer) (server : Str) (raw : HostDict) : Prop :=
  (HostDict.get raw "type").unhashable = true ∨
    ReadsStdio layer server raw ∧ (HostDict.get raw "command").isStr = true ∧
      ArgsDefect layer server (HostDict.get raw "args")

/-- A listed scope that `str` refuses. -/
def OauthDefect (layer : Layer) (oauth : HostValue) : Prop :=
  ∃ fields items, oauth = .obj fields ∧ HostDict.get fields "scopes" = .arr items ∧ TextDefect layer items

/-- An integer that no float can hold. -/
def TimeoutDefect (timeout : HostValue) : Prop := ∃ n e, timeout = .int n ∧ floatOfInt n = .error e

def jsonTimeoutOf (profile : JsonHostProfile) (raw : HostDict) : HostValue :=
  if profile.supportsToolTimeout then HostDict.get raw "timeout" else .null

/-- The steps of a server of a JSON host, each with what goes wrong when it is reached. -/
def JsonDefect (layer : Layer) (profile : JsonHostProfile) (server : Str) (raw : HostDict) : Prop :=
  JsonTransportDefect layer server raw ∨
    Passes (jsonTransport layer profile server raw) ∧
    Passes (jsonEnvironment layer profile server (HostDict.get raw "env")) ∧
    (OauthDefect layer (HostDict.get raw "oauth") ∨
      Passes (jsonAuth layer server (HostDict.get raw "oauth") {}) ∧ TimeoutDefect (jsonTimeoutOf profile raw))

/-! ## Steps that never escape -/

section Steps

variable {layer : Layer} {server : Str}

theorem not_fails_validated {α : Type} (x : Except ValidationError α) : ¬Fails Escaped (validated x) := by
  cases x with
  | ok a => exact not_fails_ok a
  | error e =>
    rw [validated, fails_error]
    rintro ⟨raised, h⟩
    cases h

theorem not_fails_inputError {α : Type} (text : Str) : ¬Fails Escaped (inputError layer text : InspectM α) := by
  rw [inputError, fails_error]
  rintro ⟨raised, h⟩
  cases h

theorem not_fails_noted (changes : Changes) : ¬Fails Escaped (noted layer changes) := not_fails_validated _

theorem fails_raising {α : Type} {x : Except PyErr α} : Fails Escaped (raising x) ↔ ∃ e, x = .error e := by
  cases x with
  | ok a =>
    constructor
    · intro h
      exact absurd h (not_fails_ok a)
    · rintro ⟨e, he⟩
      cases he
  | error e =>
    rw [raising, fails_error]
    constructor
    · intro _
      exact ⟨e, rfl⟩
    · intro _
      exact ⟨e, rfl⟩

theorem fails_iterate {v : HostValue} : Fails Escaped (raising v.iterate) ↔ v.iterable = false := by
  rw [fails_raising]
  cases v with
  | null => simp [HostValue.iterate, HostValue.iterable, HostValue.truthy]
  | bool b => cases b <;> simp [HostValue.iterate, HostValue.iterable, HostValue.truthy]
  | int n => by_cases h : n = 0 <;> simp [HostValue.iterate, HostValue.iterable, HostValue.truthy, h]
  | float x => by_cases h : x.value? = some 0 <;> simp [HostValue.iterate, HostValue.iterable, HostValue.truthy, h]
  | str s => by_cases h : s = [] <;> simp [HostValue.iterate, HostValue.iterable, HostValue.truthy, h]
  | arr items => cases items <;> simp [HostValue.iterate, HostValue.iterable, HostValue.truthy]
  | obj fields => cases fields <;> simp [HostValue.iterate, HostValue.iterable, HostValue.truthy]
  | moment text => simp [HostValue.iterate, HostValue.iterable, HostValue.truthy]

theorem not_fails_sourceOf (reference : HostReference) (fallback path : Str) :
    ¬Fails Escaped (sourceOf layer reference fallback server path) := by
  cases reference with
  | environment name =>
    apply not_fails_bind (not_fails_noted _)
    intro changes
    apply not_fails_bind (not_fails_validated _)
    intro source
    exact not_fails_ok _
  | input label =>
    apply not_fails_bind (not_fails_noted _)
    intro changes
    apply not_fails_bind (not_fails_validated _)
    intro source
    exact not_fails_ok _
  | literal =>
    apply not_fails_bind (not_fails_noted _)
    intro changes
    apply not_fails_bind (not_fails_validated _)
    intro source
    exact not_fails_ok _

theorem not_fails_noteUnknownFields (raw : HostDict) (known : List String) :
    ¬Fails Escaped (noteUnknownFields layer server raw known) := by
  apply not_fails_bind (not_fails_noted _)
  intro changes
  exact not_fails_ok _

theorem fails_raising_mapM {items : List HostValue} :
    Fails Escaped (raising (items.mapM layer.text)) ↔ TextDefect layer items := by
  rw [fails_raising, mapM_error_iff]
  exact Iff.rfl

theorem raising_eq_ok {α : Type} {x : Except PyErr α} {a : α} : raising x = .ok a ↔ x = .ok a := by
  cases x <;> simp [raising]

theorem fails_sortedTexts {value : HostValue} : Fails Escaped (sortedTexts layer value) ↔ SequenceDefect layer value := by
  unfold sortedTexts SequenceDefect
  rw [fails_bind, fails_iterate]
  apply or_congr_right
  apply exists_congr
  intro items
  rw [raising_eq_ok, fails_bind_last fun texts => not_fails_ok _, fails_raising_mapM]

theorem fails_redactFrom {items : List HostValue} : ∀ {previousSecretFlag : Bool} {index : Nat},
    Fails Escaped (redactFrom layer server previousSecretFlag index items) ↔
      RedactDefect layer server previousSecretFlag index items := by
  induction items with
  | nil =>
    intro previousSecretFlag index
    exact iff_of_false (not_fails_ok _) id
  | cons raw rest ih =>
    intro previousSecretFlag index
    rw [redactFrom, RedactDefect, fails_bind, fails_raising]
    apply or_congr_right
    apply exists_congr
    intro text
    rw [raising_eq_ok]
    apply and_congr_right
    intro _
    refine fails_bind_pass (not_fails_noted _) fun change => ?_
    exact (fails_bind_last fun result => not_fails_ok _).trans ih

theorem fails_inspectStdio {command : Str} {args cwd : HostValue} :
    Fails Escaped (inspectStdio layer server command args cwd) ↔ ArgsDefect layer server args := by
  unfold inspectStdio ArgsDefect
  rw [fails_bind, fails_iterate]
  apply or_congr_right
  apply exists_congr
  intro items
  rw [raising_eq_ok]
  apply and_congr_right
  intro _
  refine (fails_bind_last fun redacted => ?_).trans fails_redactFrom
  apply not_fails_bind (not_fails_validated _)
  intro transport
  apply not_fails_bind (not_fails_noted _)
  intro changes
  exact not_fails_ok _

/-! ### Codex -/

theorem fails_codexEnvHeader {item : Str × HostValue} :
    Fails Escaped (codexEnvHeader layer server item) ↔ ∃ e, layer.text item.2 = .error e := by
  unfold codexEnvHeader
  refine (fails_bind_last fun key => ?_).trans fails_raising
  apply not_fails_bind (not_fails_validated _)
  intro source
  apply not_fails_bind (not_fails_validated _)
  intro binding
  apply not_fails_bind (not_fails_noted _)
  intro changes
  exact not_fails_ok _

theorem not_fails_map {α β : Type} {x : InspectM α} (hx : ¬Fails Escaped x) (f : α → β) : ¬Fails Escaped (x.map f) := by
  cases x with
  | ok a => exact not_fails_ok (f a)
  | error e => exact fun h => hx (fails_error.mpr (fails_error.mp h))

theorem not_fails_codexLiteralHeader (hasToken : Bool) (item : Str × HostValue) :
    ¬Fails Escaped (codexLiteralHeader layer server hasToken item) := by
  unfold codexLiteralHeader
  split_ifs
  · exact not_fails_ok _
  · apply not_fails_map
    apply not_fails_bind (not_fails_sourceOf _ _ _)
    intro source
    apply not_fails_bind (not_fails_validated _)
    intro binding
    exact not_fails_ok _

theorem fails_codexHttp {url : Str} {envHeaders literalHeaders token : HostValue} :
    Fails Escaped (codexHttp layer server url envHeaders literalHeaders token) ↔
      HeaderDefect layer server envHeaders := by
  unfold codexHttp HeaderDefect
  cases envHeaders.table with
  | none => simp [not_fails_inputError]
  | some envTable =>
    refine (fails_bind_last fun references => ?_).trans ?_
    · cases literalHeaders.table with
      | none => exact not_fails_inputError _
      | some literalTable =>
        apply not_fails_bind (not_fails_mapM (not_fails_codexLiteralHeader _) _)
        intro literals
        apply not_fails_bind (not_fails_validated _)
        intro transport
        apply not_fails_bind (not_fails_noted _)
        intro changes
        exact not_fails_ok _
    · rw [fails_mapM]
      simp only [fails_codexEnvHeader, Option.some.injEq, exists_eq_left']

theorem not_fails_referenceBinding (bindings : Bindings) (name : Str) :
    ¬Fails Escaped (referenceBinding layer bindings name) := by
  apply not_fails_bind (not_fails_validated _)
  intro source
  apply not_fails_bind (not_fails_validated _)
  intro binding
  exact not_fails_ok _

theorem fails_codexEnvVar {bindings : Bindings} {item : HostValue} :
    Fails Escaped (codexEnvVar layer bindings item) ↔
      (envVarName item).truthy = true ∧ ∃ e, layer.text (envVarName item) = .error e := by
  unfold codexEnvVar
  split_ifs with h
  · rw [and_iff_right h]
    exact (fails_bind_last fun name => not_fails_referenceBinding _ _).trans fails_raising
  · exact iff_of_false (not_fails_ok _) fun hdefect => h hdefect.1

theorem not_fails_codexEnvName (state : Changes × Bindings) (name : Str) :
    ¬Fails Escaped (codexEnvName layer server state name) := by
  apply not_fails_bind (not_fails_referenceBinding _ _)
  intro bindings
  apply not_fails_bind (not_fails_noted _)
  intro changes
  exact not_fails_ok _

theorem fails_codexEnvironment {envVars : HostValue} {names : Option (List Str)} :
    Fails Escaped (codexEnvironment layer server envVars names) ↔ EnvVarsDefect layer envVars := by
  unfold codexEnvironment EnvVarsDefect
  cases arrayOf envVars with
  | none => simp [not_fails_inputError]
  | some items =>
    refine (fails_bind_last fun referenced => ?_).trans ?_
    · cases names with
      | none => exact not_fails_inputError _
      | some names =>
        apply not_fails_bind (not_fails_foldlM not_fails_codexEnvName _ _)
        intro state
        apply not_fails_bind (not_fails_noted _)
        intro kept
        exact not_fails_ok _
    · rw [fails_foldlM]
      simp only [fails_codexEnvVar, Option.some.injEq, exists_eq_left']

theorem iterate_of_falsy {v : HostValue} (h : v.truthy = false) : v.iterate = .ok [] := by
  unfold HostValue.iterate
  rw [if_neg (by rw [h]; decide)]

/-- A value with a defect is not skipped by `value or []`. -/
theorem truthy_of_sequenceDefect {v : HostValue} (h : SequenceDefect layer v) : v.truthy = true := by
  cases htruthy : v.truthy with
  | true => rfl
  | false =>
    obtain hiterable | ⟨items, hitems, item, hitem, -⟩ := h
    · have hfails := fails_iterate.mpr hiterable
      rw [iterate_of_falsy htruthy] at hfails
      exact absurd hfails (not_fails_ok _)
    · rw [iterate_of_falsy htruthy] at hitems
      cases hitems
      cases hitem

theorem fails_codexTransport {raw : HostDict} :
    Fails Escaped (codexTransport layer server raw) ↔ TransportDefect layer server raw := by
  unfold codexTransport TransportDefect
  cases HostDict.get raw "command" with
  | str command =>
    cases HostDict.get raw "url" with
    | str url => simp [HostValue.isStr, not_fails_inputError]
    | _ => simp [HostValue.isStr, fails_inspectStdio]
  | _ =>
    cases HostDict.get raw "url" with
    | str url => simp [HostValue.isStr, fails_codexHttp]
    | _ => simp [HostValue.isStr, not_fails_inputError]

theorem fails_codexAuth {token auth scopes : HostValue} :
    Fails Escaped (codexAuth layer server token auth scopes) ↔ AuthDefect layer token scopes := by
  have hrest : ∀ required, ¬Fails Escaped (do
      let auth ← validated (layer.authRequirement required)
      let changes ← noted layer [note server "auth" .preserved "OAuth requirement inspected."]
      .ok (changes, auth)) := by
    intro required
    apply not_fails_bind (not_fails_validated _)
    intro auth
    apply not_fails_bind (not_fails_noted _)
    intro changes
    exact not_fails_ok _
  cases hstr : token.isStr with
  | true =>
    cases token with
    | str name =>
      constructor
      · intro h
        refine absurd h (not_fails_bind (not_fails_validated _) fun source => ?_)
        apply not_fails_bind (not_fails_validated _)
        intro auth
        apply not_fails_bind (not_fails_noted _)
        intro changes
        exact not_fails_ok _
      · intro h
        cases h.1
    | _ => cases hstr
  | false =>
    have hunfold : codexAuth layer server token auth scopes =
        codexAuth layer server .null auth scopes := by
      cases token with
      | str name => cases hstr
      | _ => rfl
    rw [hunfold, AuthDefect, hstr, eq_self, true_and]
    unfold codexAuth
    dsimp only
    split_ifs with hoauth hchat
    · rw [fails_bind_last fun texts => hrest _, fails_sortedTexts]
    · constructor
      · intro h
        refine absurd h (not_fails_bind (not_fails_validated _) fun auth => ?_)
        apply not_fails_bind (not_fails_noted _)
        intro changes
        exact not_fails_ok _
      · intro h
        exact absurd (.inr (truthy_of_sequenceDefect h)) hoauth
    · constructor
      · intro h
        exact absurd h (not_fails_ok _)
      · intro h
        exact absurd (.inr (truthy_of_sequenceDefect h)) hoauth

theorem fails_codexStartup {seconds millis tool required : HostValue} :
    Fails Escaped (codexStartup layer server seconds millis tool required) ↔ StartupDefect layer seconds millis := by
  unfold codexStartup StartupDefect
  split_ifs with h
  · rw [Bool.and_eq_true, Bool.not_eq_true'] at h
    rw [fails_bind_last, fails_raising, and_iff_right h.1, and_iff_right h.2]
    intro value
    apply not_fails_bind (not_fails_noted _)
    intro changes
    apply not_fails_bind (not_fails_validated _)
    intro startup
    exact not_fails_ok _
  · constructor
    · intro hfails
      refine absurd hfails (not_fails_bind (not_fails_validated _) fun startup => ?_)
      exact not_fails_ok _
    · rintro ⟨hseconds, hmillis, -⟩
      rw [hseconds, hmillis] at h
      exact absurd rfl h

theorem fails_codexServer {raw : HostDict} :
    Fails Escaped (codexServer layer server raw) ↔ CodexDefect layer server raw := by
  unfold codexServer CodexDefect
  refine (fails_bind_iff fun transport => ?_).trans (or_congr_left fails_codexTransport)
  refine (fails_bind_iff fun environment => ?_).trans (or_congr_left fails_codexEnvironment)
  refine (fails_bind_iff fun auth => ?_).trans (or_congr_left fails_codexAuth)
  refine fails_bind_pass (not_fails_noted _) fun enabled => ?_
  refine (fails_bind_iff fun startup => ?_).trans (or_congr_left fails_codexStartup)
  refine fails_bind_pass (not_fails_noteUnknownFields _ _) fun unknown => ?_
  refine (fails_bind_iff fun allow => ?_).trans (or_congr_left fails_sortedTexts)
  refine (fails_bind_last fun deny => ?_).trans fails_sortedTexts
  apply not_fails_bind (not_fails_validated _)
  intro tools
  apply not_fails_bind (not_fails_validated _)
  intro intent
  exact not_fails_ok _

/-! ### The JSON hosts -/

variable {profile : JsonHostProfile}

theorem not_fails_jsonHeaderItem (item : Str × HostValue) : ¬Fails Escaped (jsonHeaderItem layer server item) := by
  unfold jsonHeaderItem
  cases headerReference item with
  | inl key =>
    apply not_fails_bind (not_fails_validated _)
    intro source
    apply not_fails_bind (not_fails_validated _)
    intro auth
    apply not_fails_bind (not_fails_noted _)
    intro changes
    exact not_fails_ok _
  | inr reference =>
    apply not_fails_bind (not_fails_sourceOf _ _ _)
    intro source
    apply not_fails_bind (not_fails_validated _)
    intro binding
    exact not_fails_ok _

theorem not_fails_jsonRemote (kind url : Str) (headers : HostValue) :
    ¬Fails Escaped (jsonRemote layer profile server kind url headers) := by
  unfold jsonRemote
  cases headers.table with
  | none => exact not_fails_inputError _
  | some table =>
    apply not_fails_bind (not_fails_mapM not_fails_jsonHeaderItem _)
    intro turns
    apply not_fails_bind (not_fails_noted _)
    intro changes
    apply not_fails_bind (not_fails_validated _)
    intro transport
    exact not_fails_ok _

theorem not_fails_jsonEnvItem (item : Str × HostValue) : ¬Fails Escaped (jsonEnvItem layer server item) := by
  apply not_fails_bind (not_fails_sourceOf _ _ _)
  intro source
  apply not_fails_bind (not_fails_validated _)
  intro binding
  exact not_fails_ok _

theorem not_fails_jsonEnvironment (env : HostValue) :
    ¬Fails Escaped (jsonEnvironment layer profile server env) := by
  unfold jsonEnvironment
  cases env.table with
  | none => exact not_fails_inputError _
  | some table =>
    apply not_fails_bind (not_fails_mapM not_fails_jsonEnvItem _)
    intro items
    exact not_fails_ok _

theorem fails_oauthScopes {scopes : HostValue} :
    Fails Escaped (raising (oauthScopes layer scopes)) ↔ ∃ items, scopes = .arr items ∧ TextDefect layer items := by
  cases scopes with
  | arr items =>
    rw [oauthScopes, fails_raising_mapM]
    simp
  | _ => simp [oauthScopes, raising, not_fails_ok]

theorem fails_jsonAuth {oauth : HostValue} {auth : AuthRequirement} :
    Fails Escaped (jsonAuth layer server oauth auth) ↔ OauthDefect layer oauth := by
  cases oauth with
  | obj fields =>
    refine (fails_bind_last fun scopes => ?_).trans ?_
    · apply not_fails_bind (not_fails_validated _)
      intro auth
      apply not_fails_bind (not_fails_noted _)
      intro changes
      exact not_fails_ok _
    · rw [fails_oauthScopes, OauthDefect]
      simp
  | _ => simp [jsonAuth, OauthDefect, not_fails_ok]

theorem fails_jsonStdio {raw : HostDict} :
    Fails Escaped (jsonStdio layer profile server raw) ↔
      (HostDict.get raw "command").isStr = true ∧ ArgsDefect layer server (HostDict.get raw "args") := by
  unfold jsonStdio
  cases HostDict.get raw "command" with
  | str command =>
    refine (fails_bind_last fun result => ?_).trans ?_
    · exact not_fails_ok _
    · rw [fails_inspectStdio]
      exact (and_iff_right rfl).symm
  | _ => simp [HostValue.isStr, not_fails_inputError]

theorem fails_jsonTransport {raw : HostDict} :
    Fails Escaped (jsonTransport layer profile server raw) ↔ JsonTransportDefect layer server raw := by
  unfold jsonTransport JsonTransportDefect ReadsStdio
  cases HostDict.get raw "type" with
  | null =>
    cases hurl : HostDict.lookup raw "url" with
    | some url => simp [HostValue.isNull, HostValue.unhashable, not_fails_inputError]
    | none =>
      rw [if_neg (by simp)]
      refine (fails_bind_pass (P := (HostDict.get raw "command").isStr = true ∧
        ArgsDefect layer server (HostDict.get raw "args")) (not_fails_noted _) fun front => ?_).trans ?_
      · refine (fails_bind_last fun result => ?_).trans fails_jsonStdio
        exact not_fails_ok _
      · simp [HostValue.isNull, HostValue.unhashable, defaultedType]
  | str kind =>
    dsimp only
    split_ifs with hstdio hremote
    · rw [fails_jsonStdio]
      simp [HostValue.isNull, HostValue.unhashable, hstdio]
    · cases HostDict.get raw "url" with
      | str url => simp [HostValue.isNull, HostValue.unhashable, hstdio, not_fails_jsonRemote]
      | _ => simp [HostValue.isNull, HostValue.unhashable, hstdio, not_fails_inputError]
    · simp [HostValue.isNull, HostValue.unhashable, hstdio, not_fails_inputError]
  | arr items => simp [HostValue.unhashable, fails_error, Escaped]
  | obj fields => simp [HostValue.unhashable, fails_error, Escaped]
  | _ => simp [HostValue.isNull, HostValue.unhashable, not_fails_inputError]

theorem fails_jsonTimeout {timeout : HostValue} :
    Fails Escaped (raising (jsonTimeout layer timeout)) ↔ TimeoutDefect timeout := by
  rw [fails_raising]
  unfold jsonTimeout TimeoutDefect
  cases timeout with
  | int n =>
    cases hn : floatOfInt n with
    | ok x => simp [pyFloat, hn, Except.map]
    | error e => simp [pyFloat, hn, Except.map]
  | _ => simp [pyFloat, Except.map]

/-- Whether the `oauth` step passes does not depend on what the headers gave. -/
theorem passes_jsonAuth {oauth : HostValue} (auth : AuthRequirement) :
    Passes (jsonAuth layer server oauth auth) ↔ Passes (jsonAuth layer server oauth {}) := by
  cases oauth with
  | obj fields => exact Iff.rfl
  | _ => exact ⟨fun _ => ⟨_, rfl⟩, fun _ => ⟨_, rfl⟩⟩

theorem fails_jsonServer {raw : HostDict} :
    Fails Escaped (jsonServer layer profile server raw) ↔ JsonDefect layer profile server raw := by
  unfold jsonServer JsonDefect
  refine (fails_bind_iff fun transport => ?_).trans (or_congr_left fails_jsonTransport)
  refine fails_bind_pass (not_fails_jsonEnvironment _) fun environment => ?_
  rw [← passes_jsonAuth transport.2.2]
  refine (fails_bind_iff fun auth => ?_).trans (or_congr_left fails_jsonAuth)
  refine (fails_bind_last fun toolTimeout => ?_).trans fails_jsonTimeout
  apply not_fails_bind (not_fails_validated _)
  intro startup
  apply not_fails_bind (not_fails_noted _)
  intro timeoutChanges
  apply not_fails_bind (not_fails_noted _)
  intro enabledChanges
  apply not_fails_bind (not_fails_noteUnknownFields _ _)
  intro unknown
  apply not_fails_bind (not_fails_validated _)
  intro intent
  exact not_fails_ok _

end Steps

/-! ## Documents -/

section Documents

variable {layer : Layer}

/-- The first server that does not pass fails for a value that an unguarded conversion meets. -/
def ServersDefect {α : Type} (entry : Str × HostValue → InspectM α) (defect : Str → HostDict → Prop)
    (servers : HostDict) : Prop :=
  ∃ front name raw rest, HostDict.sortedItems servers = front ++ (name, .obj raw) :: rest ∧
    (∀ item ∈ front, Passes (entry item)) ∧ defect name raw

def CodexRootDefect (layer : Layer) (root : HostDict) : Prop :=
  ∃ servers, HostDict.get root "mcp_servers" = .obj servers ∧
    ServersDefect (codexEntry layer) (CodexDefect layer) servers

def JsonRootDefect (layer : Layer) (profile : JsonHostProfile) (root : HostDict) : Prop :=
  ∃ servers, HostDict.get root profile.serverKey = .obj servers ∧ Passes (topChanges layer profile root) ∧
    ServersDefect (jsonEntry layer profile) (JsonDefect layer profile) servers

def RootDefect (layer : Layer) : Host → HostDict → Prop
  | .codex, root => CodexRootDefect layer root
  | .claudeCode, root => JsonRootDefect layer claudeCode root
  | .claudeDesktop, root => JsonRootDefect layer claudeDesktop root
  | .vscode, root => JsonRootDefect layer vscode root

/-- The parser raises something else than its decode errors. -/
def ParserDefect (parsers : Parsers) : Host → Str → Prop
  | .codex, document => ∃ e, parsers.toml document = .error (.other e)
  | _, document => ∃ e, parsers.json document = .error (.parse (.other e))

/-- What makes an inspection raise outside the portability errors. -/
def DocumentDefect (layer : Layer) (parsers : Parsers) (host : Host) (document : Str) : Prop :=
  ParserDefect parsers host document ∨
    ∃ root, parseDocument layer parsers host document = .ok root ∧ RootDefect layer host root

theorem not_fails_inspectResult (host : Host) (formatVersion : Str) (front : Changes)
    (inspected : List (Changes × (Str × ServerIntent))) :
    ¬Fails Escaped (inspectResult layer host formatVersion front inspected) := by
  apply not_fails_bind (not_fails_validated _)
  intro intent
  exact not_fails_ok _

theorem fails_servers {α : Type} {entry : Str × HostValue → InspectM α} {defect : Str → HostDict → Prop}
    (hobj : ∀ name raw, Fails Escaped (entry (name, .obj raw)) ↔ defect name raw)
    (hother : ∀ item, Fails Escaped (entry item) → ∃ raw, item.2 = .obj raw) {servers : HostDict} :
    Fails Escaped ((HostDict.sortedItems servers).mapM entry) ↔ ServersDefect entry defect servers := by
  rw [fails_mapM]
  constructor
  · rintro ⟨front, item, rest, hitems, hfront, hitem⟩
    obtain ⟨raw, hraw⟩ := hother item hitem
    obtain ⟨name, value⟩ := item
    dsimp only at hraw
    subst hraw
    exact ⟨front, name, raw, rest, hitems, hfront, (hobj name raw).mp hitem⟩
  · rintro ⟨front, name, raw, rest, hitems, hfront, hdefect⟩
    exact ⟨front, _, rest, hitems, hfront, (hobj name raw).mpr hdefect⟩

theorem fails_codexEntry (item : Str × HostValue) (h : Fails Escaped (codexEntry layer item)) :
    ∃ raw, item.2 = .obj raw := by
  obtain ⟨name, value⟩ := item
  cases value with
  | obj raw => exact ⟨raw, rfl⟩
  | _ => exact absurd h (not_fails_inputError _)

theorem fails_jsonEntry {profile : JsonHostProfile} (item : Str × HostValue)
    (h : Fails Escaped (jsonEntry layer profile item)) : ∃ raw, item.2 = .obj raw := by
  obtain ⟨name, value⟩ := item
  cases value with
  | obj raw => exact ⟨raw, rfl⟩
  | _ => exact absurd h (not_fails_inputError _)

theorem fails_inspectCodex {root : HostDict} : Fails Escaped (inspectCodex layer root) ↔ CodexRootDefect layer root := by
  unfold inspectCodex CodexRootDefect
  cases HostDict.get root "mcp_servers" with
  | obj servers =>
    refine (fails_bind_last fun inspected => not_fails_inspectResult _ _ _ _).trans ?_
    rw [fails_servers (fun _ _ => fails_codexServer) fails_codexEntry]
    constructor
    · intro h
      exact ⟨servers, rfl, h⟩
    · rintro ⟨servers', hservers, h⟩
      cases hservers
      exact h
  | _ => simp [not_fails_inputError]

theorem fails_inspectJson {profile : JsonHostProfile} {root : HostDict} :
    Fails Escaped (inspectJson layer profile root) ↔ JsonRootDefect layer profile root := by
  unfold inspectJson JsonRootDefect
  cases HostDict.get root profile.serverKey with
  | obj servers =>
    have hloop : ∀ front, Fails Escaped ((HostDict.sortedItems servers).mapM (jsonEntry layer profile) >>=
        inspectResult layer profile.host profile.formatVersion front) ↔
          ServersDefect (jsonEntry layer profile) (JsonDefect layer profile) servers := by
      intro front
      rw [fails_bind_last fun inspected => not_fails_inspectResult _ _ _ _]
      exact fails_servers (fun _ _ => fails_jsonServer) fails_jsonEntry
    refine (fails_bind_pass (not_fails_noted _) hloop).trans ?_
    constructor
    · rintro ⟨hfront, h⟩
      exact ⟨servers, rfl, hfront, h⟩
    · rintro ⟨servers', hservers, hfront, h⟩
      cases hservers
      exact ⟨hfront, h⟩
  | _ => simp [not_fails_inputError]

theorem fails_inspectRoot {host : Host} {root : HostDict} :
    Fails Escaped (inspectRoot layer host root) ↔ RootDefect layer host root := by
  cases host with
  | codex => exact fails_inspectCodex
  | claudeCode => exact fails_inspectJson
  | claudeDesktop => exact fails_inspectJson
  | vscode => exact fails_inspectJson

theorem fails_loadToml {parsers : Parsers} {document : Str} :
    Fails Escaped (loadToml layer parsers document) ↔ ∃ e, parsers.toml document = .error (.other e) := by
  unfold loadToml
  cases parsers.toml document with
  | ok root => simp [not_fails_ok]
  | error failure => cases failure <;> simp [not_fails_inputError, fails_error, Escaped]

theorem fails_loadJson {parsers : Parsers} {document : Str} :
    Fails Escaped (loadJson layer parsers document) ↔ ∃ e, parsers.json document = .error (.parse (.other e)) := by
  unfold loadJson
  cases parsers.json document with
  | ok value => cases value <;> simp [not_fails_ok, not_fails_inputError]
  | error failure =>
    cases failure with
    | duplicateKey => simp [not_fails_inputError]
    | parse failure => cases failure <;> simp [not_fails_inputError, fails_error, Escaped]

theorem fails_parseDocument {parsers : Parsers} {host : Host} {document : Str} :
    Fails Escaped (parseDocument layer parsers host document) ↔ ParserDefect parsers host document := by
  cases host with
  | codex => exact fails_loadToml
  | claudeCode => exact fails_loadJson
  | claudeDesktop => exact fails_loadJson
  | vscode => exact fails_loadJson

/-- Turning validation errors into portability errors adds and removes no escape. -/
theorem fails_publicError {host : Host} {x : InspectM InspectResult} :
    Fails Escaped (x.mapError (publicError layer host)) ↔ Fails Escaped x := by
  cases x with
  | ok result => simp [Except.mapError, not_fails_ok]
  | error e => cases e <;> simp [Except.mapError, fails_error, Escaped, publicError]

/-- An inspection returns or raises a portability error exactly where the reader meets no defect. -/
theorem inspectHost_closed_iff (layer : Layer) (parsers : Parsers) (document : Str) (host : Host) :
    (∀ e, inspectHost layer parsers document host ≠ .error (.escaped e)) ↔
      ¬DocumentDefect layer parsers host document := by
  have hfails : Fails Escaped (inspectHost layer parsers document host) ↔
      DocumentDefect layer parsers host document := by
    unfold inspectHost DocumentDefect
    rw [fails_publicError, fails_bind, fails_parseDocument]
    simp only [fails_inspectRoot]
  rw [← hfails]
  constructor
  · rintro h ⟨raised, hraised, e, rfl⟩
    exact h e hraised
  · intro h e he
    exact h ⟨.escaped e, he, e, rfl⟩

end Documents

/-! ## An argument list that is a number -/

def numberArgsRoot : HostDict :=
  [(u "mcp_servers", .obj [(u "demo", .obj [(u "command", .str (u "demo")), (u "args", .int 5)])])]

/-- `[mcp_servers.demo]` with `command = "demo"` and `args = 5`. -/
def numberArgsDocument : Str := u "[mcp_servers.demo]\ncommand = \"demo\"\nargs = 5\n"

def numberArgsParsers : Parsers where
  toml := fun document => if document = numberArgsDocument then .ok numberArgsRoot else .error (.decode [])
  json := fun _ => .error (.parse (.decode []))

theorem inspectHost_numberArgs : ¬∀ (layer : Layer) (parsers : Parsers) (document : Str) (host : Host) (e : PyErr),
    inspectHost layer parsers document host ≠ .error (.escaped e) := by
  intro h
  exact h sampleLayer numberArgsParsers numberArgsDocument .codex .typeError rfl

end McpTrust.Portability
